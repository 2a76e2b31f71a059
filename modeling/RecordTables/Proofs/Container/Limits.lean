import RecordTables.Proofs.Container.Lookup
import RecordTables.Proofs.Container.Nesting
import RecordTables.Proofs.Number.Numeral

/-!
# The limits of containers

A container writes the size of a row, the number of rows of a table, the length of a vector and the
number of a text with four bytes, and what has more is cut off without a word.  So a container that
was baked opens if and only if the sizes and the numbers of its rows have four bytes
(`Container.exists_ofPacked_bake_iff`), and a vector is read if and only if the number of its elements
has (`Container.exists_vector_iff`).

That this may be met by records of which there are few, with few vectors and few texts, is shown by
a shelf with one label over and over (`Registration.crowdedShelf`) and by a ledger with many columns
(`Registration.ledgerRegistry`).  Where the numbers of texts run out, a record is read under the
identifier of another (`Registration.shelves`).  Each is a family: the last of its lemmas is about all
of its members that are beyond a limit.
-/

namespace RecordTables

open Schema

namespace Container

variable {r : Registry} {c : Catalog} {k : Container} {o : OpenContainer}

/-! ### What opens and what is read -/

/-- **A baked container opens** if and only if the sizes and the numbers of its rows have four
bytes. -/
theorem exists_ofPacked_bake_iff (hr : r.IsLaidOut) (h : bake r c = .ok k) (packing : Packing) :
    (∃ o, OpenContainer.ofPacked packing r (packing.pack k) = .ok o) ↔
      r.WidthsFit ∧ k.RowsFit := by
  constructor
  · rintro ⟨o, ho⟩
    rw [OpenContainer.ofPacked_pack] at ho
    obtain ⟨rfl, hchecked⟩ := OpenContainer.ofContainer_eq_ok ho
    obtain ⟨⟨recordRows, p⟩, hlaid, -⟩ := bind_eq_ok.1 h
    obtain rfl := Except.ok.inj (h.symm.trans (bake_of_laidDown hlaid))
    -- each table of the layout is in the container, and was checked against it
    have hsizes : ∀ layout ∈ r.layout.tables,
        let t := tableOfLayout c recordRows p layout
        layout.rowSize = t.rowSize.toNat ∧ t.bytes.length = t.rowSize.toNat * t.rowCount.toNat := by
      intro layout hlayout
      have hcheck := hchecked _ (List.mem_map_of_mem hlayout)
      unfold Table.check at hcheck
      rw [name_tableOfLayout, hr.layout.table? hlayout] at hcheck
      dsimp only at hcheck
      split_ifs at hcheck with hsame
      exact hsame
    constructor
    · intro layout hlayout
      rw [(hsizes layout hlayout).1]
      exact UInt32.toNat_lt _
    · intro t ht
      obtain ⟨layout, hlayout, rfl⟩ := List.mem_map.1 ht
      rw [(hsizes layout hlayout).2]
      apply Nat.mul_le_mul_left
      have := (tableOfLayout c recordRows p layout).rowCount.toNat_lt
      omega
  · rintro ⟨hwidths, hrows⟩
    exact ⟨_, OpenContainer.ofPacked_bake packing hr hwidths h hrows⟩

theorem Element.width_pos (element : Element) : 0 < element.width := by
  cases element with
  | scalar kind => cases kind <;> decide
  | index => decide

/-- A vector with more elements than four bytes can count is not read. -/
theorem vector_of_overlong {i : UInt32} {v : Vector} (hi : i ≠ nullIndex)
    (hv : o.container.vectors[i.toNat]? = some v)
    (hlong : 2 ^ 32 * v.element.width ≤ v.bytes.length) :
    o.vector i v.element = .error (.corrupt (.vectorElement i)) := by
  unfold OpenContainer.vector
  rw [if_neg hi, hv]
  dsimp only
  rw [if_neg]
  rintro ⟨-, hlength⟩
  have := Nat.mul_lt_mul_of_pos_right v.length.toNat_lt v.element.width_pos
  omega

/-- **A vector is read** if and only if the number of its elements has four bytes. -/
theorem exists_vector_iff {i : UInt32} {v : Vector} (hi : i ≠ nullIndex)
    (hv : o.container.vectors[i.toNat]? = some v) (hmeasured : v.IsMeasured) :
    (∃ elements, o.vector i v.element = .ok elements) ↔
      v.bytes.length < 2 ^ 32 * v.element.width := by
  constructor
  · rintro ⟨elements, helements⟩
    by_contra hlong
    rw [vector_of_overlong hi hv (Nat.le_of_not_lt hlong)] at helements
    cases helements
  · intro hshort
    unfold OpenContainer.vector
    rw [if_neg hi, hv]
    exact ⟨_, if_pos ⟨rfl, hmeasured.length_bytes hshort⟩⟩

/-! ### Running steps of baking -/

section Run

variable {α β : Type} {p q t : Pools}

theorem run_bind_of_ok {b : Baking α} {next : α → Baking β} {x : α} (h : b.run p = .ok (x, q)) :
    (b >>= next).run p = (next x).run q := by
  rw [StateT.run_bind, h, ok_bind]

theorem run_mapM_cons {f : α → Baking β} {x : α} {xs : List α} {y : β} {ys : List β}
    (hx : (f x).run p = .ok (y, q)) (hxs : (xs.mapM f).run q = .ok (ys, t)) :
    ((x :: xs).mapM f).run p = .ok (y :: ys, t) := by
  rw [List.mapM_cons, run_bind_of_ok hx, run_bind_of_ok hxs]
  rfl

/-- Steps that lay nothing down. -/
theorem run_mapM_of_forall {f : α → Baking β} {g : α → β} {xs : List α}
    (h : ∀ x ∈ xs, (f x).run p = .ok (g x, p)) : (xs.mapM f).run p = .ok (xs.map g, p) := by
  induction xs with
  | nil => rfl
  | cons x xs ih =>
    exact run_mapM_cons (h x List.mem_cons_self) (ih fun y hy => h y (List.mem_cons_of_mem _ hy))

theorem intern_of_notMem {s : String} (h : s ∉ p.strings) :
    p.intern s = (UInt32.ofNat p.strings.length, { p with strings := p.strings ++ [s] }) := by
  have hnew : p.strings.findIdx? (· == s) = none := by
    apply List.findIdx?_eq_none_iff.2
    intro t ht
    apply beq_eq_false_iff_ne.2
    rintro rfl
    exact h ht
  unfold Pools.intern
  rw [hnew]

/-- New texts are put behind those that are there. -/
theorem exists_run_stageText (place : Place) (p : Pools) (texts : List String)
    (hnodup : (p.strings ++ texts).Nodup) :
    ∃ is, is.length = texts.length ∧ ((texts.map Value.text).mapM (stageText place)).run p =
      .ok (is, { p with strings := p.strings ++ texts }) := by
  induction texts generalizing p with
  | nil =>
    refine ⟨[], rfl, ?_⟩
    rw [List.append_nil]
    rfl
  | cons s texts ih =>
    have hnew : s ∉ p.strings := fun hs =>
      (List.nodup_append.1 hnodup).2.2 s hs s List.mem_cons_self rfl
    have hfirst : (stageText place (.text s)).run p = .ok (p.intern s) := rfl
    rw [intern_of_notMem hnew] at hfirst
    rw [List.append_cons] at hnodup
    obtain ⟨is, hlength, hrun⟩ := ih { p with strings := p.strings ++ [s] } hnodup
    refine ⟨.ofNat p.strings.length :: is, congrArg Nat.succ hlength, ?_⟩
    rw [List.append_cons p.strings]
    exact run_mapM_cons hfirst hrun

theorem addIndices_of_ne_nil {is : List UInt32} (h : is ≠ []) (p : Pools) :
    p.addIndices is = (UInt32.ofNat p.vectors.length, { p with
      vectors := p.vectors ++ [⟨.index, UInt32.ofNat is.length, is.flatMap indexBytes⟩] }) := by
  unfold Pools.addIndices Pools.addVector
  rw [List.isEmpty_eq_false_iff.2 h]
  rfl

end Run

section Keeps

open Baking

variable {I : Pools → Prop} {layout : TableLayout}

/-- What staging keeps is kept when a row is baked. -/
theorem bakeRow_keeps {src : BakeSource} {plan : TablePlan}
    {embed : String → List (String × Value) → Baking UInt32} {valueOf : String → Option Value}
    (h : ∀ q ∈ plan.properties, ∀ v,
      (valueOf q.property.name).or (src.registry.default? q.property) = some v →
        Ensures I (stage src embed ⟨plan.table, q.property.name⟩ q v) fun _ => True) :
    Ensures I (bakeRow src embed plan layout valueOf) fun _ => True := by
  unfold bakeRow
  refine (ensures_mapM_forall (R := fun _ => True) fun q hq => ?_).bind fun _ _ => fillRow_keeps
  dsimp only
  split
  · next v hv => exact h q hq v hv
  · exact ensures_fail _ _

end Keeps

/-! ### Distinct texts -/

/-- The first numerals. -/
def numerals (n : Nat) : List String := (List.range n).map toString

@[simp] theorem length_numerals (n : Nat) : (numerals n).length = n := by
  unfold numerals
  rw [List.length_map, List.length_range]

theorem nodup_numerals (n : Nat) : (numerals n).Nodup :=
  List.nodup_range.map fun _ _ h => Nat.repr_inj.1 h

/-- A numeral has digits only. -/
theorem notMem_numerals {n : Nat} {s : String} (h : s.toList.any (!·.isDigit) = true) :
    s ∉ numerals n := by
  intro hs
  obtain ⟨m, -, rfl⟩ := List.mem_map.1 hs
  obtain ⟨ch, hch, hother⟩ := List.any_eq_true.1 h
  rw [toList_natText] at hch
  rw [Nat.isDigit_of_mem_toDigits (by decide) (by decide) hch] at hother
  cases hother

end Container

namespace Registration

open Container

/-! ### Shelves -/

/-- Shelves with labels. -/
def shelfTypes : Registration :=
  Registration.empty.addType ⟨"Shelf", .record, [], [⟨"Labels", "string", true⟩]⟩

/-- How shelves are stored. -/
def shelfPlan : TablePlan :=
  tablePlan shelfTypes.declarations ⟨"Shelf", .record,
    [⟨"Identifier", "string", false⟩, ⟨"Labels", "string", true⟩],
    [⟨"Identifier", .identifier⟩, ⟨"Labels", .list .string⟩]⟩

/-- The registry of the shelves. -/
def shelfRegistry : Registry where
  options := .standard
  declarations := shelfTypes.declarations
  types := [⟨"Shelf", .record,
    [⟨"Identifier", "string", false⟩, ⟨"Labels", "string", true⟩],
    [⟨"Identifier", .identifier⟩, ⟨"Labels", .list .string⟩]⟩]
  tables := [shelfPlan]
  layout := ⟨[shelfPlan.layout]⟩
  fingerprint := ⟨721219714153809828⟩

/-- A shelf. -/
def shelf (guid identifier : String) (labels : List String) : Record :=
  ⟨⟨guid⟩, identifier, "", none, .ofList [("Labels", .list (labels.map .text))]⟩

set_option maxRecDepth 20000 in
theorem build_shelfTypes : shelfTypes.build .standard = .ok shelfRegistry := by cbv

theorem isRegistered_shelfTypes : shelfTypes.IsRegistered := .addType _ .empty

/-- The row of a shelf holds the numbers of its identifier and of the vector of its labels. -/
theorem run_bakeRecord_shelf {guid identifier : String} {labels : List String} {c : Catalog}
    {p p' : Pools} {is : List UInt32}
    (hlabels : ((labels.map Value.text).mapM (stageText ⟨"Shelf", "Labels"⟩)).run
      (p.intern identifier).2 = .ok (is, p')) :
    (bakeRecord (.ofCatalog shelfRegistry c) shelfPlan shelfPlan.layout
        (shelf guid identifier labels)).run p =
      .ok (indexBytes (p.intern identifier).1 ++ indexBytes (p'.addIndices is).1,
        (p'.addIndices is).2) := by
  have hlist : (do
      let indices ← (labels.map Value.text).mapM (stageText ⟨"Shelf", "Labels"⟩)
      Staged.index <$> modifyGet (·.addIndices indices) : Baking Staged).run
        (p.intern identifier).2 = .ok (.index (p'.addIndices is).1, (p'.addIndices is).2) := by
    rw [run_bind_of_ok hlabels]
    rfl
  have hproperties : shelfPlan.properties =
      [.ofProperty shelfTypes.declarations "Shelf" ⟨"Identifier", .identifier⟩,
        .ofProperty shelfTypes.declarations "Shelf" ⟨"Labels", .list .string⟩] := rfl
  unfold bakeRecord bakeRow
  rw [hproperties, run_bind_of_ok (q := (p'.addIndices is).2)
    (x := [.index (p.intern identifier).1, .index (p'.addIndices is).1])]
  · rfl
  · exact run_mapM_cons (q := (p.intern identifier).2) rfl (run_mapM_cons hlist rfl)

theorem laidDown_of_shelves {c : Catalog} {rows : List (List UInt8)} {p : Pools}
    (hrows : ((rowOrder c "Shelf").mapM
      (bakeRecord (.ofCatalog shelfRegistry c) shelfPlan shelfPlan.layout)).run .empty =
        .ok (rows, p)) : laidDown shelfRegistry c = .ok ([("Shelf", rows)], p) := by
  have htable : tableOf shelfRegistry "Shelf" = .ok (shelfPlan, shelfPlan.layout) := rfl
  refine run_mapM_cons (q := p) ?_ rfl
  show (bakeRecords (.ofCatalog shelfRegistry c) c "Shelf").run .empty = _
  unfold bakeRecords
  show StateT.run (liftM (tableOf shelfRegistry "Shelf") >>= _) _ = _
  rw [htable, run_bind_of_ok (q := .empty) (x := (shelfPlan, shelfPlan.layout)) rfl]
  exact run_bind_of_ok hrows

/-! ### Too many labels -/

/-- A shelf with the same label over and over. -/
def crowdedShelf (n : Nat) : Catalog :=
  .ofList [("Shelf", .ofList "Shelf" [shelf "g1" "A" (List.replicate n "A")])]

/-- The container of the shelf: one text, one vector and one row. -/
def crowdedContainer (n : Nat) : Container :=
  ofLaidDown shelfRegistry (crowdedShelf n) [("Shelf", [indexBytes 0 ++ indexBytes 0])]
    ⟨["A"], [⟨.index, UInt32.ofNat n, (List.replicate n 0).flatMap indexBytes⟩], .empty⟩

section Crowded

variable {n : Nat}

theorem wellTyped_crowdedShelf (n : Nat) : (crowdedShelf n).WellTyped shelfRegistry := by
  intro t ht record hrecord p hp v hv
  obtain rfl := List.mem_singleton.1 ht
  obtain rfl := List.mem_singleton.1 hrecord
  obtain rfl := List.mem_singleton.1 hp
  obtain rfl := Option.some.inj hv
  apply Value.WellTyped.list
  intro item hitem
  obtain ⟨s, -, rfl⟩ := List.mem_map.1 hitem
  exact .string s

theorem laidDown_crowdedShelf (hn : n ≠ 0) :
    laidDown shelfRegistry (crowdedShelf n) = .ok ([("Shelf", [indexBytes 0 ++ indexBytes 0])],
      ⟨["A"], [⟨.index, UInt32.ofNat n, (List.replicate n 0).flatMap indexBytes⟩], .empty⟩) := by
  have horder : rowOrder (crowdedShelf n) "Shelf" = [shelf "g1" "A" (List.replicate n "A")] :=
    List.perm_singleton.1 (rowOrder_perm (crowdedShelf n) "Shelf")
  -- every label is the text that has been laid down for the identifier
  have hlabels : (((List.replicate n "A").map Value.text).mapM
      (stageText ⟨"Shelf", "Labels"⟩)).run ⟨["A"], [], .empty⟩ =
        .ok (List.replicate n 0, ⟨["A"], [], .empty⟩) := by
    have hsame : ∀ v ∈ List.replicate n (Value.text "A"),
        (stageText ⟨"Shelf", "Labels"⟩ v).run ⟨["A"], [], .empty⟩ =
          .ok (0, ⟨["A"], [], .empty⟩) := by
      intro v hv
      rw [List.eq_of_mem_replicate hv]
      rfl
    have hrun := run_mapM_of_forall (g := fun _ => 0) hsame
    rw [List.map_replicate] at hrun ⊢
    exact hrun
  apply laidDown_of_shelves
  rw [horder]
  refine run_mapM_cons ((run_bakeRecord_shelf hlabels).trans ?_) rfl
  rw [addIndices_of_ne_nil (by simp [hn]), List.length_replicate]
  rfl

theorem isNumbered_crowdedShelf : IsNumbered [("Shelf", [indexBytes 0 ++ indexBytes 0])]
    ⟨["A"], [⟨.index, UInt32.ofNat n, (List.replicate n 0).flatMap indexBytes⟩], .empty⟩ where
  strings := by show 1 < 2 ^ 32 - 1; omega
  vectors := by show 1 < 2 ^ 32 - 1; omega
  records := by
    refine List.forall_mem_singleton.2 ?_
    show 1 < 2 ^ 32 - 1
    omega
  structs := fun _ he => nomatch he

/-- **Too long a list is lost**: its vector has other bytes than its length tells, and is not read. -/
theorem crowdedShelf_overlong (hn : 2 ^ 32 ≤ n) :
    (∃ v ∈ (crowdedContainer n).vectors, v.bytes.length ≠ v.length.toNat * v.element.width) ∧
      OpenContainer.get ⟨shelfRegistry, crowdedContainer n, .empty⟩ "Shelf" 0 "Labels" =
        .error (.corrupt (.vectorElement 0)) := by
  have hlength : ((List.replicate n 0).flatMap indexBytes).length = n * indexWidth := by
    rw [List.flatMap_def, List.length_flatten, List.map_map, List.map_replicate,
      List.sum_replicate, Function.comp_apply, length_indexBytes, smul_eq_mul]
  have hlong : 2 ^ 32 * indexWidth ≤ ((List.replicate n 0).flatMap indexBytes).length := by
    rw [hlength]
    exact Nat.mul_le_mul_right _ hn
  -- the bytes are all there, but their number does not fit the word that counts them
  constructor
  · refine ⟨_, List.mem_cons_self, ?_⟩
    show ((List.replicate n 0).flatMap indexBytes).length ≠ (UInt32.ofNat n).toNat * indexWidth
    have := Nat.mul_lt_mul_of_pos_right (UInt32.ofNat n).toNat_lt (show 0 < indexWidth by decide)
    omega
  -- what is read is the first element of a vector that is not as long as it says
  · generalize ho : (⟨shelfRegistry, crowdedContainer n, .empty⟩ : OpenContainer) = o
    have hunread : o.vector 0 .index = .error (.corrupt (.vectorElement 0)) := by
      subst ho
      exact vector_of_overlong (v := ⟨.index, UInt32.ofNat n, _⟩) (show (0 : UInt32) ≠ _ by decide)
        rfl hlong
    have hread : o.get "Shelf" 0 "Labels" = .list <$>
        ((o.vector 0 .index).map (·.map OpenContainer.indexOf) >>= fun is =>
          is.mapM fun i => (o.string i).map .text) := by
      subst ho
      rfl
    rw [hread, hunread]
    rfl

end Crowded

/-! ### Too many texts -/

/-- A shelf with labels, and one without. -/
def shelves (labels : List String) : Catalog :=
  .ofList [("Shelf", .ofList "Shelf" [shelf "g1" "A" labels, shelf "g2" "B" []])]

section Shelves

variable {labels : List String}

theorem rowOrder_shelves (labels : List String) :
    rowOrder (shelves labels) "Shelf" = [shelf "g1" "A" labels, shelf "g2" "B" []] := by
  have hperm : (rowOrder (shelves labels) "Shelf").Perm [shelf "g1" "A" labels, shelf "g2" "B" []] :=
    rowOrder_perm (shelves labels) "Shelf"
  have hsorted : [shelf "g1" "A" labels, shelf "g2" "B" []].Pairwise
      fun a b => a.identifier ≤ b.identifier := by
    apply List.pairwise_pair.2
    show "A" ≤ "B"
    decide
  refine hperm.eq_of_pairwise (fun a b ha hb hab hba => ?_) (sorted_rowOrder _ _) hsorted
  have hidentifier : a.identifier = b.identifier := String.le_antisymm hab hba
  have hnodup : ([shelf "g1" "A" labels, shelf "g2" "B" []].map (·.identifier)).Nodup := by
    show ["A", "B"].Nodup
    decide
  exact List.inj_on_of_nodup_map hnodup (hperm.mem_iff.1 ha) hb hidentifier

/-- What is laid down for the shelves if the second identifier is the first text without a number:
it gets the number of the first identifier again. -/
theorem exists_laidDown_shelves (hnodup : ("A" :: "B" :: labels).Nodup)
    (hlength : labels.length = 2 ^ 32 - 1) :
    ∃ vectors, laidDown shelfRegistry (shelves labels) =
      .ok ([("Shelf", [indexBytes 0 ++ indexBytes 0, indexBytes 0 ++ indexBytes nullIndex])],
        ⟨("A" :: labels) ++ ["B"], vectors, .empty⟩) := by
  obtain ⟨hA, hB, hlabels⟩ : "A" ∉ labels ∧ "B" ∉ labels ∧ labels.Nodup := by
    simp only [List.nodup_cons, List.mem_cons, not_or] at hnodup
    exact ⟨hnodup.1.2, hnodup.2⟩
  obtain ⟨is, hcount, hrun⟩ := exists_run_stageText ⟨"Shelf", "Labels"⟩ ⟨["A"], [], .empty⟩ labels
    (List.nodup_cons.2 ⟨hA, hlabels⟩)
  have hsome : is ≠ [] := by
    rintro rfl
    have : (0 : Nat) = labels.length := hcount
    omega
  -- the last text is numbered like the first
  have hwrapped (vectors : List Vector) : Pools.intern ⟨"A" :: labels, vectors, .empty⟩ "B" =
      (0, ⟨("A" :: labels) ++ ["B"], vectors, .empty⟩) := by
    rw [intern_of_notMem]
    · show (UInt32.ofNat (labels.length + 1), _) = _
      rw [hlength]
      rfl
    · show "B" ∉ "A" :: labels
      simp [hB]
  have hsecond (vectors : List Vector) :
      (bakeRecord (.ofCatalog shelfRegistry (shelves labels)) shelfPlan shelfPlan.layout
        (shelf "g2" "B" [])).run ⟨"A" :: labels, vectors, .empty⟩ =
          .ok (indexBytes 0 ++ indexBytes nullIndex, ⟨("A" :: labels) ++ ["B"], vectors, .empty⟩) := by
    refine Eq.trans (run_bakeRecord_shelf rfl) ?_
    rw [hwrapped]
    rfl
  refine ⟨_, laidDown_of_shelves (p := ⟨("A" :: labels) ++ ["B"], [⟨.index, UInt32.ofNat is.length,
    is.flatMap indexBytes⟩], .empty⟩) ?_⟩
  rw [rowOrder_shelves]
  refine run_mapM_cons ((run_bakeRecord_shelf hrun).trans ?_) (run_mapM_cons (hsecond _) rfl)
  rw [addIndices_of_ne_nil hsome]
  rfl

/-- **A record is missed** if its identifier has the number of another. -/
theorem lookup_shelves {k : Container} (hnodup : ("A" :: "B" :: labels).Nodup)
    (hlength : labels.length = 2 ^ 32 - 1) (hbake : bake shelfRegistry (shelves labels) = .ok k) :
    OpenContainer.lookup ⟨shelfRegistry, k, .empty⟩ "Shelf" "B" = .ok none := by
  obtain ⟨vectors, hlaid⟩ := exists_laidDown_shelves hnodup hlength
  obtain rfl := Except.ok.inj (hbake.symm.trans (bake_of_laidDown hlaid))
  generalize ho : (⟨shelfRegistry, ofLaidDown shelfRegistry (shelves labels) _ _, .empty⟩ :
    OpenContainer) = o
  -- both rows read as the first identifier
  obtain ⟨view, hview, hcount, hbaked⟩ : ∃ view, o.view "Shelf" = .ok view ∧
      view.table.rowCount.toNat = 2 ∧ ∀ i (h : i < ["A", "A"].length),
        o.baked view (UInt32.ofNat i) o.registry.identifierProperty = .ok (.text ["A", "A"][i]) := by
    subst ho
    refine ⟨_, rfl, rfl, fun i h => ?_⟩
    match i with
    | 0 => rfl
    | 1 => rfl
  unfold OpenContainer.lookup OpenContainer.find
  rw [hview, ok_bind, hcount]
  obtain ⟨i, hi, hname, -⟩ | ⟨-, hnone⟩ :=
    OpenContainer.findBetween_spec (s := "B") (by decide) hbaked (encloses_all _ "B")
  · have hmem : "B" ∈ ["A", "A"] := hname ▸ List.getElem_mem hi
    exact absurd hmem (by decide)
  · exact hnone

end Shelves

/-! ### Too wide rows -/

/-- An account with a sum for each column. -/
def ledgerType (columns : List String) : TypeDeclaration :=
  ⟨"Account", .record, [], columns.map fun name => ⟨name, "int", false⟩⟩

/-- Accounts with a sum for each column. -/
def ledgerTypes (columns : List String) : Registration :=
  Registration.empty.addType (ledgerType columns)

/-- The registry of the accounts. -/
def ledgerRegistry (columns : List String) : Registry :=
  let declarations := (ledgerTypes columns).declarations
  let properties := ⟨"Identifier", "string", false⟩ :: (ledgerType columns).properties
  let account : ResolvedType := ⟨"Account", .record, properties,
    ⟨"Identifier", .identifier⟩ :: columns.map fun name => ⟨name, .single (.scalar .i32)⟩⟩
  let plan := tablePlan declarations account
  { options := .standard
    declarations
    types := [account]
    tables := [plan]
    layout := ⟨[plan.layout]⟩
    fingerprint := .ofStream (Stream.schema [(ledgerType columns, properties)] []) }

/-- An account without a sum. -/
def account : Record := ⟨⟨"g1"⟩, "A", "", none, .empty⟩

/-- The account in its ledger. -/
def ledger : Catalog := .ofList [("Account", .ofList "Account" [account])]

section Ledger

variable {columns : List String}

theorem isRegistered_ledgerTypes (columns : List String) : (ledgerTypes columns).IsRegistered :=
  .addType _ .empty

theorem declarations_ledgerTypes (columns : List String) :
    (ledgerTypes columns).declarations = ⟨[ledgerType columns], []⟩ := rfl

theorem names_ledger (columns : List String) :
    (⟨"Identifier", "string", false⟩ :: (ledgerType columns).properties).map (·.name) =
      "Identifier" :: columns := by
  show _ :: (columns.map _).map _ = _
  rw [List.map_map]
  exact congrArg _ (List.map_id'' (fun _ => rfl) _)

theorem effectiveProperties_ledger (hnew : "Identifier" ∉ columns) :
    effectiveProperties ⟨[ledgerType columns], []⟩ .standard (ledgerType columns) =
      .ok (⟨"Identifier", "string", false⟩ :: (ledgerType columns).properties) := by
  have hrecord : ¬(ledgerType columns).kind ≠ .record := not_not_intro rfl
  have hnone : (ledgerType columns).properties.find? (fun p => p.name == "Identifier") = none := by
    rw [List.find?_eq_none]
    intro p hp hname
    obtain ⟨name, hmem, rfl⟩ := List.mem_map.1 hp
    exact hnew (beq_iff_eq.1 hname ▸ hmem)
  unfold effectiveProperties
  rw [show (ledgerType columns).parents = [] from rfl, collectAncestors]
  show withIdentifier .standard _ ([] ++ (ledgerType columns).properties) = _
  unfold withIdentifier
  rw [if_neg hrecord, List.nil_append]
  simp only [Options.standard, hnone]

theorem inherit_ledger (hnodup : ("Identifier" :: columns).Nodup) :
    inherit ⟨[ledgerType columns], []⟩ .standard =
      .ok [(ledgerType columns, ⟨"Identifier", "string", false⟩ ::
        (ledgerType columns).properties)] := by
  have heffective := effectiveProperties_ledger (List.nodup_cons.1 hnodup).1
  have hrepeated : repeatedNames "Account" []
      (⟨"Identifier", "string", false⟩ :: (ledgerType columns).properties) = [] :=
    repeatedNames_eq_nil (names_ledger columns ▸ hnodup) (fun _ h => nomatch h)
  have hfaults : closureFaults [] (ledgerType columns) (effectiveProperties
      ⟨[ledgerType columns], []⟩ .standard (ledgerType columns)) = [] := by
    rw [heffective]
    exact hrepeated
  unfold inherit closures
  dsimp only
  rw [List.foldl_cons, hfaults, List.foldl_nil, List.mapM_cons, heffective]
  rfl

theorem resolve_column (name : String) :
    resolve ⟨[ledgerType columns], []⟩ .standard (ledgerType columns) ⟨name, "int", false⟩ =
      .ok ⟨name, .single (.scalar .i32)⟩ := by
  refine resolve_eq_ok_iff.2 ⟨rfl, Or.inr ⟨?_, _, rfl, rfl⟩⟩
  rintro ⟨-, -, htag, -⟩
  exact absurd htag (show "int" ≠ "string" by decide)

theorem resolveAll_ledger (columns : List String) :
    resolveAll ⟨[ledgerType columns], []⟩ .standard [(ledgerType columns,
        ⟨"Identifier", "string", false⟩ :: (ledgerType columns).properties)] =
      .ok (ledgerRegistry columns).types := by
  have hfaults : resolutionFaults ⟨[ledgerType columns], []⟩ .standard (ledgerType columns,
      ⟨"Identifier", "string", false⟩ :: (ledgerType columns).properties) = [] := by
    apply List.filterMap_eq_nil_iff.2
    intro p hp
    rcases List.mem_cons.1 hp with rfl | hp
    · rfl
    · obtain ⟨name, -, rfl⟩ := List.mem_map.1 hp
      rw [resolve_column]
  have hresolved : (ledgerType columns).properties.filterMap (fun p =>
      (resolve ⟨[ledgerType columns], []⟩ .standard (ledgerType columns) p).toOption) =
      columns.map fun name => ⟨name, .single (.scalar .i32)⟩ := by
    show (columns.map _).filterMap _ = _
    rw [List.filterMap_map, ← List.filterMap_eq_map]
    apply List.filterMap_congr
    intro name _
    rw [Function.comp_apply, resolve_column]
    rfl
  unfold resolveAll
  rw [List.flatMap_singleton, hfaults]
  dsimp only
  rw [List.map_singleton, List.filterMap_cons, hresolved]
  rfl

/-- The layout of the accounts. -/
theorem tables_ledger (columns : List String) :
    (ledgerRegistry columns).layout.tables = [⟨"Account", true,
      ⟨"Account", "Identifier", .string, false⟩ ::
        columns.map fun name => ⟨"Account", name, .scalar .i32, false⟩⟩] := by
  show [(⟨"Account", true, _ :: (List.map _ (columns.map _)).flatMap _⟩ : TableLayout)] = _
  rw [List.map_map, List.flatMap_map]
  exact congrArg (fun fields => [(⟨"Account", true, _ :: fields⟩ : TableLayout)])
    List.map_eq_flatMap.symm

theorem layOut_ledger (hnodup : ("Identifier" :: columns).Nodup) :
    layOut (ledgerRegistry columns).tables = .ok (ledgerRegistry columns).layout := by
  have hfields : Layout.fieldsOf ((ledgerRegistry columns).tables.flatMap layoutSteps) =
      ⟨"Account", "Identifier", .string, false⟩ ::
        columns.map fun name => ⟨"Account", name, .scalar .i32, false⟩ := by
    show Layout.fieldsOf (List.flatMap layoutSteps [_]) = _
    rw [List.flatMap_singleton, fieldsOf_layoutSteps]
    exact congrArg TableLayout.fields (List.singleton_inj.1 (tables_ledger columns))
  have hkeys : ((Layout.fieldsOf ((ledgerRegistry columns).tables.flatMap layoutSteps)).map
      fun f => (f.table, f.name)).Nodup := by
    rw [hfields, List.map_cons, List.map_map]
    exact hnodup.map (f := Prod.mk "Account") fun _ _ h => (Prod.mk.inj h).2
  have hlaid := layOut_of_assemble (Layout.assemble_ok_of_nodup hkeys)
  have htables := tables_layOut hlaid (List.nodup_singleton _) fun plan hplan q hq f hf => by
    obtain rfl := List.mem_singleton.1 hplan
    obtain ⟨p, -, rfl⟩ := List.mem_map.1 hq
    exact PropertyPlan.table_of_mem_fields hf
  rw [hlaid]
  exact congrArg (fun tables => Except.ok (Layout.mk tables)) htables

/-- **Any columns make a ledger**, as long as they are told apart by their names. -/
theorem build_ledgerTypes (hnodup : ("Identifier" :: columns).Nodup) :
    (ledgerTypes columns).build .standard = .ok (ledgerRegistry columns) := by
  have hembedding : checkEmbedding ⟨[ledgerType columns], []⟩ .standard = .ok () := by
    have hgraph : containment ⟨[ledgerType columns], []⟩ .standard = .ok [] := rfl
    unfold checkEmbedding
    rw [hgraph]
    simp [followContainment, Except.map]
  unfold build
  rw [if_neg (by exact not_not_intro rfl)]
  dsimp only
  rw [declarations_ledgerTypes, inherit_ledger hnodup, ok_bind, hembedding]
  show (resolveAll _ _ _ >>= _) = _
  rw [resolveAll_ledger, ok_bind]
  show (layOut (ledgerRegistry columns).tables >>= _) = _
  rw [layOut_ledger hnodup]
  rfl

theorem rowSize_ledger (columns : List String) :
    ∀ layout ∈ (ledgerRegistry columns).layout.tables,
      layout.rowSize = indexWidth + 4 * columns.length := by
  rw [tables_ledger]
  refine List.forall_mem_singleton.2 ?_
  show indexWidth + TableLayout.totalWidth (columns.map _) = _
  congr 1
  induction columns with
  | nil => rfl
  | cons name columns ih =>
    show 4 + TableLayout.totalWidth (columns.map _) = _
    rw [ih, List.length_cons]
    omega

theorem wellTyped_ledger (columns : List String) : ledger.WellTyped (ledgerRegistry columns) := by
  intro t ht record hrecord p hp v hv
  obtain rfl := List.mem_singleton.1 ht
  obtain rfl : record = account := List.mem_singleton.1 hrecord
  cases hv

/-- Nothing was laid down, or the identifier of the account. -/
def HoldsAccount (p : Pools) : Prop := p = .empty ∨ p = ⟨["A"], [], .empty⟩

open Baking in
/-- Staging a property of the account lays down its identifier at most. -/
theorem stage_account_keeps {src : BakeSource} (hsrc : src.registry = ledgerRegistry columns)
    {embed : String → List (String × Value) → Baking UInt32} {place : Place} {q : PropertyPlan}
    (hq : ∀ plan ∈ (ledgerRegistry columns).tables, q ∈ plan.properties) {v : Value}
    (hv : ((if q.property.name = src.registry.identifierProperty
        then some (.text account.identifier) else account.values.find? q.property.name).or
      (src.registry.default? q.property)) = some v) :
    Ensures HoldsAccount (stage src embed place q v) fun _ => True := by
  obtain ⟨p, hp, rfl⟩ := List.mem_map.1 (hq _ List.mem_cons_self)
  rw [PropertyPlan.property_ofProperty, hsrc] at hv
  rcases List.mem_cons.1 hp with rfl | hp
  · obtain rfl : Value.text "A" = v := Option.some.inj hv
    refine Ensures.map (ensures_modifyGet (f := fun p => p.intern "A") fun p hp => ⟨?_, trivial⟩)
      fun _ h => h
    rcases hp with rfl | rfl
    · exact Or.inr rfl
    · exact Or.inr rfl
  · obtain ⟨name, -, rfl⟩ := List.mem_map.1 hp
    exact Ensures.map (stageScalars_ensures .i32 _) fun _ _ => trivial

open Baking in
theorem laidDown_ledger_keeps (columns : List String) :
    Ensures HoldsAccount ((ledgerRegistry columns).recordTypes.mapM fun t =>
      bakeRecords (.ofCatalog (ledgerRegistry columns) ledger) ledger t.name) fun _ => True := by
  refine (ensures_mapM_forall (R := fun _ => True) fun t ht => ?_).mono fun _ _ => trivial
  obtain rfl := List.mem_singleton.1 ht
  unfold bakeRecords
  refine Ensures.bind (ensures_of_except fun x hx => hx) fun x hx => ?_
  obtain ⟨plan, layout⟩ := x
  have hplan := List.mem_singleton.1 (tableOf_eq_ok hx).1
  refine (ensures_mapM_forall (R := fun _ => True) fun record hrecord => ?_).bind
    fun _ _ => ensures_pure trivial
  obtain rfl : record = account := List.mem_singleton.1
    ((rowOrder_perm ledger "Account").mem_iff.1 hrecord)
  refine bakeRow_keeps fun q hq v hv => stage_account_keeps rfl (fun plan' hplan' => ?_) hv
  rw [List.mem_singleton.1 hplan', ← hplan]
  exact hq

/-- **The account is baked**, with one text and one row, which has the size of its table. -/
theorem exists_bake_ledger (hnodup : ("Identifier" :: columns).Nodup) :
    ∃ recordRows p, laidDown (ledgerRegistry columns) ledger = .ok (recordRows, p) ∧
      IsNumbered recordRows p ∧
      ∃ t ∈ (ofLaidDown (ledgerRegistry columns) ledger recordRows p).tables, t.rowCount = 1 ∧
        t.bytes.length = indexWidth + 4 * columns.length := by
  have hr := isSound_of_build (isRegistered_ledgerTypes columns) (build_ledgerTypes hnodup)
  obtain ⟨recordRows, p, hlaid, -, hrows, -⟩ :=
    lays_mapM (fun t ht => lays_bakeRecords hr (wellTyped_ledger columns) ht) .empty
  have hpools : HoldsAccount p := (laidDown_ledger_keeps columns _ _ _ hlaid (Or.inl rfl)).1
  have hfit : p.Fit := by
    rcases hpools with rfl | rfl <;> decide
  -- there is one type, and one record of it
  obtain ⟨baked, rest, hbaked, hrest, rfl⟩ := List.forall₂_cons_left_iff.1 hrows
  obtain rfl := List.forall₂_nil_left_iff.1 hrest
  have hone : baked.2.length = 1 := by
    rw [hbaked.length, (rowOrder_perm ledger _).length_eq]
    rfl
  refine ⟨_, p, hlaid, ⟨hfit.strings, hfit.vectors, ?_, hfit.rows⟩, ?_⟩
  · refine List.forall_mem_singleton.2 ?_
    rw [hone]
    decide
  · have hlayout : (ledgerRegistry columns).layout.tables = [_] := tables_ledger columns
    have hmem := hlayout ▸ List.mem_singleton_self _
    refine ⟨_, List.mem_map_of_mem hmem, ?_, ?_⟩
    all_goals rw [tableOfLayout_of_record hr hrows List.mem_cons_self rfl]
    · show UInt32.ofNat baked.2.length = 1
      rw [hone]
      rfl
    · show baked.2.flatten.length = _
      rw [length_flatten_of_forall (hbaked.sizes _ (hr.laidOut.layout.table? hmem)), hone,
        Nat.mul_one, rowSize_ledger columns _ hmem]

/-- **Too wide rows are lost**: their table has other bytes than its numbers tell, and no container
with it opens. -/
theorem ledger_too_wide (hnodup : ("Identifier" :: columns).Nodup) (hwide : 2 ^ 30 ≤ columns.length) :
    ∃ k recordRows p, laidDown (ledgerRegistry columns) ledger = .ok (recordRows, p) ∧
      IsNumbered recordRows p ∧ bake (ledgerRegistry columns) ledger = .ok k ∧
      (∃ t ∈ k.tables, t.bytes.length ≠ t.rowSize.toNat * t.rowCount.toNat) ∧
      ∀ (packing : Packing) o,
        OpenContainer.ofPacked packing (ledgerRegistry columns) (packing.pack k) ≠ .ok o := by
  obtain ⟨recordRows, p, hlaid, hnumbered, t, ht, hcount, hbytes⟩ := exists_bake_ledger hnodup
  refine ⟨_, recordRows, p, hlaid, hnumbered, bake_of_laidDown hlaid, ⟨t, ht, ?_⟩, ?_⟩
  · have hone : t.rowCount.toNat = 1 := by
      rw [hcount]
      rfl
    rw [hbytes, hone, Nat.mul_one]
    have := t.rowSize.toNat_lt
    omega
  · intro packing o ho
    have hr := isSound_of_build (isRegistered_ledgerTypes columns) (build_ledgerTypes hnodup)
    obtain ⟨hwidths, -⟩ :=
      (exists_ofPacked_bake_iff hr.laidOut (bake_of_laidDown hlaid) packing).1 ⟨o, ho⟩
    have hlayout : (ledgerRegistry columns).layout.tables = [_] := tables_ledger columns
    have hmem := hlayout ▸ List.mem_singleton_self _
    have hfour := hwidths _ hmem
    rw [rowSize_ledger columns _ hmem] at hfour
    omega

end Ledger

/-! ### References to records of other types -/

/-- Keys, and the doors that they open. -/
def keyTypes : Registration :=
  (Registration.empty.addType ⟨"Door", .record, [], []⟩).addType
    ⟨"Key", .record, [], [⟨"Opens", "Door", false⟩]⟩

/-- The registry of the keys. -/
def keyRegistry : Registry := ((keyTypes.build .standard).toOption).getD default

/-- A key that is said to open itself. -/
def strayKey : Record := ⟨⟨"g1"⟩, "K", "", none, .ofList [("Opens", .ref (some ⟨"g1"⟩))]⟩

/-- One key, and no door. -/
def keys : Catalog := .ofList [("Key", .ofList "Key" [strayKey])]

theorem build_keyTypes : keyTypes.build .standard = .ok keyRegistry := by cbv

/-! ### What is not kept -/

/-- **Beyond the limits records are not read back**, however few texts, vectors and rows there are: a
list of `2 ^ 32` labels is refused by the reader, and accounts of `2 ^ 30` columns cannot be opened
again.  A reference to a record that is not of the type of its property is not baked at all. -/
theorem bake_keeps_limits :
    (shelfTypes.IsRegistered ∧ shelfTypes.build .standard = .ok shelfRegistry ∧
      (crowdedShelf (2 ^ 32)).WellTyped shelfRegistry ∧
      ∃ recordRows p, laidDown shelfRegistry (crowdedShelf (2 ^ 32)) = .ok (recordRows, p) ∧
        IsNumbered recordRows p ∧
        bake shelfRegistry (crowdedShelf (2 ^ 32)) = .ok (crowdedContainer (2 ^ 32)) ∧
        OpenContainer.get ⟨shelfRegistry, crowdedContainer (2 ^ 32), .empty⟩ "Shelf" 0 "Labels" =
          .error (.corrupt (.vectorElement 0))) ∧
    ((ledgerTypes (numerals (2 ^ 30))).IsRegistered ∧
      (ledgerTypes (numerals (2 ^ 30))).build .standard = .ok (ledgerRegistry (numerals (2 ^ 30))) ∧
      ledger.WellTyped (ledgerRegistry (numerals (2 ^ 30))) ∧
      ∃ k recordRows p,
        laidDown (ledgerRegistry (numerals (2 ^ 30))) ledger = .ok (recordRows, p) ∧
        IsNumbered recordRows p ∧ bake (ledgerRegistry (numerals (2 ^ 30))) ledger = .ok k ∧
        ∀ (packing : Packing) o, OpenContainer.ofPacked packing
          (ledgerRegistry (numerals (2 ^ 30))) (packing.pack k) ≠ .ok o) ∧
    (keyTypes.IsRegistered ∧ keyTypes.build .standard = .ok keyRegistry ∧
      strayKey ∈ (keys.setOf "Key").records ∧
      strayKey.values.find? "Opens" = some (.ref (some strayKey.guid)) ∧
      bake keyRegistry keys = .error (.dangling "Key" "Opens" "Door" strayKey.guid)) := by
  have hnodup : ("Identifier" :: numerals (2 ^ 30)).Nodup :=
    List.nodup_cons.2 ⟨notMem_numerals (by decide), nodup_numerals _⟩
  refine ⟨⟨isRegistered_shelfTypes, build_shelfTypes, wellTyped_crowdedShelf _, _, _,
    laidDown_crowdedShelf (by omega), isNumbered_crowdedShelf,
    bake_of_laidDown (laidDown_crowdedShelf (by omega)), (crowdedShelf_overlong (le_refl _)).2⟩,
    ⟨isRegistered_ledgerTypes _, build_ledgerTypes hnodup, wellTyped_ledger _, ?_⟩,
    .addType _ (.addType _ .empty), build_keyTypes, List.mem_singleton_self _, rfl, by cbv⟩
  -- a ledger with that many columns has rows too wide for the word that says their size
  obtain ⟨k, recordRows, p, hlaid, hnumbered, hbake, -, hclosed⟩ :=
    ledger_too_wide hnodup (le_of_eq (length_numerals _).symm)
  exact ⟨k, recordRows, p, hlaid, hnumbered, hbake, hclosed⟩

/-- **Beyond the limits sizes are not told**, however few texts, vectors and rows there are: a vector
of `2 ^ 32` labels counts none, and a row of `2 ^ 30` columns has four bytes more than `2 ^ 32`, of
which its table counts four. -/
theorem bake_closed_limits :
    (shelfTypes.IsRegistered ∧ shelfTypes.build .standard = .ok shelfRegistry ∧
      ∃ recordRows p, laidDown shelfRegistry (crowdedShelf (2 ^ 32)) = .ok (recordRows, p) ∧
        IsNumbered recordRows p ∧
        bake shelfRegistry (crowdedShelf (2 ^ 32)) = .ok (crowdedContainer (2 ^ 32)) ∧
        ∃ v ∈ (crowdedContainer (2 ^ 32)).vectors,
          v.bytes.length ≠ v.length.toNat * v.element.width) ∧
    ((ledgerTypes (numerals (2 ^ 30))).IsRegistered ∧
      (ledgerTypes (numerals (2 ^ 30))).build .standard = .ok (ledgerRegistry (numerals (2 ^ 30))) ∧
      ∃ k recordRows p,
        laidDown (ledgerRegistry (numerals (2 ^ 30))) ledger = .ok (recordRows, p) ∧
        IsNumbered recordRows p ∧ bake (ledgerRegistry (numerals (2 ^ 30))) ledger = .ok k ∧
        ∃ t ∈ k.tables, t.bytes.length ≠ t.rowSize.toNat * t.rowCount.toNat) := by
  have hnodup : ("Identifier" :: numerals (2 ^ 30)).Nodup :=
    List.nodup_cons.2 ⟨notMem_numerals (by decide), nodup_numerals _⟩
  refine ⟨⟨isRegistered_shelfTypes, build_shelfTypes, _, _,
    laidDown_crowdedShelf (by omega), isNumbered_crowdedShelf,
    bake_of_laidDown (laidDown_crowdedShelf (by omega)), (crowdedShelf_overlong (le_refl _)).1⟩,
    isRegistered_ledgerTypes _, build_ledgerTypes hnodup, ?_⟩
  obtain ⟨k, recordRows, p, hlaid, hnumbered, hbake, htable, -⟩ :=
    ledger_too_wide hnodup (le_of_eq (length_numerals _).symm)
  exact ⟨k, recordRows, p, hlaid, hnumbered, hbake, htable⟩

/-- **Beyond the limits records are not found**: with `2 ^ 32` texts in front of it an identifier has
the number of another.  A registry of the same stream that takes another property for the identifier
finds none of the records by theirs. -/
theorem find_exact_limits :
    (shelfTypes.IsRegistered ∧ shelfTypes.build .standard = .ok shelfRegistry ∧
      shelf "g2" "B" [] ∈ ((shelves (numerals (2 ^ 32 - 1))).setOf "Shelf").records ∧
      ∃ k, bake shelfRegistry (shelves (numerals (2 ^ 32 - 1))) = .ok k ∧
        (∀ packing : Packing, OpenContainer.ofPacked packing shelfRegistry (packing.pack k) =
          .ok ⟨shelfRegistry, k, .empty⟩) ∧
        OpenContainer.lookup ⟨shelfRegistry, k, .empty⟩ "Shelf" "B" = .ok none) ∧
    (keyedItems.build ⟨"Identifier", false⟩ = .ok (keyedRegistry "Identifier") ∧
      keyedItems.build ⟨"Key", false⟩ = .ok (keyedRegistry "Key") ∧
      (keyedCatalog.setOf "Item").records.map (·.identifier) = ["Coin"] ∧
      ∃ k, bake (keyedRegistry "Identifier") keyedCatalog = .ok k ∧
        (∀ packing : Packing, OpenContainer.ofPacked packing (keyedRegistry "Key")
          (packing.pack k) = .ok ⟨keyedRegistry "Key", k, .empty⟩) ∧
        OpenContainer.lookup ⟨keyedRegistry "Key", k, .empty⟩ "Item" "Coin" = .ok none) := by
  constructor
  -- with more texts than numbers the identifier `B` is numbered like `A`
  · have hnodup : ("A" :: "B" :: numerals (2 ^ 32 - 1)).Nodup := by
      refine List.nodup_cons.2 ⟨?_, List.nodup_cons.2 ⟨?_, nodup_numerals _⟩⟩
      · rw [List.mem_cons, not_or]
        exact ⟨by decide, notMem_numerals (by decide)⟩
      · exact notMem_numerals (by decide)
    obtain ⟨vectors, hlaid⟩ := exists_laidDown_shelves hnodup (length_numerals _)
    have hr := isSound_of_build isRegistered_shelfTypes build_shelfTypes
    have hbake := bake_of_laidDown hlaid
    refine ⟨isRegistered_shelfTypes, build_shelfTypes,
      List.mem_cons_of_mem _ (List.mem_singleton_self _), _, hbake, fun packing => ?_,
      lookup_shelves hnodup (length_numerals _) hbake⟩
    refine OpenContainer.ofPacked_bake packing hr.laidOut ?_ hbake ?_
    · unfold Registry.WidthsFit
      decide
    · refine List.forall_mem_singleton.2 ?_
      show 16 ≤ 8 * (2 ^ 32 - 1)
      omega
  -- opened by another identifier property, the identifiers are not looked at
  · refine ⟨by cbv, by cbv, by cbv,
      ((bake (keyedRegistry "Identifier") keyedCatalog).toOption).getD default, by cbv,
      fun packing => ?_, by cbv⟩
    rw [OpenContainer.ofPacked_pack]
    cbv

end Registration

end RecordTables
