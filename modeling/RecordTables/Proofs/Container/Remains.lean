import RecordTables.Proofs.Container.Acceptance

/-!
# What baking leaves behind

Every step of baking adds to the pools whenever it succeeds, whatever the values are, so what its
answer stands for never changes afterwards.  `Baking.Leaves b A B` says that `A` holds of the answer
of the step `b`, and `B` of the answer in all pools that add to those it leaves.

A row that was baked holds what was staged for its properties (`Container.leaves_bakeRow`); in
particular the slot of the identifier of a record holds the number of a text, which is the
identifier (`Container.leaves_bakeRecords`).
-/

namespace RecordTables.Container

open Schema

/-! ### Steps that only add -/

namespace Pools

variable {p : Pools}

theorem grows_addIndices (p : Pools) (indices : List UInt32) :
    p.Grows (p.addIndices indices).2 := by
  unfold addIndices
  split_ifs
  · exact .refl p
  · exact grows_addVector p _ _ _

theorem grows_addScalars (p : Pools) (kind : ScalarKind) (scalars : List Scalar) :
    p.Grows (p.addScalars kind scalars).2 := by
  unfold addScalars
  split_ifs
  · exact .refl p
  · exact grows_addVector p _ _ _

/-- What was laid down before stays. -/
theorem isKept_grows (l : Layout) (p : Pools) : IsKept l p.Grows where
  intern := fun q s hq => hq.trans (q.grows_intern s)
  addIndices := fun q indices hq => hq.trans (q.grows_addIndices indices)
  addScalars := fun q kind scalars hq => hq.trans (q.grows_addScalars kind scalars)
  addRow := fun q t _ row _ hq => hq.trans (q.grows_addRow t.name row)

/-- The number of a text that is laid down is one of the text. -/
theorem getElem?_intern (p : Pools) (s : String) :
    ∃ n, (p.intern s).1 = UInt32.ofNat n ∧ (p.intern s).2.strings[n]? = some s := by
  unfold intern
  split
  · next n hn =>
    obtain ⟨hlt, hsame, -⟩ := List.findIdx?_eq_some_iff_getElem.1 hn
    refine ⟨n, rfl, ?_⟩
    rw [List.getElem?_eq_getElem hlt, beq_iff_eq.1 hsame]
  · exact ⟨_, rfl, List.getElem?_concat_length⟩

end Pools

namespace Baking

variable {α β : Type} {b : Baking α} {A A' : α → Prop} {B B' : Pools → α → Prop} {C : β → Prop}
  {D : Pools → β → Prop}

/-- Whenever the step succeeds, it adds to the pools, `A` holds of its answer, and `B` of its answer
in all pools that add to those it leaves. -/
def Leaves (b : Baking α) (A : α → Prop) (B : Pools → α → Prop) : Prop :=
  ∀ p x p', b.run p = .ok (x, p') → p.Grows p' ∧ A x ∧ ∀ final, p'.Grows final → B final x

theorem leaves_of_ensures (h : ∀ p : Pools, Ensures p.Grows b A) : Leaves b A fun _ _ => True := by
  intro p x p' hrun
  obtain ⟨hgrows, hx⟩ := h p p x p' hrun (.refl p)
  exact ⟨hgrows, hx, fun _ _ => trivial⟩

theorem Leaves.mono (h : Leaves b A B) (hA : ∀ x, A x → A' x)
    (hB : ∀ final x, A x → B final x → B' final x) : Leaves b A' B' := by
  intro p x p' hrun
  obtain ⟨hgrows, hx, hread⟩ := h p x p' hrun
  exact ⟨hgrows, hA x hx, fun final hfinal => hB final x hx (hread final hfinal)⟩

theorem Leaves.and (h : Leaves b A B) (h' : Leaves b A' B') :
    Leaves b (fun x => A x ∧ A' x) fun final x => B final x ∧ B' final x := by
  intro p x p' hrun
  obtain ⟨hgrows, hx, hread⟩ := h p x p' hrun
  obtain ⟨-, hx', hread'⟩ := h' p x p' hrun
  exact ⟨hgrows, ⟨hx, hx'⟩, fun final hfinal => ⟨hread final hfinal, hread' final hfinal⟩⟩

theorem leaves_pure {x : α} (hA : A x) (hB : ∀ final, B final x) : Leaves (pure x) A B := by
  intro p y p' hrun
  cases hrun
  exact ⟨.refl p, hA, fun final _ => hB final⟩

theorem leaves_fail {place : Place} {cause : BakeMismatch} : Leaves (place.fail cause) A B :=
  fun _ _ _ hrun => nomatch hrun

theorem leaves_of_except {e : Except ContainerError α} {x : α} (h : e = .ok x) (hA : A x)
    (hB : ∀ final, B final x) : Leaves (liftM e) A B := by
  rw [h]
  exact leaves_pure hA hB

/-- One step after the other: what the first left is still there. -/
theorem Leaves.bind {next : α → Baking β} (h : Leaves b A B)
    (hnext : ∀ x, A x → Leaves (next x) C fun final y => B final x → D final y) :
    Leaves (b >>= next) C D := by
  intro p y p'' hrun
  rw [StateT.run_bind] at hrun
  obtain ⟨⟨x, p'⟩, hfirst, hrest⟩ := bind_eq_ok.1 hrun
  obtain ⟨hgrows, hx, hread⟩ := h p x p' hfirst
  obtain ⟨hgrows', hy, hread'⟩ := hnext x hx p' y p'' hrest
  refine ⟨hgrows.trans hgrows', hy, fun final hfinal => ?_⟩
  exact hread' final hfinal (hread final (hgrows'.trans hfinal))

/-- Going through a list leaves what each element does. -/
theorem leaves_mapM {f : α → Baking β} {S : α → β → Prop} {T : Pools → α → β → Prop} {xs : List α}
    (h : ∀ x ∈ xs, Leaves (f x) (S x) fun final y => T final x y) :
    Leaves (xs.mapM f) (List.Forall₂ S xs) fun final ys => List.Forall₂ (T final) xs ys := by
  induction xs with
  | nil => exact leaves_pure .nil fun _ => .nil
  | cons x xs ih =>
    rw [List.mapM_cons]
    refine (h x List.mem_cons_self).bind fun y hy => ?_
    refine (ih fun x' hx' => h x' (List.mem_cons_of_mem _ hx')).bind fun ys hys => ?_
    exact leaves_pure (.cons hy hys) fun _ hothers hfirst => .cons hfirst hothers

end Baking

open Baking

/-! ### Rows hold what was staged -/

/-- A row that was filled holds what was staged for each property. -/
theorem leaves_fillRow {layout : TableLayout} {table : String}
    {filled : List (PropertyPlan × Staged)} {row : List UInt8} (hapart : SlotsApart layout filled)
    (hfits : ∀ e ∈ filled, e.2.Fits e.1.fields) (hrow : row.length = layout.rowSize) :
    Leaves (fillRow layout table filled row) (fun row' => row'.length = layout.rowSize ∧
      ∀ view : TableView, view.layout = layout → ∀ e ∈ filled, view.Holds row' e.1.fields e.2)
      fun _ _ => True := by
  intro p row' p' hrun
  -- that the row was filled shows that there were bytes for every slot
  have hfills : ∀ e ∈ filled, e.2.Fills e.1.fields := by
    intro e he
    have hcovers := covers_of_fillRow hrun e he
    rw [hapart.slots e he, List.length_map] at hcovers
    exact (hfits e he).fills hcovers
  obtain ⟨row'', hfilled, hrun', hheld⟩ := @fillRow_run _ _ hapart.nodup table _ hapart.slots
    hapart.fields hapart.names hfills hrow
  obtain ⟨rfl, rfl⟩ := Prod.mk.inj (Except.ok.inj ((hrun' p).symm.trans hrun))
  exact ⟨.refl p, ⟨hfilled.length, hheld⟩, fun _ _ => trivial⟩

section Rows

variable {r : Registry} {c : Catalog} {src : BakeSource} {t : ResolvedType} {layout : TableLayout}
  {embed : String → List (String × Value) → Baking UInt32} {record : Record}

/-- The slots of every property hold something of which `B` holds. -/
def RowKeeps (r : Registry) (t : ResolvedType) (layout : TableLayout)
    (B : Property → Staged → Prop) (row : List UInt8) : Prop :=
  ∀ view : TableView, view.layout = layout → ∀ p ∈ t.properties, ∃ staged,
    view.Holds row (PropertyPlan.ofProperty r.declarations t.name p).fields staged ∧ B p staged

/-- **A row that was baked** has its size and holds what was staged. -/
theorem leaves_bakeRow (hr : r.IsSound) (hsrc : src.registry = r) (ht : t ∈ r.types)
    (hkind : t.kind ≠ .interface)
    (htable : tableOf r t.name = .ok (Registration.tablePlan r.declarations t, layout))
    (hembed : ∀ (p : Pools) table fields, Ensures p.Grows (embed table fields) fun _ => True)
    {valueOf : String → Option Value} {B : Pools → Property → Staged → Prop}
    (hstage : ∀ p ∈ t.properties, ∀ v, (valueOf p.name).or (r.default? p) = some v →
      Leaves (stage src embed ⟨t.name, p.name⟩ (.ofProperty r.declarations t.name p) v)
        (fun _ => True) fun final staged => B final p staged) :
    Leaves (bakeRow src embed (Registration.tablePlan r.declarations t) layout valueOf)
      (fun row => row.length = layout.rowSize)
      fun final row => RowKeeps r t layout (B final) row := by
  unfold bakeRow
  refine Leaves.bind (leaves_mapM (S := fun q staged => staged.Fits q.fields)
    (T := fun final q staged => B final q.property staged) fun q hq => ?_) fun staged hfits => ?_
  · obtain ⟨p, hp, rfl⟩ := List.mem_map.1 hq
    dsimp only
    rw [PropertyPlan.property_ofProperty, hsrc]
    -- a property without a value and a default is refused
    split
    · next v hv =>
      have hfits := leaves_of_ensures fun q : Pools => @stage_fits _ _
        (Pools.isKept_grows r.layout q) src _ (hembed q) r.declarations t.name p ⟨t.name, p.name⟩ v
      exact (hfits.and (hstage p hp v hv)).mono (fun _ h => h.1) fun _ _ _ h => h.2
    · exact leaves_fail
  -- the slots lie apart, so what a property has put into the row stays there
  · have hapart := slotsApart_zip hr ht hkind htable hfits.length_eq
    refine (leaves_fillRow hapart (fun e he => List.forall₂_zip hfits he)
      List.length_replicate).mono (fun _ h => h.1) fun final row h _ hstaged view hview p hp => ?_
    obtain ⟨s, hmem, hs⟩ := exists_mem_zip hstaged (List.mem_map_of_mem hp)
    rw [PropertyPlan.property_ofProperty] at hs
    exact ⟨s, h.2 view hview _ hmem, hs⟩

/-! ### Rows of records -/

/-- What is staged for a property that is the identifier is a number of the text. -/
def StagesIdentifier (identifier : String) (final : Pools) (p : Property) (staged : Staged) :
    Prop :=
  p.shape = .identifier →
    ∃ n, staged = .index (UInt32.ofNat n) ∧ final.strings[n]? = some identifier

theorem leaves_stage_identifier {place : Place} {table name : String} (s : String) :
    Leaves (stage src embed place (.ofProperty r.declarations table ⟨name, .identifier⟩) (.text s))
      (fun _ => True)
      fun final staged => StagesIdentifier s final ⟨name, .identifier⟩ staged := by
  intro p staged p' hrun
  obtain ⟨rfl, rfl⟩ := Prod.mk.inj (Except.ok.inj hrun)
  obtain ⟨n, hn, hs⟩ := p.getElem?_intern s
  refine ⟨p.grows_intern s, trivial, fun final hfinal _ => ⟨n, congrArg Staged.index hn, ?_⟩⟩
  exact getElem?_of_prefix hfinal.strings hs

/-- A row of a record names it. -/
theorem leaves_bakeRecord (hr : r.IsSound) (ht : t ∈ r.recordTypes)
    (htable : tableOf r t.name = .ok (Registration.tablePlan r.declarations t, layout)) :
    Leaves (bakeRecord (.ofCatalog r c) (Registration.tablePlan r.declarations t) layout record)
      (fun row => row.length = layout.rowSize)
      fun final row => RowKeeps r t layout (StagesIdentifier record.identifier final) row := by
  obtain ⟨hmem, hkind⟩ := Registry.mem_recordTypes.1 ht
  have hembed (p : Pools) (table : String) (fields : List (String × Value)) := embedWithin_ensures
    (Pools.isKept_grows r.layout p) hr.laidOut (registry_ofCatalog r c)
    (Value.depthOfFields record.values.entries) table fields
  refine leaves_bakeRow hr (registry_ofCatalog r c) hmem (Registry.kind_ne_interface ht) htable hembed ?_
  intro p hp v hv
  have hid := hr.identifier t hmem p hp
  by_cases hshape : p.shape = .identifier
  · rw [registry_ofCatalog, if_pos (hid.1 hshape).2] at hv
    obtain rfl := Option.some.inj hv
    obtain ⟨name, shape⟩ := p
    obtain rfl : shape = .identifier := hshape
    exact leaves_stage_identifier _
  · refine (leaves_of_ensures fun q : Pools => @stage_fits _ _ (Pools.isKept_grows r.layout q)
      (.ofCatalog r c) _ (hembed q) r.declarations t.name p ⟨t.name, p.name⟩ v).mono
      (fun _ _ => trivial) fun final staged _ _ h => ?_
    exact absurd h hshape

/-- **The rows of a record type** name its records in the order of their identifiers. -/
theorem leaves_bakeRecords (hr : r.IsSound) (ht : t ∈ r.recordTypes) :
    Leaves (bakeRecords (.ofCatalog r c) c t.name) (RowsOf r c t) fun final baked =>
      ∀ layout, r.layout.table? t.name = some layout →
        List.Forall₂ (fun record row =>
          RowKeeps r t layout (StagesIdentifier record.identifier final) row)
          (rowOrder c t.name) baked.2 := by
  obtain ⟨hmem, -⟩ := Registry.mem_recordTypes.1 ht
  obtain ⟨layout, hlayout, htable⟩ := hr.exists_tableOf hmem (Registry.kind_ne_interface ht)
  have hsame : ∀ layout', r.layout.table? t.name = some layout' → layout' = layout :=
    fun layout' hlayout' => Option.some.inj (hlayout'.symm.trans hlayout)
  unfold bakeRecords
  refine Leaves.bind (leaves_of_except (B := fun _ _ => True) htable
    (A := (· = (Registration.tablePlan r.declarations t, layout))) rfl fun _ => trivial) ?_
  rintro _ rfl
  refine (leaves_mapM fun record _ => leaves_bakeRecord hr ht htable).bind fun rows hsizes => ?_
  refine leaves_pure ⟨rfl, hsizes.length_eq.symm, fun layout' hlayout' row hrow => ?_⟩
    fun final hnames _ layout' hlayout' => ?_
  · obtain ⟨_, _, hsize⟩ := exists_of_mem_forall₂ hsizes hrow
    rw [hsame layout' hlayout', hsize]
  · rw [hsame layout' hlayout']
    exact hnames

end Rows

end RecordTables.Container
