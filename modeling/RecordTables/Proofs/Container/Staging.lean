import RecordTables.Proofs.Container.Laying
import RecordTables.Proofs.Container.Slots
import RecordTables.Proofs.Record.Set

/-!
# Staged values are read back

`Container.lays_stage`: the value of a property, staged and put into the slots of the property, is
read back from them as the value that a container keeps (`Value.wire`).  An element is stored as the
number of a text or of a row, as a value of a kind, or as components; for each of these there is a
lemma about the element, and one about a single value and one about a list of such elements.
-/

namespace RecordTables.Container

open Schema

/-! ### What slots hold -/

section Holds

variable {t : TableView} {row : List UInt8} {f : Field} {fields : List Field}

theorem Staged.Fits.fills {staged : Staged} (h : staged.Fits fields)
    (hbytes : ∀ j < fields.length, ∃ bytes, staged.slotBytes? j = some bytes) :
    staged.Fills fields := by
  intro j f hf
  obtain ⟨bytes, hsome⟩ := hbytes j (List.getElem?_eq_some_iff.1 hf).1
  exact ⟨bytes, hsome, h j f bytes hf hsome⟩

theorem fills_index (hwidth : ∀ f ∈ fields, f.slotWidth = indexWidth) (i : UInt32) :
    (Staged.index i).Fills fields := by
  have hindex : (Staged.index i).IsIndex := trivial
  exact (hindex.fits hwidth).fills fun _ _ => ⟨_, rfl⟩

theorem fills_indices (hwidth : ∀ f ∈ fields, f.slotWidth = indexWidth) (is : List UInt32) :
    (Staged.indices is).Fills fields := by
  have hindex : (Staged.indices is).IsIndex := trivial
  exact (hindex.fits hwidth).fills fun _ _ => ⟨_, rfl⟩

theorem fills_scalars {kind : ScalarKind} {ss : List Scalar} (hlength : ss.length = fields.length)
    (hwidth : ∀ f ∈ fields, f.slotWidth = kind.width) (hkind : ∀ s ∈ ss, s.kind = kind) :
    (Staged.scalars ss).Fills fields := by
  have hstaged : (Staged.scalars ss).HasKind kind := hkind
  refine (hstaged.fits hwidth).fills fun j hj => ?_
  rw [← hlength] at hj
  exact ⟨_, congrArg (Option.map Scalar.bytes) (List.getElem?_eq_getElem hj)⟩

theorem slotIndex_of_holds {i : UInt32} (h : t.Holds row [f] (.index i)) :
    t.slotIndex row f.name = .ok i := by
  unfold TableView.slotIndex
  rw [h 0 f _ rfl rfl]
  exact congrArg Except.ok (OpenContainer.indexOf_indexBytes i)

theorem slotScalar_eq {s : Scalar} (h : t.slotBytes row f.name = .ok s.bytes) :
    t.slotScalar row f.name s.kind = .ok s := by
  unfold TableView.slotScalar
  rw [h, ok_bind, s.ofBytes?_bytes]
  rfl

/-- The slots of fields hold one value each. -/
theorem mapM_slotScalar {kind : ScalarKind} {ss : List Scalar} (hlength : ss.length = fields.length)
    (hkind : ∀ s ∈ ss, s.kind = kind) (h : t.Holds row fields (.scalars ss)) :
    (fields.map (·.name)).mapM (fun slot => t.slotScalar row slot kind) = .ok ss := by
  rw [mapM_eq_ok, List.forall₂_map_left_iff, List.forall₂_iff_get]
  refine ⟨hlength.symm, fun j hj hj' => ?_⟩
  rw [← hkind _ (List.get_mem ss ⟨j, hj'⟩)]
  refine slotScalar_eq (h j _ _ (List.getElem?_eq_getElem hj) ?_)
  exact congrArg (Option.map Scalar.bytes) (List.getElem?_eq_getElem hj')

end Holds

variable {r : Registry} {c : Catalog} {place : Place} {v : Value} {f : Field}

/-- A list is staged element by element, and then as a whole. -/
theorem lays_items {β γ : Type} {items : List Value} {k : Value → Baking β}
    {next : List β → Baking γ} {S : Value → β → Prop} {T : OpenContainer → Nat → Value → β → Prop}
    {C : γ → Prop} {D : OpenContainer → Nat → γ → Prop}
    (h : ∀ item ∈ items, Lays r c (k item) (S item) fun o limit y => T o limit item y)
    (hnext : ∀ ys, List.Forall₂ S items ys →
      Lays r c (next ys) C fun o limit z => List.Forall₂ (T o limit) items ys → D o limit z) :
    Lays r c (itemsOf place (.list items) >>= fun items => items.mapM k >>= next) C D :=
  (lays_mapM h).bind hnext

/-! ### Values and lists of elements stored as numbers -/

section Indices

variable {b : Baking UInt32} {k : Value → Baking UInt32} {w : Value → Value} {items : List Value}
  {g : OpenContainer → Nat → UInt32 → Except ContainerError Value}

theorem lays_index (hwidth : f.slotWidth = indexWidth)
    (h : Lays r c b (fun _ => True) fun o limit i => g o limit i = .ok v) :
    Lays r c (Staged.index <$> b) (·.Fills [f]) fun o limit staged =>
      ∀ t row, TableView.Holds t row [f] staged →
        (t.slotIndex row f.name >>= g o limit) = .ok v := by
  refine h.map (fun i _ => fills_index (List.forall_mem_singleton.2 hwidth) i) ?_
  intro o limit i _ hread t row hholds
  rw [slotIndex_of_holds hholds]
  exact hread

/-- A list of elements that are stored as numbers. -/
theorem lays_indices (hwidth : f.slotWidth = indexWidth)
    (h : ∀ item ∈ items, Lays r c (k item) (fun _ => True) fun o limit i =>
      g o limit i = .ok (w item)) :
    Lays r c (itemsOf place (.list items) >>= fun items => items.mapM k >>= fun is =>
        Staged.index <$> modifyGet (·.addIndices is)) (·.Fills [f]) fun o limit staged =>
      ∀ t row, TableView.Holds t row [f] staged →
        Value.list <$> (t.slotIndex row f.name >>= fun i =>
          o.vectorIndices i >>= fun is => is.mapM (g o limit)) = .ok (.list (items.map w)) := by
  refine lays_items h fun is _ => (lays_addIndices is).map
    (fun i _ => fills_index (List.forall_mem_singleton.2 hwidth) i) ?_
  intro o limit i _ hvector hitems t row hholds
  have hread : is.mapM (g o limit) = .ok (items.map w) := by
    rw [mapM_eq_ok, List.forall₂_map_right_iff]
    exact hitems.flip
  rw [slotIndex_of_holds hholds, ok_bind, hvector, ok_bind, hread]
  rfl

end Indices

/-! ### Values and lists of elements of a kind -/

section Scalars

variable {kind : ScalarKind}

theorem lays_scalar {s : Scalar} (hkind : s.kind = kind) (hwidth : f.slotWidth = kind.width) :
    Lays r c (pure (.scalars [s])) (·.Fills [f]) fun o _ staged =>
      ∀ t row, TableView.Holds t row [f] staged →
        t.slotScalar row f.name kind = .ok s ∧ o.registry = r := by
  subst hkind
  refine lays_pure (fills_scalars rfl (List.forall_mem_singleton.2 hwidth)
    (List.forall_mem_singleton.2 rfl)) ?_
  rintro o limit ⟨p, -, final, hmade, -⟩ t row hholds
  exact ⟨slotScalar_eq (hholds 0 f _ rfl rfl), hmade.registry⟩

/-- A list of values of a kind. -/
theorem lays_scalars {ss : List Scalar} {vs : List Value} (hwidth : f.slotWidth = indexWidth)
    (hkind : ∀ s ∈ ss, s.kind = kind)
    {g : OpenContainer → List Scalar → Except ContainerError (List Value)}
    (hread : ∀ o, o.registry = r → g o ss = .ok vs) :
    Lays r c (Staged.index <$> modifyGet (·.addScalars kind ss)) (·.Fills [f]) fun o _ staged =>
      ∀ t row, TableView.Holds t row [f] staged →
        Value.list <$> (t.slotIndex row f.name >>= fun i =>
          o.vectorScalars i kind >>= g o) = .ok (.list vs) := by
  refine Lays.map (B := fun o _ i => o.vectorScalars i kind = .ok ss ∧ o.registry = r)
    ((lays_addScalars hkind).mono (fun _ h => h) ?_)
    (fun i _ => fills_index (List.forall_mem_singleton.2 hwidth) i) ?_
  · rintro o limit i ⟨p, -, final, hmade, -⟩ _ hvector
    exact ⟨hvector, hmade.registry⟩
  · rintro o limit i - ⟨hvector, hregistry⟩ t row hholds
    rw [slotIndex_of_holds hholds, ok_bind, hvector, ok_bind, hread o hregistry]
    rfl

theorem forall₂_flatten {α β : Type} {R : α → β → Prop} {xs : List α} {yss : List (List β)}
    (h : List.Forall₂ (fun x ys => ∃ y, ys = [y] ∧ R x y) xs yss) :
    List.Forall₂ R xs yss.flatten := by
  induction h with
  | nil => exact .nil
  | cons hx _ ih =>
    obtain ⟨y, rfl, hy⟩ := hx
    exact .cons hy ih

end Scalars

/-! ### Elements -/

section Elements

variable {embed : String → List (String × Value) → Baking UInt32}

/-- A text is read as the text of a single value and as an element of a list. -/
theorem lays_text (s : String) :
    Lays r c (stageText place (.text s)) (fun _ => True) fun o _ i =>
      o.textValue i = .ok (.text s) ∧ (o.string i).map Value.text = .ok (.text s) := by
  refine (lays_intern s).mono (fun _ h => h) fun o limit i _ _ hread => ?_
  obtain ⟨hnull, hstring⟩ := hread
  unfold OpenContainer.textValue
  rw [if_neg hnull, hstring]
  exact ⟨rfl, rfl⟩

theorem lays_asset (key : Option String) :
    Lays r c (stageText place (.asset key)) (fun _ => True) fun o _ i =>
      o.assetValue i = .ok (.asset key) := by
  cases key with
  | none => exact lays_pure trivial fun _ _ _ => rfl
  | some s =>
    refine (lays_intern s).mono (fun _ h => h) fun o limit i _ _ hread => ?_
    obtain ⟨hnull, hstring⟩ := hread
    unfold OpenContainer.assetValue
    rw [if_neg hnull, hstring]
    rfl

/-- The row of a record is one of its GUID. -/
theorem exists_rowOfGuid? {records : List Record} {record : Record} (h : record ∈ records) :
    ∃ n found, rowOfGuid? records record.guid = some (UInt32.ofNat n) ∧ records[n]? = some found ∧
      found.guid = record.guid := by
  obtain ⟨i, hi⟩ := List.mem_iff_getElem?.1 h
  have hsome : (records.zipIdx.reverse.find? fun e => e.1.guid == record.guid).isSome = true := by
    refine List.find?_isSome.2 ⟨(record, i), ?_, beq_self_eq_true _⟩
    exact List.mem_reverse.2 (List.mk_mem_zipIdx_iff_getElem?.2 hi)
  obtain ⟨e, he⟩ := Option.isSome_iff_exists.1 hsome
  have hmem := List.mem_reverse.1 (List.mem_of_find?_eq_some he)
  have hguid := List.find?_some he
  refine ⟨e.2, e.1, ?_, List.mem_zipIdx_iff_getElem?.1 hmem, beq_iff_eq.1 hguid⟩
  unfold rowOfGuid?
  rw [he]
  rfl

theorem registry_ofCatalog (r : Registry) (c : Catalog) :
    (BakeSource.ofCatalog r c).registry = r := rfl

/-- The rows of a type are its records. -/
theorem rowOrder_perm (c : Catalog) (recordType : String) :
    (rowOrder c recordType).Perm (c.setOf recordType).records :=
  (RecordSet.byIdentifier_perm _).map _

theorem sorted_rowOrder (c : Catalog) (recordType : String) :
    (rowOrder c recordType).Pairwise fun a b => a.identifier ≤ b.identifier :=
  List.pairwise_map.2 (RecordSet.sorted_byIdentifier _)

/-- The row of a reference is looked for among the records of its type. -/
theorem row?_ofCatalog {t : ResolvedType} (ht : t ∈ r.recordTypes) (guid : Guid) :
    (BakeSource.ofCatalog r c).row? t.name guid = rowOfGuid? (rowOrder c t.name) guid := by
  show ((NameMap.ofList _).find? t.name).bind _ = _
  rw [NameMap.find?_ofList_map ResolvedType.name (rowOrder c) (List.mem_map_of_mem ht),
    Option.bind_some]

/-- A reference to a record of the catalog is read back. -/
theorem lays_reference (hr : r.IsSound) {target : String}
    (hdeclared : (ValueType.recordRef target).IsDeclared r.declarations)
    (hv : v.WellTyped r c (.single (.recordRef target))) :
    Lays r c (stageReference (.ofCatalog r c) place target v) (fun _ => True) fun o _ i =>
      o.refValue target i = .ok (v.wire r (.single (.recordRef target))) := by
  cases hv with
  | noRef => exact lays_pure trivial fun _ _ _ => rfl
  | @ref _ record h =>
    -- the row of the record is found by its GUID
    obtain ⟨t, ht, hname⟩ := hr.exists_recordType hdeclared
    obtain ⟨n, found, hrow, hfound, hguid⟩ :=
      exists_rowOfGuid? ((rowOrder_perm c target).mem_iff.2 h)
    unfold stageReference
    dsimp only
    rw [← hname, row?_ofCatalog ht, hname, hrow]
    refine lays_pure trivial ?_
    rintro o limit ⟨p, -, final, hmade, -⟩
    obtain ⟨view, hview, hguids, -⟩ := hmade.record t ht
    -- so its number is none that stands for no record
    have hlt : n < 2 ^ 32 - 1 := by
      have hfits := hmade.rowsFit t ht
      rw [hname] at hfits
      exact (List.getElem?_eq_some_iff.1 hfound).1.trans hfits
    obtain ⟨hnat, hnull⟩ := toNat_index hlt
    have hread : view.guid? (UInt32.ofNat n) = some record.guid := by
      unfold TableView.guid?
      rw [hnat, hguids, hname, List.getElem?_map, hfound, ← hguid]
      rfl
    unfold OpenContainer.refValue
    rw [if_neg hnull, ← hname, hview, ok_bind, hread]
    rfl

/-- Sub-structures up to a depth are read back from the rows in which they are embedded. -/
def Embeds (r : Registry) (c : Catalog) (embed : String → List (String × Value) → Baking UInt32)
    (depth : Nat) : Prop :=
  ∀ target fields, (ValueType.embedded target).IsDeclared r.declarations →
    (Value.struct fields).WellTyped r c (.single (.embedded target)) → (Value.struct fields).depth ≤ depth →
    Lays r c (embed target fields) (fun _ => True) fun o limit i =>
      i ≠ nullIndex ∧ o.readStruct limit target i =
        .ok ((Value.struct fields).wire r (.single (.embedded target)))

theorem lays_struct {depth : Nat} (hembed : Embeds r c embed depth) {target : String}
    (hdeclared : (ValueType.embedded target).IsDeclared r.declarations)
    (hv : v.WellTyped r c (.single (.embedded target))) (hdepth : v.depth ≤ depth) :
    Lays r c (stageStruct embed place target v) (fun _ => True) fun o limit i =>
      OpenContainer.structValue (o.readStruct limit) target i =
        .ok (v.wire r (.single (.embedded target))) := by
  cases v with
  | noStruct => exact lays_pure trivial fun _ _ _ => rfl
  | struct fields =>
    refine (hembed target fields hdeclared hv hdepth).mono (fun _ h => h) fun o limit i _ _ hread => ?_
    unfold OpenContainer.structValue
    rw [if_neg hread.1, hread.2]
  | _ => cases hv

theorem stageScalars_eq {kind : ScalarKind} {what : String} {ss : List Scalar}
    (h : scalarsOf? kind v = some ss) : stageScalars place kind what v = pure ss := by
  unfold stageScalars
  rw [h]

theorem scalarsOf?_scalar {kind : ScalarKind} (hv : v.WellTyped r c (.single (.scalar kind))) :
    ∃ s, scalarsOf? kind v = some [s] ∧ s.kind = kind ∧
      Value.scalar s = v.wire r (.single (.scalar kind)) := by
  cases hv with
  | scalar s => exact ⟨s, if_pos rfl, rfl, rfl⟩

theorem scalarsOf?_time {kind : TimeKind} (hv : v.WellTyped r c (.single (.time kind))) :
    ∃ s, scalarsOf? .i64 v = some [s] ∧ s.kind = .i64 ∧
      OpenContainer.timeValue kind s = v.wire r (.single (.time kind)) := by
  cases hv with
  | duration ms => exact ⟨.i64 ms, rfl, rfl, rfl⟩
  | dateTime ms => exact ⟨.i64 ms, rfl, rfl, rfl⟩

theorem scalarsOf?_composite {shape : CompositeShape}
    (hv : v.WellTyped r c (.single (.composite shape))) :
    ∃ ss, scalarsOf? shape.componentKind v = some ss ∧ ss.length = shape.arity ∧
      (∀ s ∈ ss, s.kind = shape.componentKind) ∧
      Value.composite ss = v.wire r (.single (.composite shape)) := by
  cases hv with
  | @composite _ ss hlength hkind =>
    refine ⟨ss, if_pos ?_, hlength, hkind, rfl⟩
    exact List.all_eq_true.2 fun s hs => beq_iff_eq.2 (hkind s hs)

/-- The number of a member of an enum is read as the first member that has it. -/
theorem stageMember_eq (hr : r.IsSound) {src : BakeSource} (hsrc : src.registry = r) {name : String}
    (hv : v.WellTyped r c (.single (.enum name))) :
    ∃ s, stageMember src place name (PropertyPlan.enumRepr r.declarations name) v = pure s ∧
      s.kind = PropertyPlan.enumRepr r.declarations name ∧
      ∀ o : OpenContainer, o.registry = r → o.member name s = .ok (v.wire r (.single (.enum name))) := by
  cases hv with
  | @enum _ member e he hmember =>
    -- the member has a value, and the value fits the representation
    have hdeclared : e ∈ r.declarations.enums := List.mem_of_find?_eq_some he
    have hrepr : PropertyPlan.enumRepr r.declarations name = e.repr := by
      unfold PropertyPlan.enumRepr
      rw [show r.declarations.enum? name = some e from he]
      rfl
    have hsome : (e.members.find? fun m => m.name == member).isSome = true := by
      obtain ⟨m, hm, rfl⟩ := List.mem_map.1 hmember
      exact List.find?_isSome.2 ⟨m, hm, beq_self_eq_true _⟩
    obtain ⟨m, hm⟩ := Option.isSome_iff_exists.1 hsome
    have hmem := List.mem_of_find?_eq_some hm
    have hvalue : e.valueOf? member = some m.value := congrArg (Option.map EnumMember.value) hm
    obtain ⟨s, hs⟩ := Option.isSome_iff_exists.1
      ((Registration.members_of_enumFault? (hr.enums e hdeclared)).2 m hmem)
    -- reading gives the first member with that value
    have hname : ∃ first, e.nameOf? m.value = some first := by
      refine Option.isSome_iff_exists.1 ?_
      unfold EnumDeclaration.nameOf?
      rw [Option.isSome_map]
      exact List.find?_isSome.2 ⟨m, hmem, beq_self_eq_true _⟩
    obtain ⟨first, hfirst⟩ := hname
    refine ⟨s, ?_, ?_, fun o ho => ?_⟩
    · unfold stageMember
      dsimp only
      rw [hsrc, he, Option.bind_some, hvalue, Option.bind_some, hrepr, hs]
    · rw [hrepr]
      exact kind_of_ofInt64? hs
    · unfold OpenContainer.member
      rw [ho, Scalar.toInt64?_of_ofInt64? hs, Option.bind_some, he, Option.bind_some, hfirst]
      refine congrArg (fun member => Except.ok (Value.enum member)) ?_
      unfold Registry.firstMember
      rw [he, Option.bind_some, hvalue, Option.bind_some, hfirst]
      rfl

end Elements

/-! ### Multi-component values -/

section Components

variable {shape : CompositeShape} {fields : List Field} {elements : List (List Scalar)} {i k : Nat}

theorem arity_pos (shape : CompositeShape) : 0 < shape.arity := by cases shape <;> decide

/-- Position `j` of block `i`, for blocks of one length. -/
theorem getElem?_flatMap_block {α β : Type} {g : α → List β} {xs : List α} {n i j : Nat}
    (h : ∀ x ∈ xs, (g x).length = n) (hj : j < n) :
    (xs.flatMap g)[i * n + j]? = xs[i]?.bind fun x => (g x)[j]? := by
  induction xs generalizing i with
  | nil => rfl
  | cons x xs ih =>
    have hx := h x List.mem_cons_self
    rw [List.flatMap_cons]
    cases i with
    | zero =>
      rw [Nat.zero_mul, Nat.zero_add, List.getElem?_append_left (by omega)]
      rfl
    | succ i =>
      have hskip : (i + 1) * n + j - n = i * n + j := by
        rw [Nat.succ_mul]
        omega
      rw [List.getElem?_append_right (by rw [hx, Nat.succ_mul]; omega), hx, hskip,
        List.getElem?_cons_succ]
      exact ih fun y hy => h y (List.mem_cons_of_mem _ hy)

theorem length_stridedVector (shape : CompositeShape) (k : Nat) (elements : List (List Scalar)) :
    (stridedVector shape k elements).length = elements.length * shape.arity := by
  unfold stridedVector
  induction elements with
  | nil => exact (Nat.zero_mul _).symm
  | cons cs elements ih =>
    rw [List.flatMap_cons, List.length_append, ih, List.length_set, List.length_replicate,
      List.length_cons, Nat.succ_mul, Nat.add_comm]

/-- Component `k` of element `i` stands in place `k` of block `i` of its vector. -/
theorem getElem?_stridedVector {cs : List Scalar} (h : elements[i]? = some cs)
    (hlength : cs.length = shape.arity) (hk : k < cs.length) :
    (stridedVector shape k elements)[componentOffset i k shape.arity]? = some cs[k] := by
  unfold stridedVector componentOffset
  rw [hlength] at hk
  rw [getElem?_flatMap_block (fun cs _ => by rw [List.length_set, List.length_replicate]) hk, h,
    Option.bind_some, List.getElem?_set_self (by rw [List.length_replicate]; exact hk),
    List.getD_eq_getElem?_getD, List.getElem?_eq_getElem (by omega), Option.getD_some]

theorem kind_of_mem_stridedVector (helements : ∀ cs ∈ elements, ∀ s ∈ cs, s.kind = shape.componentKind) :
    ∀ s ∈ stridedVector shape k elements, s.kind = shape.componentKind := by
  intro s hs
  obtain ⟨cs, hcs, hmem⟩ := List.mem_flatMap.1 hs
  rcases List.mem_or_eq_of_mem_set hmem with hzero | rfl
  · rw [List.eq_of_mem_replicate hzero, Scalar.kind_zero]
  · rw [List.getD_eq_getElem?_getD]
    cases hget : cs[k]? with
    | none => exact Scalar.kind_zero _
    | some s => exact helements cs hcs s (List.mem_of_getElem? hget)

/-- The components of an element are read from the vectors of the components. -/
theorem componentsAt_stridedVector {cs : List Scalar} (h : elements[i]? = some cs)
    (hlength : cs.length = shape.arity) (property : String) :
    OpenContainer.componentsAt property shape.arity i
      ((List.range shape.arity).map fun k => stridedVector shape k elements) =
        .ok (.composite cs) := by
  unfold OpenContainer.componentsAt
  refine congrArg (Value.composite <$> ·) (mapM_eq_ok.2 (List.forall₂_iff_get.2 ⟨?_, ?_⟩))
  · rw [List.length_zipIdx, List.length_map, List.length_range, hlength]
  · intro k hk hk'
    simp only [List.get_eq_getElem, List.getElem_zipIdx, List.getElem_map, List.getElem_range,
      Nat.zero_add]
    rw [getElem?_stridedVector h hlength hk']

/-- The elements are read from the vectors of the components. -/
theorem mapM_componentsAt (hlength : ∀ cs ∈ elements, cs.length = shape.arity) (property : String) :
    (List.range (((((List.range shape.arity).map fun k =>
        stridedVector shape k elements).head?.map (·.length)).getD 0) / shape.arity)).mapM
      (fun i => OpenContainer.componentsAt property shape.arity i
        ((List.range shape.arity).map fun k => stridedVector shape k elements)) =
      .ok (elements.map .composite) := by
  have hpos := arity_pos shape
  rw [List.head?_map, List.head?_range, if_neg (by omega), Option.map_some, Option.map_some,
    Option.getD_some, length_stridedVector, Nat.mul_div_cancel _ hpos, mapM_eq_ok,
    List.forall₂_iff_get]
  refine ⟨by rw [List.length_range, List.length_map], fun i hi hi' => ?_⟩
  rw [List.length_map] at hi'
  rw [List.get_eq_getElem, List.get_eq_getElem, List.getElem_range, List.getElem_map]
  exact componentsAt_stridedVector (List.getElem?_eq_getElem hi')
    (hlength _ (List.getElem_mem hi')) property

/-- The slots of fields hold the numbers of vectors. -/
theorem mapM_vectorScalars {o : OpenContainer} {kind : ScalarKind} {t : TableView}
    {row : List UInt8} {vectors : List (List Scalar)} {is : List UInt32}
    (h : List.Forall₂ (fun vector i => o.vectorScalars i kind = .ok vector) vectors is)
    (hlength : fields.length = vectors.length) (hholds : t.Holds row fields (.indices is)) :
    (fields.map (·.name)).mapM (fun slot => t.slotIndex row slot >>= fun i =>
      o.vectorScalars i kind) = .ok vectors := by
  rw [mapM_eq_ok, List.forall₂_map_left_iff, List.forall₂_iff_get]
  refine ⟨hlength, fun j hj hj' => ?_⟩
  obtain ⟨hsame, hget⟩ := List.forall₂_iff_get.1 h
  have hslot : t.slotBytes row (fields.get ⟨j, hj⟩).name = .ok (indexBytes (is.getD j nullIndex)) :=
    hholds j _ _ (List.getElem?_eq_getElem hj) rfl
  have hread : t.slotIndex row (fields.get ⟨j, hj⟩).name = .ok (is.get ⟨j, hsame ▸ hj'⟩) := by
    unfold TableView.slotIndex
    rw [hslot, List.getD_eq_getElem?_getD, List.getElem?_eq_getElem (hsame ▸ hj'), Option.getD_some]
    exact congrArg Except.ok (OpenContainer.indexOf_indexBytes _)
  rw [hread, ok_bind]
  exact hget j hj' _

/-- The vectors of the components of a list. -/
theorem lays_strided (hlength : fields.length = shape.arity)
    (hwidth : ∀ f ∈ fields, f.slotWidth = indexWidth)
    (helements : ∀ cs ∈ elements, ∀ s ∈ cs, s.kind = shape.componentKind) :
    Lays r c (if elements.isEmpty then pure (.indices (List.replicate shape.arity nullIndex))
        else Staged.indices <$> (List.range shape.arity).mapM fun k =>
          modifyGet (·.addScalars shape.componentKind (stridedVector shape k elements)))
      (·.Fills fields) fun o _ staged => ∀ t row, TableView.Holds t row fields staged →
        (fields.map (·.name)).mapM (fun slot => t.slotIndex row slot >>= fun i =>
          o.vectorScalars i shape.componentKind) =
            .ok ((List.range shape.arity).map fun k => stridedVector shape k elements) := by
  have hcount : fields.length =
      ((List.range shape.arity).map fun k => stridedVector shape k elements).length := by
    rw [List.length_map, List.length_range, hlength]
  split_ifs with hempty
  · rw [List.isEmpty_iff.1 hempty]
    refine lays_pure (fills_indices hwidth _) fun o limit _ t row hholds => ?_
    refine mapM_vectorScalars ?_ ?_ hholds
    · rw [List.forall₂_iff_get]
      refine ⟨by rw [List.length_map, List.length_range, List.length_replicate], fun k hk hk' => ?_⟩
      simp only [List.get_eq_getElem, List.getElem_map, List.getElem_replicate]
      rfl
    · rw [List.length_map, List.length_range, hlength]
  · refine Lays.map (lays_mapM fun k _ => lays_addScalars (kind_of_mem_stridedVector helements))
      (fun is _ => fills_indices hwidth is) fun o limit is _ hvectors t row hholds => ?_
    exact mapM_vectorScalars (List.forall₂_map_left_iff.2 hvectors) hcount hholds

end Components

/-! ### Properties -/

section Properties

variable {embed : String → List (String × Value) → Baking UInt32} {depth : Nat}
  {table name : String}

/-- What is staged for a property is read back from its slots. -/
def ReadsBack (q : PropertyPlan) (v : Value) (o : OpenContainer) (limit : Nat) (staged : Staged) :
    Prop :=
  ∀ t row, TableView.Holds t row q.fields staged →
    o.readProperty (o.readStruct limit) t q row = .ok v

theorem lays_stage_identifier (s : String) (src : BakeSource) :
    Lays r c (stage src embed place (.ofProperty r.declarations table ⟨name, .identifier⟩) (.text s))
      (·.Fills (PropertyPlan.ofProperty r.declarations table ⟨name, .identifier⟩).fields)
      (ReadsBack (.ofProperty r.declarations table ⟨name, .identifier⟩) (.text s)) :=
  lays_index rfl ((lays_text s).mono (fun _ h => h) fun _ _ _ _ _ h => h.1)

/-- A value of a kind goes into its slot as it is. -/
theorem lays_stage_scalar {src : BakeSource} {q : PropertyPlan} {kind : ScalarKind} {s : Scalar}
    {w : Value} (hstage : stage src embed place q v = pure (.scalars [s])) (hfields : q.fields = [f])
    (hwidth : f.slotWidth = kind.width) (hkind : s.kind = kind)
    (hread : ∀ (o : OpenContainer) limit t row, o.registry = r →
      TableView.slotScalar t row f.name kind = .ok s →
        o.readProperty (o.readStruct limit) t q row = .ok w) :
    Lays r c (stage src embed place q v) (·.Fills q.fields) (ReadsBack q w) := by
  rw [hstage, hfields]
  refine (lays_scalar hkind hwidth).mono (fun _ h => h) fun o limit staged _ _ h t row hholds => ?_
  rw [hfields] at hholds
  obtain ⟨hslot, hregistry⟩ := h t row hholds
  exact hread o limit t row hregistry hslot

/-- A multi-component value goes into the slots of its components as it is. -/
theorem lays_stage_components {shape : CompositeShape} {src : BakeSource}
    (hv : v.WellTyped r c (.single (.composite shape))) :
    Lays r c (stage src embed place
        (.ofProperty r.declarations table ⟨name, .single (.composite shape)⟩) v)
      (·.Fills (PropertyPlan.ofProperty r.declarations table
        ⟨name, .single (.composite shape)⟩).fields)
      (ReadsBack (.ofProperty r.declarations table ⟨name, .single (.composite shape)⟩)
        (v.wire r (.single (.composite shape)))) := by
  obtain ⟨ss, hscalars, hlength, hkind, hwire⟩ := scalarsOf?_composite hv
  have hstage : stage src embed place
      (.ofProperty r.declarations table ⟨name, .single (.composite shape)⟩) v =
        pure (.scalars ss) := by
    show Staged.scalars <$> stageScalars place shape.componentKind _ v = _
    rw [stageScalars_eq hscalars]
    rfl
  have hfields : ss.length = (PropertyPlan.ofProperty r.declarations table
      ⟨name, .single (.composite shape)⟩).fields.length := by
    rw [hlength]
    exact (List.length_map _).symm
  rw [hstage, ← hwire]
  refine lays_pure (fills_scalars hfields (fun f hf => slotWidth_of_mem_fields hf) hkind) ?_
  -- each component is read from its own slot
  intro o limit _ t row hholds
  have hread := mapM_slotScalar hfields hkind hholds
  rw [← PropertyPlan.slots_ofProperty] at hread
  cases shape
  all_goals
    show Value.composite <$> List.mapM _ _ = _
    rw [hread]
    rfl

/-- **Single values are read back.** -/
theorem lays_stage_single (hr : r.IsSound) (hembed : Embeds r c embed depth) {vt : ValueType}
    (hdeclared : vt.IsDeclared r.declarations) (hv : v.WellTyped r c (.single vt))
    (hdepth : v.depth ≤ depth) :
    Lays r c (stage (.ofCatalog r c) embed place
        (.ofProperty r.declarations table ⟨name, .single vt⟩) v)
      (·.Fills (PropertyPlan.ofProperty r.declarations table ⟨name, .single vt⟩).fields)
      (ReadsBack (.ofProperty r.declarations table ⟨name, .single vt⟩)
        (v.wire r (.single vt))) := by
  cases vt with
  | string | localizedText =>
    cases hv
    exact lays_index rfl ((lays_text _).mono (fun _ h => h) fun _ _ _ _ _ h => h.1)
  | asset =>
    cases hv
    exact lays_index rfl (lays_asset _)
  | enum e =>
    obtain ⟨s, hmember, hkind, hread⟩ :=
      @stageMember_eq _ _ place _ hr (.ofCatalog r c) rfl _ hv
    refine lays_stage_scalar ?_ rfl rfl hkind fun o limit t row hregistry hslot => ?_
    · show stageMember _ place e _ v >>= _ = _
      rw [hmember]
      rfl
    · show (TableView.slotScalar t row name _ >>= o.member e) = _
      rw [hslot]
      exact hread o hregistry
  | scalar kind =>
    obtain ⟨s, hscalars, hkind, hwire⟩ := scalarsOf?_scalar hv
    refine lays_stage_scalar ?_ rfl rfl hkind fun o limit t row _ hslot => ?_
    · show Staged.scalars <$> stageScalars place kind _ v = _
      rw [stageScalars_eq hscalars]
      rfl
    · show Value.scalar <$> TableView.slotScalar t row name kind = _
      rw [hslot, ← hwire]
      rfl
  | time kind =>
    obtain ⟨s, hscalars, hkind, hwire⟩ := scalarsOf?_time hv
    refine lays_stage_scalar ?_ rfl rfl hkind fun o limit t row _ hslot => ?_
    · show Staged.scalars <$> stageScalars place .i64 _ v = _
      rw [stageScalars_eq hscalars]
      rfl
    · show OpenContainer.timeValue kind <$> TableView.slotScalar t row name .i64 = _
      rw [hslot, ← hwire]
      rfl
  | recordRef target =>
    exact lays_index rfl (lays_reference hr hdeclared hv)
  | embedded target => exact lays_index rfl (lays_struct hembed hdeclared hv hdepth)
  | composite shape => exact lays_stage_components hv

/-- A list of values that are stored as one value of a kind each. -/
theorem lays_stage_words {kind : ScalarKind} {what : String} {items : List Value}
    {value : Scalar → Value} {w : Value → Value} (hwidth : f.slotWidth = indexWidth)
    (h : ∀ item ∈ items, ∃ s, scalarsOf? kind item = some [s] ∧ s.kind = kind ∧
      value s = w item) :
    Lays r c (itemsOf place (.list items) >>= fun items =>
        items.mapM (stageScalars place kind what) >>= fun sss =>
          Staged.index <$> modifyGet (·.addScalars kind sss.flatten)) (·.Fills [f])
      fun o _ staged => ∀ t row, TableView.Holds t row [f] staged →
        Value.list <$> (t.slotIndex row f.name >>= fun i =>
          o.vectorScalars i kind >>= fun ss => pure (ss.map value)) = .ok (.list (items.map w)) := by
  have hstage : ∀ item ∈ items, Lays r c (stageScalars place kind what item)
      (fun ss => ∃ s, ss = [s] ∧ s.kind = kind ∧ value s = w item) fun _ _ _ => True := by
    intro item hitem
    obtain ⟨s, hscalars, hs⟩ := h item hitem
    rw [stageScalars_eq hscalars]
    exact lays_pure ⟨s, rfl, hs⟩ fun _ _ _ => trivial
  -- one word is staged for each element, so the vector has as many
  refine lays_items hstage fun sss hsss => ?_
  have hwords := forall₂_flatten hsss
  refine (lays_scalars hwidth ?_ fun o _ => congrArg Except.ok ?_).mono (fun _ h => h)
    fun _ _ _ _ _ h _ => h
  · intro s hs
    obtain ⟨item, -, hkind, -⟩ := exists_of_mem_forall₂ hwords hs
    exact hkind
  · refine List.forall₂_eq_eq_eq ▸ ?_
    rw [List.forall₂_map_left_iff, List.forall₂_map_right_iff]
    exact hwords.flip.imp fun s item hs => hs.2

/-- A list of multi-component values. -/
theorem lays_stage_strided {shape : CompositeShape} {src : BakeSource} {items : List Value}
    (h : ∀ item ∈ items, item.WellTyped r c (.single (.composite shape))) :
    Lays r c (stage src embed place
        (.ofProperty r.declarations table ⟨name, .list (.composite shape)⟩) (.list items))
      (·.Fills (PropertyPlan.ofProperty r.declarations table
        ⟨name, .list (.composite shape)⟩).fields)
      (ReadsBack (.ofProperty r.declarations table ⟨name, .list (.composite shape)⟩)
        (.list (items.map fun item => item.wire r (.single (.composite shape))))) := by
  have hstage : ∀ item ∈ items, Lays r c (stageComponents place shape item)
      (fun cs => (cs.length = shape.arity ∧ ∀ s ∈ cs, s.kind = shape.componentKind) ∧
        Value.composite cs = item.wire r (.single (.composite shape))) fun _ _ _ => True := by
    intro item hitem
    obtain ⟨cs, hscalars, hlength, hkind, hwire⟩ := scalarsOf?_composite (h item hitem)
    have hcs : stageComponents place shape item = pure cs := by
      unfold stageComponents
      rw [hscalars, Option.filter_some, if_pos (beq_iff_eq.2 hlength)]
    rw [hcs]
    exact lays_pure ⟨⟨hlength, hkind⟩, hwire⟩ fun _ _ _ => trivial
  -- component by component the tuples are spread over the vectors
  refine lays_items hstage fun elements helements => ?_
  have hcs : ∀ cs ∈ elements, cs.length = shape.arity ∧ ∀ s ∈ cs, s.kind = shape.componentKind :=
    fun cs hmem => (exists_of_mem_forall₂ helements hmem).elim fun _ h => h.2.1
  have hwires : elements.map Value.composite =
      items.map fun item => item.wire r (.single (.composite shape)) := by
    refine List.forall₂_eq_eq_eq ▸ ?_
    rw [List.forall₂_map_left_iff, List.forall₂_map_right_iff]
    exact helements.flip.imp fun cs item h => h.2
  have hwidth : ∀ f ∈ (PropertyPlan.ofProperty r.declarations table
      ⟨name, .list (.composite shape)⟩).fields, f.slotWidth = indexWidth :=
    fun f hf => slotWidth_of_mem_fields hf
  refine (lays_strided (List.length_map _) hwidth fun cs hmem => (hcs cs hmem).2).mono
    (fun _ h => h) ?_
  intro o limit staged _ _ hvectors _ t row hholds
  have hread : (PropertyPlan.ofProperty r.declarations table
      ⟨name, .list (.composite shape)⟩).write.slots.mapM (fun slot => t.slotIndex row slot >>= fun i =>
        o.vectorScalars i shape.componentKind) =
      .ok ((List.range shape.arity).map fun k => stridedVector shape k elements) :=
    hvectors t row hholds
  rw [← hwires]
  cases shape
  all_goals
    show Value.list <$> (List.mapM _ _ >>= _) = _
    rw [hread, ok_bind]
    exact congrArg (Value.list <$> ·) (mapM_componentsAt (fun cs hmem => (hcs cs hmem).1) name)

/-- **Lists are read back.** -/
theorem lays_stage_list (hr : r.IsSound) (hembed : Embeds r c embed depth) {vt : ValueType}
    (hdeclared : vt.IsDeclared r.declarations) {items : List Value}
    (hitems : ∀ item ∈ items, item.WellTyped r c (.single vt))
    (hdepth : ∀ item ∈ items, item.depth ≤ depth) :
    Lays r c (stage (.ofCatalog r c) embed place
        (.ofProperty r.declarations table ⟨name, .list vt⟩) (.list items))
      (·.Fills (PropertyPlan.ofProperty r.declarations table ⟨name, .list vt⟩).fields)
      (ReadsBack (.ofProperty r.declarations table ⟨name, .list vt⟩)
        (.list (items.map fun item => item.wire r (.single vt)))) := by
  cases vt with
  | string | localizedText =>
    refine lays_indices rfl fun item hitem => ?_
    cases hitems item hitem
    exact (lays_text _).mono (fun _ h => h) fun _ _ _ _ _ h => h.2
  | asset =>
    refine lays_indices rfl fun item hitem => ?_
    cases hitems item hitem
    exact lays_asset _
  | enum e =>
    have hstage : ∀ item ∈ items, Lays r c (stageMember (.ofCatalog r c) place e
        (PropertyPlan.enumRepr r.declarations e) item)
        (fun s => s.kind = PropertyPlan.enumRepr r.declarations e ∧
          ∀ o : OpenContainer, o.registry = r →
            o.member e s = .ok (item.wire r (.single (.enum e)))) fun _ _ _ => True := by
      intro item hitem
      obtain ⟨s, hmember, hs⟩ :=
        @stageMember_eq _ _ place _ hr (.ofCatalog r c) rfl _ (hitems item hitem)
      rw [hmember]
      exact lays_pure hs fun _ _ _ => trivial
    -- the members of the list are pooled, and each is read for itself
    refine lays_items hstage fun ss hss => ?_
    refine (lays_scalars rfl ?_ fun o ho => mapM_eq_ok.2 ?_).mono (fun _ h => h)
      fun _ _ _ _ _ h _ => h
    · intro s hs
      obtain ⟨item, -, hkind, -⟩ := exists_of_mem_forall₂ hss hs
      exact hkind
    · rw [List.forall₂_map_right_iff]
      exact hss.flip.imp fun s item hs => hs.2 o ho
  | scalar kind =>
    exact lays_stage_words rfl fun item hitem => scalarsOf?_scalar (hitems item hitem)
  | time kind =>
    exact lays_stage_words rfl fun item hitem => scalarsOf?_time (hitems item hitem)
  | recordRef target =>
    exact lays_indices rfl fun item hitem => lays_reference hr hdeclared (hitems item hitem)
  | embedded target =>
    exact lays_indices rfl fun item hitem =>
      lays_struct hembed hdeclared (hitems item hitem) (hdepth item hitem)
  | composite shape => exact lays_stage_strided hitems

/-- The elements of a list, and any other value itself. -/
def elementsOf : Value → List Value
  | .list items => items
  | v => [v]

theorem depth_le_of_mem_elementsOf {w : Value} (h : w ∈ elementsOf v) : w.depth ≤ v.depth := by
  cases v with
  | list items =>
    rw [Value.depth]
    exact (Value.depth_le_of_mem h).trans (Nat.le_succ _)
  | _ => rw [List.mem_singleton.1 h]

/-- **The value of a property** is read back. -/
theorem lays_stage (hr : r.IsSound) (hembed : Embeds r c embed depth) {p : Property}
    (hdeclared : ∀ vt, p.shape.element? = some vt → vt.IsDeclared r.declarations)
    (hv : v.WellTyped r c p.shape) (hdepth : ∀ w ∈ elementsOf v, w.depth ≤ depth) :
    Lays r c (stage (.ofCatalog r c) embed place (.ofProperty r.declarations table p) v)
      (·.Fills (PropertyPlan.ofProperty r.declarations table p).fields)
      (ReadsBack (.ofProperty r.declarations table p) (v.wire r p.shape)) := by
  obtain ⟨name, shape⟩ := p
  cases shape with
  | identifier => cases hv
  | single vt =>
    refine lays_stage_single hr hembed (hdeclared vt rfl) hv (hdepth v ?_)
    cases hv
    all_goals exact List.mem_singleton_self _
  | list vt =>
    cases hv with
    | @list _ items hitems =>
      rw [Value.wire_list]
      exact lays_stage_list hr hembed (hdeclared vt rfl) hitems hdepth

end Properties

end RecordTables.Container
