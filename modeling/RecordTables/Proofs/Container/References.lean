import RecordTables.Proofs.Coherence
import RecordTables.Proofs.Container.Remains

/-!
# What the numbers in rows refer to

The slot of a field holds a value of a kind, or the number of a text, of a vector or of a row
(`Field.target?`), and a vector holds values of a kind, or such numbers itself.  In a row that is
baked every number stands for nothing, or for something that is there when the row is written
(`Pools.RowSuits`): for a row of a sub-structure this is a row that was written before.

`Pools.Writes` follows the rows as they are written, with all that is laid down in between.  Baking
takes such steps and no others, whatever the values are (`Container.tracks_bakeRecord`,
`Container.exists_writes_of_laidDown`): the steps of staging are gone through once, by the shape of
the property (`Container.tracks_stage`), and a sub-structure is a row whose sub-structures are one
level further down.
-/

namespace RecordTables

open Schema

/-! ### Targets -/

namespace Container

/-- What a number refers to. -/
inductive Target where
  | text
  /-- A vector of the given elements. -/
  | vector (element : Element)
  /-- A row of a table. -/
  | row (table : String)
  deriving DecidableEq, Repr

end Container

open Container

/-- What a vector of a field consists of. -/
def FieldKind.element : FieldKind → Element
  | scalar kind => .scalar kind
  | string | row _ => .index

/-- What one element of a field refers to, unless it is a value of a kind. -/
def FieldKind.target? : FieldKind → Option Target
  | scalar _ => none
  | string => some .text
  | row table => some (.row table)

/-- What the slot of a field refers to, unless it holds a value of a kind. -/
def Field.target? (f : Field) : Option Target :=
  if f.isArray then some (.vector f.kind.element) else f.kind.target?

namespace Container

/-- The numbers that the bytes of a vector hold, one behind the other. -/
def Vector.numbers (v : Vector) : List UInt32 :=
  (OpenContainer.chunks indexWidth (v.bytes.length / indexWidth) v.bytes).map OpenContainer.indexOf

theorem numbers_indices (length : UInt32) (is : List UInt32) :
    (⟨.index, length, is.flatMap indexBytes⟩ : Vector).numbers = is := by
  have hwidth : ∀ i ∈ is, (indexBytes i).length = indexWidth := fun i _ => length_indexBytes i
  have hbytes : (is.flatMap indexBytes).length = indexWidth * is.length := by
    rw [List.flatMap_def, length_flatten_of_forall (List.forall_mem_map.2 hwidth), List.length_map]
  have hcount : indexWidth * is.length / indexWidth = is.length :=
    Nat.mul_div_cancel_left _ (by decide)
  unfold Vector.numbers
  dsimp only
  rw [hbytes, hcount, OpenContainer.chunks_flatMap hwidth, List.map_map]
  exact List.map_id'' OpenContainer.indexOf_indexBytes is

/-! ### Numbers that fit the pools -/

namespace Pools

section Numbers

variable (r : Registry) (c : Catalog)

/-- There is something of a number.  The rows of records are numbered before any is written, those
of sub-structures as they are written. -/
def Has (p : Pools) : Target → Nat → Prop
  | .text, n => n < p.strings.length
  | .vector element, n => ∃ v, p.vectors[n]? = some v ∧ v.element = element
  | .row table, n => ∃ t ∈ r.types, t.name = table ∧
      (t.kind = .record ∧ n < (rowOrder c table).length ∨
        t.kind = .struct ∧ n < (p.rowsOf table).length)

/-- A number stands for nothing, or there is what it refers to. -/
def Refers (p : Pools) (target : Target) (i : UInt32) : Prop :=
  i = nullIndex ∨ ∃ n, i = UInt32.ofNat n ∧ p.Has r c target n

/-- A number may stand in the slot of a field: it stands for nothing, or there is what it refers to,
and if that is a vector of numbers, then these do so, too. -/
def Suits (p : Pools) (f : Field) (i : UInt32) : Prop :=
  i = nullIndex ∨ ∃ n, i = UInt32.ofNat n ∧
    (∀ target, f.target? = some target → p.Has r c target n) ∧
    (f.isArray = true → ∀ v, p.vectors[n]? = some v →
      ∀ target, f.kind.target? = some target → ∀ j ∈ v.numbers, p.Refers r c target j)

/-- A row has its size, and a number that may stand there in every slot for numbers. -/
structure RowSuits (p : Pools) (layout : TableLayout) (row : List UInt8) : Prop where
  length : row.length = layout.rowSize
  slots : ∀ view : TableView, view.layout = layout → ∀ f ∈ layout.fields, f.target? ≠ none →
    ∃ i, view.slotIndex row f.name = .ok i ∧ p.Suits r c f i

/-- From the pools `p` some rows are written, in this order, and other things are laid down.  Each
row refers to nothing but what is there when it is written. -/
inductive Writes (p : Pools) : List (String × List UInt8) → Pools → Prop where
  | refl : Writes p [] p
  | intern {written : List (String × List UInt8)} {q : Pools} (h : Writes p written q)
      (s : String) : Writes p written (q.intern s).2
  | addIndices {written : List (String × List UInt8)} {q : Pools} (h : Writes p written q)
      (is : List UInt32) : Writes p written (q.addIndices is).2
  | addScalars {written : List (String × List UInt8)} {q : Pools} (h : Writes p written q)
      {kind : ScalarKind} {ss : List Scalar} (hkind : ∀ s ∈ ss, s.kind = kind) :
      Writes p written (q.addScalars kind ss).2
  /-- A row of a sub-structure is put behind those of its table. -/
  | struct {written : List (String × List UInt8)} {q : Pools} (h : Writes p written q)
      {t : ResolvedType} {layout : TableLayout} {row : List UInt8} (ht : t ∈ r.types)
      (hkind : t.kind = .struct) (hlayout : r.layout.table? t.name = some layout)
      (hrow : q.RowSuits r c layout row) :
      Writes p (written ++ [(t.name, row)]) (q.addRow t.name row).2
  /-- A row of a record takes the place that was kept for it. -/
  | record {written : List (String × List UInt8)} {q : Pools} (h : Writes p written q)
      {t : ResolvedType} {layout : TableLayout} {row : List UInt8} (ht : t ∈ r.recordTypes)
      (hlayout : r.layout.table? t.name = some layout) (hrow : q.RowSuits r c layout row) :
      Writes p (written ++ [(t.name, row)]) q

/-- Rows of sub-structures are written, and none of a record. -/
def Reaches (p q : Pools) : Prop :=
  ∃ written, Writes r c p written q ∧ ∀ e ∈ written, ∀ t ∈ r.recordTypes, e.1 ≠ t.name

end Numbers

variable {r : Registry} {c : Catalog} {p q s : Pools} {target : Target} {f : Field} {n : Nat}
  {i : UInt32} {written more : List (String × List UInt8)}

theorem Has.of_grows (h : p.Has r c target n) (hgrows : p.Grows q) : q.Has r c target n := by
  cases target with
  | text => exact Nat.lt_of_lt_of_le h hgrows.strings.length_le
  | vector element =>
    obtain ⟨v, hv, helement⟩ := h
    exact ⟨v, getElem?_of_prefix hgrows.vectors hv, helement⟩
  | row table =>
    obtain ⟨t, ht, hname, hcount⟩ := h
    refine ⟨t, ht, hname, hcount.imp_right fun hstruct => ⟨hstruct.1, ?_⟩⟩
    exact Nat.lt_of_lt_of_le hstruct.2 (hgrows.rows table).length_le

theorem Refers.of_grows (h : p.Refers r c target i) (hgrows : p.Grows q) :
    q.Refers r c target i := by
  refine h.imp_right fun hsome => ?_
  obtain ⟨n, hn, hhas⟩ := hsome
  exact ⟨n, hn, hhas.of_grows hgrows⟩

theorem Writes.trans (h : Writes r c p written q) (h' : Writes r c q more s) :
    Writes r c p (written ++ more) s := by
  induction h' with
  | refl =>
    rw [List.append_nil]
    exact h
  | intern _ s ih => exact ih.intern s
  | addIndices _ is ih => exact ih.addIndices is
  | addScalars _ hkind ih => exact ih.addScalars hkind
  | struct _ ht hkind hlayout hrow ih =>
    rw [← List.append_assoc]
    exact ih.struct ht hkind hlayout hrow
  | record _ ht hlayout hrow ih =>
    rw [← List.append_assoc]
    exact ih.record ht hlayout hrow

end Pools

/-! ### Steps that write rows -/

namespace Baking

open Pools

variable {α β : Type} {r : Registry} {c : Catalog} {b : Baking α} {A A' : α → Prop}
  {B B' : Pools → α → Prop} {C : β → Prop} {D : Pools → β → Prop}

/-- Whenever the step succeeds, rows of sub-structures were written and other things laid down, `A`
holds of its answer, and `B` of its answer in all pools that add to those it leaves. -/
def Tracks (r : Registry) (c : Catalog) (b : Baking α) (A : α → Prop) (B : Pools → α → Prop) :
    Prop :=
  (∀ p : Pools, Ensures (p.Reaches r c) b A) ∧ Leaves b A B

/-- A step that keeps every invariant lays nothing down. -/
theorem tracks_of_ensures (h : ∀ I, Ensures I b A) : Tracks r c b A fun _ _ => True :=
  ⟨fun p => h (p.Reaches r c), leaves_of_ensures fun p => h p.Grows⟩

theorem tracks_pure {x : α} (hA : A x) (hB : ∀ final, B final x) : Tracks r c (pure x) A B :=
  ⟨fun _ => ensures_pure hA, leaves_pure hA hB⟩

theorem tracks_throw (e : ContainerError) : Tracks r c (throw e) A B :=
  ⟨fun _ => ensures_throw e, fun _ _ _ hrun => nomatch hrun⟩

theorem Tracks.mono (h : Tracks r c b A B) (hA : ∀ x, A x → A' x)
    (hB : ∀ final x, A x → B final x → B' final x) : Tracks r c b A' B' :=
  ⟨fun p => (h.1 p).mono hA, h.2.mono hA hB⟩

theorem Tracks.bind {next : α → Baking β} (h : Tracks r c b A B)
    (hnext : ∀ x, A x → Tracks r c (next x) C fun final y => B final x → D final y) :
    Tracks r c (b >>= next) C D :=
  ⟨fun p => (h.1 p).bind fun x hx => (hnext x hx).1 p, h.2.bind fun x hx => (hnext x hx).2⟩

theorem Tracks.map {f : α → β} (h : Tracks r c b A B) (hC : ∀ x, A x → C (f x))
    (hD : ∀ final x, A x → B final x → D final (f x)) : Tracks r c (f <$> b) C D := by
  rw [map_eq_pure_bind]
  exact h.bind fun x hx => tracks_pure (hC x hx) fun final hread => hD final x hx hread

theorem tracks_mapM {f : α → Baking β} {xs : List α} (h : ∀ x ∈ xs, Tracks r c (f x) C D) :
    Tracks r c (xs.mapM f) (fun ys => ∀ y ∈ ys, C y) fun final ys => ∀ y ∈ ys, D final y := by
  refine ⟨fun p => ensures_mapM_forall fun x hx => (h x hx).1 p, ?_⟩
  refine (leaves_mapM fun x hx => (h x hx).2).mono (fun ys hys y hy => ?_)
    fun final ys _ hys y hy => ?_
  · obtain ⟨x, -, hC⟩ := exists_of_mem_forall₂ hys hy
    exact hC
  · obtain ⟨x, -, hD⟩ := exists_of_mem_forall₂ hys hy
    exact hD

theorem tracks_modifyGet {f : Pools → α × Pools} (hgrows : ∀ p : Pools, p.Grows (f p).2)
    (hreach : ∀ p q : Pools, p.Reaches r c q → p.Reaches r c (f q).2)
    (hB : ∀ p final : Pools, (f p).2.Grows final → B final (f p).1) :
    Tracks r c (modifyGet f) (fun _ => True) B := by
  refine ⟨fun p => ensures_modifyGet fun q hq => ⟨hreach p q hq, trivial⟩, ?_⟩
  intro p x p' hrun
  obtain ⟨rfl, rfl⟩ := Prod.mk.inj (Except.ok.inj hrun)
  exact ⟨hgrows p, trivial, fun final hfinal => hB p final hfinal⟩

end Baking

open Baking Pools

/-! ### Laying down texts, vectors and rows -/

section Steps

variable {r : Registry} {c : Catalog}

theorem tracks_intern (s : String) :
    Tracks r c (modifyGet (·.intern s)) (fun _ => True) fun final i =>
      final.Refers r c .text i := by
  refine tracks_modifyGet (fun p => p.grows_intern s) (fun p q hq => ?_) fun p final hfinal => ?_
  · obtain ⟨written, hwrites, hnone⟩ := hq
    exact ⟨written, hwrites.intern s, hnone⟩
  · obtain ⟨n, hn, hs⟩ := p.getElem?_intern s
    have hthere : (p.intern s).2.Has r c .text n := (List.getElem?_eq_some_iff.1 hs).1
    exact Or.inr ⟨n, hn, hthere.of_grows hfinal⟩

/-- A vector of the field was laid down, or there is none. -/
def IsVector (final : Pools) (element : Element) (numbers : List UInt32) (i : UInt32) : Prop :=
  i = nullIndex ∨ ∃ n v, i = UInt32.ofNat n ∧ final.vectors[n]? = some v ∧ v.element = element ∧
    (element = .index → v.numbers = numbers)

theorem tracks_addIndices (is : List UInt32) :
    Tracks r c (modifyGet (·.addIndices is)) (fun _ => True) fun final i =>
      IsVector final .index is i := by
  refine tracks_modifyGet (fun p => p.grows_addIndices is) (fun p q hq => ?_)
    fun p final hfinal => ?_
  · obtain ⟨written, hwrites, hnone⟩ := hq
    exact ⟨written, hwrites.addIndices is, hnone⟩
  · unfold Pools.addIndices at hfinal ⊢
    split_ifs at hfinal ⊢
    · exact Or.inl rfl
    · have hv := getElem?_of_prefix hfinal.vectors List.getElem?_concat_length
      exact Or.inr ⟨_, _, rfl, hv, rfl, fun _ => numbers_indices _ is⟩

theorem tracks_addScalars {kind : ScalarKind} {ss : List Scalar} (hkind : ∀ s ∈ ss, s.kind = kind) :
    Tracks r c (modifyGet (·.addScalars kind ss)) (fun _ => True) fun final i =>
      IsVector final (.scalar kind) [] i := by
  refine tracks_modifyGet (fun p => p.grows_addScalars kind ss) (fun p q hq => ?_)
    fun p final hfinal => ?_
  · obtain ⟨written, hwrites, hnone⟩ := hq
    exact ⟨written, hwrites.addScalars hkind, hnone⟩
  · unfold Pools.addScalars at hfinal ⊢
    split_ifs at hfinal ⊢
    · exact Or.inl rfl
    · have hv := getElem?_of_prefix hfinal.vectors List.getElem?_concat_length
      exact Or.inr ⟨_, _, rfl, hv, rfl, fun h => nomatch h⟩

variable {place : Place} {v : Value} {target : String}

/-- The row of a record is one of those that are kept for the records of its type. -/
theorem lt_of_rowOfGuid? {records : List Record} {guid : Guid} {row : UInt32}
    (h : rowOfGuid? records guid = some row) : ∃ n < records.length, row = UInt32.ofNat n := by
  obtain ⟨e, he, hrow⟩ := Option.map_eq_some_iff.1 h
  have hmem : e ∈ records.zipIdx := List.mem_reverse.1 (List.mem_of_find?_eq_some he)
  have hlt : e.2 < records.length := by
    have hindex := (List.mk_mem_zipIdx_iff_getElem?.1 hmem)
    exact (List.getElem?_eq_some_iff.1 hindex).1
  exact ⟨e.2, hlt, hrow.symm⟩

theorem tracks_stageText : Tracks r c (stageText place v) (fun _ => True) fun final i =>
    final.Refers r c .text i := by
  unfold stageText
  split
  · exact tracks_intern _
  · exact tracks_intern _
  · exact tracks_pure trivial fun _ => Or.inl rfl
  · exact tracks_throw _

theorem tracks_stageReference (hr : r.IsSound)
    (hdeclared : (ValueType.recordRef target).IsDeclared r.declarations) :
    Tracks r c (stageReference (.ofCatalog r c) place target v) (fun _ => True) fun final i =>
      final.Refers r c (.row target) i := by
  obtain ⟨t, ht, rfl⟩ := hr.exists_recordType hdeclared
  obtain ⟨hmem, hrecord⟩ := Registry.mem_recordTypes.1 ht
  unfold stageReference
  split
  · exact tracks_pure trivial fun _ => Or.inl rfl
  · next guid =>
    split
    · next row hrow =>
      rw [row?_ofCatalog ht] at hrow
      obtain ⟨n, hlt, hn⟩ := lt_of_rowOfGuid? hrow
      exact tracks_pure trivial fun _ => Or.inr ⟨n, hn, t, hmem, rfl, Or.inl ⟨hrecord, hlt⟩⟩
    · exact tracks_throw _
  · exact tracks_throw _

/-- What embedding sub-structures is to do: the row that it gives was written. -/
def EmbedTracks (r : Registry) (c : Catalog)
    (embed : String → List (String × Value) → Baking UInt32) : Prop :=
  ∀ target fields, (ValueType.embedded target).IsDeclared r.declarations →
    Tracks r c (embed target fields) (fun _ => True) fun final i => final.Refers r c (.row target) i

variable {embed : String → List (String × Value) → Baking UInt32}

theorem tracks_stageStruct (hembed : EmbedTracks r c embed)
    (hdeclared : (ValueType.embedded target).IsDeclared r.declarations) :
    Tracks r c (stageStruct embed place target v) (fun _ => True) fun final i =>
      final.Refers r c (.row target) i := by
  unfold stageStruct
  split
  · exact tracks_pure trivial fun _ => Or.inl rfl
  · exact hembed _ _ hdeclared
  · exact tracks_throw _

theorem stageComponents_hasKind {I : Pools → Prop} (shape : CompositeShape) :
    Ensures I (stageComponents place shape v) fun cs => ∀ s ∈ cs, s.kind = shape.componentKind := by
  unfold stageComponents
  split
  · next cs hcs =>
    obtain ⟨hscalars, -⟩ := Option.filter_eq_some_iff.1 hcs
    exact ensures_pure (kind_of_scalarsOf? hscalars)
  · exact ensures_throw _

/-- A list is staged element by element, and then as a whole. -/
theorem tracks_items {β γ : Type} {f : Value → Baking β} {next : List β → Baking γ} {C : β → Prop}
    {D : Pools → β → Prop} {A : γ → Prop} {B : Pools → γ → Prop}
    (h : ∀ item, Tracks r c (f item) C D)
    (hnext : ∀ ys, (∀ y ∈ ys, C y) →
      Tracks r c (next ys) A fun final z => (∀ y ∈ ys, D final y) → B final z) :
    Tracks r c (itemsOf place v >>= fun items => items.mapM f >>= next) A B := by
  have hitems : Tracks r c (itemsOf place v) (fun _ => True) fun _ _ => True :=
    tracks_of_ensures fun I => itemsOf_ensures
  refine hitems.bind fun items _ => ?_
  refine ((tracks_mapM fun item _ => h item).bind hnext).mono (fun _ h => h) ?_
  exact fun _ _ _ h _ => h

end Steps

/-! ### Staged numbers -/

/-- Every field for numbers is given one of which `Q` holds. -/
def Staged.Gives (fields : List Field) (Q : Field → UInt32 → Prop) (staged : Staged) : Prop :=
  ∀ j f, fields[j]? = some f → f.target? ≠ none →
    ∃ i, staged.slotBytes? j = some (indexBytes i) ∧ Q f i

section Gives

variable {r : Registry} {c : Catalog} {fields : List Field} {Q : Field → UInt32 → Prop}
  {staged : Staged} {f : Field} {i : UInt32} {is : List UInt32} {final : Pools} {target : Target}
  {element : Element}

theorem gives_of_values (h : ∀ f ∈ fields, f.target? = none) : staged.Gives fields Q :=
  fun _ f hf htarget => absurd (h f (List.mem_of_getElem? hf)) htarget

theorem gives_index (h : ∀ f ∈ fields, Q f i) : (Staged.index i).Gives fields Q :=
  fun _ f hf _ => ⟨i, rfl, h f (List.mem_of_getElem? hf)⟩

theorem gives_indices (hnull : ∀ f ∈ fields, Q f nullIndex) (h : ∀ f ∈ fields, ∀ i ∈ is, Q f i) :
    (Staged.indices is).Gives fields Q := by
  intro j f hf _
  have hmem := List.mem_of_getElem? hf
  refine ⟨is.getD j nullIndex, rfl, ?_⟩
  rw [List.getD_eq_getElem?_getD]
  cases hi : is[j]? with
  | none => exact hnull f hmem
  | some i => exact h f hmem i (List.mem_of_getElem? hi)

theorem Pools.Refers.suits (h : final.Refers r c target i) (hf : f.target? = some target)
    (hsingle : f.isArray = false) : final.Suits r c f i := by
  refine h.imp_right fun hsome => ?_
  obtain ⟨n, hn, hhas⟩ := hsome
  refine ⟨n, hn, fun other hother => ?_, fun harray => ?_⟩
  · rw [← Option.some.inj (hf.symm.trans hother)]
    exact hhas
  · rw [hsingle] at harray
    cases harray

/-- A vector may stand in the slot of a field if its numbers refer to what is there. -/
theorem IsVector.suits (h : IsVector final f.kind.element is i) (harray : f.isArray = true)
    (hnumbers : ∀ target, f.kind.target? = some target →
      f.kind.element = .index ∧ ∀ j ∈ is, final.Refers r c target j) : final.Suits r c f i := by
  refine h.imp_right fun hsome => ?_
  obtain ⟨n, v, hn, hv, helement, hsame⟩ := hsome
  have hf : f.target? = some (.vector f.kind.element) := if_pos harray
  refine ⟨n, hn, fun target htarget => ?_, fun _ v' hv' target htarget j hj => ?_⟩
  · rw [← Option.some.inj (hf.symm.trans htarget)]
    exact ⟨v, hv, helement⟩
  · obtain rfl := Option.some.inj (hv.symm.trans hv')
    obtain ⟨hindex, hall⟩ := hnumbers target htarget
    rw [hsame hindex] at hj
    exact hall j hj

end Gives

section Stage

variable {r : Registry} {c : Catalog} {place : Place} {v : Value} {f : Field} {target : Target}
  {kind : ScalarKind} {embed : String → List (String × Value) → Baking UInt32}

/-- A single number is staged. -/
theorem tracks_index {b : Baking UInt32} (hf : f.target? = some target) (hsingle : f.isArray = false)
    (h : Tracks r c b (fun _ => True) fun final i => final.Refers r c target i) :
    Tracks r c (Staged.index <$> b) (fun _ => True) fun final staged =>
      staged.Gives [f] (final.Suits r c) :=
  h.map (fun _ _ => trivial) fun _ _ _ hi =>
    gives_index (List.forall_mem_singleton.2 (hi.suits hf hsingle))

/-- A list of numbers is staged. -/
theorem tracks_indices {k : Value → Baking UInt32} (harray : f.isArray = true)
    (hindex : f.kind.element = .index) (hf : f.kind.target? = some target)
    (h : ∀ item, Tracks r c (k item) (fun _ => True) fun final i => final.Refers r c target i) :
    Tracks r c (itemsOf place v >>= fun items => items.mapM k >>= fun is =>
        Staged.index <$> modifyGet (·.addIndices is)) (fun _ => True) fun final staged =>
      staged.Gives [f] (final.Suits r c) := by
  refine tracks_items h fun is _ => (tracks_addIndices is).map (fun _ _ => trivial) ?_
  intro final i _ hvector hnumbers
  rw [← hindex] at hvector
  refine gives_index (List.forall_mem_singleton.2 (hvector.suits harray fun other hother => ?_))
  rw [← Option.some.inj (hf.symm.trans hother)]
  exact ⟨hindex, hnumbers⟩

/-- A vector of values of a kind refers to nothing. -/
theorem IsVector.suits_scalar {final : Pools} {i : UInt32}
    (h : IsVector final (.scalar kind) [] i) (harray : f.isArray = true)
    (hkind : f.kind = .scalar kind) : final.Suits r c f i := by
  have helement : f.kind.element = .scalar kind := by rw [hkind]; rfl
  rw [← helement] at h
  refine h.suits harray fun target htarget => ?_
  rw [hkind] at htarget
  cases htarget

/-- A list of values of a kind is staged. -/
theorem tracks_scalars {β : Type} {k : Value → Baking β} {C : β → Prop} {all : List β → List Scalar}
    (harray : f.isArray = true) (hfield : f.kind = .scalar kind)
    (h : ∀ item I, Ensures I (k item) C)
    (hkind : ∀ ys, (∀ y ∈ ys, C y) → ∀ s ∈ all ys, s.kind = kind) :
    Tracks r c (itemsOf place v >>= fun items => items.mapM k >>= fun ys =>
        Staged.index <$> modifyGet (·.addScalars kind (all ys))) (fun _ => True)
      fun final staged => staged.Gives [f] (final.Suits r c) := by
  refine tracks_items (fun item => tracks_of_ensures (h item)) fun ys hys => ?_
  refine (tracks_addScalars (hkind ys hys)).map (fun _ _ => trivial) fun final i _ hvector _ => ?_
  exact gives_index (List.forall_mem_singleton.2 (hvector.suits_scalar harray hfield))

/-- Values that go into their slots as they are refer to nothing. -/
theorem tracks_values {b : Baking Staged} {fields : List Field}
    (hfields : ∀ f ∈ fields, f.target? = none) (h : ∀ I, Ensures I b fun _ => True) :
    Tracks r c b (fun _ => True) fun final staged => staged.Gives fields (final.Suits r c) :=
  (tracks_of_ensures h).mono (fun _ h => h) fun _ _ _ _ => gives_of_values hfields

/-- The fields of the components of a value hold values of one kind. -/
theorem kind_of_mem_fieldsOf {d : Declarations} {table name : String} {shape : CompositeShape}
    {isArray : Bool} (hf : f ∈ PropertyPlan.fieldsOf d table name (.composite shape) isArray) :
    f.kind = .scalar shape.componentKind ∧ f.isArray = isArray := by
  obtain ⟨component, -, rfl⟩ := List.mem_map.1 hf
  exact ⟨rfl, rfl⟩

/-- The vectors of the components of a list are staged. -/
theorem tracks_strided {shape : CompositeShape} {fields : List Field}
    (hfields : ∀ f ∈ fields, f.kind = .scalar shape.componentKind ∧ f.isArray = true) :
    Tracks r c (itemsOf place v >>= fun items => items.mapM (stageComponents place shape) >>=
        fun elements => if elements.isEmpty then
          pure (.indices (List.replicate shape.arity nullIndex))
        else Staged.indices <$> (List.range shape.arity).mapM fun k =>
          modifyGet (·.addScalars shape.componentKind (stridedVector shape k elements)))
      (fun _ => True) fun final staged => staged.Gives fields (final.Suits r c) := by
  have hnull (final : Pools) (f : Field) : final.Suits r c f nullIndex := Or.inl rfl
  have hcomponents (item : Value) : Tracks r c (stageComponents place shape item)
      (fun cs => ∀ s ∈ cs, s.kind = shape.componentKind) fun _ _ => True :=
    tracks_of_ensures fun I => stageComponents_hasKind shape
  refine tracks_items hcomponents fun elements helements => ?_
  split_ifs
  · refine tracks_pure trivial fun final _ => gives_indices (fun f _ => hnull final f) ?_
    intro f _ i hi
    rw [List.eq_of_mem_replicate hi]
    exact hnull final f
  · refine Tracks.map
      (tracks_mapM fun k _ => tracks_addScalars (kind_of_mem_stridedVector helements))
      (fun _ _ => trivial) fun final is _ hvectors _ => ?_
    refine gives_indices (fun f _ => hnull final f) fun f hf i hi => ?_
    exact (hvectors i hi).suits_scalar (hfields f hf).2 (hfields f hf).1

/-- **What is staged for a property** refers to what is there. -/
theorem tracks_stage (hr : r.IsSound) (hembed : EmbedTracks r c embed) {table : String}
    {p : Property} (hdeclared : ∀ vt, p.shape.element? = some vt → vt.IsDeclared r.declarations) :
    Tracks r c (stage (.ofCatalog r c) embed place (.ofProperty r.declarations table p) v)
      (fun _ => True) fun final staged =>
        staged.Gives (PropertyPlan.ofProperty r.declarations table p).fields (final.Suits r c) := by
  -- what is written into the row itself refers to nothing
  have hinline {kind : ScalarKind} {fields : List Field} (hfields : ∀ f ∈ fields, f.target? = none) :
      Tracks r c (Staged.scalars <$> stageScalars place kind kind.tag v) (fun _ => True)
        fun final staged => staged.Gives fields (final.Suits r c) :=
    tracks_values hfields fun I => (stageScalars_ensures kind _).map fun _ _ => trivial
  obtain ⟨name, shape⟩ := p
  cases shape with
  | identifier => exact tracks_index rfl rfl tracks_stageText
  | single vt =>
    have hvt := hdeclared vt rfl
    cases vt with
    | string | localizedText | asset => exact tracks_index rfl rfl tracks_stageText
    | enum e =>
      refine tracks_values (List.forall_mem_singleton.2 rfl) fun I => ?_
      exact (stageMember_ensures _ e _).bind fun _ _ => ensures_pure trivial
    | scalar kind => exact hinline (List.forall_mem_singleton.2 rfl)
    | time kind => exact hinline (List.forall_mem_singleton.2 rfl)
    | recordRef target => exact tracks_index rfl rfl (tracks_stageReference hr hvt)
    | embedded target => exact tracks_index rfl rfl (tracks_stageStruct hembed hvt)
    | composite shape =>
      -- the components stand in the row, and none of them is a reference
      refine hinline fun f hf => ?_
      obtain ⟨hkind, hsingle⟩ := kind_of_mem_fieldsOf (d := r.declarations) hf
      unfold Field.target?
      rw [hsingle, hkind]
      rfl
  | list vt =>
    have hvt := hdeclared vt rfl
    -- the elements of a list are pooled one after the other
    have hflatten {kind : ScalarKind} (yss : List (List Scalar))
        (h : ∀ ys ∈ yss, ∀ s ∈ ys, s.kind = kind) : ∀ s ∈ yss.flatten, s.kind = kind := by
      intro s hs
      obtain ⟨ys, hys, hmem⟩ := List.mem_flatten.1 hs
      exact h ys hys s hmem
    cases vt with
    | string | localizedText | asset => exact tracks_indices rfl rfl rfl fun _ => tracks_stageText
    | enum e =>
      exact tracks_scalars rfl rfl (fun item I => stageMember_ensures _ e _) fun ys hys => hys
    | scalar kind | time kind =>
      exact tracks_scalars rfl rfl (fun item I => stageScalars_ensures _ _) hflatten
    | recordRef target => exact tracks_indices rfl rfl rfl fun _ => tracks_stageReference hr hvt
    | embedded target => exact tracks_indices rfl rfl rfl fun _ => tracks_stageStruct hembed hvt
    | composite shape =>
      exact tracks_strided fun f hf => kind_of_mem_fieldsOf (d := r.declarations) hf

end Stage

/-! ### Rows -/

section Rows

variable {r : Registry} {c : Catalog} {t : ResolvedType} {layout : TableLayout}
  {embed : String → List (String × Value) → Baking UInt32}

theorem fillSlots_keeps {I : Pools → Prop} {place : Place} {staged : Staged} {j : Nat}
    {slots : List String} {row : List UInt8} :
    Ensures I (fillSlots layout place staged j slots row) fun _ => True := by
  induction slots generalizing j row with
  | nil => exact ensures_pure trivial
  | cons slot rest ih =>
    unfold fillSlots
    split
    · exact ensures_throw _
    · split
      · exact ensures_fail _ _
      · exact ih

theorem fillRow_keeps {I : Pools → Prop} {table : String} {filled : List (PropertyPlan × Staged)}
    {row : List UInt8} : Ensures I (fillRow layout table filled row) fun _ => True := by
  induction filled generalizing row with
  | nil => exact ensures_pure trivial
  | cons e rest ih => exact fillSlots_keeps.bind fun row _ => ih

/-- A row holds numbers that may stand there if all of its properties were given such. -/
theorem rowSuits_of_rowKeeps {final : Pools} {row : List UInt8}
    (hfields : layout.fields =
      (Registration.tablePlan r.declarations t).properties.flatMap (·.fields))
    (hlength : row.length = layout.rowSize)
    (hrow : RowKeeps r t layout (fun p staged =>
      staged.Gives (PropertyPlan.ofProperty r.declarations t.name p).fields (final.Suits r c)) row) :
    final.RowSuits r c layout row := by
  refine ⟨hlength, fun view hview f hf htarget => ?_⟩
  rw [hfields] at hf
  obtain ⟨q, hq, hf⟩ := List.mem_flatMap.1 hf
  obtain ⟨p, hp, rfl⟩ := List.mem_map.1 hq
  obtain ⟨staged, hholds, hgives⟩ := hrow view hview p hp
  obtain ⟨j, hj⟩ := List.mem_iff_getElem?.1 hf
  obtain ⟨i, hbytes, hsuits⟩ := hgives j f hj htarget
  refine ⟨i, ?_, hsuits⟩
  unfold TableView.slotIndex
  rw [hholds j f _ hj hbytes]
  exact congrArg Except.ok (OpenContainer.indexOf_indexBytes i)

/-- The fields of the layout of a table are those of the properties of its type. -/
theorem fields_of_tableOf (hr : r.IsSound) (hlaid : r.layout.tables = r.tables.map TablePlan.layout)
    (htable : tableOf r t.name = .ok (Registration.tablePlan r.declarations t, layout)) :
    layout.fields = (Registration.tablePlan r.declarations t).properties.flatMap (·.fields) := by
  obtain ⟨hplan, -, hlayout, hname⟩ := tableOf_eq_ok htable
  have hmem : (Registration.tablePlan r.declarations t).layout ∈ r.layout.tables := by
    rw [hlaid]
    exact List.mem_map_of_mem hplan
  have hsame := List.inj_on_of_nodup_map hr.laidOut.layout.names hlayout hmem hname
  rw [hsame]
  rfl

/-- **A row that is baked** refers to what is there. -/
theorem tracks_bakeRow (hr : r.IsSound) (hlaid : r.layout.tables = r.tables.map TablePlan.layout)
    (ht : t ∈ r.types) (hkind : t.kind ≠ .interface)
    (htable : tableOf r t.name = .ok (Registration.tablePlan r.declarations t, layout))
    (hgrows : ∀ (p : Pools) table fields, Ensures p.Grows (embed table fields) fun _ => True)
    (hembed : EmbedTracks r c embed) (valueOf : String → Option Value) :
    Tracks r c
      (bakeRow (.ofCatalog r c) embed (Registration.tablePlan r.declarations t) layout valueOf)
      (fun _ => True) fun final row => final.RowSuits r c layout row := by
  have hstage (place : Place) (v : Value) (p : Property) (hp : p ∈ t.properties) :=
    @tracks_stage r c place v embed hr hembed t.name p (hr.declared t ht p hp)
  constructor
  · intro p₀
    unfold bakeRow
    refine Ensures.bind (Q := fun _ => True) ?_ fun staged _ => fillRow_keeps
    refine (ensures_mapM_forall (R := fun _ => True) fun q hq => ?_).mono fun _ _ => trivial
    obtain ⟨p, hp, rfl⟩ := List.mem_map.1 hq
    dsimp only
    split
    · exact (hstage _ _ p hp).1 p₀
    · exact ensures_fail _ _
  · refine Leaves.mono (leaves_bakeRow hr (registry_ofCatalog r c) ht hkind htable hgrows
      fun p hp v _ => (hstage ⟨t.name, p.name⟩ v p hp).2) (fun _ _ => trivial) ?_
    intro final row hlength hkeeps
    exact rowSuits_of_rowKeeps (fields_of_tableOf hr hlaid htable) hlength hkeeps

/-- A row that refers to what is there is written behind those of its table. -/
theorem tracks_bind_addRow {b : Baking (List UInt8)} (ht : t ∈ r.types) (hkind : t.kind = .struct)
    (hnames : (r.types.map (·.name)).Nodup) (hlayout : r.layout.table? t.name = some layout)
    (h : Tracks r c b (fun _ => True) fun final row => final.RowSuits r c layout row) :
    Tracks r c (b >>= fun row => modifyGet (·.addRow t.name row)) (fun _ => True) fun final i =>
      final.Refers r c (.row t.name) i := by
  -- the row suits the pools that it leaves, to which it is added
  have hrun : ∀ p i p', (b >>= fun row => modifyGet (·.addRow t.name row)).run p = .ok (i, p') →
      ∃ row q, b.run p = .ok (row, q) ∧ q.RowSuits r c layout row ∧
        i = UInt32.ofNat (q.rowsOf t.name).length ∧ p' = (q.addRow t.name row).2 := by
    intro p i p' hrun
    rw [StateT.run_bind] at hrun
    obtain ⟨⟨row, q⟩, hfirst, hrest⟩ := bind_eq_ok.1 hrun
    obtain ⟨rfl, rfl⟩ := Prod.mk.inj (Except.ok.inj hrest)
    obtain ⟨-, -, hsuits⟩ := h.2 p row q hfirst
    exact ⟨row, q, hfirst, hsuits q (.refl q), rfl, rfl⟩
  constructor
  · intro p₀ p i p' hrun' hp
    obtain ⟨row, q, hfirst, hsuits, -, rfl⟩ := hrun p i p' hrun'
    obtain ⟨⟨written, hwrites, hnone⟩, -⟩ := h.1 p₀ p row q hfirst hp
    refine ⟨⟨_, hwrites.struct ht hkind hlayout hsuits, fun e he u hu => ?_⟩, trivial⟩
    rcases List.mem_append.1 he with he | he
    · exact hnone e he u hu
    · rw [List.mem_singleton.1 he]
      exact (Registry.name_ne_of_struct hnames hu ht hkind).symm
  · intro p i p' hrun'
    obtain ⟨row, q, hfirst, -, rfl, rfl⟩ := hrun p i p' hrun'
    obtain ⟨hgrows, -, -⟩ := h.2 p row q hfirst
    refine ⟨hgrows.trans (q.grows_addRow _ _), trivial, fun final hfinal => Or.inr ⟨_, rfl, ?_⟩⟩
    refine ⟨t, ht, rfl, Or.inr ⟨hkind, ?_⟩⟩
    have hle := (hfinal.rows t.name).length_le
    rw [rowsOf_addRow, if_pos rfl, List.length_append, List.length_singleton] at hle
    exact hle

/-- **Sub-structures that are embedded** are rows that refer to what is there. -/
theorem tracks_embedWithin (hr : r.IsSound) (hlaid : r.layout.tables = r.tables.map TablePlan.layout)
    (fuel : Nat) : EmbedTracks r c (embedWithin (.ofCatalog r c) fuel) := by
  induction fuel with
  | zero => exact fun _ _ _ => tracks_throw _
  | succ fuel ih =>
    intro target fields hdeclared
    obtain ⟨t, ht, rfl, hkind⟩ := hr.exists_struct hdeclared
    have hinstances : t.kind ≠ .interface := by rw [hkind]; decide
    obtain ⟨layout, hlayout, htable⟩ := hr.exists_tableOf ht hinstances
    have hgrows (p : Pools) := embedWithin_ensures (Pools.isKept_grows r.layout p) hr.laidOut
      (registry_ofCatalog r c) fuel
    have hrow := tracks_bakeRow hr hlaid ht hinstances htable hgrows ih (Value.field? fields)
    unfold embedWithin
    rw [registry_ofCatalog, htable]
    exact tracks_bind_addRow ht hkind hr.names hlayout hrow

/-- **A row of a record** refers to what is there. -/
theorem tracks_bakeRecord (hr : r.IsSound) (hlaid : r.layout.tables = r.tables.map TablePlan.layout)
    (ht : t ∈ r.recordTypes)
    (htable : tableOf r t.name = .ok (Registration.tablePlan r.declarations t, layout))
    (record : Record) :
    Tracks r c (bakeRecord (.ofCatalog r c) (Registration.tablePlan r.declarations t) layout record)
      (fun _ => True) fun final row => final.RowSuits r c layout row := by
  obtain ⟨hmem, -⟩ := Registry.mem_recordTypes.1 ht
  have hkind := Registry.kind_ne_interface ht
  have hgrows (p : Pools) := embedWithin_ensures (Pools.isKept_grows r.layout p) hr.laidOut
    (registry_ofCatalog r c) (Value.depthOfFields record.values.entries)
  exact tracks_bakeRow hr hlaid hmem hkind htable hgrows (tracks_embedWithin hr hlaid _) _

/-! ### Rows of records -/

/-- The rows of records among those that were written, in order. -/
def recordsIn (r : Registry) (written : List (String × List UInt8)) : List (String × List UInt8) :=
  written.filter fun e => r.recordTypes.any fun t => t.name == e.1

theorem exists_writes_bakeRecord (hr : r.IsSound)
    (hlaid : r.layout.tables = r.tables.map TablePlan.layout) (ht : t ∈ r.recordTypes)
    (hlayout : r.layout.table? t.name = some layout)
    (htable : tableOf r t.name = .ok (Registration.tablePlan r.declarations t, layout))
    {record : Record} {p p' : Pools} {row : List UInt8}
    (hrun : (bakeRecord (.ofCatalog r c) (Registration.tablePlan r.declarations t) layout record).run
      p = .ok (row, p')) :
    ∃ written, p.Writes r c written p' ∧ recordsIn r written = [(t.name, row)] := by
  have htracks := tracks_bakeRecord (c := c) hr hlaid ht htable record
  obtain ⟨⟨written, hwrites, hnone⟩, -⟩ :=
    htracks.1 p p row p' hrun ⟨[], .refl, List.forall_mem_nil _⟩
  obtain ⟨-, -, hsuits⟩ := htracks.2 p row p' hrun
  refine ⟨_, hwrites.record ht hlayout (hsuits p' (.refl p')), ?_⟩
  have hothers : recordsIn r written = [] := by
    refine List.filter_eq_nil_iff.2 fun e he hrecord => ?_
    obtain ⟨u, hu, hname⟩ := List.any_eq_true.1 hrecord
    exact hnone e he u hu (beq_iff_eq.1 hname).symm
  have hself : (r.recordTypes.any fun u => u.name == t.name) = true :=
    List.any_eq_true.2 ⟨t, ht, beq_self_eq_true _⟩
  unfold recordsIn at hothers ⊢
  rw [List.filter_append, hothers, List.nil_append]
  exact List.filter_cons_of_pos hself

/-- What is written at each element of a list is written one behind the other. -/
theorem exists_writes_mapM {α β : Type} {f : α → Baking β} {xs : List α} {ys : List β} {p p' : Pools}
    {rows : β → List (String × List UInt8)}
    (h : ∀ x ∈ xs, ∀ p y p', (f x).run p = .ok (y, p') →
      ∃ written, p.Writes r c written p' ∧ recordsIn r written = rows y)
    (hrun : (xs.mapM f).run p = .ok (ys, p')) :
    ∃ written, p.Writes r c written p' ∧ recordsIn r written = ys.flatMap rows := by
  induction xs generalizing p ys with
  | nil =>
    obtain ⟨rfl, rfl⟩ := Prod.mk.inj (Except.ok.inj hrun)
    exact ⟨[], .refl, rfl⟩
  | cons x xs ih =>
    rw [List.mapM_cons, StateT.run_bind] at hrun
    obtain ⟨⟨y, q⟩, hfirst, hrest⟩ := bind_eq_ok.1 hrun
    rw [StateT.run_bind] at hrest
    obtain ⟨⟨others, q'⟩, hothers, hlast⟩ := bind_eq_ok.1 hrest
    obtain ⟨rfl, rfl⟩ := Prod.mk.inj (Except.ok.inj hlast)
    obtain ⟨written, hwrites, hrecords⟩ := h x List.mem_cons_self p y q hfirst
    obtain ⟨more, hmore, hmoreRecords⟩ :=
      ih (fun x' hx' => h x' (List.mem_cons_of_mem _ hx')) hothers
    refine ⟨written ++ more, hwrites.trans hmore, ?_⟩
    unfold recordsIn at hrecords hmoreRecords ⊢
    rw [List.filter_append, hrecords, hmoreRecords, List.flatMap_cons]

/-- **What baking writes**: the rows of the records type by type, with those of the sub-structures
that they hold in between. -/
theorem exists_writes_of_laidDown (hr : r.IsSound)
    (hlaid : r.layout.tables = r.tables.map TablePlan.layout) {p : Pools}
    {recordRows : List (String × List (List UInt8))} (h : laidDown r c = .ok (recordRows, p)) :
    ∃ written, Pools.Writes r c .empty written p ∧
      recordsIn r written = recordRows.flatMap fun baked => baked.2.map (Prod.mk baked.1) := by
  refine exists_writes_mapM (fun t ht p baked p' hrun => ?_) h
  obtain ⟨hmem, -⟩ := Registry.mem_recordTypes.1 ht
  have hkind := Registry.kind_ne_interface ht
  obtain ⟨layout, hlayout, htable⟩ := hr.exists_tableOf hmem hkind
  unfold bakeRecords at hrun
  rw [registry_ofCatalog, htable] at hrun
  obtain ⟨⟨rows, q⟩, hrows, hlast⟩ := bind_eq_ok.1 hrun
  obtain ⟨rfl, rfl⟩ := Prod.mk.inj (Except.ok.inj hlast)
  have hall : ∃ written, p.Writes r c written q ∧
      recordsIn r written = rows.flatMap fun row => [(t.name, row)] :=
    exists_writes_mapM (fun record _ p row p' => exists_writes_bakeRecord hr hlaid ht hlayout htable)
      hrows
  obtain ⟨written, hwrites, hrecords⟩ := hall
  exact ⟨written, hwrites, hrecords.trans List.map_eq_flatMap.symm⟩

end Rows

end Container

end RecordTables
