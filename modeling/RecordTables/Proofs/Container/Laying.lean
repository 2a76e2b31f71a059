import RecordTables.Proofs.Container.Opening
import RecordTables.Proofs.Container.Values
import RecordTables.Proofs.NameMap
import RecordTables.Proofs.Scalar

/-!
# What is laid down stays

Baking only adds to pools (`Pools.Grows`), so what a number stands for never changes.  A step of
baking is described by what can be read in every container that is made from pools that add to the
ones it leaves (`Serves`): `Lays b A B` says that the step `b` succeeds on all pools, adds to them,
`A` holds of its answer, and `B` of reading the answer in such a container.

Sub-structures are read within a limit of nesting.  A container serves pools within a limit if the
limit is not below the number of rows of sub-structures in the pools, so a row that holds others has
one more left than they need.
-/

namespace RecordTables

open Schema

namespace Container

/-! ### Pools that grow -/

namespace Pools

variable {p p' p'' : Pools} {r : Registry}

/-- The rows of a sub-structure that have been laid down. -/
def rowsOf (p : Pools) (table : String) : List (List UInt8) := (p.subRows.find? table).getD []

/-- Something was added behind what had been laid down. -/
structure Grows (p p' : Pools) : Prop where
  strings : p.strings <+: p'.strings
  vectors : p.vectors <+: p'.vectors
  rows : ∀ table, p.rowsOf table <+: p'.rowsOf table

theorem Grows.refl (p : Pools) : p.Grows p where
  strings := List.prefix_rfl
  vectors := List.prefix_rfl
  rows := fun _ => List.prefix_rfl

theorem Grows.trans (h : p.Grows p') (h' : p'.Grows p'') : p.Grows p'' where
  strings := h.strings.trans h'.strings
  vectors := h.vectors.trans h'.vectors
  rows := fun table => (h.rows table).trans (h'.rows table)

theorem grows_intern (p : Pools) (s : String) : p.Grows (p.intern s).2 := by
  unfold intern
  split
  · exact .refl p
  · exact ⟨List.prefix_append _ _, List.prefix_rfl, fun _ => List.prefix_rfl⟩

theorem grows_addVector (p : Pools) (element : Element) (length : Nat) (bytes : List UInt8) :
    p.Grows (p.addVector element length bytes).2 :=
  ⟨List.prefix_rfl, List.prefix_append _ _, fun _ => List.prefix_rfl⟩

theorem rowsOf_addRow (p : Pools) (table other : String) (row : List UInt8) :
    (p.addRow table row).2.rowsOf other =
      if table = other then p.rowsOf table ++ [row] else p.rowsOf other := by
  unfold rowsOf addRow
  rw [NameMap.find?_insert]
  split_ifs <;> rfl

theorem grows_addRow (p : Pools) (table : String) (row : List UInt8) :
    p.Grows (p.addRow table row).2 := by
  refine ⟨List.prefix_rfl, List.prefix_rfl, fun other => ?_⟩
  rw [rowsOf_addRow]
  split_ifs with hname
  · rw [hname]
    exact List.prefix_append _ _
  · exact List.prefix_rfl

/-! ### Rows of sub-structures -/

/-- How many rows of sub-structures have been laid down. -/
def rowCount (r : Registry) (p : Pools) : Nat :=
  (r.layout.tables.map fun l =>
    if r.recordTypes.any (·.name == l.name) then 0 else (p.rowsOf l.name).length).sum

theorem Grows.rowCount_le (h : p.Grows p') : p.rowCount r ≤ p'.rowCount r := by
  refine List.sum_le_sum fun l _ => ?_
  split_ifs
  · exact Nat.le_refl 0
  · exact (h.rows l.name).length_le

/-- One row more. -/
theorem rowCount_addRow {l : TableLayout} (hl : l ∈ r.layout.tables)
    (hname : ∀ t ∈ r.recordTypes, t.name ≠ l.name) (row : List UInt8) :
    p.rowCount r < (p.addRow l.name row).2.rowCount r := by
  have hstruct : ¬(r.recordTypes.any fun t => t.name == l.name) = true := by
    rw [List.any_eq_true]
    rintro ⟨t, ht, hsame⟩
    exact hname t ht (beq_iff_eq.1 hsame)
  refine List.sum_lt_sum _ _ (fun other _ => ?_) ⟨l, hl, ?_⟩
  · split_ifs
    · exact Nat.le_refl 0
    · exact ((grows_addRow p l.name row).rows other.name).length_le
  · rw [if_neg hstruct, if_neg hstruct, rowsOf_addRow, if_pos rfl, List.length_append,
      List.length_singleton]
    exact Nat.lt_succ_self _

/-! ### Numbers that fit -/

/-- The numbers of texts, vectors and rows of sub-structures are below the one that stands for
nothing, and the lengths of vectors have four bytes. -/
structure Fit (p : Pools) : Prop where
  strings : p.strings.length < 2 ^ 32 - 1
  vectors : p.vectors.length < 2 ^ 32 - 1
  elements : ∀ v ∈ p.vectors, v.bytes.length < 2 ^ 32 * v.element.width
  rows : ∀ e ∈ p.subRows.entries, e.2.length < 2 ^ 32 - 1

instance (p : Pools) : Decidable p.Fit :=
  decidable_of_iff (p.strings.length < 2 ^ 32 - 1 ∧ p.vectors.length < 2 ^ 32 - 1 ∧
    (∀ v ∈ p.vectors, v.bytes.length < 2 ^ 32 * v.element.width) ∧
    ∀ e ∈ p.subRows.entries, e.2.length < 2 ^ 32 - 1)
    ⟨fun h => ⟨h.1, h.2.1, h.2.2.1, h.2.2.2⟩, fun h => ⟨h.strings, h.vectors, h.elements, h.rows⟩⟩

theorem Fit.rowsOf (h : p.Fit) (table : String) : (p.rowsOf table).length < 2 ^ 32 - 1 := by
  unfold Pools.rowsOf
  cases hfind : p.subRows.find? table with
  | none => exact Nat.zero_lt_of_lt h.strings
  | some rows => exact h.rows _ (NameMap.mem_entries_of_find? hfind)

end Pools

theorem getElem?_of_prefix {α : Type} {xs ys : List α} {x : α} {n : Nat} (h : xs <+: ys)
    (hx : xs[n]? = some x) : ys[n]? = some x := by
  obtain ⟨more, rfl⟩ := h
  rw [List.getElem?_append_left (List.getElem?_eq_some_iff.1 hx).1, hx]

theorem toNat_index {n : Nat} (h : n < 2 ^ 32 - 1) :
    (UInt32.ofNat n).toNat = n ∧ UInt32.ofNat n ≠ nullIndex := by
  have hnat : (UInt32.ofNat n).toNat = n := UInt32.toNat_ofNat_of_lt' (by show n < 2 ^ 32; omega)
  refine ⟨hnat, fun hnull => ?_⟩
  have hvalue := congrArg UInt32.toNat hnull
  rw [hnat] at hvalue
  have : nullIndex.toNat = 4294967295 := rfl
  omega

/-! ### Containers made from pools -/

/-- An open container holds what the pools hold, and the rows of the records of a catalog. -/
structure MadeFrom (r : Registry) (c : Catalog) (p : Pools) (o : OpenContainer) : Prop where
  registry : o.registry = r
  strings : o.container.strings = p.strings
  vectors : o.container.vectors = p.vectors
  record : ∀ t ∈ r.recordTypes, ∃ view, o.view t.name = .ok view ∧
    view.table.guids = (rowOrder c t.name).map (·.guid.text) ∧
    view.table.rowCount.toNat = (rowOrder c t.name).length
  struct : ∀ t ∈ r.types, t.kind = .struct → ∀ layout, r.layout.table? t.name = some layout →
    o.view t.name = .ok ⟨tableOfRows layout (p.rowsOf t.name) [],
      Registration.tablePlan r.declarations t, layout⟩
  fit : p.Fit
  rowsFit : ∀ t ∈ r.recordTypes, (rowOrder c t.name).length < 2 ^ 32 - 1
  widthsFit : r.WidthsFit
  sized : p.Sized r.layout

/-- An open container is made from pools that add to these, and within the limit there is one
sub-structure for every row of these. -/
def Serves (r : Registry) (c : Catalog) (p : Pools) (o : OpenContainer) (limit : Nat) : Prop :=
  p.rowCount r ≤ limit ∧ ∃ final, MadeFrom r c final o ∧ p.Grows final

theorem Serves.of_grows {r : Registry} {c : Catalog} {p p' : Pools} {o : OpenContainer}
    {limit : Nat} (h : Serves r c p' o limit) (hgrows : p.Grows p') : Serves r c p o limit := by
  obtain ⟨hlimit, final, hmade, hfinal⟩ := h
  exact ⟨hgrows.rowCount_le.trans hlimit, final, hmade, hgrows.trans hfinal⟩

/-- The step succeeds on all pools and adds to them, `A` holds of its answer, and `B` of its answer in
every container that serves the pools it leaves. -/
def Lays {α : Type} (r : Registry) (c : Catalog) (b : Baking α) (A : α → Prop)
    (B : OpenContainer → Nat → α → Prop) : Prop :=
  ∀ p, ∃ x p', b.run p = .ok (x, p') ∧ p.Grows p' ∧ A x ∧
    ∀ o limit, Serves r c p' o limit → B o limit x

section Lays

variable {α β : Type} {r : Registry} {c : Catalog} {b : Baking α} {A A' : α → Prop}
  {B B' : OpenContainer → Nat → α → Prop} {C : β → Prop} {D : OpenContainer → Nat → β → Prop}

theorem Lays.mono (h : Lays r c b A B) (hA : ∀ x, A x → A' x)
    (hB : ∀ o limit x, (∃ p, Serves r c p o limit) → A x → B o limit x → B' o limit x) :
    Lays r c b A' B' := by
  intro p
  obtain ⟨x, p', hrun, hgrows, hx, hread⟩ := h p
  exact ⟨x, p', hrun, hgrows, hA x hx, fun o limit ho => hB o limit x ⟨p', ho⟩ hx (hread o limit ho)⟩

theorem lays_pure {x : α} (hA : A x) (hB : ∀ o limit, (∃ p, Serves r c p o limit) → B o limit x) :
    Lays r c (pure x) A B :=
  fun p => ⟨x, p, rfl, .refl p, hA, fun o limit ho => hB o limit ⟨p, ho⟩⟩

theorem lays_modifyGet {f : Pools → α × Pools} (hgrows : ∀ p : Pools, p.Grows (f p).2)
    (hA : ∀ p, A (f p).1)
    (hB : ∀ p o limit, Serves r c (f p).2 o limit → B o limit (f p).1) :
    Lays r c (modifyGet f) A B :=
  fun p => ⟨(f p).1, (f p).2, rfl, hgrows p, hA p, hB p⟩

/-- One step after the other: what is read of the first answer is still read. -/
theorem Lays.bind {next : α → Baking β} (h : Lays r c b A B)
    (hnext : ∀ x, A x → Lays r c (next x) C fun o limit y => B o limit x → D o limit y) :
    Lays r c (b >>= next) C D := by
  intro p
  obtain ⟨x, p', hrun, hgrows, hx, hread⟩ := h p
  obtain ⟨y, p'', hrun', hgrows', hy, hread'⟩ := hnext x hx p'
  refine ⟨y, p'', ?_, hgrows.trans hgrows', hy, fun o limit ho => ?_⟩
  · rw [StateT.run_bind, hrun]
    exact hrun'
  · exact hread' o limit ho (hread o limit (ho.of_grows hgrows'))

theorem Lays.map {f : α → β} (h : Lays r c b A B) (hC : ∀ x, A x → C (f x))
    (hD : ∀ o limit x, A x → B o limit x → D o limit (f x)) : Lays r c (f <$> b) C D := by
  rw [map_eq_pure_bind]
  exact h.bind fun x hx => lays_pure (hC x hx) fun o limit _ hread => hD o limit x hx hread

/-- Going through a list lays down every element. -/
theorem lays_mapM {f : α → Baking β} {S : α → β → Prop}
    {T : OpenContainer → Nat → α → β → Prop} {xs : List α}
    (h : ∀ x ∈ xs, Lays r c (f x) (S x) fun o limit y => T o limit x y) :
    Lays r c (xs.mapM f) (List.Forall₂ S xs) fun o limit ys => List.Forall₂ (T o limit) xs ys := by
  induction xs with
  | nil => exact lays_pure .nil fun _ _ _ => .nil
  | cons x xs ih =>
    rw [List.mapM_cons]
    refine (h x List.mem_cons_self).bind fun y hy => ?_
    refine (ih fun x' hx' => h x' (List.mem_cons_of_mem _ hx')).bind fun ys hys => ?_
    exact lays_pure (.cons hy hys) fun o limit _ hothers hfirst => .cons hfirst hothers

theorem lays_of_except {e : Except ContainerError α} {x : α} (h : e = .ok x) (hA : A x)
    (hB : ∀ o limit, (∃ p, Serves r c p o limit) → B o limit x) : Lays r c (liftM e) A B := by
  rw [h]
  exact lays_pure hA hB

end Lays

/-! ### Texts and vectors -/

section Pools

variable {r : Registry} {c : Catalog} {p : Pools} {o : OpenContainer} {limit n : Nat}

theorem Serves.string (h : Serves r c p o limit) {s : String} (hs : p.strings[n]? = some s) :
    UInt32.ofNat n ≠ nullIndex ∧ o.string (UInt32.ofNat n) = .ok s := by
  obtain ⟨-, final, hmade, hgrows⟩ := h
  have hfinal : final.strings[n]? = some s := getElem?_of_prefix hgrows.strings hs
  have hlt := (List.getElem?_eq_some_iff.1 hfinal).1
  obtain ⟨hnat, hnull⟩ := toNat_index (hlt.trans hmade.fit.strings)
  refine ⟨hnull, ?_⟩
  unfold OpenContainer.string
  rw [hnat, hmade.strings, hfinal]

theorem lays_intern (s : String) :
    Lays r c (modifyGet (·.intern s)) (fun _ => True) fun o _ i =>
      i ≠ nullIndex ∧ o.string i = .ok s := by
  refine lays_modifyGet (fun p => p.grows_intern s) (fun _ => trivial) fun p o limit => ?_
  unfold Pools.intern
  split
  · next n hn =>
    intro ho
    refine ho.string ?_
    obtain ⟨hlt, hsame, -⟩ := List.findIdx?_eq_some_iff_getElem.1 hn
    rw [List.getElem?_eq_getElem hlt, beq_iff_eq.1 hsame]
  · intro ho
    exact ho.string List.getElem?_concat_length

/-- A vector of elements of one width is read as the bytes of each element. -/
theorem Serves.vector {α : Type} (h : Serves r c p o limit) {element : Element}
    {pack : α → List UInt8} {xs : List α} (hwidth : ∀ x ∈ xs, (pack x).length = element.width)
    (hv : p.vectors[n]? = some ⟨element, UInt32.ofNat xs.length, xs.flatMap pack⟩) :
    o.vector (UInt32.ofNat n) element = .ok (xs.map pack) := by
  obtain ⟨-, final, hmade, hgrows⟩ := h
  have hfinal : final.vectors[n]? = some ⟨element, UInt32.ofNat xs.length, xs.flatMap pack⟩ :=
    getElem?_of_prefix hgrows.vectors hv
  have hlt := (List.getElem?_eq_some_iff.1 hfinal).1
  obtain ⟨hnat, hnull⟩ := toNat_index (hlt.trans hmade.fit.vectors)
  have hbytes : (xs.flatMap pack).length = xs.length * element.width := by
    rw [List.flatMap_def, length_flatten_of_forall (n := element.width), List.length_map, Nat.mul_comm]
    exact List.forall_mem_map.2 hwidth
  have hfit : (xs.flatMap pack).length < 2 ^ 32 * element.width :=
    hmade.fit.elements _ (List.mem_of_getElem? hfinal)
  have hlength : (UInt32.ofNat xs.length).toNat = xs.length := by
    rw [hbytes] at hfit
    exact UInt32.toNat_ofNat_of_lt' (Nat.lt_of_mul_lt_mul_right hfit)
  unfold OpenContainer.vector
  rw [if_neg hnull, hnat, hmade.vectors, hfinal]
  dsimp only
  rw [if_pos ⟨rfl, by rw [hlength, hbytes]⟩, hlength, OpenContainer.chunks_flatMap hwidth]

theorem Serves.vectorIndices (h : Serves r c p o limit) {is : List UInt32}
    (hv : p.vectors[n]? = some ⟨.index, UInt32.ofNat is.length, is.flatMap indexBytes⟩) :
    o.vectorIndices (UInt32.ofNat n) = .ok is := by
  unfold OpenContainer.vectorIndices
  rw [h.vector (fun i _ => length_indexBytes i) hv]
  refine congrArg Except.ok ((List.map_map ..).trans ?_)
  exact List.map_id'' OpenContainer.indexOf_indexBytes is

theorem Serves.vectorScalars (h : Serves r c p o limit) {kind : ScalarKind} {ss : List Scalar}
    (hkind : ∀ s ∈ ss, s.kind = kind)
    (hv : p.vectors[n]? = some ⟨.scalar kind, UInt32.ofNat ss.length, ss.flatMap Scalar.bytes⟩) :
    o.vectorScalars (UInt32.ofNat n) kind = .ok ss := by
  have hwidth : ∀ s ∈ ss, s.bytes.length = (Element.scalar kind).width := by
    intro s hs
    rw [s.length_bytes, hkind s hs]
    rfl
  unfold OpenContainer.vectorScalars
  rw [h.vector hwidth hv, ok_bind, mapM_eq_ok, List.forall₂_map_left_iff, List.forall₂_same]
  intro s hs
  rw [← hkind s hs, s.ofBytes?_bytes]

theorem lays_addIndices (is : List UInt32) :
    Lays r c (modifyGet (·.addIndices is)) (fun _ => True) fun o _ i =>
      o.vectorIndices i = .ok is := by
  cases is with
  | nil => exact lays_modifyGet (fun p => .refl p) (fun _ => trivial) fun p o limit _ => rfl
  | cons i is =>
    refine lays_modifyGet (fun p => p.grows_addVector _ _ _) (fun _ => trivial)
      fun p o limit ho => ?_
    exact ho.vectorIndices List.getElem?_concat_length

theorem lays_addScalars {kind : ScalarKind} {ss : List Scalar} (hkind : ∀ s ∈ ss, s.kind = kind) :
    Lays r c (modifyGet (·.addScalars kind ss)) (fun _ => True) fun o _ i =>
      o.vectorScalars i kind = .ok ss := by
  cases ss with
  | nil => exact lays_modifyGet (fun p => .refl p) (fun _ => trivial) fun p o limit _ => rfl
  | cons s ss =>
    refine lays_modifyGet (fun p => p.grows_addVector _ _ _) (fun _ => trivial)
      fun p o limit ho => ?_
    exact ho.vectorScalars hkind List.getElem?_concat_length

end Pools

end Container

end RecordTables
