import RecordTables.Proofs.Container.References

/-!
# Baked containers are closed

Every number that a baked container stores, in a row or in a vector that a row names, stands for
nothing or for something that is there (`OpenContainer.IsClosed`), and the rows can be put in the
order in which they were written, so that every sub-structure in a row is one of the rows before it
(`OpenContainer.IsHistory`).  Both are read off the course of the baking (`Container.Course`): what a
row referred to when it was written is still there in the end, under the same number.

The condition is that there are numbers for everything (`Container.IsNumbered`).  Nothing is asked of
the lengths of vectors and the sizes of rows, which are written with four bytes: a length that has
more is cut off (`Container.Vector.IsMeasured`).
-/

namespace RecordTables

open Schema

namespace Container

/-! ### Rows in the order of writing -/

/-- The rows of a table among those that were written, in order. -/
def rowsIn (written : List (String × List UInt8)) (table : String) : List (List UInt8) :=
  (written.filter fun e => e.1 == table).map (·.2)

section RowsIn

variable {written more : List (String × List UInt8)} {table name : String} {row : List UInt8}

theorem rowsIn_append (written more : List (String × List UInt8)) (table : String) :
    rowsIn (written ++ more) table = rowsIn written table ++ rowsIn more table := by
  unfold rowsIn
  rw [List.filter_append, List.map_append]

theorem rowsIn_cons (name : String) (row : List UInt8) (written : List (String × List UInt8))
    (table : String) :
    rowsIn ((name, row) :: written) table =
      if name = table then row :: rowsIn written table else rowsIn written table := by
  unfold rowsIn
  by_cases hname : name = table <;> simp [hname]

theorem rowsIn_map (name : String) (rows : List (List UInt8)) (table : String) :
    rowsIn (rows.map (Prod.mk name)) table = if name = table then rows else [] := by
  induction rows with
  | nil => exact (ite_self _).symm
  | cons row rows ih =>
    rw [List.map_cons, rowsIn_cons, ih]
    split_ifs <;> rfl

theorem mem_rowsIn : row ∈ rowsIn written table ↔ (table, row) ∈ written := by
  unfold rowsIn
  rw [List.mem_map]
  constructor
  · rintro ⟨e, he, rfl⟩
    obtain ⟨hmem, hname⟩ := List.mem_filter.1 he
    rw [← beq_iff_eq.1 hname]
    exact hmem
  · exact fun hmem => ⟨_, List.mem_filter.2 ⟨hmem, beq_self_eq_true _⟩, rfl⟩

/-- The rows of the records of a type stand among the rows of records. -/
theorem rowsIn_recordsIn {r : Registry} {t : ResolvedType} (ht : t ∈ r.recordTypes) :
    rowsIn (recordsIn r written) t.name = rowsIn written t.name := by
  unfold rowsIn recordsIn
  rw [List.filter_filter]
  congr 1
  refine List.filter_congr fun e _ => ?_
  by_cases hname : e.1 = t.name
  · have hrecord : (r.recordTypes.any fun u => u.name == e.1) = true :=
      List.any_eq_true.2 ⟨t, ht, beq_iff_eq.2 hname.symm⟩
    rw [hrecord, Bool.and_true]
  · rw [beq_eq_false_iff_ne.2 hname, Bool.false_and]

end RowsIn

/-! ### Lengths of vectors -/

/-- The length of a vector is the number of its elements, or what four bytes hold of it, and it has
bytes for each of them. -/
def Vector.IsMeasured (v : Vector) : Prop :=
  ∃ count, v.length = UInt32.ofNat count ∧ v.bytes.length = count * v.element.width

theorem Vector.IsMeasured.length_bytes {v : Vector} (h : v.IsMeasured)
    (hfits : v.bytes.length < 2 ^ 32 * v.element.width) :
    v.bytes.length = v.length.toNat * v.element.width := by
  obtain ⟨count, hlength, hbytes⟩ := h
  rw [hbytes] at hfits
  have hcount : count < 2 ^ 32 := Nat.lt_of_mul_lt_mul_right hfits
  rw [hlength, hbytes, UInt32.toNat_ofNat_of_lt' hcount]

/-- Bytes of elements that are written one behind the other. -/
theorem isMeasured_flatMap {α : Type} {element : Element} {pack : α → List UInt8} {xs : List α}
    (hwidth : ∀ x ∈ xs, (pack x).length = element.width) :
    (⟨element, UInt32.ofNat xs.length, xs.flatMap pack⟩ : Vector).IsMeasured := by
  refine ⟨xs.length, rfl, ?_⟩
  show (xs.flatMap pack).length = _
  rw [List.flatMap_def, length_flatten_of_forall (List.forall_mem_map.2 hwidth), List.length_map,
    Nat.mul_comm]

/-! ### What was written -/

namespace Pools

variable {r : Registry} {c : Catalog} {p q : Pools} {t : ResolvedType}
  {written : List (String × List UInt8)}

theorem vectors_intern (p : Pools) (s : String) : (p.intern s).2.vectors = p.vectors := by
  unfold intern
  split <;> rfl

/-- **Vectors are measured**, whatever is written. -/
theorem Writes.measured (h : Writes r c .empty written p) : ∀ v ∈ p.vectors, v.IsMeasured := by
  induction h with
  | refl => exact fun _ hv => nomatch hv
  | intern _ s ih =>
    rw [vectors_intern]
    exact ih
  | addIndices _ is ih =>
    unfold Pools.addIndices
    split_ifs
    · exact ih
    · refine List.forall_mem_append.2 ⟨ih, List.forall_mem_singleton.2 ?_⟩
      exact isMeasured_flatMap fun i _ => length_indexBytes i
  | addScalars _ hkind ih =>
    unfold Pools.addScalars
    split_ifs
    · exact ih
    · refine List.forall_mem_append.2 ⟨ih, List.forall_mem_singleton.2 ?_⟩
      refine isMeasured_flatMap fun s hs => ?_
      rw [s.length_bytes, hkind s hs]
      rfl
  | struct _ _ _ _ _ ih => exact ih
  | record _ _ _ _ ih => exact ih

/-- **The rows of a sub-structure** stand in its table in the order in which they were written. -/
theorem Writes.rowsOf (h : Writes r c .empty written p) (hnames : (r.types.map (·.name)).Nodup)
    (ht : t ∈ r.types) (hkind : t.kind = .struct) : p.rowsOf t.name = rowsIn written t.name := by
  induction h with
  | refl => rfl
  | @intern _ q _ s ih =>
    rw [← ih]
    exact congrArg (fun rows => (NameMap.find? rows t.name).getD []) (q.subRows_intern s)
  | @addIndices _ q _ is ih =>
    rw [← ih]
    exact congrArg (fun rows => (NameMap.find? rows t.name).getD []) (q.subRows_addIndices is)
  | @addScalars _ q _ kind ss _ ih =>
    rw [← ih]
    exact congrArg (fun rows => (NameMap.find? rows t.name).getD []) (q.subRows_addScalars kind ss)
  | @struct written q _ u _ row _ _ _ _ ih =>
    rw [rowsOf_addRow, rowsIn_append, rowsIn_cons]
    split_ifs with hname
    · rw [hname, ih]
      rfl
    · rw [ih]
      exact (List.append_nil _).symm
  | @record written q _ u _ row hu _ _ ih =>
    rw [rowsIn_append, rowsIn_cons, if_neg (Registry.name_ne_of_struct hnames hu ht hkind), ih]
    exact (List.append_nil _).symm

/-- A list with an element at its end is split there, or in front of it. -/
theorem split_concat {α : Type} {xs front back : List α} {x y : α}
    (h : xs ++ [x] = front ++ y :: back) :
    (front = xs ∧ y = x) ∨ ∃ rest, xs = front ++ y :: rest := by
  rcases List.eq_nil_or_concat back with rfl | ⟨rest, last, rfl⟩
  · obtain ⟨hfront, hlast⟩ := List.append_inj' h rfl
    exact Or.inl ⟨hfront.symm, (List.singleton_inj.1 hlast).symm⟩
  · rw [List.concat_eq_append, ← List.cons_append, ← List.append_assoc] at h
    exact Or.inr ⟨rest, (List.append_inj' h rfl).1⟩

/-- **Each row refers to what was there** when it was written. -/
theorem Writes.exists_suits (h : Writes r c .empty written p)
    {front back : List (String × List UInt8)} {name : String} {row : List UInt8}
    (hsplit : written = front ++ (name, row) :: back) :
    ∃ q, Writes r c .empty front q ∧ q.Grows p ∧ ∃ t ∈ r.types, t.kind ≠ .interface ∧
      t.name = name ∧ ∃ layout, r.layout.table? name = some layout ∧ q.RowSuits r c layout row := by
  induction h generalizing back with
  | refl => exact absurd hsplit.symm (by simp)
  | intern _ s ih =>
    obtain ⟨q, hq, hgrows, hrest⟩ := ih hsplit
    exact ⟨q, hq, hgrows.trans (grows_intern _ s), hrest⟩
  | addIndices _ is ih =>
    obtain ⟨q, hq, hgrows, hrest⟩ := ih hsplit
    exact ⟨q, hq, hgrows.trans (grows_addIndices _ is), hrest⟩
  | addScalars _ _ ih =>
    obtain ⟨q, hq, hgrows, hrest⟩ := ih hsplit
    exact ⟨q, hq, hgrows.trans (grows_addScalars _ _ _), hrest⟩
  | @struct _ _ hwrites t _ _ ht hkind hlayout hrow ih =>
    -- the row is the one that is written last, or it was written before
    rcases split_concat hsplit with ⟨rfl, hlast⟩ | ⟨rest, hrest⟩
    · obtain ⟨rfl, rfl⟩ := Prod.mk.inj hlast
      have hinstances : t.kind ≠ .interface := by rw [hkind]; decide
      exact ⟨_, hwrites, grows_addRow _ _ _, t, ht, hinstances, rfl, _, hlayout, hrow⟩
    · obtain ⟨q, hq, hgrows, hothers⟩ := ih hrest
      exact ⟨q, hq, hgrows.trans (grows_addRow _ _ _), hothers⟩
  | @record _ _ hwrites t _ _ ht hlayout hrow ih =>
    rcases split_concat hsplit with ⟨rfl, hlast⟩ | ⟨rest, hrest⟩
    · obtain ⟨rfl, rfl⟩ := Prod.mk.inj hlast
      have hmem := (Registry.mem_recordTypes.1 ht).1
      exact ⟨_, hwrites, .refl _, t, hmem, Registry.kind_ne_interface ht, rfl, _, hlayout, hrow⟩
    · exact ih hrest

end Pools

/-! ### The course of a baking -/

/-- There are fewer texts, vectors and rows of each table than numbers for them. -/
structure IsNumbered (recordRows : List (String × List (List UInt8))) (p : Pools) : Prop where
  strings : p.strings.length < 2 ^ 32 - 1
  vectors : p.vectors.length < 2 ^ 32 - 1
  records : ∀ baked ∈ recordRows, baked.2.length < 2 ^ 32 - 1
  structs : ∀ e ∈ p.subRows.entries, e.2.length < 2 ^ 32 - 1

instance (recordRows : List (String × List (List UInt8))) (p : Pools) :
    Decidable (IsNumbered recordRows p) :=
  decidable_of_iff (p.strings.length < 2 ^ 32 - 1 ∧ p.vectors.length < 2 ^ 32 - 1 ∧
    (∀ baked ∈ recordRows, baked.2.length < 2 ^ 32 - 1) ∧
    ∀ e ∈ p.subRows.entries, e.2.length < 2 ^ 32 - 1)
    ⟨fun h => ⟨h.1, h.2.1, h.2.2.1, h.2.2.2⟩, fun h => ⟨h.strings, h.vectors, h.records, h.structs⟩⟩

/-- What was laid down for a catalog, and the rows in the order in which they were written. -/
structure Course (r : Registry) (c : Catalog) (recordRows : List (String × List (List UInt8)))
    (p : Pools) (written : List (String × List UInt8)) : Prop where
  sound : r.IsSound
  laid : r.layout.tables = r.tables.map TablePlan.layout
  rows : List.Forall₂ (RowsOf r c) r.recordTypes recordRows
  writes : Pools.Writes r c .empty written p
  records : recordsIn r written = recordRows.flatMap fun baked => baked.2.map (Prod.mk baked.1)
  numbered : IsNumbered recordRows p

section Rows

variable {r : Registry} {c : Catalog} {t : ResolvedType}
  {recordRows : List (String × List (List UInt8))}

theorem rowsIn_eq_nil {types : List ResolvedType} {name : String}
    (h : List.Forall₂ (RowsOf r c) types recordRows) (hname : ∀ t ∈ types, t.name ≠ name) :
    rowsIn (recordRows.flatMap fun baked => baked.2.map (Prod.mk baked.1)) name = [] := by
  induction h with
  | nil => rfl
  | cons hrows _ ih =>
    rw [List.flatMap_cons, rowsIn_append, rowsIn_map, hrows.name,
      if_neg (hname _ List.mem_cons_self), ih fun t ht => hname t (List.mem_cons_of_mem _ ht)]
    rfl

theorem rowsIn_of_forall₂ {types : List ResolvedType}
    (h : List.Forall₂ (RowsOf r c) types recordRows) (hnames : (types.map (·.name)).Nodup)
    {baked : String × List (List UInt8)} (hmem : (t, baked) ∈ types.zip recordRows) :
    rowsIn (recordRows.flatMap fun baked => baked.2.map (Prod.mk baked.1)) t.name = baked.2 := by
  induction h with
  | nil => cases hmem
  | @cons first rows types recordRows hrows hothers ih =>
    rw [List.map_cons, List.nodup_cons] at hnames
    rw [List.zip_cons_cons, List.mem_cons] at hmem
    rw [List.flatMap_cons, rowsIn_append, rowsIn_map, hrows.name]
    rcases hmem with hfirst | hmem
    · obtain ⟨rfl, rfl⟩ := Prod.mk.inj hfirst
      have hnone : ∀ u ∈ types, u.name ≠ t.name := by
        intro u hu hname
        rw [← hname] at hnames
        exact hnames.1 (List.mem_map_of_mem hu)
      rw [if_pos rfl, rowsIn_eq_nil hothers hnone, List.append_nil]
    · have hne : first.name ≠ t.name := by
        intro hname
        rw [hname] at hnames
        exact hnames.1 (List.mem_map_of_mem (List.of_mem_zip hmem).1)
      rw [if_neg hne, List.nil_append]
      exact ih hnames.2 hmem

end Rows

namespace Course

variable {r : Registry} {c : Catalog} {p q : Pools} {t : ResolvedType} {layout : TableLayout}
  {recordRows : List (String × List (List UInt8))} {written : List (String × List UInt8)}
  {target : Target} {n : Nat}

theorem length_rowsOf (h : Course r c recordRows p written) (table : String) :
    (p.rowsOf table).length < 2 ^ 32 - 1 := by
  unfold Pools.rowsOf
  cases hfind : p.subRows.find? table with
  | none => exact Nat.zero_lt_of_lt h.numbered.strings
  | some rows => exact h.numbered.structs _ (NameMap.mem_entries_of_find? hfind)

/-- The rows of the records of a type were written in the order of the records. -/
theorem rowsIn_record (h : Course r c recordRows p written) {baked : String × List (List UInt8)}
    (hmem : (t, baked) ∈ r.recordTypes.zip recordRows) : rowsIn written t.name = baked.2 := by
  have hnames : (r.recordTypes.map (·.name)).Nodup :=
    (List.filter_sublist.map _).nodup h.sound.names
  rw [← rowsIn_recordsIn (List.of_mem_zip hmem).1, h.records]
  exact rowsIn_of_forall₂ h.rows hnames hmem

/-- The table of a type has the rows that were written for it. -/
theorem exists_table (h : Course r c recordRows p written) (ht : t ∈ r.types)
    (hkind : t.kind ≠ .interface) (hname : layout.name = t.name) :
    (rowsIn written t.name).length < 2 ^ 32 - 1 ∧ ∃ guids,
      tableOfLayout c recordRows p layout = tableOfRows layout (rowsIn written t.name) guids := by
  cases hsort : t.kind with
  | interface => exact absurd hsort hkind
  | record =>
    have hrecord : t ∈ r.recordTypes := Registry.mem_recordTypes.2 ⟨ht, hsort⟩
    obtain ⟨baked, hmem, hbaked⟩ := exists_mem_zip h.rows hrecord
    rw [h.rowsIn_record hmem]
    refine ⟨h.numbered.records _ (List.of_mem_zip hmem).2, (rowOrder c t.name).map (·.guid.text), ?_⟩
    exact tableOfLayout_of_record h.sound h.rows hmem hname
  | struct =>
    have hnone : ∀ u ∈ r.recordTypes, u.name ≠ layout.name := by
      intro u hu
      rw [hname]
      exact Registry.name_ne_of_struct h.sound.names hu ht hsort
    rw [← h.writes.rowsOf h.sound.names ht hsort]
    refine ⟨h.length_rowsOf t.name, [], ?_⟩
    rw [tableOfLayout_of_not_record h.rows hnone, hname]

/-- Whatever was there when a row was written has a number of its own. -/
theorem lt_of_has (h : Course r c recordRows p written) (hgrows : q.Grows p)
    (hhas : q.Has r c target n) : n < 2 ^ 32 - 1 := by
  have hfinal := hhas.of_grows hgrows
  cases target with
  | text => exact Nat.lt_trans hfinal h.numbered.strings
  | vector element =>
    obtain ⟨v, hv, -⟩ := hfinal
    exact Nat.lt_trans (List.getElem?_eq_some_iff.1 hv).1 h.numbered.vectors
  | row table =>
    obtain ⟨t, ht, rfl, ⟨hkind, hcount⟩ | ⟨-, hcount⟩⟩ := hfinal
    · have hrecord : t ∈ r.recordTypes := Registry.mem_recordTypes.2 ⟨ht, hkind⟩
      obtain ⟨baked, hmem, hbaked⟩ := exists_mem_zip h.rows hrecord
      rw [← hbaked.length] at hcount
      exact Nat.lt_trans hcount (h.numbered.records _ (List.of_mem_zip hmem).2)
    · exact Nat.lt_trans hcount (h.length_rowsOf t.name)

end Course

end Container

/-! ### Closed containers -/

open Container

namespace TableView

/-- The bytes of the row of a number. -/
def rowBytes (view : TableView) (n : Nat) : List UInt8 :=
  (view.table.bytes.drop (n * view.layout.rowSize)).take view.layout.rowSize

/-- The rows, by their numbers. -/
def rows (view : TableView) : List (List UInt8) :=
  (List.range view.table.rowCount.toNat).map view.rowBytes

end TableView

namespace OpenContainer

/-- There is what a number refers to. -/
def InRange (o : OpenContainer) : Target → UInt32 → Prop
  | .text, i => i.toNat < o.container.strings.length
  | .vector element, i => ∃ v, o.container.vectors[i.toNat]? = some v ∧ v.element = element
  | .row table, i => ∃ view, o.view table = .ok view ∧ i.toNat < view.table.rowCount.toNat

/-- A row stores a number, in a slot or in the vector that a slot names. -/
inductive Stores (o : OpenContainer) (view : TableView) (row : List UInt8) :
    Target → UInt32 → Prop where
  | slot {f : Field} {target : Target} {i : UInt32} (hf : f ∈ view.layout.fields)
      (htarget : f.target? = some target) (hslot : view.slotIndex row f.name = .ok i) :
      Stores o view row target i
  | element {f : Field} {target : Target} {i j : UInt32} {v : Vector} (hf : f ∈ view.layout.fields)
      (harray : f.isArray = true) (htarget : f.kind.target? = some target)
      (hslot : view.slotIndex row f.name = .ok i) (hv : o.container.vectors[i.toNat]? = some v)
      (hj : j ∈ v.numbers) : Stores o view row target j

/-- Views are those of the tables of types. -/
theorem exists_type_of_view {o : OpenContainer} {name : String} {view : TableView}
    (hr : o.registry.IsSound) (hview : o.view name = .ok view) :
    ∃ t ∈ o.registry.types, t.kind ≠ .interface ∧ t.name = name := by
  cases hplan : o.registry.table? name with
  | none =>
    unfold OpenContainer.view at hview
    rw [hplan] at hview
    split at hview
    · next hnone _ => cases hnone
    · cases hview
  | some plan =>
    have hmem := List.mem_of_find?_eq_some hplan
    have hname := List.find?_some hplan
    rw [hr.tables] at hmem
    obtain ⟨t, ht, rfl⟩ := List.mem_map.1 hmem
    obtain ⟨ht, hkind⟩ := List.mem_filter.1 ht
    exact ⟨t, ht, bne_iff_ne.1 hkind, beq_iff_eq.1 hname⟩

/-- Tables and vectors have their sizes, and every number stands for nothing or for something that is
there. -/
structure IsClosed (o : OpenContainer) : Prop where
  /-- Every table is seen by its name. -/
  tables : ∀ table ∈ o.container.tables, ∃ view, o.view table.name = .ok view ∧ view.table = table
  /-- A table has as many rows as it counts, of the size that it gives if that has four bytes. -/
  sizes : ∀ name view, o.view name = .ok view →
    view.table.bytes.length = view.layout.rowSize * view.table.rowCount.toNat ∧
    (view.layout.rowSize < 2 ^ 32 → view.table.rowSize.toNat = view.layout.rowSize)
  /-- A vector has as many elements as it counts, if their number has four bytes. -/
  vectors : ∀ v ∈ o.container.vectors, v.IsMeasured ∧
    (v.bytes.length < 2 ^ 32 * v.element.width →
      v.bytes.length = v.length.toNat * v.element.width)
  /-- Every slot for numbers holds one. -/
  slots : ∀ name view, o.view name = .ok view → ∀ row ∈ view.rows, ∀ f ∈ view.layout.fields,
    f.target? ≠ none → ∃ i, view.slotIndex row f.name = .ok i
  /-- There is what the numbers of rows and of their vectors refer to. -/
  numbers : ∀ name view, o.view name = .ok view → ∀ row ∈ view.rows, ∀ target i,
    o.Stores view row target i → i = nullIndex ∨ o.InRange target i

/-- The rows were written in this order, and each when the sub-structures in it had been written. -/
structure IsHistory (o : OpenContainer) (written : List (String × List UInt8)) : Prop where
  rows : ∀ name view, o.view name = .ok view → rowsIn written name = view.rows
  names : ∀ e ∈ written, ∃ view, o.view e.1 = .ok view
  earlier : ∀ front name row back, written = front ++ (name, row) :: back →
    ∀ view, o.view name = .ok view → ∀ t ∈ o.registry.types, t.kind = .struct →
      ∀ i, o.Stores view row (.row t.name) i → i ≠ nullIndex →
        i.toNat < (rowsIn front t.name).length

end OpenContainer

namespace Container

/-- Rows one behind the other are found by their numbers. -/
theorem rows_tableOfRows {view : TableView} {rows : List (List UInt8)} {guids : List String}
    (htable : view.table = tableOfRows view.layout rows guids) (hcount : rows.length < 2 ^ 32)
    (hsizes : ∀ row ∈ rows, row.length = view.layout.rowSize) : view.rows = rows := by
  have hrows : view.table.rowCount.toNat = rows.length := by
    rw [htable]
    exact UInt32.toNat_ofNat_of_lt' hcount
  unfold TableView.rows
  refine List.ext_getElem ?_ fun n hn hrow => ?_
  · rw [List.length_map, List.length_range, hrows]
  · rw [List.getElem_map, List.getElem_range]
    unfold TableView.rowBytes
    rw [htable]
    exact (take_drop_flatten hsizes (List.getElem?_eq_getElem hrow)).1

namespace Course

variable {r : Registry} {c : Catalog} {p q : Pools} {layout : TableLayout} {t : ResolvedType}
  {recordRows : List (String × List (List UInt8))} {written : List (String × List UInt8)}
  {overrides : Overrides} {view : TableView} {name : String} {row : List UInt8} {target : Target}
  {i : UInt32}

/-- What was laid down, as a container that is opened. -/
abbrev opened (r : Registry) (c : Catalog) (recordRows : List (String × List (List UInt8)))
    (p : Pools) (overrides : Overrides) : OpenContainer :=
  ⟨r, ofLaidDown r c recordRows p, overrides⟩

/-- The view of the table of a type shows the rows that were written for it. -/
structure ShowsRows (r : Registry) (written : List (String × List UInt8)) (t : ResolvedType)
    (view : TableView) : Prop where
  layout : r.layout.table? t.name = some view.layout
  count : (rowsIn written t.name).length < 2 ^ 32 - 1
  table : ∃ guids, view.table = tableOfRows view.layout (rowsIn written t.name) guids
  sizes : ∀ row ∈ rowsIn written t.name, row.length = view.layout.rowSize

/-- What is known of a row when it is written. -/
theorem exists_suits (h : Course r c recordRows p written) {front back : List (String × List UInt8)}
    (hsplit : written = front ++ (name, row) :: back)
    (hlayout : r.layout.table? name = some layout) :
    ∃ q, Pools.Writes r c .empty front q ∧ q.Grows p ∧ q.RowSuits r c layout row := by
  obtain ⟨q, hq, hgrows, t, ht, hkind, rfl, layout', hlayout', hsuits⟩ :=
    h.writes.exists_suits hsplit
  obtain rfl := Option.some.inj (hlayout'.symm.trans hlayout)
  exact ⟨q, hq, hgrows, hsuits⟩

theorem exists_view (h : Course r c recordRows p written) (overrides : Overrides) (ht : t ∈ r.types)
    (hkind : t.kind ≠ .interface) :
    ∃ view, (opened r c recordRows p overrides).view t.name = .ok view ∧
      ShowsRows r written t view := by
  obtain ⟨layout, hlayout⟩ := h.sound.layouts t ht hkind
  have hname := List.find?_some hlayout
  obtain ⟨hcount, htable⟩ := h.exists_table ht hkind (beq_iff_eq.1 hname)
  refine ⟨_, view_ofLaidDown h.sound ht hkind hlayout, hlayout, hcount, htable, ?_⟩
  intro row hrow
  obtain ⟨front, back, hsplit⟩ := List.append_of_mem (mem_rowsIn.1 hrow)
  obtain ⟨q, -, -, hsuits⟩ := h.exists_suits hsplit hlayout
  exact hsuits.length

/-- **Every view** shows the rows that were written for a type. -/
theorem exists_shows (h : Course r c recordRows p written)
    (hview : (opened r c recordRows p overrides).view name = .ok view) :
    ∃ t ∈ r.types, t.kind ≠ .interface ∧ t.name = name ∧ ShowsRows r written t view := by
  obtain ⟨t, ht, hkind, rfl⟩ := OpenContainer.exists_type_of_view h.sound hview
  obtain ⟨view', hview', hshows⟩ := h.exists_view overrides ht hkind
  obtain rfl := Except.ok.inj (hview'.symm.trans hview)
  exact ⟨t, ht, hkind, rfl, hshows⟩

theorem ShowsRows.rows (h : ShowsRows r written t view) : view.rows = rowsIn written t.name := by
  obtain ⟨guids, htable⟩ := h.table
  exact rows_tableOfRows htable (h.count.trans (by decide)) h.sizes

/-- Every row that a view shows was written when what it refers to was there. -/
theorem exists_suits_of_mem_rows (h : Course r c recordRows p written)
    (hview : (opened r c recordRows p overrides).view name = .ok view) (hrow : row ∈ view.rows) :
    ∃ q : Pools, q.Grows p ∧ q.RowSuits r c view.layout row := by
  obtain ⟨t, -, -, -, hshows⟩ := h.exists_shows hview
  rw [hshows.rows] at hrow
  obtain ⟨front, back, hsplit⟩ := List.append_of_mem (mem_rowsIn.1 hrow)
  obtain ⟨q, -, hgrows, hsuits⟩ := h.exists_suits hsplit hshows.layout
  exact ⟨q, hgrows, hsuits⟩

/-- A number that a row stores refers to what was there when the row was written. -/
theorem refers_of_stores (h : Course r c recordRows p written) (hgrows : q.Grows p)
    (hsuits : q.RowSuits r c view.layout row)
    (hstores : (opened r c recordRows p overrides).Stores view row target i) :
    q.Refers r c target i := by
  cases hstores with
  | @slot f _ _ hf htarget hslot =>
    obtain ⟨i', hslot', hnumber⟩ := hsuits.slots view rfl f hf (by rw [htarget]; simp)
    obtain rfl := Except.ok.inj (hslot'.symm.trans hslot)
    refine hnumber.imp_right fun hsome => ?_
    obtain ⟨n, hn, hhas, -⟩ := hsome
    exact ⟨n, hn, hhas target htarget⟩
  | @element f _ i' _ v hf harray htarget hslot hv hj =>
    have hvector : f.target? = some (.vector f.kind.element) := if_pos harray
    obtain ⟨i'', hslot', hnumber⟩ := hsuits.slots view rfl f hf (by rw [hvector]; simp)
    obtain rfl := Except.ok.inj (hslot'.symm.trans hslot)
    have hlength := (List.getElem?_eq_some_iff.1 hv).1
    rcases hnumber with rfl | ⟨n, rfl, hhas, hnumbers⟩
    · -- no vector has the number that stands for nothing
      exact absurd (hlength.trans h.numbered.vectors) (by decide)
    · have hthere := hhas _ hvector
      rw [(toNat_index (h.lt_of_has hgrows hthere)).1] at hv
      obtain ⟨v', hv', -⟩ := hthere
      have hstill := getElem?_of_prefix hgrows.vectors hv'
      obtain rfl := Option.some.inj (hstill.symm.trans hv)
      exact hnumbers harray _ hv' target htarget i hj

/-- What a number refers to in the end is in range. -/
theorem inRange_of_refers (h : Course r c recordRows p written) (hrefers : p.Refers r c target i) :
    i = nullIndex ∨ (opened r c recordRows p overrides).InRange target i := by
  refine hrefers.imp_right fun hsome => ?_
  obtain ⟨n, rfl, hhas⟩ := hsome
  have hn := (toNat_index (h.lt_of_has (.refl p) hhas)).1
  cases target with
  | text =>
    -- a text or a vector is counted in the pools
    show (UInt32.ofNat n).toNat < p.strings.length
    rw [hn]
    exact hhas
  | vector element =>
    show ∃ v, p.vectors[(UInt32.ofNat n).toNat]? = some v ∧ _
    rw [hn]
    exact hhas
  | row table =>
    -- a row is counted in its table, by the records of the catalog or by the rows written so far
    obtain ⟨t, ht, rfl, hcount⟩ := hhas
    have hkind : t.kind ≠ .interface := by
      rcases hcount with ⟨hkind, -⟩ | ⟨hkind, -⟩ <;> rw [hkind] <;> decide
    obtain ⟨view, hview, hshows⟩ := h.exists_view overrides ht hkind
    obtain ⟨guids, htable⟩ := hshows.table
    refine ⟨view, hview, ?_⟩
    rw [hn, htable]
    show n < (UInt32.ofNat (rowsIn written t.name).length).toNat
    rw [(toNat_index hshows.count).1]
    rcases hcount with ⟨hrecord, hlt⟩ | ⟨hstruct, hlt⟩
    · obtain ⟨baked, hmem, hbaked⟩ :=
        exists_mem_zip h.rows (Registry.mem_recordTypes.2 ⟨ht, hrecord⟩)
      rw [h.rowsIn_record hmem, hbaked.length]
      exact hlt
    · rw [← h.writes.rowsOf h.sound.names ht hstruct]
      exact hlt

/-- **What was laid down is closed.** -/
theorem isClosed (h : Course r c recordRows p written) (overrides : Overrides) :
    (opened r c recordRows p overrides).IsClosed where
  tables := by
    -- the table is that of a type with instances, which is laid down
    intro table htable
    obtain ⟨layout, hlayout, rfl⟩ := List.mem_map.1 htable
    have hfind := h.sound.laidOut.layout.table? hlayout
    rw [h.laid, h.sound.tables] at hlayout
    obtain ⟨plan, hplan, rfl⟩ := List.mem_map.1 hlayout
    obtain ⟨t, ht, rfl⟩ := List.mem_map.1 hplan
    obtain ⟨ht, hkind⟩ := List.mem_filter.1 ht
    rw [name_tableOfLayout]
    exact ⟨_, view_ofLaidDown h.sound ht (bne_iff_ne.1 hkind) hfind, rfl⟩
  sizes := by
    intro name view hview
    obtain ⟨t, -, -, -, hshows⟩ := h.exists_shows hview
    obtain ⟨guids, htable⟩ := hshows.table
    rw [htable]
    refine ⟨?_, fun hwidth => UInt32.toNat_ofNat_of_lt' hwidth⟩
    -- all rows are as wide as the table says
    show (rowsIn written t.name).flatten.length =
      view.layout.rowSize * (UInt32.ofNat (rowsIn written t.name).length).toNat
    rw [(toNat_index hshows.count).1, length_flatten_of_forall hshows.sizes]
  vectors := fun v hv => ⟨h.writes.measured v hv, (h.writes.measured v hv).length_bytes⟩
  slots := by
    intro name view hview row hrow f hf htarget
    obtain ⟨q, -, hsuits⟩ := h.exists_suits_of_mem_rows hview hrow
    obtain ⟨i, hslot, -⟩ := hsuits.slots view rfl f hf htarget
    exact ⟨i, hslot⟩
  numbers := by
    intro name view hview row hrow target i hstores
    -- when the row was written its numbers were in range, and what is there only grows
    obtain ⟨q, hgrows, hsuits⟩ := h.exists_suits_of_mem_rows hview hrow
    exact h.inRange_of_refers ((h.refers_of_stores hgrows hsuits hstores).of_grows hgrows)

/-- **The order in which rows were written** is a history. -/
theorem isHistory (h : Course r c recordRows p written) (overrides : Overrides) :
    (opened r c recordRows p overrides).IsHistory written where
  rows := by
    intro name view hview
    obtain ⟨t, -, -, rfl, hshows⟩ := h.exists_shows hview
    exact hshows.rows.symm
  names := by
    intro e he
    obtain ⟨front, back, hsplit⟩ := List.append_of_mem he
    obtain ⟨q, -, -, t, ht, hkind, hname, -⟩ := h.writes.exists_suits hsplit
    obtain ⟨view, hview, -⟩ := h.exists_view overrides ht hkind
    exact ⟨view, hname ▸ hview⟩
  earlier := by
    intro front name row back hsplit view hview t ht hkind i hstores hnull
    obtain ⟨u, -, -, rfl, hshows⟩ := h.exists_shows hview
    obtain ⟨q, hq, hgrows, hsuits⟩ := h.exists_suits hsplit hshows.layout
    rcases h.refers_of_stores hgrows hsuits hstores with hnone | ⟨n, rfl, hhas⟩
    · exact absurd hnone hnull
    · rw [(toNat_index (h.lt_of_has hgrows hhas)).1]
      obtain ⟨t', ht', hname, ⟨hrecord, -⟩ | ⟨-, hlt⟩⟩ := hhas
      · have hu := Registry.mem_recordTypes.2 ⟨ht', hrecord⟩
        exact absurd hname (Registry.name_ne_of_struct h.sound.names hu ht hkind)
      · rw [← hq.rowsOf h.sound.names ht hkind]
        exact hlt

end Course

end Container

end RecordTables
