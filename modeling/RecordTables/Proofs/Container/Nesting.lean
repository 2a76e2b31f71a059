import RecordTables.Proofs.Container.Closed
import RecordTables.Proofs.Layout.Assembly

/-!
# Reading sub-structures ends

`Registration.bake_closed`: a container that was baked is closed, and its rows have a history,
whatever the values of the records are.  A sub-structure in a row was written before the row, so
going from rows to the sub-structures in them ends (`OpenContainer.IsHistory.wellFounded`), although
a type of sub-structures may hold lists of itself and so sets no bound.

The reader goes down with a limit.  What it reads of a row does not depend on the limit if that is
above the place of the row in the history (`OpenContainer.IsHistory.readStruct_eq`), and there are
fewer places than `OpenContainer.nestingLimit`; so the reader never gives up
(`OpenContainer.ReadsToEnd`).
-/

namespace RecordTables

open Schema Container

/-- The fault tells that the reader went down to its limit. -/
def ContainerError.IsEndless : ContainerError → Prop
  | corrupt (.endless _) => True
  | _ => False

theorem ContainerError.IsEndless.not_isUnfit {e : ContainerError} (h : e.IsEndless) :
    ¬e.IsUnfit := by
  unfold ContainerError.IsEndless at h
  split at h
  · exact id
  · exact h.elim

/-- The slot of what is embedded holds the number of a row, or of a vector of such numbers. -/
theorem PropertyPlan.kind_of_read_embedded {d : Declarations} {table target : String} {p : Property}
    (h : (ofProperty d table p).read = .embedded target) {f : Field}
    (hf : f ∈ (ofProperty d table p).fields) :
    f.kind = .row target ∧ f.isArray = (ofProperty d table p).isList := by
  obtain ⟨name, shape⟩ := p
  cases shape with
  | identifier => cases h
  | single vt | list vt =>
    cases vt with
    | embedded target' =>
      cases h
      rw [List.mem_singleton.1 hf]
      exact ⟨rfl, rfl⟩
    | _ => cases h

namespace Container

/-! ### Places in the order of writing -/

section Places

variable {written : List (String × List UInt8)} {name : String} {n : Nat}

/-- Row `n` of a table is at place `k` of those that were written. -/
def IsPlacedAt (written : List (String × List UInt8)) (name : String) (n k : Nat) : Prop :=
  ∃ front row back, written = front ++ (name, row) :: back ∧ (rowsIn front name).length = n ∧
    front.length = k

theorem exists_isPlacedAt (h : n < (rowsIn written name).length) :
    ∃ k < written.length, IsPlacedAt written name n k := by
  induction written generalizing n with
  | nil => cases h
  | cons e rest ih =>
    obtain ⟨first, row⟩ := e
    -- a place behind the first row is one further on in the whole
    have hbehind {m k : Nat} (hk : IsPlacedAt rest name m k) : IsPlacedAt ((first, row) :: rest) name
        ((rowsIn [(first, row)] name).length + m) (k + 1) := by
      obtain ⟨front, row', back, rfl, rfl, rfl⟩ := hk
      refine ⟨(first, row) :: front, row', back, rfl, ?_, rfl⟩
      rw [← List.singleton_append, rowsIn_append, List.length_append]
    rw [rowsIn_cons] at h
    by_cases hname : first = name
    · cases n with
      | zero => exact ⟨0, Nat.zero_lt_succ _, [], row, rest, by rw [hname]; rfl, rfl, rfl⟩
      | succ n =>
        rw [if_pos hname, List.length_cons] at h
        obtain ⟨k, hk, hplaced⟩ := ih (Nat.lt_of_succ_lt_succ h)
        refine ⟨k + 1, Nat.succ_lt_succ hk, ?_⟩
        have hplaced := hbehind hplaced
        rw [rowsIn_cons, if_pos hname, List.length_cons, Nat.add_comm] at hplaced
        exact hplaced
    · rw [if_neg hname] at h
      obtain ⟨k, hk, hplaced⟩ := ih h
      refine ⟨k + 1, Nat.succ_lt_succ hk, ?_⟩
      have hplaced := hbehind hplaced
      rw [rowsIn_cons, if_neg hname] at hplaced
      rwa [show (rowsIn [] name).length + n = n from Nat.zero_add n] at hplaced

/-- There are not more rows than the tables count. -/
theorem length_lt_foldr {tables : List Table}
    (hcount : ∀ table ∈ tables, (rowsIn written table.name).length ≤ table.rowCount.toNat)
    (hnames : ∀ e ∈ written, ∃ table ∈ tables, table.name = e.1) :
    written.length < tables.foldr (fun t n => t.rowCount.toNat + n) 1 := by
  -- the rows of the first table are as many as it counts, the others are those of other tables
  induction tables generalizing written with
  | nil =>
    cases written with
    | nil => exact Nat.zero_lt_one
    | cons e _ =>
      obtain ⟨table, hmem, -⟩ := hnames e List.mem_cons_self
      cases hmem
  | cons first tables ih =>
    have hfirst := hcount first List.mem_cons_self
    have hothers := @ih (written.filter fun e => !(e.1 == first.name)) (fun table htable => ?_) ?_
    · have hsplit := List.length_eq_length_filter_add (l := written) fun e => e.1 == first.name
      unfold rowsIn at hfirst
      rw [List.length_map] at hfirst
      rw [List.foldr_cons]
      omega
    · refine Nat.le_trans ?_ (hcount table (List.mem_cons_of_mem _ htable))
      unfold rowsIn
      rw [List.length_map, List.length_map]
      exact (List.filter_sublist.filter _).length_le
    · intro e he
      obtain ⟨hmem, hother⟩ := List.mem_filter.1 he
      obtain ⟨table, htable, hname⟩ := hnames e hmem
      rcases List.mem_cons.1 htable with rfl | htable
      · rw [hname, beq_self_eq_true] at hother
        cases hother
      · exact ⟨table, htable, hname⟩

end Places

end Container

namespace OpenContainer

variable {o : OpenContainer} {written : List (String × List UInt8)} {outer inner : String × Nat}
  {name : String} {view : TableView} {row : List UInt8} {i : UInt32} {k n : Nat}

/-! ### Rows that hold rows -/

/-- A row, told by its table and number, holds a row of a sub-structure. -/
def Holds (o : OpenContainer) (outer inner : String × Nat) : Prop :=
  (∃ t ∈ o.registry.types, t.kind = .struct ∧ t.name = inner.1) ∧
    ∃ view, o.view outer.1 = .ok view ∧ outer.2 < view.table.rowCount.toNat ∧
      ∃ i, o.Stores view (view.rowBytes outer.2) (.row inner.1) i ∧ i ≠ nullIndex ∧
        i.toNat = inner.2

namespace IsHistory

/-- Every row has a place. -/
theorem exists_place (h : o.IsHistory written) (hview : o.view name = .ok view)
    (hn : n < view.table.rowCount.toNat) : ∃ k < written.length, IsPlacedAt written name n k := by
  refine exists_isPlacedAt ?_
  rw [h.rows name view hview]
  unfold TableView.rows
  rw [List.length_map, List.length_range]
  exact hn

/-- The row at a place is the one of its number. -/
theorem row_eq (h : o.IsHistory written) {front back : List (String × List UInt8)}
    (hsplit : written = front ++ (name, row) :: back) (hview : o.view name = .ok view) :
    view.rowBytes (rowsIn front name).length = row := by
  have hrows := h.rows name view hview
  rw [hsplit, rowsIn_append, rowsIn_cons, if_pos rfl] at hrows
  have hget : view.rows[(rowsIn front name).length]? = some row := by
    rw [← hrows, List.getElem?_append_right (Nat.le_refl _), Nat.sub_self]
    rfl
  unfold TableView.rows at hget
  rw [List.getElem?_map] at hget
  obtain ⟨m, hm, hrow⟩ := Option.map_eq_some_iff.1 hget
  obtain ⟨hlt, rfl⟩ := List.getElem?_eq_some_iff.1 hm
  rw [List.getElem_range] at hrow
  exact hrow

/-- **A sub-structure has its place before the row that holds it.** -/
theorem exists_lt_place (h : o.IsHistory written) (hplaced : IsPlacedAt written outer.1 outer.2 k)
    (hholds : o.Holds outer inner) : ∃ j < k, IsPlacedAt written inner.1 inner.2 j := by
  obtain ⟨front, row, back, hsplit, hn, rfl⟩ := hplaced
  obtain ⟨⟨t, ht, hkind, hname⟩, view, hview, -, i, hstores, hnull, hi⟩ := hholds
  rw [← hn, h.row_eq hsplit hview, ← hname] at hstores
  have hlt := h.earlier front _ row back hsplit view hview t ht hkind i hstores hnull
  rw [hi, hname] at hlt
  obtain ⟨j, hj, front', row', back', hfront, hcount, hplace⟩ := exists_isPlacedAt hlt
  refine ⟨j, hj, front', row', back' ++ (outer.1, row) :: back, ?_, hcount, hplace⟩
  rw [hsplit, hfront, List.append_assoc, List.cons_append]

/-- **Going from rows to the sub-structures in them ends.** -/
theorem wellFounded (h : o.IsHistory written) :
    WellFounded fun inner outer => o.Holds outer inner := by
  have hplaced : ∀ k outer, IsPlacedAt written outer.1 outer.2 k →
      Acc (fun inner outer => o.Holds outer inner) outer := by
    intro k
    induction k using Nat.strong_induction_on with
    | _ k ih =>
      intro outer hplaced
      refine Acc.intro outer fun inner hholds => ?_
      obtain ⟨j, hj, hinner⟩ := h.exists_lt_place hplaced hholds
      exact ih j hj inner hinner
  refine WellFounded.intro fun outer => Acc.intro outer fun inner hholds => ?_
  obtain ⟨-, view, hview, hn, -⟩ := id hholds
  obtain ⟨k, -, houter⟩ := h.exists_place hview hn
  obtain ⟨j, -, hinner⟩ := h.exists_lt_place houter hholds
  exact hplaced j inner hinner

end IsHistory

/-! ### What reading a row asks for -/

section Reading

variable {nested nested' : String → UInt32 → Except ContainerError Value} {q : PropertyPlan}
  {first target : String} {j : UInt32}

theorem structValue_congr_at (h : j ≠ nullIndex → nested target j = nested' target j) :
    structValue nested target j = structValue nested' target j := by
  unfold structValue
  split_ifs with hnull
  · rfl
  · exact h hnull

/-- The numbers that the reader takes from a vector are those in it. -/
theorem mem_numbers_of_vectorIndices {is : List UInt32} (h : o.vectorIndices i = .ok is)
    (hj : j ∈ is) : ∃ v, o.container.vectors[i.toNat]? = some v ∧ j ∈ v.numbers := by
  unfold vectorIndices at h
  obtain ⟨parts, hparts, rfl⟩ := map_eq_ok.1 h
  unfold vector at hparts
  split_ifs at hparts with hnull
  · obtain rfl := Except.ok.inj hparts
    cases hj
  · split at hparts
    · cases hparts
    · next v hv =>
      split_ifs at hparts with hsizes
      obtain rfl := Except.ok.inj hparts
      have hcount : v.bytes.length / indexWidth = v.length.toNat := by
        rw [hsizes.2]
        exact Nat.mul_div_cancel _ (by decide)
      refine ⟨v, hv, ?_⟩
      unfold Vector.numbers
      rw [hcount]
      exact hj

/-- A single value asks for no other sub-structure than the one that its slot tells. -/
theorem readSingle_congr {f : Field} (hf : f ∈ view.layout.fields)
    (hkind : ∀ target, q.read = .embedded target → f.target? = some (.row target))
    (h : ∀ target, q.read = .embedded target → ∀ j, o.Stores view row (.row target) j →
      j ≠ nullIndex → nested target j = nested' target j) :
    o.readSingle nested view q row f.name = o.readSingle nested' view q row f.name := by
  unfold readSingle
  cases hread : q.read with
  | embedded target =>
    dsimp only
    cases hslot : view.slotIndex row f.name with
    | error e => rfl
    | ok i =>
      rw [ok_bind, ok_bind]
      exact structValue_congr_at (h target hread i (.slot hf (hkind target hread) hslot))
  | _ => rfl

/-- A list asks for no other sub-structures than those in the vector that its slot tells. -/
theorem readList_congr {f : Field} (hf : f ∈ view.layout.fields)
    (hkind : ∀ target, q.read = .embedded target →
      f.isArray = true ∧ f.kind.target? = some (.row target))
    (h : ∀ target, q.read = .embedded target → ∀ j, o.Stores view row (.row target) j →
      j ≠ nullIndex → nested target j = nested' target j) :
    o.readList nested view q row f.name = o.readList nested' view q row f.name := by
  unfold readList
  cases hread : q.read with
  | embedded target =>
    dsimp only
    cases hslot : view.slotIndex row f.name with
    | error e => rfl
    | ok i =>
      rw [ok_bind, ok_bind]
      cases his : o.vectorIndices i with
      | error e => rfl
      | ok is =>
        rw [ok_bind, ok_bind]
        refine mapM_congr fun j hj => structValue_congr_at ?_
        obtain ⟨v, hv, hmem⟩ := mem_numbers_of_vectorIndices his hj
        obtain ⟨harray, htarget⟩ := hkind target hread
        exact h target hread j (.element hf harray htarget hslot hv hmem)
  | _ => rfl

/-- **Reading a property asks for no other sub-structures than those that the row stores.** -/
theorem readProperty_congr {d : Declarations} {table : String} {p : Property}
    (hfields : ∀ f ∈ (PropertyPlan.ofProperty d table p).fields, f ∈ view.layout.fields)
    (h : ∀ target, p.shape.element? = some (.embedded target) → ∀ j,
      o.Stores view row (.row target) j → j ≠ nullIndex → nested target j = nested' target j) :
    o.readProperty nested view (.ofProperty d table p) row =
      o.readProperty nested' view (.ofProperty d table p) row := by
  have hasked : ∀ target, (PropertyPlan.ofProperty d table p).read = .embedded target → ∀ j,
      o.Stores view row (.row target) j → j ≠ nullIndex → nested target j = nested' target j :=
    fun target hread => h target (PropertyPlan.element?_of_read hread)
  unfold readProperty
  split
  · rfl
  · next first rest hfirst =>
    have hmem : first ∈ (PropertyPlan.ofProperty d table p).write.slots := by
      rw [hfirst]
      exact List.mem_cons_self
    rw [PropertyPlan.slots_ofProperty] at hmem
    obtain ⟨f, hf, rfl⟩ := List.mem_map.1 hmem
    -- only a slot for rows holds the number of a nested row
    split_ifs with hlist
    · refine congrArg (Value.list <$> ·) ?_
      refine readList_congr (hfields f hf) (fun target hread => ?_) hasked
      obtain ⟨hkind, harray⟩ := PropertyPlan.kind_of_read_embedded hread hf
      exact ⟨harray.trans hlist, by rw [hkind]; rfl⟩
    · refine readSingle_congr (hfields f hf) (fun target hread => ?_) hasked
      obtain ⟨hkind, harray⟩ := PropertyPlan.kind_of_read_embedded hread hf
      unfold Field.target?
      rw [harray, if_neg hlist, hkind]
      rfl

/-! ### Faults of reading -/

theorem not_isEndless_of_isUnfit {α : Type} {x : Except ContainerError α}
    (h : Avoids (fun e => ¬e.IsUnfit) x) : Avoids ContainerError.IsEndless x :=
  h.mono fun _ hendless => hendless.not_isUnfit

theorem not_isEndless_slotBytes (view : TableView) (row : List UInt8) (slot : String) :
    Avoids ContainerError.IsEndless (view.slotBytes row slot) := by
  unfold TableView.slotBytes
  split
  · split_ifs
    · exact avoids_ok _
    · exact avoids_error id
  · exact avoids_error id

theorem not_isEndless_slotIndex (view : TableView) (row : List UInt8) (slot : String) :
    Avoids ContainerError.IsEndless (view.slotIndex row slot) :=
  (not_isEndless_slotBytes view row slot).map _

theorem not_isEndless_slotScalar (view : TableView) (row : List UInt8) (slot : String)
    (kind : ScalarKind) : Avoids ContainerError.IsEndless (view.slotScalar row slot kind) := by
  unfold TableView.slotScalar
  refine (not_isEndless_slotBytes view row slot).bind fun bytes _ => ?_
  split
  · exact avoids_ok _
  · exact avoids_error id

theorem not_isEndless_view (o : OpenContainer) (name : String) :
    Avoids ContainerError.IsEndless (o.view name) := by
  unfold OpenContainer.view
  split
  · exact avoids_ok _
  · exact avoids_error id

theorem not_isEndless_refValue (o : OpenContainer) (target : String) (i : UInt32) :
    Avoids ContainerError.IsEndless (o.refValue target i) := by
  unfold refValue
  split_ifs
  · exact avoids_ok _
  · refine (not_isEndless_view o target).bind fun view _ => ?_
    split
    · exact avoids_ok _
    · exact avoids_error id

theorem not_isEndless_structValue
    (hnested : ∀ target i, Avoids ContainerError.IsEndless (nested target i)) (target : String)
    (i : UInt32) : Avoids ContainerError.IsEndless (structValue nested target i) := by
  unfold structValue
  split_ifs
  · exact avoids_ok _
  · exact hnested target i

/-- Only a sub-structure can make reading a property endless. -/
theorem not_isEndless_readProperty
    (hnested : ∀ target i, Avoids ContainerError.IsEndless (nested target i)) (view : TableView)
    (q : PropertyPlan) (row : List UInt8) :
    Avoids ContainerError.IsEndless (o.readProperty nested view q row) := by
  have hindex := not_isEndless_slotIndex view row
  have hscalar := not_isEndless_slotScalar view row
  have hindices (slot : String) {read : UInt32 → Except ContainerError Value}
      (hread : ∀ i, Avoids ContainerError.IsEndless (read i)) : Avoids ContainerError.IsEndless
        (view.slotIndex row slot >>= fun i => o.vectorIndices i >>= fun is => is.mapM read) := by
    -- a list is read through its vector, element by element
    refine (hindex slot).bind fun i _ => ?_
    refine (not_isEndless_of_isUnfit (isUnfit_vectorIndices o i)).bind fun is _ => ?_
    exact avoids_mapM fun i _ => hread i
  have hscalars (slot : String) (kind : ScalarKind) {α : Type}
      {next : List Scalar → Except ContainerError α}
      (hnext : ∀ ss, Avoids ContainerError.IsEndless (next ss)) : Avoids ContainerError.IsEndless
        (view.slotIndex row slot >>= fun i => o.vectorScalars i kind >>= next) := by
    refine (hindex slot).bind fun i _ => ?_
    exact (not_isEndless_of_isUnfit (isUnfit_vectorScalars o i kind)).bind fun ss _ => hnext ss
  unfold readProperty
  split
  · exact avoids_error id
  · next first rest hfirst =>
    split_ifs
    · refine Avoids.map ?_ _
      unfold readList
      split
      · exact hindices first fun i => not_isEndless_of_isUnfit ((isUnfit_string o i).map _)
      · exact hindices first fun i => not_isEndless_of_isUnfit (isUnfit_assetValue o i)
      · exact hscalars first _ fun ss =>
          avoids_mapM fun s _ => not_isEndless_of_isUnfit (isUnfit_member o _ s)
      · exact hscalars first _ fun ss => avoids_ok _
      · exact hscalars first _ fun ss => avoids_ok _
      · exact hindices first fun i => not_isEndless_refValue o _ i
      · exact hindices first fun i => not_isEndless_structValue hnested _ i
      · refine Avoids.bind (avoids_mapM fun slot _ => ?_) fun vectors _ => ?_
        · exact (hindex slot).bind fun i _ => not_isEndless_of_isUnfit (isUnfit_vectorScalars o i _)
        · exact avoids_mapM fun i _ => not_isEndless_of_isUnfit (isUnfit_componentsAt _ _ i vectors)
    · unfold readSingle
      split
      · exact (hindex first).bind fun i _ => not_isEndless_of_isUnfit (isUnfit_textValue o i)
      · exact (hindex first).bind fun i _ => not_isEndless_of_isUnfit (isUnfit_assetValue o i)
      · exact (hscalar first _).bind fun s _ => not_isEndless_of_isUnfit (isUnfit_member o _ s)
      · exact (hscalar first _).map _
      · exact (hscalar first _).map _
      · exact (hindex first).bind fun i _ => not_isEndless_refValue o _ i
      · exact (hindex first).bind fun i _ => not_isEndless_structValue hnested _ i
      · exact Avoids.map (avoids_mapM fun slot _ => hscalar slot _) _

end Reading

/-! ### Rows that are read -/

section Rows

variable {nested nested' : String → UInt32 → Except ContainerError Value}

/-- A table that was checked has rows of the size that its layout gives. -/
theorem IsChecked.sizes (ho : o.IsChecked) (hview : o.view name = .ok view) :
    view.layout.rowSize = view.table.rowSize.toNat ∧
      view.table.bytes.length = view.table.rowSize.toNat * view.table.rowCount.toNat := by
  unfold OpenContainer.view at hview
  split at hview
  · next table plan layout htable hplan hlayout =>
    obtain rfl := Except.ok.inj hview
    unfold Container.table? at htable
    have hname := List.find?_some htable
    have hcheck := ho table (List.mem_reverse.1 (List.mem_of_find?_eq_some htable))
    unfold Table.check at hcheck
    rw [beq_iff_eq.1 hname, hlayout] at hcheck
    dsimp only at hcheck
    split_ifs at hcheck with hsizes
    exact hsizes
  · cases hview

/-- What a row that is read stores of sub-structures, it holds. -/
theorem holds_of_stores (hr : o.registry.IsSound) (ho : o.IsChecked)
    (hview : o.view name = .ok view) (hrow : view.table.row? i = some row) {target : String}
    (hdeclared : (ValueType.embedded target).IsDeclared o.registry.declarations) {j : UInt32}
    (hstores : o.Stores view row (.row target) j) (hnull : j ≠ nullIndex) :
    o.Holds (name, i.toNat) (target, j.toNat) := by
  obtain ⟨t, ht, rfl, hkind⟩ := hr.exists_struct hdeclared
  obtain ⟨hwidth, hbytes⟩ := ho.sizes hview
  -- a row with a slot takes some place, so only those that are counted are there
  have hpos : 0 < view.layout.rowSize := by
    obtain ⟨f, hf⟩ : ∃ f, f ∈ view.layout.fields := by
      cases hstores with
      | slot hf => exact ⟨_, hf⟩
      | element hf => exact ⟨_, hf⟩
    exact f.slotWidth_pos.trans_le ((Nat.le_add_left _ _).trans (TableLayout.slotStart_add_le hf))
  unfold Table.row? at hrow
  dsimp only at hrow
  rw [← hwidth] at hrow hbytes
  split_ifs at hrow with hle
  obtain rfl := Option.some.inj hrow
  have hlt : i.toNat < view.table.rowCount.toNat := by
    rw [hbytes, ← Nat.succ_mul, Nat.mul_comm] at hle
    exact Nat.lt_of_succ_le (Nat.le_of_mul_le_mul_left hle hpos)
  exact ⟨⟨t, ht, hkind, rfl⟩, view, hview, hlt, j, hstores, hnull, rfl⟩

/-- **Reading a property of a row asks for the rows that it holds, and no others.** -/
theorem bakedWith_congr (hr : o.registry.IsSound) (ho : o.IsChecked)
    (hview : o.view name = .ok view)
    (h : ∀ target j, o.Holds (name, i.toNat) (target, j.toNat) → nested target j = nested' target j)
    (property : String) :
    o.bakedWith nested view i property = o.bakedWith nested' view i property := by
  obtain ⟨t, ht, hkind, rfl⟩ := exists_type_of_view hr hview
  have hshows := shows_of_view_eq_ok hr ho ht hkind hview
  unfold bakedWith
  split
  · rfl
  · next q hq =>
    split
    · rfl
    · next row hrow =>
      have hmem := List.mem_of_find?_eq_some hq
      have hfields : ∀ f ∈ q.fields, f ∈ view.layout.fields :=
        fun f hf => mem_fields_of_mem_fields hr.laidOut hshows.table hmem hf
      rw [hshows.plan] at hmem
      obtain ⟨p, hp, rfl⟩ := List.mem_map.1 hmem
      refine readProperty_congr hfields fun target hshape j hstores hnull => h target j ?_
      exact holds_of_stores hr ho hview hrow (hr.declared t ht p hp _ hshape) hstores hnull

/-- Reading a property of a row is not endless if reading the rows that it holds is not. -/
theorem not_isEndless_bakedWith (hr : o.registry.IsSound) (ho : o.IsChecked)
    (hview : o.view name = .ok view)
    (h : ∀ target j, o.Holds (name, i.toNat) (target, j.toNat) →
      Avoids ContainerError.IsEndless (nested target j)) (property : String) :
    Avoids ContainerError.IsEndless (o.bakedWith nested view i property) := by
  classical
  -- the rows that it does not hold may be read in any way
  let others : String → UInt32 → Except ContainerError Value := fun target j =>
    if o.Holds (name, i.toNat) (target, j.toNat) then nested target j else .ok .noStruct
  have hothers : ∀ target j, Avoids ContainerError.IsEndless (others target j) := by
    intro target j
    show Avoids _ (if _ then _ else _)
    split_ifs with hholds
    · exact h target j hholds
    · exact avoids_ok _
  have hsame : o.bakedWith nested view i property = o.bakedWith others view i property :=
    bakedWith_congr hr ho hview (fun target j hholds => (if_pos hholds).symm) property
  rw [hsame]
  unfold bakedWith
  split
  · exact avoids_error id
  · split
    · exact avoids_error id
    · exact not_isEndless_readProperty hothers view _ _

end Rows

/-! ### Going down with a limit -/

variable {fuel fuel' : Nat}

/-- **A sub-structure is read alike with every limit above its place**, and reading it ends. -/
theorem IsHistory.readStruct_eq (h : o.IsHistory written) (hr : o.registry.IsSound)
    (ho : o.IsChecked) (hplaced : IsPlacedAt written name i.toNat k) (hfuel : k < fuel)
    (hfuel' : k < fuel') :
    o.readStruct fuel name i = o.readStruct fuel' name i ∧
      Avoids ContainerError.IsEndless (o.readStruct fuel name i) := by
  -- on the place: what the row holds is before it, and is read with one less
  induction k using Nat.strong_induction_on generalizing name i fuel fuel' with
  | _ k ih =>
    cases fuel with
    | zero => cases hfuel
    | succ fuel =>
      cases fuel' with
      | zero => cases hfuel'
      | succ fuel' =>
        have hheld : ∀ target j, o.Holds (name, i.toNat) (target, j.toNat) →
            o.readStruct fuel target j = o.readStruct fuel' target j ∧
              Avoids ContainerError.IsEndless (o.readStruct fuel target j) := by
          intro target j hholds
          obtain ⟨k', hk', hinner⟩ := h.exists_lt_place hplaced hholds
          exact ih k' hk' hinner (by omega) (by omega)
        have hfound := not_isEndless_view o name
        unfold readStruct
        cases hview : o.view name with
        | error e => exact ⟨rfl, avoids_error (hfound e hview)⟩
        | ok view =>
          rw [ok_bind, ok_bind]
          dsimp only
          constructor
          · refine congrArg (· >>= _) (mapM_congr fun q _ => congrArg (· >>= _) ?_)
            exact bakedWith_congr hr ho hview (fun target j hholds => (hheld target j hholds).1) _
          · refine (avoids_mapM fun q _ => ?_).bind fun fields _ => avoids_ok _
            refine Avoids.bind ?_ fun v _ => avoids_ok _
            exact not_isEndless_bakedWith hr ho hview
              (fun target j hholds => (hheld target j hholds).2) _

/-- What the reader gives does not depend on its limit, and it never gives up at it. -/
def ReadsToEnd (o : OpenContainer) : Prop :=
  ∀ name view, o.view name = .ok view → ∀ i property fuel, o.nestingLimit ≤ fuel →
    o.bakedWith (o.readStruct fuel) view i property = o.baked view i property ∧
      Avoids ContainerError.IsEndless (o.baked view i property)

/-- There are fewer rows than the reader may go down. -/
theorem IsHistory.length_lt_nestingLimit (h : o.IsHistory written) (hclosed : o.IsClosed) :
    written.length < o.nestingLimit := by
  refine length_lt_foldr (fun table htable => ?_) fun e he => ?_
  · obtain ⟨view, hview, rfl⟩ := hclosed.tables table htable
    rw [h.rows _ view hview]
    unfold TableView.rows
    rw [List.length_map, List.length_range]
  · obtain ⟨view, hview⟩ := h.names e he
    unfold OpenContainer.view at hview
    split at hview
    · next table plan layout htable _ _ =>
      have hname := List.find?_some htable
      exact ⟨table, List.mem_reverse.1 (List.mem_of_find?_eq_some htable), beq_iff_eq.1 hname⟩
    · cases hview

/-- **The reader comes to an end** in every closed container that has a history. -/
theorem IsHistory.readsToEnd (h : o.IsHistory written) (hclosed : o.IsClosed)
    (hr : o.registry.IsSound) (ho : o.IsChecked) : o.ReadsToEnd := by
  intro name view hview i property fuel hfuel
  have hlimit := h.length_lt_nestingLimit hclosed
  have hheld : ∀ target (j : UInt32), o.Holds (name, i.toNat) (target, j.toNat) →
      ∃ k < o.nestingLimit, IsPlacedAt written target j.toNat k := by
    intro target j hholds
    obtain ⟨-, view', hview', hn, -⟩ := id hholds
    obtain ⟨k, hk, houter⟩ := h.exists_place hview' hn
    obtain ⟨k', hk', hinner⟩ := h.exists_lt_place houter hholds
    exact ⟨k', by omega, hinner⟩
  constructor
  · refine bakedWith_congr hr ho hview (fun target j hholds => ?_) property
    obtain ⟨k, hk, hplaced⟩ := hheld target j hholds
    exact (h.readStruct_eq hr ho hplaced (hk.trans_le hfuel) hk).1
  · refine not_isEndless_bakedWith hr ho hview (fun target j hholds => ?_) property
    obtain ⟨k, hk, hplaced⟩ := hheld target j hholds
    exact (h.readStruct_eq hr ho hplaced hk hk).2

end OpenContainer

namespace Registration

variable {reg : Registration} {options : Options} {r : Registry} {c : Catalog} {k : Container}

/-- **A container that was baked is closed and well founded**, whatever the values of the records
are: tables and vectors have their sizes, every number stands for nothing or for something that is
there, a sub-structure was written before the row that holds it, and the reader comes to an end. -/
theorem bake_closed (hreg : reg.IsRegistered) (h : reg.build options = .ok r)
    (hbake : bake r c = .ok k)
    (hnumbered : ∀ recordRows p, laidDown r c = .ok (recordRows, p) → IsNumbered recordRows p)
    (overrides : Overrides) :
    OpenContainer.IsClosed ⟨r, k, overrides⟩ ∧
      (∃ recordRows p written, laidDown r c = .ok (recordRows, p) ∧
        Pools.Writes r c .empty written p ∧
        OpenContainer.IsHistory ⟨r, k, overrides⟩ written) ∧
      (WellFounded fun inner outer => OpenContainer.Holds ⟨r, k, overrides⟩ outer inner) ∧
      ∀ o, OpenContainer.ofContainer r k = .ok o →
        OpenContainer.ReadsToEnd { o with overrides } := by
  have hr := isSound_of_build hreg h
  have hlayout := tables_layout_of_build hreg h
  -- the rows that were laid down are those of a course, which closes
  obtain ⟨⟨recordRows, p⟩, hlaid, -⟩ := bind_eq_ok.1 hbake
  obtain rfl := Except.ok.inj (hbake.symm.trans (bake_of_laidDown hlaid))
  obtain ⟨written, hwrites, hrecords⟩ := exists_writes_of_laidDown hr hlayout hlaid
  obtain ⟨-, hrows, -⟩ := (Baking.leaves_mapM fun t ht => leaves_bakeRecords (c := c) hr ht)
    .empty _ _ hlaid
  have hcourse : Course r c recordRows p written :=
    ⟨hr, hlayout, hrows, hwrites, hrecords, hnumbered _ _ hlaid⟩
  have hclosed := hcourse.isClosed overrides
  have hhistory := hcourse.isHistory overrides
  refine ⟨hclosed, ⟨recordRows, p, written, hlaid, hwrites, hhistory⟩, hhistory.wellFounded, ?_⟩
  intro o ho
  obtain ⟨rfl, hchecked⟩ := OpenContainer.ofContainer_eq_ok ho
  exact hhistory.readsToEnd hclosed hr hchecked

/-! ### An orchard -/

/-- Trees, and branches that hold branches. -/
def orchardTypes : Registration :=
  (Registration.empty.addType
    ⟨"Branch", .struct, [], [⟨"Fruit", "string", false⟩, ⟨"Twigs", "Branch", true⟩]⟩).addType
    ⟨"Tree", .record, [], [⟨"Trunk", "Branch", false⟩]⟩

/-- The registry of the orchard. -/
def orchardRegistry : Registry :=
  let branch : ResolvedType := ⟨"Branch", .struct,
    [⟨"Fruit", "string", false⟩, ⟨"Twigs", "Branch", true⟩],
    [⟨"Fruit", .single .string⟩, ⟨"Twigs", .list (.embedded "Branch")⟩]⟩
  let tree : ResolvedType := ⟨"Tree", .record,
    [⟨"Identifier", "string", false⟩, ⟨"Trunk", "Branch", false⟩],
    [⟨"Identifier", .identifier⟩, ⟨"Trunk", .single (.embedded "Branch")⟩]⟩
  let plans := [branch, tree].map (tablePlan orchardTypes.declarations)
  { options := .standard
    declarations := orchardTypes.declarations
    types := [branch, tree]
    tables := plans
    layout := ⟨plans.map fun plan =>
      ⟨plan.table, plan.kind == .record, plan.properties.flatMap (·.fields)⟩⟩
    fingerprint := ⟨0x7309e131bfb28204⟩ }

/-- A tree with a twig of its trunk and room for another.  Its fruit are not of the type of their
property. -/
def apple : Record :=
  ⟨⟨"g1"⟩, "Apple", "", none, .ofList [("Trunk", .struct [("Fruit", .asset none),
    ("Twigs", .list [.struct [("Fruit", .asset (some "Gala"))], .noStruct])])]⟩

/-- The trees. -/
def orchard : Catalog := .ofList [("Tree", .ofList "Tree" [apple])]

/-- The twig is the first branch that was written, and the trunk the second. -/
def orchardContainer : Container where
  header := .ofFingerprint orchardRegistry.fingerprint
  strings := ["Apple", "Gala"]
  vectors := [⟨.index, 2, [0, 0, 0, 0, 255, 255, 255, 255]⟩]
  tables := [⟨"Branch", 8, 2, [1, 0, 0, 0, 255, 255, 255, 255, 255, 255, 255, 255, 0, 0, 0, 0], []⟩,
    ⟨"Tree", 8, 1, [0, 0, 0, 0, 1, 0, 0, 0], ["g1"]⟩]

set_option maxRecDepth 20000 in
theorem build_orchardTypes : orchardTypes.build .standard = .ok orchardRegistry := by cbv

theorem bake_orchard : bake orchardRegistry orchard = .ok orchardContainer := by
  decide +kernel

theorem isNumbered_orchard {recordRows : List (String × List (List UInt8))} {p : Pools}
    (h : laidDown orchardRegistry orchard = .ok (recordRows, p)) : IsNumbered recordRows p := by
  have hall : (laidDown orchardRegistry orchard).toOption.all
      (fun x => decide (IsNumbered x.1 x.2)) = true := by
    decide +kernel
  rw [h] at hall
  exact of_decide_eq_true hall

/-- The trunk of the tree holds the twig. -/
theorem bake_closed_orchard :
    orchardTypes.IsRegistered ∧ orchardTypes.build .standard = .ok orchardRegistry ∧
      bake orchardRegistry orchard = .ok orchardContainer ∧
      OpenContainer.ofContainer orchardRegistry orchardContainer =
        .ok ⟨orchardRegistry, orchardContainer, .empty⟩ ∧
      OpenContainer.IsClosed ⟨orchardRegistry, orchardContainer, .empty⟩ ∧
      (∃ recordRows p written, laidDown orchardRegistry orchard = .ok (recordRows, p) ∧
        IsNumbered recordRows p ∧
        OpenContainer.IsHistory ⟨orchardRegistry, orchardContainer, .empty⟩ written) ∧
      OpenContainer.ReadsToEnd ⟨orchardRegistry, orchardContainer, .empty⟩ ∧
      OpenContainer.Holds ⟨orchardRegistry, orchardContainer, .empty⟩ ("Tree", 0) ("Branch", 1) ∧
      OpenContainer.Holds ⟨orchardRegistry, orchardContainer, .empty⟩ ("Branch", 1)
        ("Branch", 0) := by
  have hreg : orchardTypes.IsRegistered := .addType _ (.addType _ .empty)
  have hopen : OpenContainer.ofContainer orchardRegistry orchardContainer =
      .ok ⟨orchardRegistry, orchardContainer, .empty⟩ := rfl
  obtain ⟨hclosed, ⟨recordRows, p, written, hlaid, -, hhistory⟩, -, hreads⟩ :=
    bake_closed hreg build_orchardTypes bake_orchard (fun _ _ h => isNumbered_orchard h) .empty
  refine ⟨hreg, build_orchardTypes, bake_orchard, hopen, hclosed,
    ⟨recordRows, p, written, hlaid, isNumbered_orchard hlaid, hhistory⟩, hreads _ hopen, ?_, ?_⟩
  -- a tree holds its trunk in a slot, and a branch its twigs in a vector
  · refine ⟨⟨_, List.mem_cons_self, rfl, rfl⟩, _, rfl, by decide, 1, ?_, by decide, rfl⟩
    exact .slot (f := ⟨"Tree", "Trunk", .row "Branch", false⟩)
      (List.mem_cons_of_mem _ List.mem_cons_self) rfl rfl
  · refine ⟨⟨_, List.mem_cons_self, rfl, rfl⟩, _, rfl, by decide, 0, ?_, by decide, rfl⟩
    exact .element (f := ⟨"Branch", "Twigs", .row "Branch", true⟩)
      (List.mem_cons_of_mem _ List.mem_cons_self) rfl rfl rfl rfl List.mem_cons_self

end Registration

end RecordTables
