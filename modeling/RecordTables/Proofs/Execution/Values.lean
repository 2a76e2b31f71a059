import RecordTables.Execution

/-!
# The values that rows are read as

Before anything is changed, all rows of a plan are read.  `decodePlan_spec`: if that succeeds, the
values of every row that the plan writes are there, and they are what the row is read as
(`rowValues`), one value for each cell (`find?_of_decodeRow`).  Each row is used once, so taking the
values of one leaves those of the others (`takeValues_spec`).
-/

namespace RecordTables.Execution

open Schema

variable {ctx : Cell.Context} {recordType : String} {rows : List Row}

/-- What the cells of a row are read as; nothing if they cannot be read. -/
def rowValues (ctx : Cell.Context) (recordType : String) (row : Row) : NameMap Value :=
  (decodeRow ctx recordType row).toOption.getD .empty

/-- A row and the values it is read as. -/
def IsRead (ctx : Cell.Context) (recordType : String) (rows : List Row)
    (e : Nat × NameMap Value) : Prop :=
  ∃ row, rows[e.1]? = some row ∧ decodeRow ctx recordType row = .ok e.2

theorem rowValues_of_decodeRow {row : Row} {values : NameMap Value}
    (h : decodeRow ctx recordType row = .ok values) : rowValues ctx recordType row = values := by
  rw [rowValues, h]
  rfl

/-- The values at hand are those of rows, and those of all pending rows are there. -/
structure Ready (ctx : Cell.Context) (recordType : String) (rows : List Row)
    (values : List (Nat × NameMap Value)) (pending : List Nat) : Prop where
  sound : ∀ e ∈ values, IsRead ctx recordType rows e
  complete : ∀ i ∈ pending, ∃ v, (i, v) ∈ values

/-- A row that cannot be read has a cell at fault. -/
theorem ne_nil_of_decodeRow {row : Row} {faults : List CellFault}
    (h : decodeRow ctx recordType row = .error (.decode faults)) : faults ≠ [] := by
  unfold decodeRow at h
  split at h
  · cases h
  · next t _ =>
    generalize readCells ctx row t.valueProperties = read at h
    obtain ⟨values, found⟩ := read
    cases found with
    | nil => cases h
    | cons fault found =>
      rw [← ExecuteError.decode.inj (Except.error.inj h)]
      exact List.cons_ne_nil _ _

/-- One cell at fault is told in the end. -/
theorem eq_nil_of_decodeActions {actions : List PlanAction}
    {values result : List (Nat × NameMap Value)} {faults : List CellFault}
    (h : decodeActions ctx recordType rows actions values faults = .ok result) : faults = [] := by
  induction actions generalizing values faults with
  | nil =>
    cases faults with
    | nil => rfl
    | cons fault faults => cases h
  | cons a actions ih =>
    unfold decodeActions at h
    split at h
    · exact ih h
    · split at h
      · cases h
      · split at h
        · exact ih h
        · exact (List.append_eq_nil_iff.1 (ih h)).1
        · cases h

/-- If the rows cannot be read, there is a cell at fault. -/
theorem ne_nil_of_decodeActions {actions : List PlanAction} {values : List (Nat × NameMap Value)}
    {faults cells : List CellFault}
    (h : decodeActions ctx recordType rows actions values faults = .error (.decode cells)) :
    cells ≠ [] := by
  induction actions generalizing values faults with
  | nil =>
    cases faults with
    | nil => cases h
    | cons fault faults =>
      rw [← ExecuteError.decode.inj (Except.error.inj h)]
      exact List.cons_ne_nil _ _
  | cons a actions ih =>
    unfold decodeActions at h
    split at h
    · exact ih h
    · split at h
      · cases h
      · split at h
        · exact ih h
        · exact ih h
        · next hother _ =>
          obtain rfl := Except.error.inj h
          exact (hother cells rfl).elim

theorem ne_nil_of_check {plan : Plan} {cells : List CellFault}
    (h : check ctx plan rows = .error (.decode cells)) : cells ≠ [] := by
  unfold check at h
  cases hdecode : decodePlan ctx plan rows with
  | ok values =>
    rw [hdecode] at h
    cases h
  | error e =>
    rw [hdecode] at h
    obtain rfl := Except.error.inj h
    exact ne_nil_of_decodeActions hdecode

theorem decodeActions_spec {actions : List PlanAction} {values result : List (Nat × NameMap Value)}
    {faults : List CellFault}
    (h : decodeActions ctx recordType rows actions values faults = .ok result)
    (hvalues : ∀ e ∈ values, IsRead ctx recordType rows e) :
    (∀ e ∈ values, e ∈ result) ∧
      Ready ctx recordType rows result (actions.filterMap PlanAction.row?) := by
  induction actions generalizing values faults with
  | nil =>
    cases faults with
    | nil =>
      obtain rfl := Except.ok.inj h
      exact ⟨fun _ he => he, hvalues, fun _ hi => nomatch hi⟩
    | cons fault faults => cases h
  | cons a actions ih =>
    unfold decodeActions at h
    cases hrow? : a.row? with
    | none =>
      rw [hrow?] at h
      rw [List.filterMap_cons_none hrow?]
      exact ih h hvalues
    | some i =>
      rw [hrow?] at h
      rw [List.filterMap_cons_some hrow?]
      dsimp only at h
      cases hrow : rows[i]? with
      | none =>
        rw [hrow] at h
        cases h
      | some row =>
        rw [hrow] at h
        dsimp only at h
        cases hread : decodeRow ctx recordType row with
        | ok v =>
          rw [hread] at h
          -- the row that was read is put behind those read so far
          have hvalues' : ∀ e ∈ values ++ [(i, v)], IsRead ctx recordType rows e := by
            intro e he
            rcases List.mem_append.1 he with he | he
            · exact hvalues e he
            · exact List.mem_singleton.1 he ▸ ⟨row, hrow, hread⟩
          obtain ⟨hkept, hready⟩ := ih h hvalues'
          refine ⟨fun e he => hkept e (List.mem_append_left _ he), hready.sound, fun j hj => ?_⟩
          rcases List.mem_cons.1 hj with rfl | hj
          · exact ⟨v, hkept _ (List.mem_append_right _ (List.mem_singleton_self _))⟩
          · exact hready.complete j hj
        -- a row that is not read leaves a fault, so the end would fail
        | error e =>
          rw [hread] at h
          cases e with
          | decode more =>
            have hnil := (List.append_eq_nil_iff.1 (eq_nil_of_decodeActions h)).2
            exact absurd hnil (ne_nil_of_decodeRow hread)
          | _ => cases h

/-- **Reading the rows of a plan.** -/
theorem decodePlan_spec {plan : Plan} {values : List (Nat × NameMap Value)}
    (h : decodePlan ctx plan rows = .ok values) :
    Ready ctx plan.recordType rows values (plan.actions.filterMap PlanAction.row?) :=
  (decodeActions_spec h fun _ he => nomatch he).2

/-- Taking the values of a row that is not used again. -/
theorem takeValues_spec {values : List (Nat × NameMap Value)} {i : Nat} {pending : List Nat}
    {row : Row} (h : Ready ctx recordType rows values (i :: pending)) (hi : i ∉ pending)
    (hrow : rows[i]? = some row) :
    (takeValues i values).1 = rowValues ctx recordType row ∧
      decodeRow ctx recordType row = .ok (rowValues ctx recordType row) ∧
      Ready ctx recordType rows (takeValues i values).2 pending := by
  obtain ⟨v, hmem⟩ := h.complete i List.mem_cons_self
  unfold takeValues
  cases hfind : values.reverse.find? (fun e => e.1 == i) with
  | none =>
    have hno := List.find?_eq_none.1 hfind _ (List.mem_reverse.2 hmem)
    simp at hno
  | some e =>
    have he := List.mem_reverse.1 (List.mem_of_find?_eq_some hfind)
    obtain rfl : e.1 = i := by simpa using List.find?_some hfind
    obtain ⟨row', hrow', hread⟩ := h.sound e he
    obtain rfl : row' = row := Option.some.inj (hrow'.symm.trans hrow)
    have hvalues := rowValues_of_decodeRow hread
    refine ⟨hvalues.symm, hvalues ▸ hread, ?_, fun j hj => ?_⟩
    · exact fun e' he' => h.sound e' (List.mem_filter.1 he').1
    · obtain ⟨w, hw⟩ := h.complete j (List.mem_cons_of_mem _ hj)
      have hne : j ≠ e.1 := by
        rintro rfl
        exact hi hj
      exact ⟨w, List.mem_filter.2 ⟨hw, by simpa using hne⟩⟩

/-! ### What cells are read as -/

theorem find?_of_readCells {row : Row} {properties : List Property} {values : NameMap Value}
    (hnodup : (properties.map (·.name)).Nodup)
    (h : readCells ctx row properties = (values, [])) {p : Property} (hp : p ∈ properties)
    {cell : String} (hcell : row.cells.find? p.name = some cell) :
    ∃ v, ctx.decode p cell = .ok v ∧ values.find? p.name = some v := by
  induction properties generalizing values with
  | nil => cases hp
  | cons q rest ih =>
    obtain ⟨hfirst, hrest⟩ := List.nodup_cons.1 hnodup
    unfold readCells at h
    generalize hread : readCells ctx row rest = read at h
    obtain ⟨others, faults⟩ := read
    dsimp only at h
    rcases List.mem_cons.1 hp with rfl | hp
    · rw [hcell] at h
      dsimp only at h
      cases hdecode : ctx.decode p cell with
      | error fault =>
        rw [hdecode] at h
        cases h
      | ok v =>
        rw [hdecode] at h
        obtain ⟨rfl, -⟩ := Prod.mk.inj h
        exact ⟨v, rfl, by rw [NameMap.find?_insert, if_pos rfl]⟩
    -- the names of the properties differ, so the first one does not hide the cell
    · have hne : q.name ≠ p.name := fun heq => hfirst (List.mem_map.2 ⟨p, hp, heq.symm⟩)
      split at h
      · obtain ⟨rfl, rfl⟩ := Prod.mk.inj h
        exact ih hrest hread hp
      · split at h
        · obtain ⟨rfl, rfl⟩ := Prod.mk.inj h
          obtain ⟨v, hdecode, hfind⟩ := ih hrest hread hp
          exact ⟨v, hdecode, by rw [NameMap.find?_insert, if_neg hne, hfind]⟩
        · cases h

/-- A row gives no value under a name of which it has no cell. -/
theorem find?_readCells_of_none {row : Row} {name : String} (hcell : row.cells.find? name = none)
    (properties : List Property) : (readCells ctx row properties).1.find? name = none := by
  induction properties with
  | nil => rfl
  | cons p rest ih =>
    unfold readCells
    dsimp only
    split
    · exact ih
    · next cell hfound =>
      have hne : p.name ≠ name := by
        rintro rfl
        exact nomatch hcell.symm.trans hfound
      split
      · rw [NameMap.find?_insert, if_neg hne]
        exact ih
      · exact ih

/-- **Each cell of a row that was read** gives the value of its property. -/
theorem find?_of_decodeRow {t : ResolvedType} (ht : ctx.registry.type? recordType = some t)
    (hnodup : (t.valueProperties.map (·.name)).Nodup) {row : Row} {values : NameMap Value}
    (h : decodeRow ctx recordType row = .ok values) {p : Property} (hp : p ∈ t.valueProperties)
    {cell : String} (hcell : row.cells.find? p.name = some cell) :
    ∃ v, ctx.decode p cell = .ok v ∧ values.find? p.name = some v := by
  unfold decodeRow at h
  rw [ht] at h
  dsimp only at h
  generalize hread : readCells ctx row t.valueProperties = read at h
  obtain ⟨found, faults⟩ := read
  cases faults with
  | nil =>
    rw [← Except.ok.inj h]
    exact find?_of_readCells hnodup hread hp hcell
  | cons fault faults => cases h

theorem find?_decodeRow_of_none {row : Row} {values : NameMap Value}
    (h : decodeRow ctx recordType row = .ok values) {name : String}
    (hcell : row.cells.find? name = none) : values.find? name = none := by
  unfold decodeRow at h
  split at h
  · cases h
  · next t _ =>
    have hnone : (readCells ctx row t.valueProperties).1.find? name = none :=
      find?_readCells_of_none hcell t.valueProperties
    generalize readCells ctx row t.valueProperties = read at h hnone
    obtain ⟨found, faults⟩ := read
    cases faults with
    | nil =>
      rw [← Except.ok.inj h]
      exact hnone
    | cons fault faults => cases h

end RecordTables.Execution
