import RecordTables.Proofs.Execution.Values
import RecordTables.Proofs.Step
import RecordTables.Store.Memory

/-!
# Cells that cannot be read

All rows of a plan are read before the store is touched, and reading goes on behind a cell that
cannot be read.  `planFaults` lists the cells at fault without the loops: for each action in turn that
writes a row, the properties in turn whose cell in that row does not decode.  The two loops collect
just this list (`readCells_snd`, `decodeActions_eq_error`), so a plan can be read if and only if it
is empty (`check_eq_ok_iff`), and carrying out a plan with such a cell tells the whole list and does
nothing to the store (`apply_fails_unreadable`).
-/

namespace RecordTables.Execution

open Schema

variable {ctx : Cell.Context} {recordType : String} {rows : List Row} {t : ResolvedType}

/-! ### The cells at fault -/

/-- The fault of the cell of a property, if the row has that cell and it cannot be read. -/
def cellFault? (ctx : Cell.Context) (row : Row) (p : Property) : Option CellFault :=
  (row.cells.find? p.name).bind fun cell =>
    match ctx.decode p cell with
    | .ok _ => none
    | .error fault => some ⟨row.line, p.name, fault⟩

/-- The cells of a row that cannot be read, in the order of the properties of its type. -/
def rowFaults (ctx : Cell.Context) (t : ResolvedType) (row : Row) : List CellFault :=
  t.valueProperties.filterMap (cellFault? ctx row)

/-- The row that an action writes. -/
def writtenRow? (rows : List Row) (a : PlanAction) : Option Row := a.row?.bind (rows[·]?)

/-- The cells of the rows that actions write that cannot be read: in the order of the actions, and
for each in the order of the properties. -/
def planFaults (ctx : Cell.Context) (t : ResolvedType) (rows : List Row)
    (actions : List PlanAction) : List CellFault :=
  (actions.filterMap (writtenRow? rows)).flatMap (rowFaults ctx t)

theorem cellFault?_eq_some {row : Row} {p : Property} {f : CellFault} :
    cellFault? ctx row p = some f ↔
      ∃ cell fault, row.cells.find? p.name = some cell ∧ ctx.decode p cell = .error fault ∧
        f = ⟨row.line, p.name, fault⟩ := by
  simp only [cellFault?, Option.bind_eq_some_iff]
  constructor
  · rintro ⟨cell, hcell, h⟩
    cases hdecode : ctx.decode p cell with
    | ok v => simp [hdecode] at h
    | error fault =>
      rw [hdecode] at h
      exact ⟨cell, fault, hcell, hdecode, (Option.some.inj h).symm⟩
  · rintro ⟨cell, fault, hcell, hdecode, rfl⟩
    exact ⟨cell, hcell, by rw [hdecode]⟩

/-- A cell is at fault if and only if an action writes its row and it cannot be read. -/
theorem mem_planFaults {actions : List PlanAction} {f : CellFault} :
    f ∈ planFaults ctx t rows actions ↔
      ∃ a ∈ actions, ∃ row, writtenRow? rows a = some row ∧ ∃ p ∈ t.valueProperties,
        ∃ cell fault, row.cells.find? p.name = some cell ∧ ctx.decode p cell = .error fault ∧
          f = ⟨row.line, p.name, fault⟩ := by
  simp only [planFaults, rowFaults, List.mem_flatMap, List.mem_filterMap, cellFault?_eq_some]
  constructor
  · rintro ⟨row, ⟨a, ha, hrow⟩, p, hp, hf⟩
    exact ⟨a, ha, row, hrow, p, hp, hf⟩
  · rintro ⟨a, ha, row, hrow, p, hp, hf⟩
    exact ⟨row, ⟨a, ha, hrow⟩, p, hp, hf⟩

/-! ### Reading one row -/

/-- The inner loop collects the cells at fault. -/
theorem readCells_snd (row : Row) (properties : List Property) :
    (readCells ctx row properties).2 = properties.filterMap (cellFault? ctx row) := by
  induction properties with
  | nil => rfl
  | cons p rest ih =>
    unfold readCells
    cases hcell : row.cells.find? p.name with
    | none =>
      have hnone : cellFault? ctx row p = none := by simp [cellFault?, hcell]
      rw [List.filterMap_cons_none hnone]
      exact ih
    | some cell =>
      cases hdecode : ctx.decode p cell with
      | ok v =>
        have hnone : cellFault? ctx row p = none := by simp [cellFault?, hcell, hdecode]
        rw [List.filterMap_cons_none hnone]
        simpa [hdecode] using ih
      | error fault =>
        have hsome : cellFault? ctx row p = some ⟨row.line, p.name, fault⟩ :=
          cellFault?_eq_some.2 ⟨cell, fault, hcell, hdecode, rfl⟩
        rw [List.filterMap_cons_some hsome]
        simpa [hdecode] using ih

/-- **Reading a row of a known type**: its values, or all its cells at fault. -/
theorem decodeRow_cases (ht : ctx.registry.type? recordType = some t) (row : Row) :
    (rowFaults ctx t row = [] ∧ ∃ values, decodeRow ctx recordType row = .ok values) ∨
      decodeRow ctx recordType row = .error (.decode (rowFaults ctx t row)) := by
  have hfaults : (readCells ctx row t.valueProperties).2 = rowFaults ctx t row :=
    readCells_snd row t.valueProperties
  unfold decodeRow
  rw [ht]
  dsimp only
  generalize readCells ctx row t.valueProperties = read at hfaults
  obtain ⟨values, faults⟩ := read
  obtain rfl : faults = rowFaults ctx t row := hfaults
  generalize rowFaults ctx t row = faults
  cases faults with
  | nil => exact Or.inl ⟨rfl, values, rfl⟩
  | cons fault faults => exact Or.inr rfl

/-! ### Reading the rows of a plan -/

/-- **The outer loop**: what it ends with, if all the rows are there, is told by the cells at fault
alone.  The faults met before come first, and the values read before do not matter. -/
theorem decodeActions_cases (ht : ctx.registry.type? recordType = some t)
    {actions : List PlanAction} (hrows : ∀ a ∈ actions, ∀ i, a.row? = some i → i < rows.length)
    (values : List (Nat × NameMap Value)) (faults : List CellFault) :
    (faults ++ planFaults ctx t rows actions = [] ∧
        ∃ result, decodeActions ctx recordType rows actions values faults = .ok result) ∨
      decodeActions ctx recordType rows actions values faults =
        .error (.decode (faults ++ planFaults ctx t rows actions)) := by
  induction actions generalizing values faults with
  | nil =>
    have hnil : planFaults ctx t rows [] = [] := rfl
    rw [hnil, List.append_nil]
    cases faults with
    | nil => exact Or.inl ⟨rfl, values, rfl⟩
    | cons fault faults => exact Or.inr rfl
  | cons a rest ih =>
    have hrest := fun b hb => hrows b (List.mem_cons_of_mem _ hb)
    unfold decodeActions
    cases hindex : a.row? with
    -- a deletion reads no row
    | none =>
      have hnone : writtenRow? rows a = none := by simp [writtenRow?, hindex]
      have hskip : planFaults ctx t rows (a :: rest) = planFaults ctx t rows rest := by
        simp [planFaults, hnone]
      rw [hskip]
      exact ih hrest values faults
    -- the faults of the row are put behind those found so far
    | some i =>
      have hlt : i < rows.length := hrows a List.mem_cons_self i hindex
      have hrow : rows[i]? = some rows[i] := List.getElem?_eq_getElem hlt
      have hsome : writtenRow? rows a = some rows[i] := by simp [writtenRow?, hindex, hrow]
      have hnext : planFaults ctx t rows (a :: rest) =
          rowFaults ctx t rows[i] ++ planFaults ctx t rows rest := by
        simp [planFaults, hsome]
      rw [hnext]
      dsimp only
      rw [hrow]
      dsimp only
      rcases decodeRow_cases ht rows[i] with ⟨hnil, v, hread⟩ | hread
      · rw [hread, hnil]
        exact ih hrest (values ++ [(i, v)]) faults
      · rw [hread, ← List.append_assoc]
        exact ih hrest values (faults ++ rowFaults ctx t rows[i])

variable {plan : Plan}

/-- Reading a plan whose rows are there: the values, or all cells at fault. -/
theorem decodePlan_cases (ht : ctx.registry.type? plan.recordType = some t)
    (hrows : ∀ a ∈ plan.actions, ∀ i, a.row? = some i → i < rows.length) :
    (planFaults ctx t rows plan.actions = [] ∧ ∃ values, decodePlan ctx plan rows = .ok values) ∨
      decodePlan ctx plan rows = .error (.decode (planFaults ctx t rows plan.actions)) := by
  rw [decodePlan, ← List.nil_append (planFaults ctx t rows plan.actions)]
  exact decodeActions_cases ht hrows [] []

/-- **A plan can be read** if and only if no cell is at fault. -/
theorem check_eq_ok_iff (ht : ctx.registry.type? plan.recordType = some t)
    (hrows : ∀ a ∈ plan.actions, ∀ i, a.row? = some i → i < rows.length) :
    check ctx plan rows = .ok () ↔ planFaults ctx t rows plan.actions = [] := by
  unfold check
  rcases decodePlan_cases ht hrows with ⟨hnil, values, hread⟩ | hread
  · rw [hread, hnil]
    exact iff_of_true rfl rfl
  · have hne : planFaults ctx t rows plan.actions ≠ [] :=
      ne_nil_of_check (show check ctx plan rows = _ by rw [check, hread]; rfl)
    rw [hread]
    exact iff_of_false (fun h => nomatch h) hne

/-! ### Carrying out a plan that cannot be read -/

/-- **A cell that cannot be read leaves the store alone**: whatever the store and its state, carrying
out the plan fails with all cells at fault and changes nothing, and checking it fails alike. -/
theorem apply_fails_unreadable {σ : Type} (ht : ctx.registry.type? plan.recordType = some t)
    (hrows : ∀ a ∈ plan.actions, ∀ i, a.row? = some i → i < rows.length)
    (hbad : ∃ a ∈ plan.actions, ∃ i row, a.row? = some i ∧ rows[i]? = some row ∧
      ∃ p ∈ t.valueProperties, ∃ cell fault, row.cells.find? p.name = some cell ∧
        ctx.decode p cell = .error fault)
    (store : RecordStore σ) (records : RecordSet) (s : σ) :
    (apply ctx store plan rows records).Fails s
        (.decode (planFaults ctx t rows plan.actions)) s ∧
      check ctx plan rows = .error (.decode (planFaults ctx t rows plan.actions)) := by
  have hne : planFaults ctx t rows plan.actions ≠ [] := by
    obtain ⟨a, ha, i, row, hindex, hrow, p, hp, cell, fault, hcell, hdecode⟩ := hbad
    have hwritten : writtenRow? rows a = some row := by simp [writtenRow?, hindex, hrow]
    exact List.ne_nil_of_mem
      (mem_planFaults.2 ⟨a, ha, row, hwritten, p, hp, cell, fault, hcell, hdecode, rfl⟩)
  have hread : decodePlan ctx plan rows =
      .error (.decode (planFaults ctx t rows plan.actions)) := by
    rcases decodePlan_cases ht hrows with ⟨hnil, -⟩ | hread
    · exact absurd hnil hne
    · exact hread
  constructor
  · unfold apply
    rw [hread]
    exact Step.fails_throw.2 ⟨rfl, rfl⟩
  · rw [check, hread]
    rfl

/-- Items with a price and a weight. -/
def weighedItems : ResolvedType :=
  ⟨"Item", .record, [], [⟨"price", .single (.scalar .i32)⟩, ⟨"weight", .single (.scalar .i32)⟩]⟩

/-- A plan that updates one item, deletes another one and creates a third one. -/
def weighedPlan : Plan where
  recordType := "Item"
  actions := [.update ⟨"g1"⟩ 1 none, .delete ⟨"g2"⟩, .create 0 ⟨"g3"⟩ "Item"]
  backfilled := []
  forceFull := false

/-- Both cells of the first row are at fault, and one cell of the second. -/
def weighedRows : List Row :=
  [(Row.new 2 "Gem" none).withCells (.ofList [("price", "x"), ("weight", "y")]),
    (Row.new 3 "Coin" (some ⟨"g1"⟩)).withCells (.ofList [("price", "7"), ("weight", "lots")])]

/-- The action that comes first has its cell told first, though its row comes second. -/
theorem apply_fails_unreadable_items :
    let ctx : Cell.Context := ⟨{ (default : Registry) with types := [weighedItems] }, .none⟩
    let cells := [⟨3, "weight", .invalidScalar "int" "lots"⟩,
      ⟨2, "price", .invalidScalar "int" "x"⟩, ⟨2, "weight", .invalidScalar "int" "y"⟩]
    planFaults ctx weighedItems weighedRows weighedPlan.actions = cells ∧
      (apply ctx MemoryStore.store weighedPlan weighedRows
        (.empty "Item")).Fails .empty (.decode cells) .empty ∧
      check ctx weighedPlan weighedRows = .error (.decode cells) := by
  intro ctx cells
  have hcells : planFaults ctx weighedItems weighedRows weighedPlan.actions = cells := by
    decide +kernel
  refine ⟨hcells, ?_⟩
  rw [← hcells]
  -- the first cell of the list is one that cannot be read
  have hmem : ⟨3, "weight", .invalidScalar "int" "lots"⟩ ∈
      planFaults ctx weighedItems weighedRows weighedPlan.actions := hcells ▸ List.mem_cons_self
  obtain ⟨a, ha, row, hwritten, p, hp, cell, fault, hcell, hdecode, -⟩ := mem_planFaults.1 hmem
  obtain ⟨i, hindex, hrow⟩ := Option.bind_eq_some_iff.1 hwritten
  exact apply_fails_unreadable rfl (by decide)
    ⟨a, ha, i, row, hindex, hrow, p, hp, cell, fault, hcell, hdecode⟩ MemoryStore.store
    (.empty "Item") .empty

end RecordTables.Execution
