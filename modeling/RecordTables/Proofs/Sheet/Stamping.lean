import RecordTables.Proofs.Sheet.Export

/-!
# Stamping a sheet loses nothing

`Sheet.ofBytes_text_stamp`: a sheet that was read from any file, stamped and written, is read with
the same rows in the same order, of which each has the GUID that was given for it, or else its own;
and every line keeps its cells in all columns but those of GUIDs and hashes.

Stamping puts a column in front and one at the end, if they are not there, and overwrites the cells
of these two.  A column in front moves the others by one (`columnsOf_cons_guidColumn`), one at the
end moves none (`columnsOf_append_hashColumn`), and a row does not depend on cells outside its own
columns (`rowOf_congr`).
-/

namespace RecordTables.Sheet

open Schema

variable {r : Registry} {t : ResolvedType} {recordType : String} {columns : Columns}
  {header cells : List String}

/-! ### What is kept -/

/-- Stamping leaves the columns of this name alone. -/
def isKept (name : String) : Bool := name != guidColumn && name != hashColumn

/-- The cells of a line that stamping leaves alone, each with the name of its column. -/
def keptCells (header cells : List String) : List (String × String) :=
  (header.zip cells).filter fun e => isKept e.1

theorem keptCells_cons (name : String) (header : List String) (cell : String)
    (cells : List String) :
    keptCells (name :: header) (cell :: cells) =
      if isKept name then (name, cell) :: keptCells header cells else keptCells header cells := by
  unfold keptCells
  rw [List.zip_cons_cons, List.filter_cons]

/-- Cells behind those of the columns are not kept, and neither is one in a column that is not. -/
theorem keptCells_append {back : List String} (hnames : ∀ name ∈ back, isKept name = false)
    (hwidth : header.length ≤ cells.length) (more : List String) :
    keptCells (header ++ back) (cells ++ more) = keptCells header cells := by
  induction header generalizing cells with
  | nil =>
    refine List.filter_eq_nil_iff.2 fun e he => ?_
    rw [hnames e.1 (List.of_mem_zip he).1]
    exact Bool.false_ne_true
  | cons name header ih =>
    cases cells with
    | nil => cases hwidth
    | cons cell cells =>
      rw [List.cons_append, List.cons_append, keptCells_cons, keptCells_cons,
        ih (Nat.le_of_succ_le_succ hwidth)]

/-- A cell that is overwritten in a column that is not kept does not matter. -/
theorem keptCells_set {i : Nat} (h : ∀ name, header[i]? = some name → isKept name = false)
    (cell : String) : keptCells header (cells.set i cell) = keptCells header cells := by
  induction header generalizing cells i with
  | nil => rfl
  | cons name header ih =>
    cases cells with
    | nil => rfl
    | cons first cells =>
      cases i with
      | zero => rw [List.set_cons_zero, keptCells_cons, keptCells_cons, h name rfl]; rfl
      | succ i =>
        rw [List.set_cons_succ, keptCells_cons, keptCells_cons,
          ih fun other hother => h other hother]

/-! ### The columns of a header -/

/-- The columns that are neither that of the identifiers nor that of the GUIDs, nor of hashes. -/
def othersOf (header : List String) (identifier : Nat) (guid : Option Nat) : List (Nat × String) :=
  (header.zipIdx.map fun e => (e.2, e.1)).filter fun e =>
    e.1 != identifier && some e.1 != guid && e.2 != hashColumn

theorem mem_othersOf {identifier : Nat} {guid : Option Nat} {c : Nat × String} :
    c ∈ othersOf header identifier guid ↔
      header[c.1]? = some c.2 ∧ c.1 ≠ identifier ∧ some c.1 ≠ guid ∧ c.2 ≠ hashColumn := by
  unfold othersOf
  simp only [List.mem_filter, List.mem_map, Bool.and_eq_true, bne_iff_ne]
  constructor
  · rintro ⟨⟨e, he, rfl⟩, ⟨hidentifier, hguid⟩, hhash⟩
    exact ⟨List.mem_zipIdx_iff_getElem?.1 he, hidentifier, hguid, hhash⟩
  · rintro ⟨hc, hidentifier, hguid, hhash⟩
    exact ⟨⟨(c.2, c.1), List.mem_zipIdx_iff_getElem?.2 hc, rfl⟩, ⟨hidentifier, hguid⟩, hhash⟩

theorem columnsOf_eq_ok_iff : columnsOf r t header = .ok columns ↔
    header.findIdx? (· == r.identifierProperty) = some columns.identifier ∧
      header.findIdx? (· == guidColumn) = columns.guid ∧
      propertyColumns (t.valueProperties.map (·.name)) []
        (othersOf header columns.identifier columns.guid) = columns.properties := by
  obtain ⟨identifier, guid, properties⟩ := columns
  unfold columnsOf
  constructor
  · intro h
    split at h
    · cases h
    · next i hi =>
      cases h
      exact ⟨hi, rfl, rfl⟩
  · rintro ⟨hidentifier, hguid, hproperties⟩
    dsimp only at hidentifier hguid hproperties
    subst hguid hproperties
    rw [hidentifier]
    rfl

/-- The columns stand where their names do. -/
structure Columns.AreIn (columns : Columns) (r : Registry) (header : List String) : Prop where
  identifier : header[columns.identifier]? = some r.identifierProperty
  guid : header.findIdx? (· == guidColumn) = columns.guid
  properties : ∀ c ∈ columns.properties, header[c.1]? = some c.2 ∧ some c.1 ≠ columns.guid ∧
    c.2 ≠ hashColumn

theorem areIn_of_columnsOf (h : columnsOf r t header = .ok columns) : columns.AreIn r header := by
  obtain ⟨hidentifier, hguid, hproperties⟩ := columnsOf_eq_ok_iff.1 h
  obtain ⟨hlt, hname, -⟩ := List.findIdx?_eq_some_iff_getElem.1 hidentifier
  refine ⟨?_, hguid, fun c hc => ?_⟩
  · rw [List.getElem?_eq_getElem hlt, beq_iff_eq.1 hname]
  · rw [← hproperties] at hc
    obtain ⟨hname, -, hnotguid, hhash⟩ := mem_othersOf.1 (mem_of_mem_propertyColumns hc)
    exact ⟨hname, hnotguid, hhash⟩

/-- Columns that are moved by one place. -/
def moved (properties : List (Nat × String)) : List (Nat × String) :=
  properties.map fun c => (c.1 + 1, c.2)

theorem propertyColumns_moved (known seen : List String) (properties : List (Nat × String)) :
    propertyColumns known seen (moved properties) =
      moved (propertyColumns known seen properties) := by
  unfold moved
  induction properties generalizing seen with
  | nil => rfl
  | cons c properties ih =>
    obtain ⟨i, name⟩ := c
    rw [List.map_cons, propertyColumns, propertyColumns]
    split_ifs
    · rw [ih, List.map_cons]
    · exact ih seen

theorem othersOf_cons_guidColumn (header : List String) (i : Nat) :
    othersOf (guidColumn :: header) (i + 1) (some 0) = moved (othersOf header i none) := by
  unfold othersOf moved
  -- the column in front is that of the GUIDs; the others pass the same test at their new places
  rw [List.zipIdx_cons, List.map_cons, List.filter_cons_of_neg (by simp), List.zipIdx_succ,
    List.map_map, List.filter_map, List.filter_map, List.map_map]
  refine congrArg (List.map _) (List.filter_congr fun e _ => ?_)
  have hguid : (some (e.2 + 1) != some 0) = (some e.2 != none) := rfl
  simp [hguid]

theorem othersOf_append_hashColumn (header : List String) (i : Nat) (guid : Option Nat) :
    othersOf (header ++ [hashColumn]) i guid = othersOf header i guid := by
  have hhash (n : Nat) : (([hashColumn].zipIdx n).map fun e => (e.2, e.1)).filter (fun e =>
      e.1 != i && some e.1 != guid && e.2 != hashColumn) = [] := by
    refine List.filter_eq_nil_iff.2 fun e he => ?_
    rw [List.zipIdx_singleton, List.map_singleton, List.mem_singleton] at he
    simp [he]
  unfold othersOf
  rw [List.zipIdx_append, List.map_append, List.filter_append, hhash, List.append_nil]

/-- **A column of GUIDs in front** moves the others by one. -/
theorem columnsOf_cons_guidColumn (hidentifier : r.identifierProperty ≠ guidColumn)
    (hnone : guidColumn ∉ header) (h : columnsOf r t header = .ok columns) :
    columns.guid = none ∧ columnsOf r t (guidColumn :: header) =
      .ok ⟨columns.identifier + 1, some 0, moved columns.properties⟩ := by
  obtain ⟨hfind, hguid, hproperties⟩ := columnsOf_eq_ok_iff.1 h
  have hno : columns.guid = none := by
    rw [← hguid, List.findIdx?_eq_none_iff]
    rintro name hname
    rw [beq_eq_false_iff_ne]
    rintro rfl
    exact hnone hname
  rw [hno] at hproperties
  refine ⟨hno, columnsOf_eq_ok_iff.2 ⟨?_, ?_, ?_⟩⟩
  · rw [List.findIdx?_cons, beq_eq_false_iff_ne.2 hidentifier.symm, hfind]
    rfl
  · rw [List.findIdx?_cons, beq_self_eq_true]
    rfl
  · rw [othersOf_cons_guidColumn, propertyColumns_moved, hproperties]

/-- **A column of hashes at the end** moves none. -/
theorem columnsOf_append_hashColumn (h : columnsOf r t header = .ok columns) :
    columnsOf r t (header ++ [hashColumn]) = .ok columns := by
  obtain ⟨hfind, hguid, hproperties⟩ := columnsOf_eq_ok_iff.1 h
  have hother : [hashColumn].findIdx? (· == guidColumn) = none := by decide
  refine columnsOf_eq_ok_iff.2 ⟨?_, ?_, ?_⟩
  · rw [List.findIdx?_append, hfind, Option.some_or]
  · rw [List.findIdx?_append, hother, Option.map_none, Option.or_none, hguid]
  · rw [othersOf_append_hashColumn, hproperties]

/-! ### Rows -/

theorem propertyCells_moved (properties : List (Nat × String)) (cell : String)
    (cells : List String) :
    propertyCells (moved properties) (cell :: cells) = propertyCells properties cells := by
  unfold propertyCells moved
  rw [List.foldl_map]
  rfl

theorem propertyCells_congr {properties : List (Nat × String)} {cells' : List String}
    (h : ∀ c ∈ properties, cellAt cells' c.1 = cellAt cells c.1) :
    propertyCells properties cells' = propertyCells properties cells := by
  unfold propertyCells
  refine List.foldl_ext _ _ _ fun m c hc => ?_
  rw [h c hc]

/-- **A row does not depend** on cells outside its own columns. -/
theorem rowOf_congr {cells' : List String} {guid : Option Guid} (number : Nat)
    (hidentifier : cellAt cells' columns.identifier = cellAt cells columns.identifier)
    (hguid : (columns.guid.bind fun i => Guid.ofCell? (cellAt cells' i)) = guid)
    (hproperties : ∀ c ∈ columns.properties, cellAt cells' c.1 = cellAt cells c.1) :
    rowOf columns number cells' = { rowOf columns number cells with guid } := by
  rw [rowOf_eq, rowOf_eq, hidentifier, hguid, propertyCells_congr hproperties]

/-- The GUID is read back from a cell that holds it. -/
structure FitsCell (guid : Guid) : Prop where
  plain : IsPlain guid.text
  trimmed : Text.trimmed guid.text = guid.text
  ne_empty : guid.text ≠ ""

theorem FitsCell.ofCell? {guid : Guid} (h : FitsCell guid) :
    Guid.ofCell? guid.text = some guid := by
  unfold Guid.ofCell?
  rw [h.trimmed]
  exact if_neg (by simpa using h.ne_empty)

/-- A GUID without blanks is read back. -/
theorem fitsCell_of_not_isBlank {guid : Guid} (hne : guid.text ≠ "")
    (h : ∀ c ∈ guid.text.toList, Text.isBlank c = false) : FitsCell guid := by
  constructor
  case plain =>
    intro c hc
    have hnot := h c hc
    refine ⟨?_, ?_, ?_⟩
    all_goals
      rintro rfl
      exact absurd hnot (by decide)
  case trimmed =>
    rw [Text.trimmed_eq_self_iff]
    exact Text.trim_of_ends (fun c hc => h c (List.mem_of_mem_head? hc))
      fun c hc => h c (List.mem_of_mem_getLast? hc)
  case ne_empty => exact hne

theorem fitsCell_of_ofCell? {cell : String} {guid : Guid} (hplain : IsPlain cell)
    (h : Guid.ofCell? cell = some guid) : FitsCell guid := by
  unfold Guid.ofCell? at h
  dsimp only at h
  split_ifs at h with hempty
  obtain rfl := Option.some.inj h
  exact ⟨isPlain_trimmed hplain, Text.trimmed_trimmed cell,
    fun hnil => hempty (String.isEmpty_iff.2 hnil)⟩

theorem isPlain_cellAt (hplain : ∀ cell ∈ cells, IsPlain cell) (i : Nat) :
    IsPlain (cellAt cells i) := by
  unfold cellAt
  rw [List.getD_eq_getElem?_getD]
  cases hcell : cells[i]? with
  | none => exact fun _ h => nomatch h
  | some cell => exact hplain cell (List.mem_of_getElem? hcell)

/-- The GUID of a row that was read from plain cells is read back. -/
theorem fitsCell_of_rowOf {number : Nat} {guid : Guid} (hplain : ∀ cell ∈ cells, IsPlain cell)
    (h : (rowOf columns number cells).guid = some guid) : FitsCell guid := by
  rw [rowOf_eq] at h
  obtain ⟨i, -, hcell⟩ := Option.bind_eq_some_iff.1 h
  exact fitsCell_of_ofCell? (isPlain_cellAt hplain i) hcell

theorem cellAt_padTo (width : Nat) (cells : List String) (i : Nat) :
    cellAt (padTo width cells) i = cellAt cells i := by
  unfold cellAt padTo
  rw [List.getD_eq_getElem?_getD, List.getD_eq_getElem?_getD, List.getElem?_append]
  split_ifs with hlt
  · rfl
  · rw [List.getElem?_eq_none (Nat.le_of_not_lt hlt)]
    cases hblank : (List.replicate (width - cells.length) "")[i - cells.length]? with
    | none => rfl
    | some blank => rw [List.eq_of_mem_replicate (List.mem_of_getElem? hblank)]; rfl

theorem cellAt_set_of_ne {i j : Nat} (h : i ≠ j) (cell : String) :
    cellAt (cells.set i cell) j = cellAt cells j := by
  unfold cellAt
  rw [List.getD_eq_getElem?_getD, List.getD_eq_getElem?_getD, List.getElem?_set_ne h]

/-! ### Sheets that were read -/

/-- The rows of the sheet are made from its lines, which are tidy, by columns of its header. -/
structure IsRead (r : Registry) (t : ResolvedType) (columns : Columns) (s : Sheet) : Prop where
  found : columnsOf r t s.header = .ok columns
  header : TidyHeader s.header
  lines : ∀ l ∈ s.lines, TidyLine s.header.length l.cells ∧
    ∃ number, l.row = rowOf columns number l.cells

variable {s : Sheet}

/-- **A column of GUIDs** that is put in front of a sheet changes none of its rows. -/
theorem IsRead.withGuidColumn (hidentifier : r.identifierProperty ≠ guidColumn)
    (h : s.IsRead r t columns) : ∃ columns', s.withGuidColumn.IsRead r t columns' := by
  unfold Sheet.withGuidColumn
  split_ifs with hhas
  · exact ⟨columns, h⟩
  · have hnone : guidColumn ∉ s.header := fun hmem => hhas (List.contains_iff_mem.2 hmem)
    obtain ⟨hno, hcolumns⟩ := columnsOf_cons_guidColumn hidentifier hnone h.found
    refine ⟨_, hcolumns, ?_, List.forall_mem_map.2 fun l hl => ?_⟩
    · exact ⟨List.forall_mem_cons.2 ⟨by decide, h.header.plain⟩,
        List.forall_mem_cons.2 ⟨by decide +kernel, h.header.trimmed⟩⟩
    · obtain ⟨htidy, number, hrow⟩ := h.lines l hl
      refine ⟨⟨?_, Nat.succ_le_succ htidy.width_le, ?_⟩, number, ?_⟩
      · exact List.forall_mem_cons.2 ⟨(fun _ hc => nomatch hc), htidy.plain⟩
      · rw [List.all_cons, htidy.not_blank, Bool.and_false]
      · -- the new cell is blank, so there is no GUID in it
        rw [hrow, rowOf_eq, rowOf_eq, propertyCells_moved, hno]
        rfl

theorem rows_withGuidColumn (s : Sheet) : s.withGuidColumn.rows = s.rows := by
  unfold Sheet.withGuidColumn rows
  split_ifs
  · rfl
  · rw [List.map_map]
    rfl

theorem guidColumn_mem_withGuidColumn (s : Sheet) : guidColumn ∈ s.withGuidColumn.header := by
  unfold Sheet.withGuidColumn
  split_ifs with hhas
  · exact List.contains_iff_mem.1 hhas
  · exact List.mem_cons_self

/-- The column of hashes is there already, or it is put at the end. -/
theorem withHashColumn_eq (header : List String) :
    ∃ back, withHashColumn header = header ++ back ∧ ∀ name ∈ back, name = hashColumn := by
  unfold withHashColumn
  split_ifs
  · exact ⟨[], (List.append_nil _).symm, fun _ h => nomatch h⟩
  · exact ⟨[hashColumn], rfl, fun _ h => List.mem_singleton.1 h⟩

theorem hashColumn_mem_withHashColumn (header : List String) :
    hashColumn ∈ withHashColumn header := by
  unfold withHashColumn
  split_ifs with hhas
  · exact List.contains_iff_mem.1 hhas
  · exact List.mem_append_right _ List.mem_cons_self

theorem guidColumn_mem_withHashColumn (h : guidColumn ∈ header) :
    guidColumn ∈ withHashColumn header := by
  obtain ⟨back, hback, -⟩ := withHashColumn_eq header
  rw [hback]
  exact List.mem_append_left _ h

theorem columnsOf_withHashColumn (h : columnsOf r t header = .ok columns) :
    columnsOf r t (withHashColumn header) = .ok columns := by
  unfold withHashColumn
  split_ifs
  · exact h
  · exact columnsOf_append_hashColumn h

theorem TidyHeader.withHashColumn (h : TidyHeader header) : TidyHeader (withHashColumn header) := by
  obtain ⟨back, hback, hnames⟩ := withHashColumn_eq header
  rw [hback]
  refine ⟨fun name hname => ?_, fun name hname => ?_⟩
  · rcases List.mem_append.1 hname with hname | hname
    · exact h.plain name hname
    · rw [hnames name hname]
      decide
  · rcases List.mem_append.1 hname with hname | hname
    · exact h.trimmed name hname
    · rw [hnames name hname]
      decide +kernel

/-! ### Stamped lines -/

/-- A hash is written with the digits of a number. -/
theorem isPlain_contentHash (cells : NameMap String) : IsPlain (contentHash cells) := by
  intro c hc
  unfold contentHash Fingerprint.text Text.hex at hc
  rw [String.toList_ofList] at hc
  obtain ⟨k, hk, rfl⟩ := Text.exists_hexDigit_of_mem hc
  interval_cases k <;> decide

section Line

variable {l : SheetLine} {guid : Option Guid} {number : Nat}

/-- Stamping keeps the cells of all columns but those of GUIDs and hashes. -/
theorem cellAt_stampLine {i : Nat} (hguid : header.idxOf guidColumn ≠ i)
    (hhash : header.idxOf hashColumn ≠ i) :
    cellAt (stampLine header l guid).cells i = cellAt l.cells i := by
  unfold stampLine
  dsimp only
  rw [cellAt_set_of_ne hhash, cellAt_set_of_ne hguid, cellAt_padTo]

theorem idxOf_ne {name other : String} {i : Nat} (h : name ∈ header)
    (hi : header[i]? = some other) (hne : other ≠ name) : header.idxOf name ≠ i := by
  rintro rfl
  rw [List.getElem?_idxOf h] at hi
  exact hne (Option.some.inj hi).symm

/-- What stands in the column of GUIDs is the given GUID, or that of the row. -/
theorem cellAt_stampLine_guid (hguid : guidColumn ∈ header) (hhash : hashColumn ∈ header) :
    cellAt (stampLine header l guid).cells (header.idxOf guidColumn) =
      ((guid.or l.row.guid).map (·.text)).getD "" := by
  have hname := List.getElem?_idxOf hguid
  have hlt : header.idxOf guidColumn < (padTo header.length l.cells).length :=
    (List.idxOf_lt_length_of_mem hguid).trans_le (width_le_padTo _ _)
  unfold stampLine
  dsimp only
  rw [cellAt_set_of_ne (idxOf_ne hhash hname (by decide))]
  unfold cellAt
  rw [List.getD_eq_getElem?_getD, List.getElem?_set_self hlt, Option.getD_some]

/-- **A stamped line** is read as its row. -/
theorem rowOf_stampLine (hcolumns : columns.AreIn r header)
    (hidentifier : r.identifierProperty ≠ guidColumn)
    (hidentifier' : r.identifierProperty ≠ hashColumn) (hguid : guidColumn ∈ header)
    (hhash : hashColumn ∈ header) (hrow : l.row = rowOf columns number l.cells)
    (hfits : ∀ g, guid.or l.row.guid = some g → FitsCell g) :
    (stampLine header l guid).row = rowOf columns number (stampLine header l guid).cells := by
  have hcell : columns.guid = some (header.idxOf guidColumn) := by
    rw [← hcolumns.guid, List.findIdx?_eq_some_iff_findIdx_eq]
    exact ⟨List.idxOf_lt_length_of_mem hguid, rfl⟩
  have hread : Guid.ofCell? (((guid.or l.row.guid).map (·.text)).getD "") = guid.or l.row.guid := by
    cases hput : guid.or l.row.guid with
    | none => rfl
    | some g => exact (hfits g hput).ofCell?
  have hput : (stampLine header l guid).row = { l.row with guid := guid.or l.row.guid } := rfl
  rw [hput, hrow]
  -- the two cells that were overwritten are not read, but for that of the GUID
  refine (rowOf_congr number ?_ ?_ fun c hc => ?_).symm
  · exact cellAt_stampLine (idxOf_ne hguid hcolumns.identifier hidentifier)
      (idxOf_ne hhash hcolumns.identifier hidentifier')
  · rw [hcell, Option.bind_some, cellAt_stampLine_guid hguid hhash, hread, hrow]
  · obtain ⟨hname, hne, hne'⟩ := hcolumns.properties c hc
    refine cellAt_stampLine (fun hsame => hne ?_) (idxOf_ne hhash hname hne')
    rw [hcell, hsame]

/-- A stamped line is tidy; the hash in it is not blank. -/
theorem tidyLine_stampLine (hhash : hashColumn ∈ header) {width : Nat}
    (htidy : TidyLine width l.cells) (hrow : l.row = rowOf columns number l.cells)
    (hfits : ∀ g, guid.or l.row.guid = some g → FitsCell g) :
    TidyLine header.length (stampLine header l guid).cells := by
  have hcontent : l.row.contentHash = contentHash l.row.cells := by rw [hrow, rowOf_eq]
  have hlt : header.idxOf hashColumn < (padTo header.length l.cells).length :=
    (List.idxOf_lt_length_of_mem hhash).trans_le (width_le_padTo _ _)
  unfold stampLine
  dsimp only
  refine ⟨fun cell hcell => ?_, ?_, ?_⟩
  -- a cell is the hash, or the GUID, or it was there, or it fills up a short line
  · rcases List.mem_or_eq_of_mem_set hcell with hcell | rfl
    · rcases List.mem_or_eq_of_mem_set hcell with hcell | rfl
      · rcases mem_padTo hcell with hcell | rfl
        · exact htidy.plain cell hcell
        · exact fun _ h => nomatch h
      · cases hput : guid.or l.row.guid with
        | none => exact fun _ h => nomatch h
        | some g => exact (hfits g hput).plain
    · rw [hcontent]
      exact isPlain_contentHash _
  · rw [List.length_set, List.length_set]
    exact width_le_padTo _ _
  · rw [List.all_eq_false]
    refine ⟨_, List.mem_set (by rw [List.length_set]; exact hlt) _, ?_⟩
    rw [hcontent, isBlankText_contentHash]
    exact Bool.false_ne_true

/-- A stamped line keeps its cells. -/
theorem keptCells_stampLine (hguid : guidColumn ∈ header)
    (hwidth : header.length ≤ l.cells.length) :
    keptCells (withHashColumn header) (stampLine (withHashColumn header) l guid).cells =
      keptCells header l.cells := by
  obtain ⟨back, hback, hnames⟩ := withHashColumn_eq header
  have hguid' := guidColumn_mem_withHashColumn hguid
  have hover {name : String} (hname : name ∈ withHashColumn header) (hkept : isKept name = false) :
      ∀ other, (withHashColumn header)[(withHashColumn header).idxOf name]? = some other →
        isKept other = false := by
    intro other hother
    rw [List.getElem?_idxOf hname] at hother
    rw [← Option.some.inj hother, hkept]
  unfold stampLine
  dsimp only
  rw [keptCells_set (hover (hashColumn_mem_withHashColumn header) (by decide)),
    keptCells_set (hover hguid' (by decide)), hback]
  -- what fills up the line stands in the column that was put at the end
  unfold padTo
  refine keptCells_append (fun name hname => ?_) hwidth _
  rw [hnames name hname]
  decide

end Line

/-! ### Stamped sheets -/

/-- A column of GUIDs in front does not touch what is kept. -/
theorem kept_withGuidColumn (s : Sheet) :
    s.withGuidColumn.header.filter isKept = s.header.filter isKept ∧
      s.withGuidColumn.lines.map (fun l => keptCells s.withGuidColumn.header l.cells) =
        s.lines.map fun l => keptCells s.header l.cells := by
  unfold Sheet.withGuidColumn
  split_ifs
  · exact ⟨rfl, rfl⟩
  · refine ⟨List.filter_cons_of_neg (by decide), ?_⟩
    rw [List.map_map]
    refine List.map_congr_left fun l _ => ?_
    exact (keptCells_cons ..).trans (if_neg (by decide))

/-- Whatever GUID is put into a line, it is read back. -/
theorem fitsCell_of_put {guids : List (Option Guid)}
    (hguids : ∀ guid, some guid ∈ guids → FitsCell guid) {l : SheetLine} {number : Nat}
    (hplain : ∀ cell ∈ l.cells, IsPlain cell) (hrow : l.row = rowOf columns number l.cells)
    {i : Nat} {guid : Guid} (h : (guids.getD i none).or l.row.guid = some guid) :
    FitsCell guid := by
  cases hput : guids.getD i none with
  | none =>
    rw [hput, Option.none_or, hrow] at h
    exact fitsCell_of_rowOf hplain h
  | some given =>
    rw [hput, Option.some_or] at h
    obtain rfl := Option.some.inj h
    rw [List.getD_eq_getElem?_getD] at hput
    cases hget : guids[i]? with
    | none =>
      rw [hget] at hput
      cases hput
    | some x =>
      rw [hget, Option.getD_some] at hput
      exact hguids given (hput ▸ List.mem_of_getElem? hget)

/-- **A stamped sheet** is like one that was read. -/
theorem IsRead.stamp (h : s.IsRead r t columns) (hidentifier : r.identifierProperty ≠ guidColumn)
    (hidentifier' : r.identifierProperty ≠ hashColumn) {guids : List (Option Guid)}
    (hguids : ∀ guid, some guid ∈ guids → FitsCell guid) :
    ∃ columns', (s.stamp guids).IsRead r t columns' := by
  obtain ⟨columns', hread⟩ := h.withGuidColumn hidentifier
  have hguid := guidColumn_mem_withHashColumn (guidColumn_mem_withGuidColumn s)
  have hhash := hashColumn_mem_withHashColumn s.withGuidColumn.header
  have hfound := columnsOf_withHashColumn hread.found
  refine ⟨columns', hfound, hread.header.withHashColumn, List.forall_mem_map.2 fun e he => ?_⟩
  obtain ⟨htidy, number, hrow⟩ := hread.lines e.1 (List.fst_mem_of_mem_zipIdx he)
  have hfits : ∀ g, (guids.getD e.2 none).or e.1.row.guid = some g → FitsCell g :=
    fun g hg => fitsCell_of_put hguids htidy.plain hrow hg
  refine ⟨tidyLine_stampLine hhash htidy hrow hfits, number, ?_⟩
  exact rowOf_stampLine (areIn_of_columnsOf hfound) hidentifier hidentifier' hguid hhash hrow hfits

/-! ### Reading a stamped sheet -/

/-- The rows have the numbers of the lines in which they are written, below the header. -/
def renumbered (s : Sheet) : Sheet :=
  ⟨s.header, s.lines.zipIdx.map fun e => { e.1 with row := { e.1.row with line := e.2 + 2 } }⟩

/-- **A sheet that is like one that was read** is read from its file as itself, numbered anew. -/
theorem IsRead.ofBytes_text (h : s.IsRead r t columns) (ht : r.type? recordType = some t)
    (hwidth : 2 ≤ s.header.length) (hmark : ∀ name ∈ s.header, '\uFEFF' ∉ name.toList) :
    ofBytes r recordType (Text.utf8 s.text) = .ok s.renumbered := by
  obtain ⟨name, names, hheader⟩ : ∃ name names, s.header = name :: names :=
    List.exists_cons_of_ne_nil (List.ne_nil_of_length_pos (by omega))
  have hhead : (fileText (s.header :: s.lines.map (·.cells))).toList.head? ≠ some '\uFEFF' := by
    have hname : '\uFEFF' ∉ name.toList := hmark name (by rw [hheader]; exact List.mem_cons_self)
    rw [hheader]
    exact head?_fileText (fun hhead => hname (List.mem_of_mem_head? hhead)) names _
  have htext : s.text = fileText (s.header :: s.lines.map (·.cells)) := rfl
  rw [htext, ofBytes_fileText ht h.found h.header hwidth hhead
    (List.forall_mem_map.2 fun l hl => (h.lines l hl).1)]
  -- every row is made from the same cells by the same columns
  refine congrArg (fun lines => Except.ok (⟨_, lines⟩ : Sheet)) (List.ext_getElem? fun k => ?_)
  simp only [List.getElem?_map, List.getElem?_zipIdx]
  cases hl : s.lines[k]? with
  | none => rfl
  | some l =>
    obtain ⟨-, number, hrow⟩ := h.lines l (List.mem_of_getElem? hl)
    simp only [Option.map_some, Nat.zero_add]
    rw [hrow, rowOf_eq, rowOf_eq, show 1 + k + 1 = k + 2 by omega]

/-- The sheet is another one with these GUIDs put into it: it has the same rows, and the same cells
in the columns that are kept. -/
structure IsStampOf (s' s : Sheet) (guids : List (Option Guid)) : Prop where
  rows : s'.rows = s.rows.zipIdx.map fun e =>
    { e.1 with line := e.2 + 2, guid := (guids.getD e.2 none).or e.1.guid }
  names : s'.header.filter isKept = s.header.filter isKept
  cells : s'.lines.map (fun l => keptCells s'.header l.cells) =
    s.lines.map fun l => keptCells s.header l.cells

theorem isStampOf_renumbered (guids : List (Option Guid))
    (hwidth : ∀ l ∈ s.withGuidColumn.lines, s.withGuidColumn.header.length ≤ l.cells.length) :
    (s.stamp guids).renumbered.IsStampOf s guids := by
  obtain ⟨hnames, hcells⟩ := kept_withGuidColumn s
  -- line by line: the cells are stamped, and the row has the GUID and the new number
  have hline (k : Nat) : (s.stamp guids).renumbered.lines[k]? = s.withGuidColumn.lines[k]?.map
      fun l => ⟨(stampLine (withHashColumn s.withGuidColumn.header) l (guids.getD k none)).cells,
        { l.row with line := k + 2, guid := (guids.getD k none).or l.row.guid }⟩ := by
    unfold renumbered stamp
    simp only [List.getElem?_map, List.getElem?_zipIdx, Nat.zero_add, Option.map_map]
    rfl
  constructor
  case rows =>
    rw [← rows_withGuidColumn s]
    unfold rows
    refine List.ext_getElem? fun k => ?_
    rw [List.getElem?_map, hline]
    simp only [List.getElem?_map, List.getElem?_zipIdx, Nat.zero_add, Option.map_map]
    rfl
  case names =>
    obtain ⟨back, hback, hhash⟩ := withHashColumn_eq s.withGuidColumn.header
    -- a column that is put behind the others is that of the hashes, which is not kept
    have hnone : back.filter isKept = [] := by
      refine List.filter_eq_nil_iff.2 fun name hname => ?_
      rw [hhash name hname]
      decide
    show (withHashColumn s.withGuidColumn.header).filter isKept = _
    rw [hback, List.filter_append, hnone, List.append_nil, hnames]
  case cells =>
    rw [← hcells]
    refine List.ext_getElem? fun k => ?_
    rw [List.getElem?_map, List.getElem?_map, hline, Option.map_map]
    cases hl : s.withGuidColumn.lines[k]? with
    | none => rfl
    | some l =>
      exact congrArg some (keptCells_stampLine (guidColumn_mem_withGuidColumn s)
        (hwidth l (List.mem_of_getElem? hl)))

/-- The names of the columns of a stamped sheet. -/
theorem mem_header_stamp {guids : List (Option Guid)} {name : String}
    (h : name ∈ (s.stamp guids).header) :
    name ∈ s.header ∨ name = guidColumn ∨ name = hashColumn := by
  have hmem : name ∈ withHashColumn s.withGuidColumn.header := h
  obtain ⟨back, hback, hnames⟩ := withHashColumn_eq s.withGuidColumn.header
  rw [hback] at hmem
  rcases List.mem_append.1 hmem with hmem | hmem
  · unfold Sheet.withGuidColumn at hmem
    split_ifs at hmem
    · exact Or.inl hmem
    · rcases List.mem_cons.1 hmem with hname | hmem
      · exact Or.inr (Or.inl hname)
      · exact Or.inl hmem
  · exact Or.inr (Or.inr (hnames name hmem))

theorem two_le_length (hguid : guidColumn ∈ header) (hhash : hashColumn ∈ header) :
    2 ≤ header.length := by
  have hlt := List.idxOf_lt_length_of_mem hguid
  have hlt' := List.idxOf_lt_length_of_mem hhash
  have hne := idxOf_ne hguid (List.getElem?_idxOf hhash) (by decide)
  omega

/-- **A stamped sheet** is read from its file as itself, numbered anew. -/
theorem IsRead.ofBytes_stamp (h : s.IsRead r t columns) (ht : r.type? recordType = some t)
    (hidentifier : r.identifierProperty ≠ guidColumn)
    (hidentifier' : r.identifierProperty ≠ hashColumn)
    (hmark : ∀ name ∈ s.header, '\uFEFF' ∉ name.toList) {guids : List (Option Guid)}
    (hguids : ∀ guid, some guid ∈ guids → FitsCell guid) :
    ofBytes r recordType (Text.utf8 (s.stamp guids).text) = .ok (s.stamp guids).renumbered := by
  obtain ⟨columns', hstamped⟩ := h.stamp hidentifier hidentifier' hguids
  have hwidth : 2 ≤ (s.stamp guids).header.length :=
    two_le_length (guidColumn_mem_withHashColumn (guidColumn_mem_withGuidColumn s))
      (hashColumn_mem_withHashColumn _)
  refine hstamped.ofBytes_text ht hwidth fun name hname => ?_
  rcases mem_header_stamp hname with hname | rfl | rfl
  · exact hmark name hname
  · decide
  · decide

/-- **Stamping loses nothing**: a sheet that was read, stamped and written is read with its rows,
its cells, and the GUIDs that were put into it. -/
theorem ofBytes_text_stamp (hidentifier : r.identifierProperty ≠ guidColumn)
    (hidentifier' : r.identifierProperty ≠ hashColumn) {bytes : List UInt8}
    (h : ofBytes r recordType bytes = .ok s)
    (hmark : ∀ name ∈ s.header, '\uFEFF' ∉ name.toList) {guids : List (Option Guid)}
    (hguids : ∀ guid, some guid ∈ guids → FitsCell guid) :
    ∃ s', ofBytes r recordType (Text.utf8 (s.stamp guids).text) = .ok s' ∧
      s'.IsStampOf s guids := by
  obtain ⟨t, columns, ht, hfound, htidy, hlines⟩ := tidy_of_ofBytes h
  have hread : s.IsRead r t columns := ⟨hfound, htidy, hlines⟩
  obtain ⟨_, hfront⟩ := hread.withGuidColumn hidentifier
  exact ⟨_, hread.ofBytes_stamp ht hidentifier hidentifier' hmark hguids,
    isStampOf_renumbered guids fun l hl => (hfront.lines l hl).1.width_le⟩

/-! ### A heap of things -/

/-- A file without GUIDs and hashes.  A column of it is unknown, a line is blank, and another is
longer than the header. -/
def heapText : String := "Identifier\tcolour\tlabel\r\n Coin \tred\tgold\n \t\nRing\t\t\tspare\n"

/-- The sheet in the file. -/
def heap : Sheet :=
  match ofBytes labelledItems "Item" (Text.utf8 heapText) with
  | .ok s => s
  | .error _ => ⟨[], []⟩

/-- Only what stands in no column is lost: the hash takes its place. -/
theorem ofBytes_text_stamp_heap :
    labelledItems.identifierProperty ≠ guidColumn ∧ labelledItems.identifierProperty ≠ hashColumn ∧
      ofBytes labelledItems "Item" (Text.utf8 heapText) = .ok heap ∧
      (∀ name ∈ heap.header, '\uFEFF' ∉ name.toList) ∧
      (∀ guid, some guid ∈ [none, some ⟨"g2"⟩] → FitsCell guid) ∧
      heap.lines.map (·.cells) = [[" Coin ", "red", "gold"], ["Ring", "", "", "spare"]] ∧
      (heap.stamp [none, some ⟨"g2"⟩]).lines.map (fun l => l.cells.take 4) =
        [["", " Coin ", "red", "gold"], ["g2", "Ring", "", ""]] ∧
      ∃ s', ofBytes labelledItems "Item"
          (Text.utf8 (heap.stamp [none, some ⟨"g2"⟩]).text) = .ok s' ∧
        s'.IsStampOf heap [none, some ⟨"g2"⟩] := by
  have hheap : ofBytes labelledItems "Item" (Text.utf8 heapText) = .ok heap := by decide +kernel
  have hmark : ∀ name ∈ heap.header, '\uFEFF' ∉ name.toList := by decide +kernel
  have hguids : ∀ guid, some guid ∈ [none, some ⟨"g2"⟩] → FitsCell guid := by
    intro guid hguid
    rcases List.mem_cons.1 hguid with h | h
    · cases h
    · obtain rfl := Option.some.inj (List.mem_singleton.1 h)
      exact ⟨by decide, by decide +kernel, by decide⟩
  exact ⟨by decide, by decide, hheap, hmark, hguids, by decide +kernel, by decide +kernel,
    ofBytes_text_stamp (by decide) (by decide) hheap hmark hguids⟩

end RecordTables.Sheet
