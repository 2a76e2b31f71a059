import Mathlib
import RecordTables.Proofs.Sheet.ReadBack
import RecordTables.Proofs.Text.Basic
import RecordTables.Sheet.Export

/-!
# Exported sheets read back

A sheet is written without quotes, and its reader trims names, identifiers and GUIDs.  So the sheet
of a record set reads back if what it shows is `Legible`: no cell holds a tab or the end of a line,
the names of its columns, its identifiers and its GUIDs have no blanks around them, and no property
takes the name of a column of its own.  Then the file is read as the very same sheet, with the same
rows, lines and hashes (`ofBytes_text_ofRecords`).
-/

namespace RecordTables.Sheet

open Schema

variable {ctx : Cell.Context}

/-- What can be told from the file of an exported sheet. -/
structure Legible (r : Registry) (t : ResolvedType) (s : Sheet) : Prop where
  /-- The column of the identifiers is not the one of the GUIDs. -/
  identifier_ne_guid : r.identifierProperty ≠ guidColumn
  /-- No property is taken for the hash. -/
  property_ne_hash : ∀ p ∈ t.valueProperties, p.name ≠ hashColumn
  header : TidyHeader s.header
  plain : ∀ l ∈ s.lines, ∀ cell ∈ l.cells, IsPlain cell
  identifier : ∀ row ∈ s.rows, Text.trimmed row.identifier = row.identifier
  guid : ∀ row ∈ s.rows, ∀ guid, row.guid = some guid →
    Text.trimmed guid.text = guid.text ∧ guid.text ≠ ""

/-! ### Hashes -/

/-- The hash of a row is not blank. -/
theorem isBlankText_contentHash (cells : NameMap String) :
    Text.isBlankText (contentHash cells) = false := by
  unfold contentHash Fingerprint.text Text.hex Text.isBlankText
  rw [String.toList_ofList, Text.hexDigits, List.all_append]
  generalize (Fingerprint.ofStream (Stream.cells cells)).value.toNat = n
  have hlast : Text.isBlank (Text.hexDigit (n % 16)) = false :=
    Text.not_isBlank_hexDigit (Nat.mod_lt n (by decide))
  rw [List.all_cons, hlast, Bool.false_and, Bool.and_false]

/-! ### The columns of an exported sheet -/

/-- The header of an exported sheet. -/
def exportHeader (identifier : String) (names : List String) : List String :=
  guidColumn :: identifier :: (names ++ [hashColumn])

/-- The columns of an exported sheet: GUIDs, identifiers, and the properties behind them. -/
theorem columnsOf_exportHeader {r : Registry} {t : ResolvedType}
    (hidentifier : r.identifierProperty ≠ guidColumn)
    (hproperties : ∀ p ∈ t.valueProperties, p.name ≠ hashColumn) :
    columnsOf r t (exportHeader r.identifierProperty (t.valueProperties.map (·.name))) =
      .ok ⟨1, some 0, propertyColumns (t.valueProperties.map (·.name)) []
        (((t.valueProperties.map (·.name)).zipIdx 2).map fun e => (e.2, e.1))⟩ := by
  have hnames : ∀ name ∈ t.valueProperties.map (·.name), name ≠ hashColumn :=
    List.forall_mem_map.2 hproperties
  unfold columnsOf
  generalize t.valueProperties.map (·.name) = names at hnames ⊢
  have hfind : (exportHeader r.identifierProperty names).findIdx? (· == r.identifierProperty) =
      some 1 := by
    unfold exportHeader
    rw [List.findIdx?_cons, beq_eq_false_iff_ne.2 hidentifier.symm, List.findIdx?_cons]
    simp
  have hguid : (exportHeader r.identifierProperty names).findIdx? (· == guidColumn) = some 0 := by
    unfold exportHeader
    rw [List.findIdx?_cons]
    simp
  rw [hfind, hguid]
  dsimp only
  -- of the columns, those of the properties are left
  have hothers : (((exportHeader r.identifierProperty names).zipIdx.map fun e => (e.2, e.1)).filter
      fun e => e.1 != 1 && some e.1 != some 0 && e.2 != hashColumn) =
      (names.zipIdx 2).map fun e => (e.2, e.1) := by
    unfold exportHeader
    rw [List.zipIdx_cons, List.zipIdx_cons, List.zipIdx_append, List.map_cons, List.map_cons,
      List.map_append, List.filter_cons_of_neg (by simp), List.filter_cons_of_neg (by simp),
      List.filter_append]
    have hkept : (((names.zipIdx (0 + 1 + 1)).map fun e => (e.2, e.1)).filter
        fun e => e.1 != 1 && some e.1 != some 0 && e.2 != hashColumn) =
        (names.zipIdx 2).map fun e => (e.2, e.1) := by
      refine List.filter_eq_self.2 fun e he => ?_
      obtain ⟨⟨name, i⟩, hmem, rfl⟩ := List.mem_map.1 he
      have hi : 2 ≤ i := List.le_snd_of_mem_zipIdx hmem
      have hname := hnames name (List.fst_mem_of_mem_zipIdx hmem)
      simp only [Bool.and_eq_true, bne_iff_ne, ne_eq, Option.some.injEq]
      exact ⟨⟨by omega, by omega⟩, hname⟩
    rw [hkept]
    simp
  rw [hothers]

/-! ### The lines of an exported sheet -/

/-- The cells of the properties of a record, by name. -/
def shownCells (names cells : List String) : NameMap String :=
  (names.zip cells).foldl (fun m c => m.insert c.1 c.2) .empty

theorem find?_shownCells_isSome {names cells : List String} (hlength : cells.length = names.length)
    (name : String) : ((shownCells names cells).find? name).isSome = true ↔ name ∈ names := by
  have hfold (l : List (String × String)) (m : NameMap String) :
      ((l.foldl (fun m c => m.insert c.1 c.2) m).find? name).isSome = true ↔
        name ∈ l.map (·.1) ∨ (m.find? name).isSome = true := by
    induction l generalizing m with
    | nil => simp
    | cons c l ih =>
      rw [List.foldl_cons, ih, NameMap.find?_insert, List.map_cons, List.mem_cons]
      by_cases h : c.1 = name
      · simp [h]
      · rw [if_neg h]
        constructor
        · rintro (hmem | hsome)
          · exact Or.inl (Or.inr hmem)
          · exact Or.inr hsome
        · rintro ((rfl | hmem) | hsome)
          · exact absurd rfl h
          · exact Or.inl hmem
          · exact Or.inr hsome
  unfold shownCells
  rw [hfold, List.map_fst_zip (by omega)]
  simp

/-- **The line of a record** by its parts. -/
theorem exportLine_eq_ok {recordType : String} {properties : List Property} {number : Nat}
    {record : Record} {l : SheetLine}
    (h : exportLine ctx recordType properties number record = .ok l) : ∃ shown : NameMap String,
      (∀ name, (shown.find? name).isSome = true ↔ name ∈ properties.map (·.name)) ∧
        l.row = ⟨number, record.identifier, some record.guid, contentHash shown, shown⟩ ∧
        l.cells = record.guid.text :: record.identifier ::
          ((properties.map fun p => (shown.find? p.name).getD "") ++ [contentHash shown]) := by
  unfold exportLine at h
  obtain ⟨cells, hcells, h⟩ := bind_eq_ok.1 h
  have hlength : cells.length = (properties.map (·.name)).length := by
    rw [List.length_map, (mapM_eq_ok.1 hcells).length_eq]
  have hnew : (Row.new number record.identifier (some record.guid)).contentHash =
      contentHash (Row.new number record.identifier (some record.guid)).cells := by
    unfold Row.new
    dsimp only
  rw [foldl_withCell (fun c : String × String => c.1) (fun c => c.2) _ _ hnew] at h
  refine ⟨shownCells (properties.map (·.name)) cells, find?_shownCells_isSome hlength, ?_⟩
  obtain rfl := Except.ok.inj h
  exact ⟨rfl, rfl⟩

/-- An exported line is read as its row. -/
theorem rowOf_exportLine {properties : List Property} {number : Nat} {identifier : String}
    {guid : Guid} {shown : NameMap String}
    (hshown : ∀ name, (shown.find? name).isSome = true ↔ name ∈ properties.map (·.name))
    (hidentifier : Text.trimmed identifier = identifier)
    (hguid : Text.trimmed guid.text = guid.text ∧ guid.text ≠ "") :
    rowOf ⟨1, some 0, propertyColumns (properties.map (·.name)) []
        (((properties.map (·.name)).zipIdx 2).map fun e => (e.2, e.1))⟩ number
      (guid.text :: identifier ::
        ((properties.map fun p => (shown.find? p.name).getD "") ++ [contentHash shown])) =
      ⟨number, identifier, some guid, contentHash shown, shown⟩ := by
  -- the cell of a column is the cell shown under its name
  have hcell (i : Nat) (name : String) (h : (name, i) ∈ (properties.map (·.name)).zipIdx 2) :
      cellAt (guid.text :: identifier ::
        ((properties.map fun p => (shown.find? p.name).getD "") ++ [contentHash shown])) i =
        (shown.find? name).getD "" := by
    have hle : 2 ≤ i := List.le_snd_of_mem_zipIdx h
    obtain ⟨j, rfl⟩ := Nat.exists_eq_add_of_le' hle
    rw [List.mk_mem_zipIdx_iff_le_and_getElem?_sub, Nat.add_sub_cancel, List.getElem?_map] at h
    obtain ⟨p, hp, rfl⟩ := Option.map_eq_some_iff.1 h.2
    have hlt : j < (properties.map fun p => (shown.find? p.name).getD "").length := by
      rw [List.length_map]
      exact (List.getElem?_eq_some_iff.1 hp).1
    unfold cellAt
    rw [List.getD_eq_getElem?_getD, List.getElem?_cons_succ, List.getElem?_cons_succ,
      List.getElem?_append_left hlt, List.getElem?_map, hp]
    rfl
  have hcells : propertyCells (propertyColumns (properties.map (·.name)) []
      (((properties.map (·.name)).zipIdx 2).map fun e => (e.2, e.1)))
      (guid.text :: identifier ::
        ((properties.map fun p => (shown.find? p.name).getD "") ++ [contentHash shown])) = shown := by
    refine NameMap.ext_find? fun name => ?_
    rw [find?_propertyCells]
    by_cases hname : name ∈ properties.map (·.name)
    · obtain ⟨x, hx⟩ := Option.isSome_iff_exists.1 ((hshown name).2 hname)
      obtain ⟨k, hk⟩ := List.getElem?_of_mem hname
      have hi : (name, 2 + k) ∈ (properties.map (·.name)).zipIdx 2 :=
        List.mk_add_mem_zipIdx_iff_getElem?.2 hk
      obtain ⟨j, hj⟩ := exists_mem_propertyColumns
        (List.mem_map_of_mem (f := fun e => (e.2, e.1)) hi) hname List.not_mem_nil
      cases hfind : (propertyColumns (properties.map (·.name)) []
          (((properties.map (·.name)).zipIdx 2).map fun e => (e.2, e.1))).reverse.find?
          fun c => c.2 == name with
      | none =>
        exact absurd (beq_self_eq_true name)
          (List.find?_eq_none.1 hfind _ (List.mem_reverse.2 hj))
      | some c =>
        have hc : c.2 = name := by simpa using List.find?_some hfind
        have hmem := mem_of_mem_propertyColumns (List.mem_reverse.1 (List.mem_of_find?_eq_some hfind))
        obtain ⟨e, he, rfl⟩ := List.mem_map.1 hmem
        obtain rfl : e.1 = name := hc
        rw [Option.map_some, hcell e.2 e.1 he, hx]
        rfl
    · have hnone : shown.find? name = none := by
        rw [← Option.not_isSome_iff_eq_none, hshown]
        exact hname
      rw [hnone, List.find?_eq_none.2, Option.map_none]
      intro c hc
      have hmem := mem_of_mem_propertyColumns (List.mem_reverse.1 hc)
      obtain ⟨e, he, rfl⟩ := List.mem_map.1 hmem
      rw [beq_iff_eq]
      rintro rfl
      exact hname (List.fst_mem_of_mem_zipIdx he)
  have hofCell : Guid.ofCell? guid.text = some guid := by
    unfold Guid.ofCell?
    rw [hguid.1]
    exact if_neg (by simpa using hguid.2)
  rw [rowOf_eq]
  dsimp only
  rw [hcells, Option.bind_some]
  have hfirst : cellAt (guid.text :: identifier ::
      ((properties.map fun p => (shown.find? p.name).getD "") ++ [contentHash shown])) 0 =
      guid.text := rfl
  have hsecond : cellAt (guid.text :: identifier ::
      ((properties.map fun p => (shown.find? p.name).getD "") ++ [contentHash shown])) 1 =
      identifier := rfl
  rw [hfirst, hsecond, hidentifier, hofCell]

/-! ### Exported sheets -/

/-- **An exported sheet reads back**, if it is legible: its file is read as the same sheet. -/
theorem ofBytes_text_ofRecords {records : RecordSet} {t : ResolvedType} {s : Sheet}
    (ht : ctx.registry.type? records.recordType = some t) (h : ofRecords ctx records = .ok s)
    (hlegible : s.Legible ctx.registry t) :
    ofBytes ctx.registry records.recordType (Text.utf8 s.text) = .ok s := by
  have hidentities := hlegible.identifier
  have hguids := hlegible.guid
  have hplain := hlegible.plain
  have hheader := hlegible.header
  have hcolumns := columnsOf_exportHeader hlegible.identifier_ne_guid hlegible.property_ne_hash
  unfold ofRecords at h
  rw [ht] at h
  obtain ⟨lines, hlines, h⟩ := bind_eq_ok.1 h
  obtain rfl := Except.ok.inj h
  have hrecords := mapM_eq_ok.1 hlines
  -- each line by its parts
  have hline (k : Nat) (l : SheetLine) (hl : lines[k]? = some l) :
      ∃ (record : Record) (shown : NameMap String),
        (∀ name, (shown.find? name).isSome = true ↔ name ∈ t.valueProperties.map (·.name)) ∧
          l.row = ⟨k + 2, record.identifier, some record.guid, contentHash shown, shown⟩ ∧
          l.cells = record.guid.text :: record.identifier ::
            ((t.valueProperties.map fun p => (shown.find? p.name).getD "") ++
              [contentHash shown]) := by
    obtain ⟨hk, rfl⟩ := List.getElem?_eq_some_iff.1 hl
    have hexport := hrecords.get (by rw [hrecords.length_eq]; exact hk) hk
    simp only [List.get_eq_getElem, List.getElem_zipIdx, Nat.zero_add] at hexport
    obtain ⟨shown, hshown, hrow, hcells⟩ := exportLine_eq_ok hexport
    exact ⟨_, shown, hshown, hrow, hcells⟩
  have hshape : exportHeader ctx.registry.identifierProperty (t.valueProperties.map (·.name)) =
      [guidColumn, ctx.registry.identifierProperty] ++ t.valueProperties.map (·.name) ++
        [hashColumn] := rfl
  rw [← hshape] at hheader ⊢
  have htidy : ∀ cells ∈ lines.map (·.cells), TidyLine
      (exportHeader ctx.registry.identifierProperty (t.valueProperties.map (·.name))).length cells := by
    refine List.forall_mem_map.2 fun l hl => ⟨hplain l hl, ?_, ?_⟩
    · obtain ⟨k, hk⟩ := List.getElem?_of_mem hl
      obtain ⟨record, shown, -, -, hcells⟩ := hline k l hk
      rw [hcells]
      unfold exportHeader
      simp
    · obtain ⟨k, hk⟩ := List.getElem?_of_mem hl
      obtain ⟨record, shown, -, -, hcells⟩ := hline k l hk
      rw [hcells, List.all_cons, List.all_cons, List.all_append, List.all_cons,
        isBlankText_contentHash]
      simp
  have hfile : Sheet.text ⟨exportHeader ctx.registry.identifierProperty
      (t.valueProperties.map (·.name)), lines⟩ = fileText (exportHeader
        ctx.registry.identifierProperty (t.valueProperties.map (·.name)) :: lines.map (·.cells)) := rfl
  rw [hfile, ofBytes_fileText ht hcolumns hheader (by unfold exportHeader; simp)
    (head?_fileText (by decide) _ _) htidy]
  -- every line is read as its row
  have hread : (((lines.map (·.cells)).zipIdx 1).map fun l =>
      (⟨l.1, rowOf ⟨1, some 0, propertyColumns (t.valueProperties.map (·.name)) []
        (((t.valueProperties.map (·.name)).zipIdx 2).map fun e => (e.2, e.1))⟩ (l.2 + 1) l.1⟩ :
          SheetLine)) = lines := by
    refine List.ext_getElem? fun k => ?_
    rw [List.getElem?_map, List.getElem?_zipIdx, List.getElem?_map]
    cases hl : lines[k]? with
    | none => rfl
    | some l =>
      obtain ⟨record, shown, hshown, hrow, hcells⟩ := hline k l hl
      have hmem : l.row ∈ Sheet.rows ⟨[guidColumn, ctx.registry.identifierProperty] ++
          t.valueProperties.map (·.name) ++ [hashColumn], lines⟩ :=
        List.mem_map.2 ⟨l, List.mem_of_getElem? hl, rfl⟩
      have hidentity := hidentities l.row hmem
      have hguid := hguids l.row hmem record.guid (by rw [hrow])
      rw [hrow] at hidentity
      obtain ⟨cells, row⟩ := l
      dsimp only at hrow hcells ⊢
      rw [Option.map_some, Option.map_some, Option.map_some]
      dsimp only
      rw [hrow, hcells, show 1 + k + 1 = k + 2 by omega, rowOf_exportLine hshown hidentity hguid]
  rw [hread]

/-! ### A purse -/

/-- A schema of items, each with a label and a note. -/
def labelledItems : Registry :=
  { (default : Registry) with
    options := .standard
    types := [⟨"Item", .record, [], [⟨"Identifier", .identifier⟩, ⟨"label", .single .string⟩,
      ⟨"note", .single .string⟩]⟩] }

/-- The records of a purse with one coin. -/
def purse (label : String) : RecordSet :=
  RecordSet.ofList "Item" [{ (default : Record) with
    guid := ⟨"g1"⟩, identifier := "Coin"
    values := .ofList [("label", .text label), ("note", .text "worn")] }]

/-- The context of the items: nothing can be referred to. -/
def labelledContext : Cell.Context := ⟨labelledItems, .none⟩

/-- The sheet of the purse. -/
def purseSheet (label : String) : Sheet :=
  match ofRecords labelledContext (purse label) with
  | .ok s => s
  | .error _ => ⟨[], []⟩

/-- A sheet of a plain label reads back; a tab in the label moves the cells behind it. -/
theorem ofBytes_text_ofRecords_purse :
    ofBytes labelledItems "Item" (Text.utf8 (purseSheet "gold").text) = .ok (purseSheet "gold") ∧
      (purseSheet "gold").rows.map (fun row => row.cells.find? "note") = [some "worn"] ∧
      ofRecords labelledContext (purse "a\tb") = .ok (purseSheet "a\tb") ∧
      (ofBytes labelledItems "Item" (Text.utf8 (purseSheet "a\tb").text)).map
        (fun s => s.rows.map fun row => row.cells.find? "note") = .ok [some "b"] := by
  have hgold : ofRecords labelledContext (purse "gold") = .ok (purseSheet "gold") := by
    decide +kernel
  refine ⟨?_, by decide +kernel, by decide +kernel, by decide +kernel⟩
  have htype : labelledContext.registry.type? (purse "gold").recordType =
      some (labelledItems.types[0]) := by decide +kernel
  have hlegible : (purseSheet "gold").Legible labelledContext.registry (labelledItems.types[0]) :=
    ⟨by decide, by decide +kernel, ⟨by decide +kernel, by decide +kernel⟩, by decide +kernel,
      by decide +kernel, by decide +kernel⟩
  exact ofBytes_text_ofRecords htype hgold hlegible

end RecordTables.Sheet
