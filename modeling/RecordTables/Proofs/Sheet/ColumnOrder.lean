import Mathlib
import RecordTables.Proofs.Sheet.Rearranging
import RecordTables.Proofs.Sheet.Stamping

/-!
# The order of columns is free

What a column is, is told by its name in the header (`Columns.AreNamed`), so the row of a line depends
on the cell below each name and not on where it stands (`rowOf_rearrange`).  A table of which the
columns are put into another order is therefore read as the same rows, or refused for the same reason
(`ofBytes_rearrangeColumns`).  The names must differ: of two columns of one name the first counts.
-/

namespace RecordTables.Sheet

open Schema

/-! ### Columns by their names -/

section Columns

variable {r : Registry} {t : ResolvedType} {columns : Columns} {header : List String}

/-- Names whose columns are those of properties. -/
def IsPropertyName (r : Registry) (t : ResolvedType) (name : String) : Prop :=
  name ∈ t.valueProperties.map (·.name) ∧ name ≠ r.identifierProperty ∧ name ≠ guidColumn ∧
    name ≠ hashColumn

instance (r : Registry) (t : ResolvedType) (name : String) : Decidable (IsPropertyName r t name) :=
  inferInstanceAs (Decidable (_ ∧ _))

/-- The cell of a line below a name. -/
def cellBelow (header cells : List String) (name : String) : String :=
  cellAt cells (header.idxOf name)

/-- What the columns are is told by the names of the header alone, wherever they stand. -/
structure Columns.AreNamed (columns : Columns) (r : Registry) (t : ResolvedType)
    (header : List String) : Prop where
  mem_header : r.identifierProperty ∈ header
  identifier : columns.identifier = header.idxOf r.identifierProperty
  guid : columns.guid = if guidColumn ∈ header then some (header.idxOf guidColumn) else none
  properties : ∀ cells name, (propertyCells columns.properties cells).find? name =
    if IsPropertyName r t name ∧ name ∈ header then some (cellBelow header cells name) else none

theorem findIdx?_name (header : List String) (name : String) :
    header.findIdx? (· == name) = if name ∈ header then some (header.idxOf name) else none := by
  rw [List.findIdx?_eq_guard_findIdx_lt]
  unfold Option.guard
  simp only [decide_eq_true_eq]
  exact if_congr List.idxOf_lt_length_iff rfl rfl

theorem idxOf_eq_of_getElem? (hnodup : header.Nodup) {i : Nat} {name : String}
    (h : header[i]? = some name) : header.idxOf name = i := by
  obtain ⟨hlt, rfl⟩ := List.getElem?_eq_some_iff.1 h
  exact hnodup.idxOf_getElem i hlt

/-- The names of the columns of properties. -/
theorem mem_properties_iff (hnodup : header.Nodup) (h : columnsOf r t header = .ok columns)
    {name : String} :
    (∃ i, (i, name) ∈ columns.properties) ↔ IsPropertyName r t name ∧ name ∈ header := by
  obtain ⟨hidentifier, hguid, hproperties⟩ := columnsOf_eq_ok_iff.1 h
  rw [findIdx?_name] at hidentifier hguid
  have hid : header.idxOf r.identifierProperty = columns.identifier := by
    split_ifs at hidentifier
    exact Option.some.inj hidentifier
  rw [← hproperties, ← hguid, ← hid]
  constructor
  · rintro ⟨i, hi⟩
    -- a property column is none of the identifier, of the GUIDs and of the hashes
    have hknown := mem_known_of_mem_propertyColumns hi
    obtain ⟨hname, hother, hnotguid, hhash⟩ := mem_othersOf.1 (mem_of_mem_propertyColumns hi)
    dsimp only at hname hother hnotguid hhash hknown
    have hmem := List.mem_of_getElem? hname
    have hi := idxOf_eq_of_getElem? hnodup hname
    refine ⟨⟨hknown, ?_, ?_, hhash⟩, hmem⟩
    · rintro rfl
      exact hother hi.symm
    · rintro rfl
      rw [if_pos hmem, hi] at hnotguid
      exact hnotguid rfl
  · rintro ⟨⟨hknown, hother, hnotguid, hhash⟩, hmem⟩
    -- a name in the header that is none of those has a property column
    refine exists_mem_propertyColumns (i := header.idxOf name) ?_ hknown List.not_mem_nil
    refine mem_othersOf.2 ⟨List.getElem?_idxOf hmem, ?_, ?_, hhash⟩
    · exact fun heq => hother ((List.idxOf_inj hmem).1 heq)
    · split_ifs
      · exact fun heq => hnotguid ((List.idxOf_inj hmem).1 (Option.some.inj heq))
      · exact fun heq => nomatch heq

/-- **Columns are told by their names**, if the names differ. -/
theorem areNamed_of_columnsOf (hnodup : header.Nodup) (h : columnsOf r t header = .ok columns) :
    columns.AreNamed r t header := by
  have hin := areIn_of_columnsOf h
  refine ⟨List.mem_of_getElem? hin.identifier, (idxOf_eq_of_getElem? hnodup hin.identifier).symm,
    hin.guid.symm.trans (findIdx?_name header guidColumn), fun cells name => ?_⟩
  rw [find?_propertyCells]
  split_ifs with hname
  · obtain ⟨i, hi⟩ := (mem_properties_iff hnodup h).2 hname
    have hfound : (columns.properties.reverse.find? fun c => c.2 == name).isSome :=
      List.find?_isSome.2 ⟨(i, name), List.mem_reverse.2 hi, beq_self_eq_true name⟩
    obtain ⟨c, hc⟩ := Option.isSome_iff_exists.1 hfound
    have hcname := List.find?_some hc
    rw [beq_iff_eq] at hcname
    have hplace := (hin.properties c (List.mem_reverse.1 (List.mem_of_find?_eq_some hc))).1
    rw [hc, Option.map_some, cellBelow, ← hcname, idxOf_eq_of_getElem? hnodup hplace]
  · rw [Option.map_eq_none_iff, List.find?_eq_none]
    rintro ⟨i, other⟩ hc heq
    obtain rfl : other = name := beq_iff_eq.1 heq
    exact hname ((mem_properties_iff hnodup h).1 ⟨i, List.mem_reverse.1 hc⟩)

theorem columnsOf_eq_error_iff {e : SheetError} : columnsOf r t header = .error e ↔
    r.identifierProperty ∉ header ∧ e = .missingColumn r.identifierProperty := by
  unfold columnsOf
  rw [findIdx?_name]
  by_cases hmem : r.identifierProperty ∈ header
  · rw [if_pos hmem]
    exact iff_of_false (fun h => nomatch h) fun h => h.1 hmem
  · rw [if_neg hmem]
    exact ⟨fun h => ⟨hmem, (Except.error.inj h).symm⟩, fun h => congrArg _ h.2.symm⟩

end Columns

/-! ### Rows of rearranged lines -/

section Rows

variable {r : Registry} {t : ResolvedType} {columns columns' : Columns} {header cells : List String}
  {places : List Nat}

theorem cellBelow_rearrange (hplaces : places.Perm (List.range header.length))
    (hlength : cells.length = header.length) (hnodup : header.Nodup) {name : String}
    (hname : name ∈ header) :
    cellBelow (rearrange places header) (rearrange places cells) name =
      cellBelow header cells name := by
  unfold cellBelow cellAt
  rw [List.getD_eq_getElem?_getD, List.getD_eq_getElem?_getD,
    getElem?_rearrange_idxOf hplaces hlength hnodup hname]

/-- **A rearranged line makes the same row** below the rearranged header. -/
theorem rowOf_rearrange (hplaces : places.Perm (List.range header.length))
    (hnodup : header.Nodup) (hcolumns : columns.AreNamed r t header)
    (hcolumns' : columns'.AreNamed r t (rearrange places header)) (number : Nat)
    (hlength : cells.length = header.length) :
    rowOf columns' number (rearrange places cells) = rowOf columns number cells := by
  have hmem (name : String) : name ∈ rearrange places header ↔ name ∈ header :=
    (rearrange_perm hplaces).mem_iff
  -- below a name there is the same cell as before
  have hbelow {name : String} (hname : name ∈ header) :
      cellAt (rearrange places cells) ((rearrange places header).idxOf name) =
        cellAt cells (header.idxOf name) :=
    cellBelow_rearrange hplaces hlength hnodup hname
  have hidentifier : cellAt (rearrange places cells) columns'.identifier =
      cellAt cells columns.identifier := by
    rw [hcolumns'.identifier, hcolumns.identifier]
    exact hbelow hcolumns.mem_header
  have hguid : (columns'.guid.bind fun i => Guid.ofCell? (cellAt (rearrange places cells) i)) =
      columns.guid.bind fun i => Guid.ofCell? (cellAt cells i) := by
    rw [hcolumns'.guid, hcolumns.guid]
    simp only [hmem]
    split_ifs with hthere
    · rw [Option.bind_some, Option.bind_some, hbelow hthere]
    · rw [Option.bind_none, Option.bind_none]
  have hcells : propertyCells columns'.properties (rearrange places cells) =
      propertyCells columns.properties cells := by
    -- the cells are kept by name, so their order does not matter
    refine NameMap.ext_find? fun name => ?_
    rw [hcolumns'.properties, hcolumns.properties]
    simp only [hmem]
    split_ifs with hthere
    · exact congrArg some (hbelow hthere.2)
    · rfl
  rw [rowOf_eq, rowOf_eq, hidentifier, hguid, hcells]

/-- The rows below the header, from the first line on. -/
theorem map_row_readLines_cons (columns : Columns) (width : Nat) {l : RawLine}
    (raw : List RawLine) {cells : List String} (hcells : l.texts? = some cells) :
    (readLines columns width (l :: raw)).map (List.map (·.row)) =
      ((readLines columns width raw).map (List.map (·.row))).map fun rows =>
        if cells.all Text.isBlankText then rows
        else rowOf columns l.number (padTo width cells) :: rows := by
  rw [readLines, hcells]
  dsimp only
  cases readLines columns width raw with
  | error e => rfl
  | ok others =>
    rw [ok_bind]
    split <;> rfl

/-- Lines of the same rows are read as the same rows, or refused. -/
theorem readLines_rearrange {width : Nat} (hplaces : places.Perm (List.range width))
    (hrow : ∀ number cells, cells.length = width →
      rowOf columns' number (rearrange places cells) = rowOf columns number cells)
    {raw : List RawLine} (hraw : ∀ l ∈ raw, l.cells.length = width) :
    (readLines columns' width (raw.map (·.rearrange places))).map (List.map (·.row)) =
      (readLines columns width raw).map (List.map (·.row)) := by
  induction raw with
  | nil => rfl
  | cons l raw ih =>
    have hl := hraw l List.mem_cons_self
    have htexts := texts?_rearrange (hl ▸ hplaces : places.Perm (List.range l.cells.length))
    rw [List.map_cons]
    cases hcells : l.texts? with
    | none =>
      rw [hcells, Option.map_none] at htexts
      rw [readLines, htexts, readLines, hcells]
    | some cells =>
      have hlength : cells.length = width := by
        unfold RawLine.texts? at hcells
        rw [← (mapM_eq_some.1 hcells).length_eq, hl]
      -- a line is padded and seen to be blank alike, as it has the same cells
      have hperm := rearrange_perm (hlength ▸ hplaces : places.Perm (List.range cells.length))
      rw [hcells, Option.map_some] at htexts
      rw [map_row_readLines_cons _ _ _ htexts, map_row_readLines_cons _ _ _ hcells,
        ih fun l hl => hraw l (List.mem_cons_of_mem _ hl), hperm.all_eq,
        padTo_of_le (hperm.length_eq.trans hlength).ge, padTo_of_le hlength.ge,
        hrow _ _ hlength]
      rfl

end Rows

/-! ### Tables -/

/-- The header and the rows of two readings of lines, one of them rearranged. -/
theorem rows_rearrange {r : Registry} {t : ResolvedType} {places : List Nat} {width : Nat}
    (hplaces : places.Perm (List.range width)) {header : List String} (hnodup : header.Nodup)
    (hheader : header.length = width) {raw : List RawLine}
    (hraw : ∀ l ∈ raw, l.cells.length = width) :
    (columnsOf r t (rearrange places header) >>= fun columns =>
        (readLines columns width (raw.map (·.rearrange places))).map (List.map (·.row))) =
      columnsOf r t header >>= fun columns =>
        (readLines columns width raw).map (List.map (·.row)) := by
  have hperm := rearrange_perm (hheader ▸ hplaces : places.Perm (List.range header.length))
  cases hcolumns : columnsOf r t header with
  | error e =>
    -- what is missing is asked for by name
    have herror := columnsOf_eq_error_iff.1 hcolumns
    rw [← hperm.mem_iff, ← columnsOf_eq_error_iff] at herror
    rw [herror]
    rfl
  | ok columns =>
    cases hcolumns' : columnsOf r t (rearrange places header) with
    | error e =>
      have herror := columnsOf_eq_error_iff.1 hcolumns'
      rw [hperm.mem_iff, ← columnsOf_eq_error_iff, hcolumns] at herror
      cases herror
    | ok columns' =>
      have hnamed := areNamed_of_columnsOf hnodup hcolumns
      have hnamed' := areNamed_of_columnsOf (hperm.nodup_iff.2 hnodup) hcolumns'
      exact readLines_rearrange hplaces (fun number cells hlength => rowOf_rearrange
        (by rwa [hheader]) hnodup hnamed hnamed' number (by rwa [hheader])) hraw

/-- The rows of a sheet, by the stages of reading. -/
theorem map_rows_ofBytes {r : Registry} {t : ResolvedType} {recordType : String}
    (ht : r.type? recordType = some t) (bytes : List UInt8) :
    (ofBytes r recordType bytes).map rows = headerOf (rawLines bytes) >>= fun header =>
      columnsOf r t header >>= fun columns =>
        (readLines columns header.length (rawLines bytes).tail).map (List.map (·.row)) := by
  unfold ofBytes
  rw [ht]
  dsimp only
  cases headerOf (rawLines bytes) with
  | error e => rfl
  | ok header =>
    rw [ok_bind, ok_bind]
    cases columnsOf r t header with
    | error e => rfl
    | ok columns =>
      rw [ok_bind, ok_bind]
      cases readLines columns header.length (rawLines bytes).tail <;> rfl

/-- **The order of columns is free.**  A table with its columns in another order is refused with the
same fault, or accepted with the same rows in the same order. -/
theorem ofBytes_rearrangeColumns (r : Registry) (recordType : String) {bytes : List UInt8}
    {width : Nat} (h : IsTable width bytes) {places : List Nat}
    (hplaces : places.Perm (List.range width)) :
    (ofBytes r recordType (rearrangeColumns places bytes)).map rows =
      (ofBytes r recordType bytes).map rows := by
  cases ht : r.type? recordType with
  | none =>
    unfold ofBytes
    rw [ht]
  | some t =>
    have hlines := h.width
    have hnames := h.names
    rw [map_rows_ofBytes ht, map_rows_ofBytes ht, h.rawLines_rearrangeColumns hplaces,
      headerOf_rearrange fun l hl => by rwa [hlines l hl]]
    cases hheader : headerOf (rawLines bytes) with
    | error e => rfl
    | ok header =>
      have hnodup := hnames header hheader
      change (columnsOf r t (rearrange places header) >>= _) = columnsOf r t header >>= _
      -- without a line there is no column either
      cases hraw : rawLines bytes with
      | nil =>
        rw [hraw] at hheader
        obtain rfl := Except.ok.inj hheader
        rw [rearrange_nil]
        rfl
      | cons l raw =>
        rw [hraw] at hlines hheader
        have hwidth : header.length = width :=
          (length_of_headerOf hheader).trans (hlines l List.mem_cons_self)
        have hperm := rearrange_perm (hwidth ▸ hplaces : places.Perm (List.range header.length))
        rw [List.map_cons, List.tail_cons, List.tail_cons, hperm.length_eq, hwidth]
        exact rows_rearrange hplaces hnodup hwidth fun l hl =>
          hlines l (List.mem_cons_of_mem _ hl)

/-! ### A hoard with its labels in front -/

/-- A file of things, of which one column is unknown, with a blank line. -/
def hoardText : String := "Identifier\tcolour\tlabel\r\n Coin \tred\tgold\n\nRing\t\tplain"

/-- The labels come to stand in front, and the things are the same. -/
theorem ofBytes_rearrangeColumns_hoard :
    IsTable 3 (Text.utf8 hoardText) ∧ [2, 0, 1].Perm (List.range 3) ∧
      rearrangeColumns [2, 0, 1] (Text.utf8 hoardText) =
        Text.utf8 "label\tIdentifier\tcolour\r\ngold\t Coin \tred\n\nplain\tRing\t" ∧
      (ofBytes labelledItems "Item" (Text.utf8 hoardText)).map
        (fun s => s.rows.map (·.identifier)) = .ok ["Coin", "Ring"] ∧
      (ofBytes labelledItems "Item" (rearrangeColumns [2, 0, 1] (Text.utf8 hoardText))).map rows =
        (ofBytes labelledItems "Item" (Text.utf8 hoardText)).map rows := by
  have hnames : headerOf (rawLines (Text.utf8 hoardText)) =
      .ok ["Identifier", "colour", "label"] := by decide +kernel
  have htable : IsTable 3 (Text.utf8 hoardText) :=
    isTable_of_names hnames (by decide) (by decide) (by decide +kernel)
  have hplaces : [2, 0, 1].Perm (List.range 3) := by decide
  exact ⟨htable, hplaces, by decide +kernel, by decide +kernel,
    ofBytes_rearrangeColumns labelledItems "Item" htable hplaces⟩

end RecordTables.Sheet
