import Mathlib
import RecordTables.Proofs.NameMap
import RecordTables.Proofs.Sheet.Lines
import RecordTables.Sheet.Basic

/-!
# Written sheets read back

What is read from any file is a `Tidy` sheet: names of columns are trimmed, cells are plain, no line
is blank or shorter than the header, and every row is made from its line (`tidy_of_ofBytes`).
Conversely, a file that is written from the header and the lines of a tidy sheet of two columns at
least is read as these lines again (`ofBytes_fileText`).

A row depends on its line only through the cells of its columns (`rowOf_eq`), so reading is followed
cell by cell.
-/

namespace RecordTables.Sheet

open Schema

variable {r : Registry} {t : ResolvedType} {recordType : String} {columns : Columns}

/-! ### Rows -/

/-- The cells of the properties in a line. -/
def propertyCells (properties : List (Nat × String)) (cells : List String) : NameMap String :=
  properties.foldl (fun m c => m.insert c.2 (cellAt cells c.1)) .empty

/-- A row with some cells has their hash. -/
theorem foldl_withCell {α : Type} (name cell : α → String) (xs : List α) (row : Row)
    (h : row.contentHash = contentHash row.cells) :
    xs.foldl (fun row x => row.withCell (name x) (cell x)) row =
      { row with
        cells := xs.foldl (fun m x => m.insert (name x) (cell x)) row.cells
        contentHash := contentHash (xs.foldl (fun m x => m.insert (name x) (cell x)) row.cells) } := by
  induction xs generalizing row with
  | nil =>
    obtain ⟨line, identifier, guid, hash, cells⟩ := row
    dsimp only at h
    subst h
    rfl
  | cons x xs ih =>
    have hstep : (row.withCell (name x) (cell x)).contentHash =
        contentHash (row.withCell (name x) (cell x)).cells := by
      unfold Row.withCell Row.withCells
      dsimp only
    rw [List.foldl_cons, ih _ hstep, List.foldl_cons]
    unfold Row.withCell Row.withCells
    dsimp only

/-- **The row of a line** by its parts. -/
theorem rowOf_eq (columns : Columns) (number : Nat) (cells : List String) :
    rowOf columns number cells =
      { line := number
        identifier := Text.trimmed (cellAt cells columns.identifier)
        guid := columns.guid.bind fun i => Guid.ofCell? (cellAt cells i)
        contentHash := contentHash (propertyCells columns.properties cells)
        cells := propertyCells columns.properties cells } := by
  have hnew (identifier : String) (guid : Option Guid) :
      (Row.new number identifier guid).contentHash =
        contentHash (Row.new number identifier guid).cells := by
    unfold Row.new
    dsimp only
  unfold rowOf propertyCells
  dsimp only
  rw [foldl_withCell (fun c : Nat × String => c.2) (fun c => cellAt cells c.1) _ _ (hnew _ _)]
  unfold Row.new
  dsimp only

theorem find?_propertyCells {properties : List (Nat × String)} {cells : List String} {name : String} :
    (propertyCells properties cells).find? name =
      ((properties.reverse.find? fun c => c.2 == name).map fun c => cellAt cells c.1) := by
  unfold propertyCells
  induction properties using List.reverseRecOn with
  | nil => rfl
  | append_singleton properties c ih =>
    rw [List.foldl_append, List.foldl_cons, List.foldl_nil, NameMap.find?_insert,
      List.reverse_append, List.reverse_singleton, List.singleton_append, List.find?_cons]
    by_cases h : c.2 = name
    · rw [if_pos h, beq_iff_eq.2 h]
      rfl
    · rw [if_neg h, beq_eq_false_iff_ne.2 h, ih]

/-! ### Columns of properties -/

theorem mem_of_mem_propertyColumns {known seen : List String} {columns : List (Nat × String)}
    {c : Nat × String} (h : c ∈ propertyColumns known seen columns) : c ∈ columns := by
  induction columns generalizing seen with
  | nil => exact h
  | cons first rest ih =>
    obtain ⟨i, name⟩ := first
    rw [propertyColumns] at h
    split_ifs at h
    · rcases List.mem_cons.1 h with rfl | h
      · exact List.mem_cons_self
      · exact List.mem_cons_of_mem _ (ih h)
    · exact List.mem_cons_of_mem _ (ih h)

theorem mem_known_of_mem_propertyColumns {known seen : List String} {all : List (Nat × String)}
    {c : Nat × String} (h : c ∈ propertyColumns known seen all) : c.2 ∈ known := by
  induction all generalizing seen with
  | nil => cases h
  | cons first rest ih =>
    obtain ⟨i, name⟩ := first
    rw [propertyColumns] at h
    split_ifs at h with hknown
    · rcases List.mem_cons.1 h with rfl | h
      · rw [Bool.and_eq_true, List.contains_iff_mem] at hknown
        exact hknown.1
      · exact ih h
    · exact ih h

/-- Every known name among the columns has a column of a property. -/
theorem exists_mem_propertyColumns {known seen : List String} {columns : List (Nat × String)}
    {i : Nat} {name : String} (h : (i, name) ∈ columns) (hknown : name ∈ known)
    (hseen : name ∉ seen) : ∃ j, (j, name) ∈ propertyColumns known seen columns := by
  induction columns generalizing seen with
  | nil => cases h
  | cons first rest ih =>
    obtain ⟨j, other⟩ := first
    rw [propertyColumns]
    by_cases hsame : other = name
    · subst hsame
      rw [if_pos (by simpa using ⟨hknown, hseen⟩)]
      exact ⟨j, List.mem_cons_self⟩
    · have hrest : (i, name) ∈ rest := by
        rcases List.mem_cons.1 h with heq | hmem
        · exact absurd (Prod.mk.inj heq).2.symm hsame
        · exact hmem
      split_ifs
      · have hseen' : name ∉ other :: seen := by
          rw [List.mem_cons, not_or]
          exact ⟨Ne.symm hsame, hseen⟩
        obtain ⟨k, hk⟩ := ih hrest hseen'
        exact ⟨k, List.mem_cons_of_mem _ hk⟩
      · exact ih hrest hseen

/-! ### Tidy sheets -/

/-- The lines of a sheet as they are read: plain cells, not all blank, one at least for every
column. -/
structure TidyLine (width : Nat) (cells : List String) : Prop where
  plain : ∀ cell ∈ cells, IsPlain cell
  width_le : width ≤ cells.length
  not_blank : cells.all Text.isBlankText = false

/-- The names of the columns as they are read: plain and trimmed. -/
structure TidyHeader (header : List String) : Prop where
  plain : ∀ name ∈ header, IsPlain name
  trimmed : ∀ name ∈ header, Text.trimmed name = name

theorem width_le_padTo (width : Nat) (cells : List String) : width ≤ (padTo width cells).length := by
  unfold padTo
  rw [List.length_append, List.length_replicate]
  omega

theorem mem_padTo {width : Nat} {cells : List String} {cell : String}
    (h : cell ∈ padTo width cells) : cell ∈ cells ∨ cell = "" := by
  unfold padTo at h
  rcases List.mem_append.1 h with h | h
  · exact Or.inl h
  · exact Or.inr (List.eq_of_mem_replicate h)

/-- Filling up a line keeps its cells plain and does not make it blank. -/
theorem tidyLine_padTo {width : Nat} {cells : List String} (hplain : ∀ cell ∈ cells, IsPlain cell)
    (hblank : cells.all Text.isBlankText = false) : TidyLine width (padTo width cells) := by
  refine ⟨fun cell hcell => ?_, width_le_padTo width cells, ?_⟩
  · rcases mem_padTo hcell with h | rfl
    · exact hplain cell h
    · exact fun _ h => nomatch h
  · unfold padTo
    rw [List.all_append, hblank, Bool.false_and]

theorem tidyLine_of_readLines {width : Nat} {raw : List RawLine} {lines : List SheetLine}
    (hplain : ∀ l ∈ raw, ∀ cells, l.texts? = some cells → ∀ cell ∈ cells, IsPlain cell)
    (h : readLines columns width raw = .ok lines) :
    ∀ l ∈ lines, TidyLine width l.cells ∧ ∃ number, l.row = rowOf columns number l.cells := by
  induction raw generalizing lines with
  | nil =>
    obtain rfl := Except.ok.inj h
    exact fun _ h => nomatch h
  | cons first raw ih =>
    rw [readLines] at h
    split at h
    · cases h
    · next cells hcells =>
      obtain ⟨others, hothers, h⟩ := bind_eq_ok.1 h
      have hrest := ih (fun l hl => hplain l (List.mem_cons_of_mem _ hl)) hothers
      split_ifs at h with hblank
      · rwa [← Except.ok.inj h]
      · rw [← Except.ok.inj h]
        refine List.forall_mem_cons.2 ⟨⟨?_, first.number, rfl⟩, hrest⟩
        exact tidyLine_padTo (hplain first List.mem_cons_self cells hcells) (by simpa using hblank)

theorem isPlain_trimmed {s : String} (h : IsPlain s) : IsPlain (Text.trimmed s) := by
  intro c hc
  rw [Text.toList_trimmed] at hc
  exact h c (Text.trim_sublist.subset hc)

/-- **What is read from any file is tidy**, and its rows are made from its lines. -/
theorem tidy_of_ofBytes {bytes : List UInt8} {s : Sheet}
    (h : ofBytes r recordType bytes = .ok s) : ∃ t columns, r.type? recordType = some t ∧
      columnsOf r t s.header = .ok columns ∧ TidyHeader s.header ∧
        ∀ l ∈ s.lines, TidyLine s.header.length l.cells ∧
          ∃ number, l.row = rowOf columns number l.cells := by
  unfold ofBytes at h
  split at h
  · cases h
  · next t ht =>
    dsimp only at h
    obtain ⟨header, hheader, h⟩ := bind_eq_ok.1 h
    obtain ⟨columns, hcolumns, h⟩ := bind_eq_ok.1 h
    obtain ⟨lines, hlines, h⟩ := bind_eq_ok.1 h
    obtain rfl := Except.ok.inj h
    refine ⟨t, columns, ht, hcolumns, ?_, tidyLine_of_readLines (fun l hl cells hcells => ?_) hlines⟩
    · -- the names are those of the first line, trimmed
      unfold headerOf at hheader
      split at hheader
      · obtain rfl := Except.ok.inj hheader
        exact ⟨(fun _ h => nomatch h), (fun _ h => nomatch h)⟩
      · next first rest hraw =>
        split at hheader
        · next cells hcells =>
          obtain rfl := Except.ok.inj hheader
          have hplain := isPlain_of_mem_rawLines (by rw [hraw]; exact List.mem_cons_self) hcells
          exact ⟨List.forall_mem_map.2 fun cell hc => isPlain_trimmed (hplain cell hc),
            List.forall_mem_map.2 fun cell _ => Text.trimmed_trimmed cell⟩
        · cases hheader
    · exact isPlain_of_mem_rawLines (List.mem_of_mem_tail hl) hcells

/-! ### Reading what was written -/

theorem texts?_map_utf8 (number : Nat) (cells : List String) :
    (⟨number, cells.map Text.utf8⟩ : RawLine).texts? = some cells := by
  unfold RawLine.texts?
  rw [mapM_eq_some, List.forall₂_map_left_iff]
  exact List.forall₂_same.2 fun cell _ => Text.ofUtf8?_utf8 cell

theorem padTo_of_le {width : Nat} {cells : List String} (h : width ≤ cells.length) :
    padTo width cells = cells := by
  unfold padTo
  rw [Nat.sub_eq_zero_of_le h, List.replicate_zero, List.append_nil]

/-- Tidy lines are read as they are. -/
theorem readLines_tidy {width : Nat} {lines : List (List String × Nat)}
    (h : ∀ l ∈ lines, TidyLine width l.1) :
    readLines columns width (lines.map fun l => ⟨l.2 + 1, l.1.map Text.utf8⟩) =
      .ok (lines.map fun l => ⟨l.1, rowOf columns (l.2 + 1) l.1⟩) := by
  induction lines with
  | nil => rfl
  | cons l lines ih =>
    have hl := h l List.mem_cons_self
    rw [List.map_cons, readLines, texts?_map_utf8]
    dsimp only
    rw [ih fun l hl => h l (List.mem_cons_of_mem _ hl), ok_bind, hl.not_blank,
      if_neg Bool.false_ne_true, padTo_of_le hl.width_le]
    rfl

/-- A file starts with its first cell, which a tab or the end of the line follows. -/
theorem exists_toList_fileText (name : String) (names : List String) (lines : List (List String)) :
    ∃ mark behind, (fileText ((name :: names) :: lines)).toList = name.toList ++ mark :: behind ∧
      (mark = '\t' ∨ mark = '\n') := by
  have htext : (fileText ((name :: names) :: lines)).toList =
      ("\t".intercalate (name :: names)).toList ++ '\n' :: (fileText lines).toList := by
    unfold fileText lineText
    rw [List.map_cons, String.join_cons, String.toList_append, String.toList_append,
      List.append_assoc]
    rfl
  rw [htext]
  cases names with
  | nil => exact ⟨'\n', _, by rw [String.intercalate_singleton], Or.inr rfl⟩
  | cons next names =>
    refine ⟨'\t', ("\t".intercalate (next :: names)).toList ++ '\n' :: (fileText lines).toList, ?_,
      Or.inl rfl⟩
    rw [String.intercalate_cons_cons, String.toList_append, String.toList_append,
      List.append_assoc, List.append_assoc]
    rfl

/-- A mark in front of a file is one in front of its first cell. -/
theorem head?_fileText {name : String} (h : name.toList.head? ≠ some '\uFEFF') (names : List String)
    (lines : List (List String)) :
    (fileText ((name :: names) :: lines)).toList.head? ≠ some '\uFEFF' := by
  obtain ⟨mark, behind, htext, hmark⟩ := exists_toList_fileText name names lines
  rw [htext]
  cases hlist : name.toList with
  | nil =>
    intro hhead
    obtain rfl : mark = '\uFEFF' := Option.some.inj hhead
    rcases hmark with hmark | hmark <;> exact absurd hmark (by decide)
  | cons c cs =>
    rw [hlist] at h
    exact h

/-- **A written sheet reads back**: its header, its lines, and the rows of the lines. -/
theorem ofBytes_fileText {header : List String} {lines : List (List String)}
    (ht : r.type? recordType = some t) (hcolumns : columnsOf r t header = .ok columns)
    (hheader : TidyHeader header) (hwidth : 2 ≤ header.length)
    (hmark : (fileText (header :: lines)).toList.head? ≠ some '\uFEFF')
    (hlines : ∀ cells ∈ lines, TidyLine header.length cells) :
    ofBytes r recordType (Text.utf8 (fileText (header :: lines))) =
      .ok ⟨header, (lines.zipIdx 1).map fun l => ⟨l.1, rowOf columns (l.2 + 1) l.1⟩⟩ := by
  -- no cell has a mark or a quotation mark, and no line is a single cell, so the lines read as
  -- written
  have hplain : ∀ cells ∈ header :: lines, ∀ cell ∈ cells, IsPlain cell :=
    List.forall_mem_cons.2 ⟨hheader.plain, fun cells hc => (hlines cells hc).plain⟩
  have hlength : ∀ cells ∈ header :: lines, 2 ≤ cells.length :=
    List.forall_mem_cons.2 ⟨hwidth, fun cells hc => hwidth.trans (hlines cells hc).width_le⟩
  have hraw := rawLines_fileText hplain hlength hmark
  -- the names in the header are trimmed already
  have htrimmed : header.map Text.trimmed = header :=
    (List.map_congr_left hheader.trimmed).trans (List.map_id _)
  have htidy : ∀ l ∈ lines.zipIdx 1, TidyLine header.length l.1 :=
    fun l hl => hlines l.1 (List.fst_mem_of_mem_zipIdx hl)
  have hread : readLines columns header.length
      ((lines.zipIdx 1).map fun l => ⟨l.2 + 1, l.1.map Text.utf8⟩) =
        .ok ((lines.zipIdx 1).map fun l => ⟨l.1, rowOf columns (l.2 + 1) l.1⟩) :=
    readLines_tidy htidy
  unfold ofBytes
  rw [ht]
  dsimp only
  rw [hraw, List.zipIdx_cons, List.map_cons, headerOf, texts?_map_utf8]
  dsimp only
  rw [ok_bind, htrimmed, hcolumns, ok_bind, List.tail_cons]
  rw [hread]
  rfl

end RecordTables.Sheet
