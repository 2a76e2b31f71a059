import RecordTables.Cell.Basic
import RecordTables.Registry
import RecordTables.Row
import RecordTables.Text.Split
import RecordTables.Text.Utf8

/-!
# Sheets

A sheet holds the rows of a record type as tab-separated text, below a header that names the
columns.  Columns are matched by their names, so their order is free.  Besides the properties there
may be a column for GUIDs and one for the hashes of rows; columns that the schema does not know are
kept.  `Sheet.ofBytes` reads a sheet, `Sheet.text` is its file, and `Sheet.stamp` puts the GUIDs and
the hashes of the rows into it.

A sheet is a file of lines, whose cells are set apart by tabs.  A line ends at a line feed, at a
carriage return, or at both; lines without anything are left out, and a byte-order mark in front of
the file does not count.  The number of a line is one more than the line feeds up to the end of the
line before it.
-/

namespace RecordTables

open Schema

/-! ## Lines -/

namespace Sheet

/-- A line feed. -/
def lineFeed : UInt8 := 0x0A

/-- A carriage return. -/
def carriageReturn : UInt8 := 0x0D

/-- What stands between the cells of a line. -/
def tab : UInt8 := 0x09

/-- The mark that some programs put in front of a text. -/
def byteOrderMark : List UInt8 := [0xEF, 0xBB, 0xBF]

/-- The bytes without the mark in front. -/
def dropMark (bytes : List UInt8) : List UInt8 :=
  if byteOrderMark.isPrefixOf bytes then bytes.drop byteOrderMark.length else bytes

/-- The pieces between line feeds and carriage returns, each with the number of line feeds that end
it. -/
def pieces : List UInt8 → List (List UInt8 × Nat)
  | [] => [([], 0)]
  | b :: rest =>
    if b = lineFeed then ([], 1) :: pieces rest
    else if b = carriageReturn then ([], 0) :: pieces rest
    else
      match pieces rest with
      | [] => [([b], 0)]
      | (piece, feeds) :: others => (b :: piece, feeds) :: others

/-- A line with its number. -/
structure RawLine where
  number : Nat
  cells : List (List UInt8)
  deriving DecidableEq, Repr

/-- The lines of pieces of which the first line has a number and stands behind some line feeds. -/
def numberLines (number feeds : Nat) : List (List UInt8 × Nat) → List RawLine
  | [] => []
  | (piece, ends) :: rest =>
    if piece.isEmpty then numberLines number (feeds + ends) rest
    else
      ⟨number, Text.splitOn tab piece⟩ :: numberLines (feeds + ends + 1) (feeds + ends) rest

/-- The lines of a file. -/
def rawLines (bytes : List UInt8) : List RawLine := numberLines 1 0 (pieces (dropMark bytes))

/-- The cells of a line as texts; `none` if one of them is no text. -/
def RawLine.texts? (l : RawLine) : Option (List String) := l.cells.mapM Text.ofUtf8?

/-- A line of a file from its cells. -/
def lineText (cells : List String) : String := "\t".intercalate cells ++ "\n"

end Sheet

/-! ## Sheets -/

/-- Why a sheet cannot be read or made. -/
inductive SheetError where
  /-- The file system failed. -/
  | io
  /-- A cell is no text. -/
  | malformed
  | missingColumn (column : String)
  | unknownType (name : String)
  /-- A value cannot be written as a cell. -/
  | encode (recordType property : String) (fault : CellError)
  deriving DecidableEq, Repr

/-- A line of a sheet: its cells, and the row that they make. -/
structure SheetLine where
  cells : List String
  row : Row
  deriving DecidableEq

/-- A sheet. -/
structure Sheet where
  header : List String
  lines : List SheetLine
  deriving DecidableEq

namespace Sheet

/-- The column of the GUIDs. -/
def guidColumn : String := "GUID"

/-- The column of the hashes. -/
def hashColumn : String := "ContentHash"

/-- The rows of a sheet. -/
def rows (s : Sheet) : List Row := s.lines.map (·.row)

/-- The file of a sheet. -/
def text (s : Sheet) : String := String.join ((s.header :: s.lines.map (·.cells)).map lineText)

/-! ### Reading -/

/-- What the columns of a header are. -/
structure Columns where
  identifier : Nat
  guid : Option Nat
  /-- The columns of properties, each with the name of the property. -/
  properties : List (Nat × String)
  deriving DecidableEq, Repr

/-- The columns of properties among numbered names: of each known name the first. -/
def propertyColumns (known : List String) (seen : List String) :
    List (Nat × String) → List (Nat × String)
  | [] => []
  | (i, name) :: rest =>
    if known.contains name && !seen.contains name then
      (i, name) :: propertyColumns known (name :: seen) rest
    else propertyColumns known seen rest

/-- The columns of a header, for a record type; the column of the identifiers must be there. -/
def columnsOf (r : Registry) (t : ResolvedType) (header : List String) :
    Except SheetError Columns :=
  match header.findIdx? (· == r.identifierProperty) with
  | none => .error (.missingColumn r.identifierProperty)
  | some identifier =>
    let guid := header.findIdx? (· == guidColumn)
    let known := t.valueProperties.map (·.name)
    let others := (header.zipIdx.map fun e => (e.2, e.1)).filter fun e =>
      e.1 != identifier && some e.1 != guid && e.2 != hashColumn
    .ok ⟨identifier, guid, propertyColumns known [] others⟩

/-- A cell by its column; a line that is too short has blank cells there. -/
def cellAt (cells : List String) (i : Nat) : String := cells.getD i ""

/-- Cells, filled up with blank ones to a width. -/
def padTo (width : Nat) (cells : List String) : List String :=
  cells ++ List.replicate (width - cells.length) ""

/-- The row of the cells of a line. -/
def rowOf (columns : Columns) (number : Nat) (cells : List String) : Row :=
  let guid := columns.guid.bind fun i => Guid.ofCell? (cellAt cells i)
  columns.properties.foldl (fun row c => row.withCell c.2 (cellAt cells c.1))
    (Row.new number (Text.trimmed (cellAt cells columns.identifier)) guid)

/-- The lines of a sheet below its header.  Lines of blank cells are left out. -/
def readLines (columns : Columns) (width : Nat) :
    List RawLine → Except SheetError (List SheetLine)
  | [] => .ok []
  | l :: rest =>
    match l.texts? with
    | none => .error .malformed
    | some cells => do
      let others ← readLines columns width rest
      if cells.all Text.isBlankText then return others
      else
        let cells := padTo width cells
        return ⟨cells, rowOf columns l.number cells⟩ :: others

/-- The names of the columns in the first line. -/
def headerOf (lines : List RawLine) : Except SheetError (List String) :=
  match lines with
  | [] => .ok []
  | l :: _ =>
    match l.texts? with
    | some cells => .ok (cells.map Text.trimmed)
    | none => .error .malformed

/-- Reads the sheet of a record type. -/
def ofBytes (r : Registry) (recordType : String) (bytes : List UInt8) :
    Except SheetError Sheet := do
  match r.type? recordType with
  | none => throw (.unknownType recordType)
  | some t =>
    let raw := rawLines bytes
    let header ← headerOf raw
    let columns ← columnsOf r t header
    return ⟨header, ← readLines columns header.length raw.tail⟩

/-! ### Stamping -/

/-- The sheet with a column for GUIDs, in front if there is none. -/
def withGuidColumn (s : Sheet) : Sheet :=
  if s.header.contains guidColumn then s
  else ⟨guidColumn :: s.header, s.lines.map fun l => { l with cells := "" :: l.cells }⟩

/-- The header with a column for hashes, at the end if there is none. -/
def withHashColumn (header : List String) : List String :=
  if header.contains hashColumn then header else header ++ [hashColumn]

/-- Puts GUID and hash into a line. -/
def stampLine (header : List String) (l : SheetLine) (guid : Option Guid) : SheetLine :=
  let row := { l.row with guid := guid.or l.row.guid }
  let cells := padTo header.length l.cells
  let cells := cells.set (header.idxOf guidColumn) ((row.guid.map (·.text)).getD "")
  ⟨cells.set (header.idxOf hashColumn) row.contentHash, row⟩

/-- Puts the GUID and the hash of every row into the sheet.  A row takes the GUID that is given for
it, or keeps its own. -/
def stamp (s : Sheet) (guids : List (Option Guid)) : Sheet :=
  let s := s.withGuidColumn
  let header := withHashColumn s.header
  ⟨header, s.lines.zipIdx.map fun (l, i) => stampLine header l (guids.getD i none)⟩

end Sheet

end RecordTables
