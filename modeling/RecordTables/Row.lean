import RecordTables.Fingerprint
import RecordTables.Guid
import RecordTables.NameMap

/-!
# Rows of a table

A row of a table names a record by its identifier and, once it is known, by its GUID, and holds the
cells of its properties.  The hash of the cells (`contentHash`) tells whether a row has changed
since its record was last made from it.
-/

namespace RecordTables

/-- The stream of cells: each name and its cell, in the order of the names. -/
def Stream.cells (cells : NameMap String) : List UInt8 :=
  cells.entries.flatMap fun e => text e.1 ++ text e.2

/-- The hash of the cells of a row, as text. -/
def contentHash (cells : NameMap String) : String :=
  (Fingerprint.ofStream (Stream.cells cells)).text

/-- A row of a table. -/
structure Row where
  /-- The line of its file. -/
  line : Nat
  identifier : String
  guid : Option Guid
  /-- The hash of its cells. -/
  contentHash : String
  /-- The cells of its properties, by the name of the property. -/
  cells : NameMap String
  deriving DecidableEq

namespace Row

/-- A row without cells. -/
def new (line : Nat) (identifier : String) (guid : Option Guid) : Row :=
  ⟨line, identifier, guid, RecordTables.contentHash .empty, .empty⟩

/-- The row with these cells, and their hash. -/
def withCells (r : Row) (cells : NameMap String) : Row :=
  { r with cells := cells, contentHash := RecordTables.contentHash cells }

/-- The row with one more cell. -/
def withCell (r : Row) (property cell : String) : Row := r.withCells (r.cells.insert property cell)

end Row

end RecordTables
