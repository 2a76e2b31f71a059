import RecordTables.Cell.Encode
import RecordTables.Record
import RecordTables.Sheet.Basic

/-!
# Sheets of records

`Sheet.ofRecords` makes the sheet of the records of a type, with a row for each in the order of
their identifiers.  Properties without a value are written as their defaults.
-/

namespace RecordTables.Sheet

open Schema

/-- The cell of a property of a record. -/
def exportCell (ctx : Cell.Context) (recordType : String) (record : Record) (p : Property) :
    Except SheetError String :=
  match (record.values.find? p.name).or (ctx.registry.default? p) with
  | some v => (ctx.encode p v).mapError (.encode recordType p.name)
  | none => .ok ""

/-- The line of a record. -/
def exportLine (ctx : Cell.Context) (recordType : String) (properties : List Property)
    (number : Nat) (record : Record) : Except SheetError SheetLine := do
  let cells ← properties.mapM (exportCell ctx recordType record)
  let row := (properties.map (·.name) |>.zip cells).foldl (fun row c => row.withCell c.1 c.2)
    (Row.new number record.identifier (some record.guid))
  let shown := properties.map fun p => (row.cells.find? p.name).getD ""
  return ⟨[record.guid.text, record.identifier] ++ shown ++ [row.contentHash], row⟩

/-- The sheet of the records of a type. -/
def ofRecords (ctx : Cell.Context) (records : RecordSet) : Except SheetError Sheet := do
  match ctx.registry.type? records.recordType with
  | none => throw (.unknownType records.recordType)
  | some t =>
    let properties := t.valueProperties
    let header := [guidColumn, ctx.registry.identifierProperty] ++ properties.map (·.name) ++
      [hashColumn]
    let lines ← (records.byIdentifier.map (·.2)).zipIdx.mapM fun (record, i) =>
      exportLine ctx records.recordType properties (i + 2) record
    return ⟨header, lines⟩

end RecordTables.Sheet
