import RecordTables.Exchange.Fault
import RecordTables.Exchange.Value
import RecordTables.Sheet.Basic

/-!
# Sheets in exchange
-/

namespace RecordTables

/-- A fault of a sheet. -/
def SheetError.toJson (e : SheetError) : Json :=
  match e with
  | io => .faultKind "Io"
  | malformed => .faultKind "Csv"
  | missingColumn column =>
    .object [("error", .text "MissingColumn"), ("column", .text column)]
  | unknownType name => .fault "UnknownType" s!"unknown record type '{name}'"
  | encode recordType property fault =>
    .object [("error", .text "Encode"), ("type", .text recordType),
      ("property", .text property), ("source", fault.toJson)]

/-- A sheet, with its rows and its file. -/
def Sheet.toJson (s : Sheet) : Json :=
  .object [("header", .texts s.header), ("rows", .array (s.rows.map Row.toJson)),
    ("text", .text s.text)]

end RecordTables
