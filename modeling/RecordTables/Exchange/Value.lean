import RecordTables.Exchange.Basic
import RecordTables.Record
import RecordTables.Row
import RecordTables.Scalar.Bytes
import RecordTables.Scalar.Text
import RecordTables.Value

/-!
# Values and records in exchange

A value is an object with one member, whose name tells its category.  Integers are texts of decimal
digits, and a floating-point number is the text of its bits in hexadecimal digits, the most
significant first, or `nan`.
-/

namespace RecordTables

open Number (Binary32)

/-- The bits of a number. -/
def Number.Binary32.bitsText (x : Binary32) : String :=
  if x.isNaN then "nan" else Text.hex 8 x.bits.toNat

/-- The number whose bits a text tells. -/
def Number.Binary32.ofBitsText? (s : String) : Option Binary32 :=
  if s = "nan" then some ⟨0x7FC00000⟩
  else (Json.bytesOfHex? s.toList).bind fun bs =>
    if bs.length = 4 then some ⟨UInt32.ofNat (ofLittleEndian bs.reverse)⟩ else none

namespace Scalar

/-- A fixed-width value. -/
def toJson (s : Scalar) : Json :=
  let content : Json := match s with
    | bool b => .bool b
    | f32 x => .text x.bitsText
    | s => .text s.text
  .object [(s.kind.widthName, content)]

/-- Reads a fixed-width value. -/
def ofJson? : Json → Option Scalar
  | .object [("bool", .bool b)] => some (bool b)
  | .object [("f32", .text s)] => (Binary32.ofBitsText? s).map f32
  | .object [(name, .text s)] =>
    (ScalarKind.all.find? (fun k => k.widthName == name && k != .bool)).bind (ofText? · s)
  | _ => none

/-- Whether the value is no number. -/
def isNaN : Scalar → Bool
  | f32 x => x.isNaN
  | _ => false

/-- A fixed-width value with its text, its kind, its bytes and its integer. -/
def report (s : Scalar) : Json :=
  .object [("value", s.toJson), ("display", .text s.text), ("kind", .text s.kind.tag),
    ("le", if s.isNaN then .text "nan" else .hexBytes s.bytes),
    ("as_i64", .orNull Json.wide s.toInt64?)]

end Scalar

/-- The text of a GUID. -/
def Guid.toJson (g : Guid) : Json := .text g.text

/-- Reads a GUID. -/
def Guid.ofJson? (v : Json) : Option Guid := v.text?.map Guid.mk

namespace Value

mutual

/-- A value. -/
def toJson : Value → Json
  | text s => .object [("str", .text s)]
  | enum s => .object [("enum", .text s)]
  | scalar s => s.toJson
  | duration ms => .object [("duration", .wide ms)]
  | dateTime ms => .object [("datetime", .wide ms)]
  | ref target => .object [("ref", .orNull Guid.toJson target)]
  | noStruct => .object [("struct", .null)]
  | struct fields => .object [("struct", .array (fieldsToJson fields))]
  | composite components => .object [("composite", .array (components.map Scalar.toJson))]
  | asset key => .object [("asset", .orNull .text key)]
  | list items => .object [("list", .array (itemsToJson items))]

/-- The fields of a sub-structure, as pairs. -/
def fieldsToJson : List (String × Value) → List Json
  | [] => []
  | f :: rest => .array [.text f.1, f.2.toJson] :: fieldsToJson rest

/-- The elements of a list. -/
def itemsToJson : List Value → List Json
  | [] => []
  | v :: rest => v.toJson :: itemsToJson rest

end

mutual

/-- Reads a value. -/
def ofJson? : Json → Option Value
  | .object [("str", .text s)] => some (text s)
  | .object [("enum", .text s)] => some (enum s)
  | .object [("duration", ms)] => ms.wide?.map duration
  | .object [("datetime", ms)] => ms.wide?.map dateTime
  | .object [("ref", .null)] => some (ref none)
  | .object [("ref", .text g)] => some (ref (some ⟨g⟩))
  | .object [("struct", .null)] => some noStruct
  | .object [("struct", .array fields)] => (fieldsOfJson? fields).map struct
  | .object [("composite", .array components)] =>
    (components.mapM Scalar.ofJson?).map composite
  | .object [("asset", .null)] => some (asset none)
  | .object [("asset", .text k)] => some (asset (some k))
  | .object [("list", .array items)] => (itemsOfJson? items).map list
  | v => (Scalar.ofJson? v).map scalar

/-- Reads the fields of a sub-structure. -/
def fieldsOfJson? : List Json → Option (List (String × Value))
  | [] => some []
  | .array [.text name, v] :: rest => do return (name, ← ofJson? v) :: (← fieldsOfJson? rest)
  | _ => none

/-- Reads the elements of a list. -/
def itemsOfJson? : List Json → Option (List Value)
  | [] => some []
  | v :: rest => do return (← ofJson? v) :: (← itemsOfJson? rest)

end

end Value

/-- The fields of a sub-structure or of a row, in order. -/
def Json.ofFields (fields : List (String × Value)) : Json := .array (Value.fieldsToJson fields)

/-! ## Records and rows -/

/-- A record. -/
def Record.toJson (r : Record) : Json :=
  .object [("guid", r.guid.toJson), ("id", .text r.identifier), ("dir", .text r.directory),
    ("hash", .orNull .text r.contentHash), ("values", .ofMap Value.toJson r.values)]

/-- Reads a record. -/
def Record.ofJson? (v : Json) : Option Record := do
  return ⟨← v.field? "guid" Guid.ofJson?, ← v.field? "id" Json.text?,
    ← v.fieldOr? "dir" Json.text? "", ← v.optional? "hash" Json.text?,
    ← v.fieldOr? "values" (Json.mapOf? Value.ofJson?) .empty⟩

/-- Records in the order of their identifiers, and of their GUIDs. -/
def Json.ofRecords (records : List Record) : Json :=
  .array ((records.mergeSort fun a b =>
    a.identifier < b.identifier || (a.identifier == b.identifier && a.guid.text ≤ b.guid.text)).map
      Record.toJson)

/-- Reads the record sets of all types. -/
def Catalog.ofJson? (v : Json) : Option Catalog := do
  let sets ← Json.mapOf? (Json.listOf? Record.ofJson?) v
  return sets.entries.foldl (fun (c : Catalog) e => c.insertSet (.ofList e.1 e.2)) NameMap.empty

/-- The records of some types. -/
def Catalog.recordsToJson (c : Catalog) (types : List String) : Json :=
  .object (types.map fun t => (t, Json.ofRecords (c.setOf t).records))

/-- A row. -/
def Row.toJson (r : Row) : Json :=
  .object [("line", .nat r.line), ("id", .text r.identifier), ("guid", .orNull Guid.toJson r.guid),
    ("hash", .text r.contentHash), ("cells", .ofMap .text r.cells)]

/-- Reads a row.  Its hash is that of its cells, unless another one is given. -/
def Row.ofJson? (v : Json) : Option Row := do
  let guid ← v.optional? "guid" Json.text?
  let cells ← v.fieldOr? "cells" (Json.mapOf? Json.text?) .empty
  let row := (Row.new (← v.fieldOr? "line" Json.nat? 0) (← v.field? "id" Json.text?)
    (guid.bind Guid.ofCell?)).withCells cells
  return { row with contentHash := (← v.optional? "hash" Json.text?).getD row.contentHash }

/-- Reads a record that references may name: its type, its identifier and its GUID. -/
def ReferenceEntry.ofJson? : Json → Option ReferenceEntry
  | .array [.text recordType, .text identifier, .text guid] => some ⟨recordType, identifier, ⟨guid⟩⟩
  | _ => none

end RecordTables
