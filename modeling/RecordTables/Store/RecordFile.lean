import RecordTables.Format.Ron.Basic
import RecordTables.Format.Ron.Printer
import RecordTables.Record

/-!
# The file of a record

A record is kept in a RON file of its own: its GUID, its identifier, the hash of its row, and its
values.  The directory of the file is not written in it.
-/

namespace RecordTables

/-! ### Writing -/

/-- A fixed-width value as data. -/
def Scalar.node : Scalar → Node
  | bool v => .tagged "Bool" (.bool v)
  | i8 v => .tagged "I8" (.int v.toInt)
  | u8 v => .tagged "U8" (.int v.toNat)
  | i16 v => .tagged "I16" (.int v.toInt)
  | u16 v => .tagged "U16" (.int v.toNat)
  | i32 v => .tagged "I32" (.int v.toInt)
  | u32 v => .tagged "U32" (.int v.toNat)
  | i64 v => .tagged "I64" (.int v.toInt)
  | u64 v => .tagged "U64" (.int v.toNat)
  | f32 v => .tagged "F32" (.float v)

namespace Value

mutual

/-- A value as data. -/
def node : Value → Node
  | text s => .tagged "Str" (.text s)
  | enum member => .tagged "Enum" (.text member)
  | scalar s => .tagged "Scalar" s.node
  | duration ms => .tagged "Duration" (.int ms.toInt)
  | dateTime ms => .tagged "DateTime" (.int ms.toInt)
  | ref target => .tagged "Ref" (.ofOption (target.map fun g => .text g.text))
  | noStruct => .tagged "Struct" .absent
  | struct fields => .tagged "Struct" (.present (.record [("fields", .list (fieldNodes fields))]))
  | composite components => .tagged "Composite" (.list (components.map Scalar.node))
  | asset key => .tagged "Asset" (.ofOption (key.map .text))
  | list items => .tagged "List" (.list (itemNodes items))

/-- The elements of a list as data. -/
def itemNodes : List Value → List Node
  | [] => []
  | v :: rest => v.node :: itemNodes rest

/-- The fields of a sub-structure as pairs. -/
def fieldNodes : List (String × Value) → List Node
  | [] => []
  | f :: rest => .tuple [.text f.1, f.2.node] :: fieldNodes rest

end

end Value

/-- A record as data. -/
def Record.node (r : Record) : Node :=
  .record [("guid", .text r.guid.text), ("identifier", .text r.identifier),
    ("content_hash", .ofOption (r.contentHash.map .text)),
    ("values", .map (r.values.entries.map fun e => (e.1, e.2.node)))]

/-! ### Reading -/

/-- The number of a literal between two bounds, both included. -/
def Ron.bounded? (low high : Int) (d : Ron) : Option Int :=
  (if low < 0 then d.int? else d.nat?.map Int.ofNat).filter fun n => low ≤ n ∧ n ≤ high

/-- A number of the signed 64-bit range. -/
def Ron.int64? (d : Ron) : Option Int64 :=
  (d.bounded? (-0x8000000000000000) 0x7fffffffffffffff).map Int64.ofInt

/-- Reads a fixed-width value. -/
def Scalar.ofRon? : Ron → Option Scalar
  | .tuple (some kind) [d] =>
    let signed (limit : Int) : Option Int := d.bounded? (-limit) (limit - 1)
    let unsigned (limit : Int) : Option Nat := (d.bounded? 0 (limit - 1)).map Int.toNat
    match kind with
    | "Bool" => (Ron.form.bool? d).map bool
    | "I8" => (signed 0x80).map (i8 ∘ Int8.ofInt)
    | "U8" => (unsigned 0x100).map (u8 ∘ UInt8.ofNat)
    | "I16" => (signed 0x8000).map (i16 ∘ Int16.ofInt)
    | "U16" => (unsigned 0x10000).map (u16 ∘ UInt16.ofNat)
    | "I32" => (signed 0x80000000).map (i32 ∘ Int32.ofInt)
    | "U32" => (unsigned 0x100000000).map (u32 ∘ UInt32.ofNat)
    | "I64" => (signed 0x8000000000000000).map (i64 ∘ Int64.ofInt)
    | "U64" => (unsigned 0x10000000000000000).map (u64 ∘ UInt64.ofNat)
    | "F32" => d.float?.map f32
    | _ => none
  | _ => none

/-- A text that may be absent. -/
def Ron.optionalText? (d : Ron) : Option (Option String) := Ron.form.option? Ron.form.text? d

namespace Value

/-- Reads a value that has no values in it. -/
def leafOfRon? (kind : String) (d : Ron) : Option Value :=
  match kind with
  | "Str" => (Ron.form.text? d).map text
  | "Enum" => (Ron.form.text? d).map enum
  | "Scalar" => (Scalar.ofRon? d).map scalar
  | "Duration" => d.int64?.map duration
  | "DateTime" => d.int64?.map dateTime
  | "Ref" => d.optionalText?.map fun target => ref (target.map Guid.mk)
  | "Struct" => if d matches .word "None" then some noStruct else none
  | "Composite" => (Ron.form.list? Scalar.ofRon? d).map composite
  | "Asset" => d.optionalText?.map asset
  | _ => none

mutual

/-- Reads a value. -/
def ofRon? : Ron → Option Value
  | .tuple (some "List") [.list items] => (itemsOfRon? items).map list
  | .tuple (some "Struct") [.tuple (some "Some") [.record title parts]] =>
    if title.all (· = "StructValue") ∧ parts.countP (fun p => p.1 == "fields") = 1 then
      (fieldsOfParts? parts).map struct
    else none
  | .tuple (some kind) [d] => leafOfRon? kind d
  | _ => none

/-- Reads the elements of a list. -/
def itemsOfRon? : List Ron → Option (List Value)
  | [] => some []
  | d :: rest =>
    match ofRon? d, itemsOfRon? rest with
    | some v, some vs => some (v :: vs)
    | _, _ => none

/-- Reads the fields of a sub-structure out of its one part with fields. -/
def fieldsOfParts? : List (String × Ron) → Option (List (String × Value))
  | [] => none
  | ("fields", .list pairs) :: _ => pairsOfRon? pairs
  | ("fields", _) :: _ => none
  | _ :: rest => fieldsOfParts? rest

/-- Reads pairs of a name and a value. -/
def pairsOfRon? : List Ron → Option (List (String × Value))
  | [] => some []
  | .tuple none [.text name, d] :: rest =>
    match ofRon? d, pairsOfRon? rest with
    | some v, some fields => some ((name, v) :: fields)
    | _, _ => none
  | _ :: _ => none

end

/-- Reads a map of values.  Of two entries with one name the later one counts. -/
def mapOfRon? : Ron → Option (NameMap Value)
  | .map entries => do
    let named ← Ron.namedEntries? entries
    return .ofList (← named.mapM fun e => (ofRon? e.2).map fun v => (e.1, v))
  | _ => none

end Value

/-- Reads a record; its directory is left open. -/
def Record.ofRon? (d : Ron) : Option Record := do
  let parts ← d.parts? "StructuredRecord" ["guid", "identifier", "content_hash", "values"]
  return ⟨⟨← Form.required? parts "guid" Ron.form.text?⟩,
    ← Form.required? parts "identifier" Ron.form.text?, "",
    ← Form.defaulted? parts "content_hash" none Ron.optionalText?,
    ← Form.defaulted? parts "values" .empty Value.mapOfRon?⟩

end RecordTables
