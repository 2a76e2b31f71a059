import RecordTables.Format.Node
import RecordTables.Layout.Plan

/-!
# Storage plans as data

The storage plan of a schema is written to a file for the generator of code.  Here are the names
under which its parts appear there.
-/

namespace RecordTables

open Schema

/-- A kind of fixed-width values, by its width. -/
def ScalarKind.node (kind : ScalarKind) : Node := .word kind.widthName

namespace Schema

/-- A category of values. -/
def ValueType.node : ValueType → Node
  | string => .word "String"
  | localizedText => .word "LocalizedText"
  | enum name => .tagged "Enum" (.text name)
  | scalar kind => .tagged "Scalar" kind.node
  | time kind => .tagged "Time" (.word kind.name)
  | recordRef target => .tagged "RecordRef" (.text target)
  | embedded target => .tagged "Embedded" (.text target)
  | composite shape => .tagged "Composite" (.word shape.tag)
  | asset => .word "Asset"

/-- A shape. -/
def Shape.node : Shape → Node
  | identifier => .word "Identifier"
  | single vt => .tagged "Single" vt.node
  | list vt => .tagged "List" vt.node

/-- A resolved property. -/
def Property.node (p : Property) : Node := .record [("name", .text p.name), ("shape", p.shape.node)]

/-- The field of a property in the storage of a record. -/
def Property.storageNode (p : Property) : Node :=
  .record [("name", .text p.name), ("host_type", .text p.hostType),
    ("backed_by_identifier", .bool p.isIdentifier)]

end Schema

/-- What an element of a field is. -/
def FieldKind.node : FieldKind → Node
  | scalar kind => .tagged "Scalar" kind.node
  | string => .word "String"
  | row table => .tagged "Table" (.text table)

/-- A field of a table. -/
def Field.node (f : Field) : Node :=
  .record [("table", .text f.table), ("field", .text f.name), ("kind", f.kind.node),
    ("is_array", .bool f.isArray)]

/-- The name and the kind of an enum. -/
def enumNode (name : String) (repr : ScalarKind) : List (String × Node) :=
  [("name", .text name), ("repr", repr.node)]

/-- How a value is staged. -/
def PrepareOp.node : PrepareOp → Node
  | inline => .word "Inline"
  | enumDiscriminant name repr => .taggedRecord "EnumDiscriminant" (enumNode name repr)
  | internString => .word "InternString"
  | internStringVector => .word "InternStringVector"
  | scalarVector kind => .tagged "ScalarVector" kind.node
  | enumVector name repr => .taggedRecord "EnumVector" (enumNode name repr)
  | rowIndex target => .taggedRecord "RowIndex" [("target", .text target)]
  | rowIndexVector target => .taggedRecord "RowIndexVector" [("target", .text target)]
  | embedRow table => .taggedRecord "EmbedRow" [("table", .text table)]
  | embedRowVector table => .taggedRecord "EmbedRowVector" [("table", .text table)]
  | stridedVectors shape => .taggedRecord "StridedVectors" [("shape", .word shape.tag)]

/-- The slots that are filled. -/
def WriteOp.node (w : WriteOp) : Node :=
  .record [("slots", .list (w.slots.map .text)),
    ("inline", .ofOption (w.inlineKind.map ScalarKind.node))]

/-- How slots are read. -/
def ReadOp.node : ReadOp → Node
  | text => .word "Text"
  | enum name repr => .taggedRecord "Enum" (enumNode name repr)
  | scalar kind => .tagged "Scalar" kind.node
  | time kind => .tagged "Time" (.word kind.name)
  | ref target => .taggedRecord "Ref" [("target", .text target)]
  | embedded table => .taggedRecord "Embedded" [("table", .text table)]
  | components shape => .taggedRecord "Components" [("shape", .word shape.tag)]
  | asset => .word "Asset"

/-- The storage of a property. -/
def PropertyPlan.node (p : PropertyPlan) : Node :=
  .record [("property", p.property.node), ("storage", p.property.storageNode),
    ("fields", .list (p.fields.map Field.node)), ("prepare", p.prepare.node),
    ("write", p.write.node), ("read", p.read.node), ("list", .bool p.isList)]

/-- The storage of a table. -/
def TablePlan.node (t : TablePlan) : Node :=
  .record [("table", .text t.table), ("kind", .word t.kind.tag),
    ("properties", .list (t.properties.map PropertyPlan.node))]

/-- The storage of all tables. -/
def StoragePlan.node (p : StoragePlan) : Node :=
  .record [("namespace", .text p.namespaceName), ("fingerprint", .text p.fingerprint.text),
    ("tables", .list (p.tables.map TablePlan.node))]

end RecordTables
