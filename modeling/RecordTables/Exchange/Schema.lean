import RecordTables.Exchange.Value
import RecordTables.Layout.PlanNode
import RecordTables.Schema.File

/-!
# Schemas in exchange
-/

namespace RecordTables

open Schema

/-- Reads the options of a schema. -/
def Schema.Options.ofJson? (v : Json) : Option Options := do
  return ⟨← v.fieldOr? "identifier_property" Json.text? "Identifier",
    ← v.fieldOr? "asset_linking" Json.flag? false⟩

/-- A declared property: its name, its type and whether it is a list. -/
def Schema.PropertyDeclaration.toJson (p : PropertyDeclaration) : Json :=
  .array [.text p.name, .text p.typeTag, .bool p.isList]

/-- A resolved property with its default. -/
def Registry.propertyToJson (r : Registry) (p : Property) : Json :=
  .object [("name", .text p.name), ("host", .text p.hostType),
    ("by_identifier", .bool p.isIdentifier), ("default", .orNull Value.toJson (r.default? p)),
    ("list", .bool p.shape.isList),
    ("nullable", .bool (p.shape.element?.any (·.isReference)))]

/-- A resolved type. -/
def Registry.typeToJson (r : Registry) (t : ResolvedType) : Json :=
  .object [("name", .text t.name), ("kind", .text t.kind.tag),
    ("values", .nat t.valueProperties.length),
    ("declarations", .array (t.declarations.map (·.toJson))),
    ("properties", .array (t.properties.map r.propertyToJson))]

/-- The layout of a table. -/
def TableLayout.toJson (t : TableLayout) : Json :=
  .object [("name", .text t.name), ("record", .bool t.isRecord), ("size", .nat t.rowSize),
    ("fields", .array (t.fields.zipIdx.map fun (f, i) =>
      .object [("field", .text f.name), ("kind", f.kind.node.json), ("array", .bool f.isArray),
        ("slot", .orNull (fun s : Nat × Nat => .array [.nat s.1, .nat s.2]) (t.slot? i)),
        ("index", .orNull .nat (t.fieldIndex? f.name))]))]

/-- An enum with the numbers of its members. -/
def Schema.EnumDeclaration.toFields (e : EnumDeclaration) : List (String × Json) :=
  [("name", .text e.name), ("repr", .text e.repr.tag),
    ("members", .array (e.members.map fun m => .array [.text m.name, .wide m.value]))]

end RecordTables
