import RecordTables.Fingerprint
import RecordTables.Schema.Resolution

/-!
# The fingerprint of a schema

The fingerprint covers every type with its kind and its effective properties, and every enum with
its kind and members, in the order of declaration.  It is stored with generated code and generated
data, which are trusted only while it is that of the current schema.
-/

namespace RecordTables

namespace Stream

open Schema

/-- A property: name, type tag, and whether it is a list. -/
def property (p : PropertyDeclaration) : List UInt8 :=
  text p.name ++ text p.typeTag ++ [if p.isList then 1 else 0]

/-- A type with its effective properties. -/
def type (name : String) (kind : TypeKind) (properties : List PropertyDeclaration) : List UInt8 :=
  text name ++ text kind.tag ++ count properties.length ++ properties.flatMap property

/-- A member of an enum. -/
def member (m : EnumMember) : List UInt8 := text m.name ++ word m.value.toUInt64

/-- An enum. -/
def enum (e : EnumDeclaration) : List UInt8 :=
  text e.name ++ text e.repr.tag ++ count e.members.length ++ e.members.flatMap member

/-- The stream of a schema, from its types with their effective properties and its enums. -/
def schema (types : List (TypeDeclaration × List PropertyDeclaration))
    (enums : List EnumDeclaration) : List UInt8 :=
  salt ++ types.flatMap (fun t => type t.1.name t.1.kind t.2) ++ enums.flatMap enum

end Stream

namespace Schema

/-- Every declared type with its effective properties, or the first fault of a closure. -/
def closures (d : Declarations) (options : Options) :
    Except SchemaError (List (TypeDeclaration × List PropertyDeclaration)) :=
  d.types.mapM fun t => (effectiveProperties d options t).map fun properties => (t, properties)

/-- The fingerprint of declarations. -/
def fingerprint (d : Declarations) (options : Options) : Except SchemaError Fingerprint :=
  (closures d options).map fun types => .ofStream (Stream.schema types d.enums)

end Schema

end RecordTables
