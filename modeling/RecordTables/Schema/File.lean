import RecordTables.Format.Form
import RecordTables.Registry

/-!
# Schema files

A schema file lists enums and types.  A member of an enum is a name, which takes the number after
that of the member before it, or a name with its number.  A property has a type tag and a flag for
lists, or a signature.
-/

namespace RecordTables.Schema

/-- A member of an enum as it is written. -/
inductive MemberEntry where
  /-- A member numbered one past the member before it, or zero. -/
  | next (name : String)
  | numbered (name : String) (value : Int64)
  deriving DecidableEq, Repr

/-- An enum as it is written. -/
structure EnumEntry where
  name : String
  /-- The tag of the kind that stores it. -/
  repr : Option String
  members : List MemberEntry
  deriving DecidableEq, Repr

/-- The declarations of a file. -/
structure SchemaFile where
  enums : List EnumEntry
  types : List TypeDeclaration
  deriving DecidableEq, Repr

namespace EnumEntry

/-- Numbers the members behind `last`. -/
def numberMembers (last : Option Int64) : List MemberEntry → List EnumMember
  | [] => []
  | .next name :: rest =>
    let value := (last.map (· + 1)).getD 0
    ⟨name, value⟩ :: numberMembers (some value) rest
  | .numbered name value :: rest => ⟨name, value⟩ :: numberMembers (some value) rest

/-- The declaration of an enum; `none` if its kind is not a tag of a fixed-width kind. -/
def declaration? (e : EnumEntry) : Option EnumDeclaration :=
  let kind := match e.repr with
    | none => some ScalarKind.i32
    | some tag => ScalarKind.ofTag? (Text.trimmed tag)
  kind.map fun kind => ⟨e.name, kind, numberMembers none e.members⟩

end EnumEntry

namespace SchemaFile

variable {δ : Type} (form : Form δ)

/-- Reads a property. -/
def readProperty? (d : δ) : Option PropertyDeclaration := do
  let parts ← form.record? "PropertyData" ["name", "type", "list"] d
  let name ← Form.required? parts "name" form.text?
  let tag ← Form.required? parts "type" form.text?
  let isList ← Form.defaulted? parts "list" false form.bool?
  return if isList then ⟨name, Text.trimmed tag, true⟩ else .ofSignature name tag

/-- Reads a type. -/
def readType? (d : δ) : Option TypeDeclaration := do
  let parts ← form.record? "TypeData" ["name", "kind", "extends", "properties"] d
  let name ← Form.required? parts "name" form.text?
  let kind ← (Form.required? parts "kind" form.word?).bind TypeKind.ofTag?
  let parents ← Form.defaulted? parts "extends" [] (form.list? form.text?)
  let properties ← Form.defaulted? parts "properties" [] (form.list? (readProperty? form))
  return ⟨name, kind, parents, properties⟩

/-- Reads a member of an enum. -/
def readMember? (d : δ) : Option MemberEntry :=
  match form.text? d with
  | some name => some (.next name)
  | none => do
    let parts ← form.untitled? ["name", "value"] d
    let name ← Form.required? parts "name" form.text?
    let value ← Form.required? parts "value" form.int64?
    return .numbered name value

/-- Reads an enum. -/
def readEnum? (d : δ) : Option EnumEntry := do
  let parts ← form.record? "EnumData" ["name", "repr", "members"] d
  let name ← Form.required? parts "name" form.text?
  let repr ← Form.defaulted? parts "repr" none (form.option? form.text?)
  let members ← Form.required? parts "members" (form.list? (readMember? form))
  return ⟨name, repr, members⟩

/-- Reads a file. -/
def read? (d : δ) : Option SchemaFile := do
  let parts ← form.record? "SchemaFile" ["enums", "types"] d
  let enums ← Form.defaulted? parts "enums" [] (form.list? (readEnum? form))
  let types ← Form.defaulted? parts "types" [] (form.list? (readType? form))
  return ⟨enums, types⟩

end SchemaFile

end RecordTables.Schema

namespace RecordTables.Registration

open Schema

/-- Takes enums in order, up to the first whose kind is no fixed-width kind, which is the fault. -/
def addEnumEntries (r : Registration) : List EnumEntry → Except EnumEntry Registration
  | [] => .ok r
  | e :: rest =>
    match e.declaration? with
    | some declaration => addEnumEntries (r.addEnum declaration) rest
    | none => .error e

/-- Takes the declarations of a file, the enums before the types. -/
def addFile (r : Registration) (file : SchemaFile) : Except EnumEntry Registration :=
  (r.addEnumEntries file.enums).map fun r => file.types.foldl addType r

end RecordTables.Registration
