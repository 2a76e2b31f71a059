import RecordTables.Scalar.Basic
import RecordTables.Text.Blank

/-!
# Declarations of a schema

A schema declares types and enums.  A type is a record type, whose instances have a GUID and an
identifier; a sub-structure, which is stored inside its owner; or an interface, a bundle of
properties that others take over.  A property names its type by a tag and may be a list of it.
-/

namespace RecordTables.Schema

/-- What a declared type is used for. -/
inductive TypeKind where
  /-- Instances have an identity and an identifier. -/
  | record
  /-- Instances are stored inside their owner. -/
  | struct
  /-- There are no instances; other types take over its properties. -/
  | interface
  deriving DecidableEq, Repr, Inhabited

/-- The word for a kind in a declaration. -/
def TypeKind.tag : TypeKind → String
  | record => "record"
  | struct => "struct"
  | interface => "interface"

/-- The kind that a word names. -/
def TypeKind.ofTag? : String → Option TypeKind
  | "record" => some .record
  | "struct" => some .struct
  | "interface" => some .interface
  | _ => none

/-- A declared property: a name, the tag of its type, and whether it is a list. -/
structure PropertyDeclaration where
  name : String
  /-- The name of a builtin type, a declared type or a declared enum. -/
  typeTag : String
  isList : Bool
  deriving DecidableEq, Repr, Inhabited

namespace PropertyDeclaration

/-- The characters between `List<` and a last `>`, if the text has that form. -/
def listArgument? (cs : List Char) : Option (List Char) :=
  if "List<".toList.isPrefixOf cs then
    let rest := cs.drop 5
    if rest.getLast? = some '>' then some rest.dropLast else none
  else none

/-- The characters before a final `[]`, if the text has that form. -/
def arrayElement? (cs : List Char) : Option (List Char) :=
  if "[]".toList.isSuffixOf cs then some (cs.take (cs.length - 2)) else none

/-- The property of a name and a signature: `T`, `List<T>` or `T[]`. -/
def ofSignature (name signature : String) : PropertyDeclaration :=
  let cs := Text.trim signature.toList
  match listArgument? cs with
  | some element => ⟨name, String.ofList (Text.trim element), true⟩
  | none =>
    match arrayElement? cs with
    | some element => ⟨name, String.ofList (Text.trim element), true⟩
    | none => ⟨name, String.ofList cs, false⟩

/-- The signature of a property as messages show it. -/
def signature (p : PropertyDeclaration) : String :=
  if p.isList then s!"List<{p.typeTag}>" else p.typeTag

end PropertyDeclaration

/-- A declared record type, sub-structure or interface. -/
structure TypeDeclaration where
  name : String
  kind : TypeKind
  /-- The types whose properties it takes over. -/
  parents : List String
  /-- Its own properties. -/
  properties : List PropertyDeclaration
  deriving DecidableEq, Repr, Inhabited

/-- A member of a declared enum. -/
structure EnumMember where
  name : String
  value : Int64
  deriving DecidableEq, Repr, Inhabited

/-- A declared enum, with the integer kind that stores it. -/
structure EnumDeclaration where
  name : String
  repr : ScalarKind
  members : List EnumMember
  deriving DecidableEq, Repr, Inhabited

namespace EnumDeclaration

/-- The number of the first member of a name. -/
def valueOf? (e : EnumDeclaration) (member : String) : Option Int64 :=
  (e.members.find? (fun m => m.name == member)).map (·.value)

/-- The name of the first member with a number. -/
def nameOf? (e : EnumDeclaration) (value : Int64) : Option String :=
  (e.members.find? (fun m => m.value == value)).map (·.name)

end EnumDeclaration

/-- All declared types and enums, each in the order of registration. -/
structure Declarations where
  types : List TypeDeclaration
  enums : List EnumDeclaration
  deriving DecidableEq, Repr, Inhabited

namespace Declarations

/-- No declarations. -/
def empty : Declarations := ⟨[], []⟩

/-- The declared type of a name. -/
def type? (d : Declarations) (name : String) : Option TypeDeclaration :=
  d.types.find? (fun t => t.name == name)

/-- The declared enum of a name. -/
def enum? (d : Declarations) (name : String) : Option EnumDeclaration :=
  d.enums.find? (fun e => e.name == name)

/-- Whether a type or an enum has the name. -/
def isDeclared (d : Declarations) (name : String) : Bool :=
  (d.type? name).isSome || (d.enum? name).isSome

/-- Adds a type; `none` if its name is taken. -/
def addType? (d : Declarations) (t : TypeDeclaration) : Option Declarations :=
  if d.isDeclared t.name then none else some { d with types := d.types ++ [t] }

/-- Adds an enum; `none` if its name is taken. -/
def addEnum? (d : Declarations) (e : EnumDeclaration) : Option Declarations :=
  if d.isDeclared e.name then none else some { d with enums := d.enums ++ [e] }

end Declarations

end RecordTables.Schema
