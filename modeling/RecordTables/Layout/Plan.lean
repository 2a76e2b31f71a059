import RecordTables.Fingerprint
import RecordTables.Layout.Basic
import RecordTables.Schema.Declaration
import RecordTables.Schema.Property

/-!
# How properties are stored

`PropertyPlan.ofProperty` says for a resolved property which fields it takes in its table, how its
value is staged before a row is written, which slots are filled, and how they are read again.  The
plan of all tables is handed to the generator of code, and the writer and the reader of containers
carry out the very same steps, so generated code and generated data cannot disagree.
-/

namespace RecordTables

open Schema

/-- Where component `component` of element `element` lies in a list of values of `arity`
components. -/
def componentOffset (element component arity : Nat) : Nat := element * arity + component

/-- What is done with a value before its row is written. -/
inductive PrepareOp where
  /-- The value goes into the row as it is. -/
  | inline
  /-- The name of a member becomes its number. -/
  | enumDiscriminant (name : String) (repr : ScalarKind)
  | internString
  | internStringVector
  | scalarVector (kind : ScalarKind)
  | enumVector (name : String) (repr : ScalarKind)
  /-- A GUID becomes the number of the row of its record. -/
  | rowIndex (target : String)
  | rowIndexVector (target : String)
  /-- A sub-structure is written to its own table first. -/
  | embedRow (table : String)
  | embedRowVector (table : String)
  /-- There is one vector for each component, strided by element. -/
  | stridedVectors (shape : CompositeShape)
  deriving DecidableEq, Repr, Inhabited

/-- The slots that a property fills. -/
structure WriteOp where
  /-- Names of fields, in order. -/
  slots : List String
  /-- The kind of values stored as they are; `none` for indices. -/
  inlineKind : Option ScalarKind
  deriving DecidableEq, Repr, Inhabited

/-- How slots are turned into a value again. -/
inductive ReadOp where
  | text
  | enum (name : String) (repr : ScalarKind)
  | scalar (kind : ScalarKind)
  | time (kind : TimeKind)
  | ref (target : String)
  | embedded (table : String)
  | components (shape : CompositeShape)
  | asset
  deriving DecidableEq, Repr, Inhabited

/-- Everything about the storage of one property. -/
structure PropertyPlan where
  property : Property
  fields : List Field
  prepare : PrepareOp
  write : WriteOp
  read : ReadOp
  isList : Bool
  deriving DecidableEq, Repr, Inhabited

/-- Everything about the storage of one record type or sub-structure. -/
structure TablePlan where
  table : String
  kind : TypeKind
  properties : List PropertyPlan
  deriving DecidableEq, Repr, Inhabited

/-- The first property of a name. -/
def TablePlan.property? (t : TablePlan) (name : String) : Option PropertyPlan :=
  t.properties.find? (fun p => p.property.name == name)

/-- The plan of all tables, for a generator of code. -/
structure StoragePlan where
  namespaceName : String
  fingerprint : Fingerprint
  tables : List TablePlan
  deriving DecidableEq, Repr, Inhabited

namespace PropertyPlan

/-- The kind that stores an enum; that of an enum which is not declared is never asked for. -/
def enumRepr (d : Declarations) (name : String) : ScalarKind :=
  ((d.enum? name).map (·.repr)).getD .i32

/-- What an element of a category is in a field. -/
def fieldKind (d : Declarations) : ValueType → FieldKind
  | .string | .localizedText | .asset => .string
  | .enum name => .scalar (enumRepr d name)
  | .scalar kind => .scalar kind
  | .time _ => .scalar .i64
  | .recordRef target | .embedded target => .row target
  | .composite shape => .scalar shape.componentKind

/-- The fields of a property: one for each component, or one. -/
def fieldsOf (d : Declarations) (table name : String) (vt : ValueType) (isArray : Bool) :
    List Field :=
  match vt with
  | .composite shape =>
    shape.components.map fun c => ⟨table, s!"{name}_{c}", .scalar shape.componentKind, isArray⟩
  | _ => [⟨table, name, fieldKind d vt, isArray⟩]

/-- How a single value is staged. -/
def prepareSingle (d : Declarations) : ValueType → PrepareOp
  | .string | .localizedText | .asset => .internString
  | .enum name => .enumDiscriminant name (enumRepr d name)
  | .scalar _ | .time _ | .composite _ => .inline
  | .recordRef target => .rowIndex target
  | .embedded target => .embedRow target

/-- How a list is staged. -/
def prepareList (d : Declarations) : ValueType → PrepareOp
  | .string | .localizedText | .asset => .internStringVector
  | .enum name => .enumVector name (enumRepr d name)
  | .scalar kind => .scalarVector kind
  | .time _ => .scalarVector .i64
  | .recordRef target => .rowIndexVector target
  | .embedded target => .embedRowVector target
  | .composite shape => .stridedVectors shape

/-- The kind of the values that a single property stores as they are. -/
def inlineKind (d : Declarations) : ValueType → Option ScalarKind
  | .enum name => some (enumRepr d name)
  | .scalar kind => some kind
  | .time _ => some .i64
  | .composite shape => some shape.componentKind
  | _ => none

/-- How the slots of a category are read. -/
def readOp (d : Declarations) : ValueType → ReadOp
  | .string | .localizedText => .text
  | .enum name => .enum name (enumRepr d name)
  | .scalar kind => .scalar kind
  | .time kind => .time kind
  | .recordRef target => .ref target
  | .embedded table => .embedded table
  | .composite shape => .components shape
  | .asset => .asset

/-- The plan from the fields and the steps. -/
def make (p : Property) (fields : List Field) (prepare : PrepareOp) (kind : Option ScalarKind)
    (read : ReadOp) : PropertyPlan :=
  ⟨p, fields, prepare, ⟨fields.map (·.name), kind⟩, read, p.shape.isList⟩

/-- The plan of a property of a table. -/
def ofProperty (d : Declarations) (table : String) (p : Property) : PropertyPlan :=
  match p.shape with
  | .identifier => make p [⟨table, p.name, .string, false⟩] .internString none .text
  | .single vt =>
    make p (fieldsOf d table p.name vt false) (prepareSingle d vt) (inlineKind d vt) (readOp d vt)
  | .list vt => make p (fieldsOf d table p.name vt true) (prepareList d vt) none (readOp d vt)

end PropertyPlan

end RecordTables
