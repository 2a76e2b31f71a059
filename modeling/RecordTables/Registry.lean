import RecordTables.Layout.Basic
import RecordTables.Layout.Plan
import RecordTables.Schema.Embedding
import RecordTables.Schema.Stream
import RecordTables.Value

/-!
# The registry of a schema

`Registration` takes declarations in any order and keeps what is wrong with them.
`Registration.build` resolves them in phases (registration, inheritance, embedding, resolution,
layout); every fault of the first phase that has any is reported.  The `Registry` that comes out is
what all other parts read.
-/

namespace RecordTables

open Schema

/-- A declared type with its effective declarations and, in the same order, its resolved
properties. -/
structure ResolvedType where
  name : String
  kind : TypeKind
  declarations : List PropertyDeclaration
  properties : List Property
  deriving DecidableEq, Repr, Inhabited

namespace ResolvedType

/-- The first property of a name. -/
def property? (t : ResolvedType) (name : String) : Option Property :=
  t.properties.find? (fun p => p.name == name)

/-- Whether instances of the type are records. -/
def isRecord (t : ResolvedType) : Bool := t.kind == .record

/-- The properties that a record stores values for: all but the identifier. -/
def valueProperties (t : ResolvedType) : List Property :=
  t.properties.filter (fun p => !p.isIdentifier)

end ResolvedType

/-- A fully resolved schema. -/
structure Registry where
  options : Options
  declarations : Declarations
  types : List ResolvedType
  tables : List TablePlan
  layout : Layout
  fingerprint : Fingerprint
  deriving DecidableEq, Repr, Inhabited

/-! ### Registering declarations -/

/-- Declarations taken so far, and what was wrong with others. -/
structure Registration where
  declarations : Declarations
  errors : List SchemaError
  deriving Inhabited

namespace Registration

/-- Nothing registered. -/
def empty : Registration := ⟨.empty, []⟩

/-- Takes a type, unless its name is taken. -/
def addType (r : Registration) (t : TypeDeclaration) : Registration :=
  match r.declarations.addType? t with
  | some d => { r with declarations := d }
  | none => { r with errors := r.errors ++ [.duplicateType t.name] }

/-- The first member that repeats a name, among `seen` or before it, or does not fit the kind. -/
def memberFault? (repr : ScalarKind) (seen : List String) : List EnumMember → Option String
  | [] => none
  | m :: rest =>
    if seen.contains m.name then some s!"duplicate member '{m.name}'"
    else if (Scalar.ofInt64? repr m.value).isNone then
      some s!"member '{m.name}' = {m.value.toInt} does not fit in {repr.tag}"
    else memberFault? repr (m.name :: seen) rest

/-- Why an enum cannot be stored. -/
def enumFault? (e : EnumDeclaration) : Option String :=
  if !e.repr.isInteger then some s!"repr '{e.repr.tag}' is not an integer type"
  else if e.members.isEmpty then some "no members"
  else memberFault? e.repr [] e.members

/-- Takes an enum, unless it cannot be stored or its name is taken. -/
def addEnum (r : Registration) (e : EnumDeclaration) : Registration :=
  match enumFault? e with
  | some reason => { r with errors := r.errors ++ [.invalidEnum e.name reason] }
  | none =>
    match r.declarations.addEnum? e with
    | some d => { r with declarations := d }
    | none => { r with errors := r.errors ++ [.duplicateType e.name] }

/-! ### The phases of a build -/

/-- A fault for every property that repeats a name, among `seen` or before it. -/
def repeatedNames (table : String) (seen : List String) :
    List PropertyDeclaration → List SchemaError
  | [] => []
  | p :: rest =>
    if seen.contains p.name then .duplicateField table p.name :: repeatedNames table seen rest
    else repeatedNames table (p.name :: seen) rest

/-- The faults of one closure after those of others: every repeated name, or the fault of the
closure if it is not there already. -/
def closureFaults (errors : List SchemaError) (t : TypeDeclaration) :
    Except SchemaError (List PropertyDeclaration) → List SchemaError
  | .ok properties => errors ++ repeatedNames t.name [] properties
  | .error e => if errors.contains e then errors else errors ++ [e]

/-- Inheritance: every type with its effective properties. -/
def inherit (d : Declarations) (options : Options) :
    Except (List SchemaError) (List (TypeDeclaration × List PropertyDeclaration)) :=
  match d.types.foldl (fun es t => closureFaults es t (effectiveProperties d options t)) [] with
  | [] => (closures d options).mapError (fun e => [e])
  | errors => .error errors

/-- The faults of resolving the properties of a type. -/
def resolutionFaults (d : Declarations) (options : Options)
    (t : TypeDeclaration × List PropertyDeclaration) : List SchemaError :=
  t.2.filterMap fun p =>
    match resolve d options t.1 p with
    | .ok _ => none
    | .error e => some e

/-- Resolution: every type with its resolved properties. -/
def resolveAll (d : Declarations) (options : Options)
    (closed : List (TypeDeclaration × List PropertyDeclaration)) :
    Except (List SchemaError) (List ResolvedType) :=
  match closed.flatMap (resolutionFaults d options) with
  | [] => .ok (closed.map fun t =>
      ⟨t.1.name, t.1.kind, t.2, t.2.filterMap (fun p => (resolve d options t.1 p).toOption)⟩)
  | errors => .error errors

/-- How the properties of a type are stored. -/
def tablePlan (d : Declarations) (t : ResolvedType) : TablePlan :=
  ⟨t.name, t.kind, t.properties.map (PropertyPlan.ofProperty d t.name)⟩

/-- The steps that lay out a table. -/
def layoutSteps (plan : TablePlan) : List Layout.Step :=
  .table plan.table (plan.kind == .record) ::
    (plan.properties.flatMap (·.fields)).map Layout.Step.field

/-- Layout: the tables of all types but the interfaces. -/
def layOut (plans : List TablePlan) : Except (List SchemaError) Layout :=
  let (results, layout) := Layout.assemble ⟨[]⟩ (plans.flatMap layoutSteps)
  match results.filterMap (fun | .ok _ => none | .error e => some e) with
  | [] => .ok layout
  | errors => .error errors

/-- Resolves everything registered. -/
def build (r : Registration) (options : Options) : Except (List SchemaError) Registry :=
  if r.errors ≠ [] then .error r.errors
  else do
    let d := r.declarations
    let closed ← inherit d options
    (checkEmbedding d options).mapError (fun e => [e])
    let types ← resolveAll d options closed
    let tables := (types.filter (fun t => t.kind != .interface)).map (tablePlan d)
    let layout ← layOut tables
    return ⟨options, d, types, tables, layout, .ofStream (Stream.schema closed d.enums)⟩

end Registration

/-! ### Looking things up -/

namespace Registry

/-- The resolved type of a name. -/
def type? (r : Registry) (name : String) : Option ResolvedType :=
  r.types.find? (fun t => t.name == name)

/-- The record types, in the order of declaration. -/
def recordTypes (r : Registry) : List ResolvedType := r.types.filter (·.isRecord)

/-- The enum of a name. -/
def enum? (r : Registry) (name : String) : Option EnumDeclaration := r.declarations.enum? name

/-- The enums, in the order of declaration. -/
def enums (r : Registry) : List EnumDeclaration := r.declarations.enums

/-- The storage plan of a table. -/
def table? (r : Registry) (name : String) : Option TablePlan :=
  r.tables.find? (fun t => t.table == name)

/-- The name of the property that holds identifiers. -/
def identifierProperty (r : Registry) : String := r.options.identifierProperty

/-- The storage plan of all tables. -/
def storagePlan (r : Registry) (namespaceName : String) : StoragePlan :=
  ⟨namespaceName, r.fingerprint, r.tables⟩

/-- The interface description of the layout. -/
def idl (r : Registry) (namespaceName : String) : String :=
  r.layout.idl namespaceName r.enums r.fingerprint

/-! ### Defaults -/

/-- The value of an element of which nothing is known. -/
def defaultElement (r : Registry) : ValueType → Value
  | .string | .localizedText => .text ""
  | .enum name => .enum ((((r.enum? name).bind (·.members.head?)).map (·.name)).getD "")
  | .scalar kind => .scalar (.zero kind)
  | .time .duration => .duration 0
  | .time .dateTime => .dateTime 0
  | .recordRef _ => .ref none
  | .embedded _ => .noStruct
  | .composite shape => .composite shape.defaultComponents
  | .asset => .asset none

/-- The value of a property of which nothing is known; the identifier has none. -/
def default? (r : Registry) (p : Property) : Option Value :=
  match p.shape with
  | .identifier => none
  | .single vt => some (r.defaultElement vt)
  | .list _ => some (.list [])

end Registry

end RecordTables
