import RecordTables.Schema.Declaration
import RecordTables.Schema.Error
import RecordTables.Schema.Property

/-!
# Resolution of declared properties

A declared property is classified by the first of nine rules that accepts it (`Rule.all`).  The
order of the rules is part of the contract: a declared enum named like a builtin shape is an enum.

The effective properties of a type are those of its ancestors, depth first in the order in which
parents are named and each ancestor once, and then its own.  A record type that has no identifier
property among them gets one in front.  The walk fails on a parent that is no declared type, and on
an ancestor that is met again on the way down to itself.
-/

namespace RecordTables.Schema

/-- What changes how declarations are resolved. -/
structure Options where
  /-- The name of the property that holds a record's identifier. -/
  identifierProperty : String
  /-- Whether properties may name assets. -/
  assetLinking : Bool
  deriving DecidableEq, Repr, Inhabited

/-- The identifier property is `Identifier`, and assets are not linked. -/
def Options.standard : Options := ⟨"Identifier", false⟩

/-- The rules that classify a property. -/
inductive Rule where
  | identifier
  | string
  | localizedText
  | enum
  | scalar
  | time
  | nestedReference
  | multiComponent
  | asset
  deriving DecidableEq, Repr

namespace Rule

/-- The rules in their order of precedence. -/
def all : List Rule :=
  [identifier, string, localizedText, enum, scalar, time, nestedReference, multiComponent, asset]

/-- The name of a rule in diagnostics. -/
def name : Rule → String
  | identifier => "identifier"
  | string => "string"
  | localizedText => "localized-text"
  | enum => "enum"
  | scalar => "scalar"
  | time => "time"
  | nestedReference => "nested-reference"
  | multiComponent => "multi-component"
  | asset => "asset"

/-- The category that a rule gives to a type tag, if it accepts it.  The identifier rule looks at
more than the tag and is not among them. -/
def element? (d : Declarations) (options : Options) (typeTag : String) : Rule → Option ValueType
  | identifier => none
  | string => if typeTag = "string" then some .string else none
  | localizedText => if typeTag = "LocalizedText" then some .localizedText else none
  | enum => (d.enum? typeTag).map (fun e => .enum e.name)
  | scalar => (ScalarKind.ofTag? typeTag).map .scalar
  | time => (TimeKind.ofTag? typeTag).map .time
  | nestedReference =>
    match d.type? typeTag with
    | some ⟨target, .record, _, _⟩ => some (.recordRef target)
    | some ⟨target, .struct, _, _⟩ => some (.embedded target)
    | _ => none
  | multiComponent => (CompositeShape.ofTag? typeTag).map .composite
  | asset => if options.assetLinking && typeTag == "AssetRef" then some .asset else none

/-- The shape that a rule gives to a property of a type of kind `owner`, if it accepts it. -/
def shape? (d : Declarations) (options : Options) (owner : TypeKind) (p : PropertyDeclaration)
    (rule : Rule) : Option Shape :=
  match rule with
  | identifier =>
    if owner = .record ∧ p.name = options.identifierProperty ∧ p.typeTag = "string" ∧
        p.isList = false then some .identifier
    else none
  | _ => (rule.element? d options p.typeTag).map (if p.isList then .list else .single)

/-- The first rule that accepts a property, with the shape it gives. -/
def first? (d : Declarations) (options : Options) (owner : TypeKind) (p : PropertyDeclaration) :
    Option (Rule × Shape) :=
  all.findSome? (fun rule => (rule.shape? d options owner p).map (fun shape => (rule, shape)))

end Rule

/-- Resolves a property of a declared type. -/
def resolve (d : Declarations) (options : Options) (owner : TypeDeclaration)
    (p : PropertyDeclaration) : Except SchemaError Property :=
  match Rule.first? d options owner.kind p with
  | some (_, shape) => .ok ⟨p.name, shape⟩
  | none => .error (.unsupportedType owner.name p.name p.signature)

/-! ## Inherited properties -/

/-- From the first occurrence of `name` on, the path, closed by `name`. -/
def closeCycle (path : List String) (name : String) : List String :=
  path.dropWhile (· != name) ++ [name]

namespace Declarations

/-- How many declared type names are not on a path. -/
def offPath (d : Declarations) (path : List String) : Nat :=
  (d.types.map (·.name)).countP (fun n => !path.contains n)

/-- Going down to a declared type that is not on the path yet leaves fewer that are off it. -/
theorem offPath_append_lt {d : Declarations} {path : List String} {name : String}
    {t : TypeDeclaration} (ht : d.type? name = some t) (hp : path.contains name = false) :
    d.offPath (path ++ [name]) < d.offPath path := by
  have hname : t.name = name := by simpa using List.find?_some ht
  have hmem : name ∈ d.types.map (·.name) :=
    List.mem_map.2 ⟨t, List.mem_of_find?_eq_some ht, hname⟩
  simp only [offPath, List.countP_eq_length_filter]
  generalize d.types.map (·.name) = names at hmem
  have sub : ∀ l : List String,
      (l.filter (fun n => !(path ++ [name]).contains n)).length ≤
        (l.filter (fun n => !path.contains n)).length := by
    intro l
    induction l with
    | nil => simp
    | cons a l ih => simp only [List.filter_cons]; grind
  induction names with
  | nil => simp at hmem
  | cons a l ih =>
    have := sub l
    rcases List.mem_cons.1 hmem with rfl | h
    · simp only [List.filter_cons]; grind
    · have := ih h
      simp only [List.filter_cons]; grind

end Declarations

/-- What a walk over ancestors has met: the names of the ancestors, and their own properties in the
order of the walk. -/
structure Ancestry where
  visited : List String
  properties : List PropertyDeclaration
  deriving Inhabited

/-- Walks over `parents` of `owner`.  `path` leads from the type in question down to `owner`. -/
def collectAncestors (d : Declarations) (path : List String) (owner : String) :
    (parents : List String) → Ancestry → Except SchemaError Ancestry
  | [], found => .ok found
  | name :: rest, found =>
    if _hp : path.contains name then .error (.circularInheritance (closeCycle path name))
    else if found.visited.contains name then collectAncestors d path owner rest found
    else
      match _ht : d.type? name with
      | none => .error (.unknownType owner name)
      | some parent =>
        match collectAncestors d (path ++ [name]) name parent.parents
            { found with visited := name :: found.visited } with
        | .error e => .error e
        | .ok found =>
          collectAncestors d path owner rest
            { found with properties := found.properties ++ parent.properties }
termination_by parents => (d.offPath path, parents.length)
decreasing_by
  · simp [Prod.lex_def]
  · have := Declarations.offPath_append_lt _ht (by simpa using _hp)
    simp [Prod.lex_def, this]
  · simp [Prod.lex_def]

/-- Puts the identifier property in front of the properties of a record type if it is not among
them, and fails if it is there as something other than a single string. -/
def withIdentifier (options : Options) (owner : TypeDeclaration)
    (properties : List PropertyDeclaration) : Except SchemaError (List PropertyDeclaration) :=
  if owner.kind ≠ .record then .ok properties
  else
    match properties.find? (fun p => p.name == options.identifierProperty) with
    | none => .ok (⟨options.identifierProperty, "string", false⟩ :: properties)
    | some p =>
      if p.typeTag ≠ "string" ∨ p.isList then
        .error (.invalidIdentifier owner.name p.name p.signature)
      else .ok properties

/-- The properties of a type together with everything that it takes over. -/
def effectiveProperties (d : Declarations) (options : Options) (owner : TypeDeclaration) :
    Except SchemaError (List PropertyDeclaration) :=
  match collectAncestors d [owner.name] owner.name owner.parents ⟨[], []⟩ with
  | .error e => .error e
  | .ok found => withIdentifier options owner (found.properties ++ owner.properties)

end RecordTables.Schema
