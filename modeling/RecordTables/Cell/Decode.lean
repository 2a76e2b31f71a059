import RecordTables.Cell.Basic
import RecordTables.Registry
import RecordTables.Scalar.Text
import RecordTables.Text.Split
import RecordTables.Time.DateTime
import RecordTables.Time.Duration

/-!
# Reading cells

A cell holds the value of one property.  Between the elements of a list stand commas, or bars where
an element is a tuple or a reference; between the components of a tuple stand commas; and a list
inside a tuple is written in brackets, its elements between semicolons.  A blank cell stands for the
default of its property.

A sub-structure that holds others is flattened, and a list in it takes one component.  An `Outline`
is the arrangement of a tuple: a tree whose leaves are the components.
-/

namespace RecordTables

open Schema

/-! ## The components of a tuple -/

/-- How the components of a value are arranged. -/
inductive Outline where
  /-- One component. -/
  | leaf (vt : ValueType)
  /-- One component that holds a list in brackets. -/
  | nested (element : ValueType)
  /-- As many components as the shape has. -/
  | composite (shape : CompositeShape)
  /-- The components of each property of a sub-structure, in order. -/
  | struct (name : String) (fields : List (String × Outline))
  deriving Inhabited

namespace Outline

mutual

/-- The number of components. -/
def arity : Outline → Nat
  | leaf _ | nested _ => 1
  | composite shape => shape.arity
  | struct _ fields => arityOfFields fields

/-- The number of components of all fields. -/
def arityOfFields : List (String × Outline) → Nat
  | [] => 0
  | f :: rest => f.2.arity + arityOfFields rest

end

end Outline

namespace Registry

/-- The arrangement of a value of a category, going down through at most `fuel` sub-structures.  No
sub-structure holds itself, so as many as there are types are enough. -/
def outlineWithin (r : Registry) : (fuel : Nat) → ValueType → Option Outline
  | _, .composite shape => some (.composite shape)
  | 0, .embedded _ => none
  | fuel + 1, .embedded name =>
    match r.type? name with
    | none => none
    | some t =>
      (t.properties.mapM fun (p : Property) =>
        match p.shape with
        | .identifier => some (p.name, Outline.leaf .string)
        | .single vt => (r.outlineWithin fuel vt).map fun o => (p.name, o)
        | .list vt => some (p.name, Outline.nested vt)).map (Outline.struct name)
  | _, vt => some (.leaf vt)

/-- The arrangement of a value of a category. -/
def outline? (r : Registry) (vt : ValueType) : Option Outline := r.outlineWithin r.types.length vt

end Registry

/-! ## Reading -/

namespace Cell

/-- What is needed to read and write cells: the schema, and the records that references name. -/
structure Context where
  registry : Registry
  references : References

/-- Between the components of a tuple and the elements of a plain list. -/
def componentMark : Char := ','

/-- Between the elements of a list of tuples. -/
def elementMark : Char := '|'

/-- Between the elements of a list inside a tuple. -/
def nestedMark : Char := ';'

/-- The mark between the elements of a list of a category. -/
def listMark (vt : ValueType) : Char := if vt.isTuple then elementMark else componentMark

/-- Reads a fixed-width value; a blank stands for zero. -/
def readScalar (kind : ScalarKind) (cs : List Char) : Except CellError Scalar :=
  if cs.isEmpty then .ok (.zero kind)
  else
    let text := String.ofList cs
    match Scalar.ofText? kind text with
    | some s => .ok s
    | none => .error (.invalidScalar kind.tag text)

/-- Reads a span of time. -/
def readDuration (cs : List Char) : Except CellError Int64 :=
  match Duration.ofText? cs with
  | some ms => .ok ms
  | none => .error (.invalidDuration (String.ofList cs))

/-- Reads an instant. -/
def readDateTime (cs : List Char) : Except CellError Int64 :=
  match DateTime.ofText? cs with
  | some ms => .ok ms
  | none => .error (.invalidDateTime (String.ofList cs))

namespace Context

variable (ctx : Context)

/-- Reads a member of an enum, by name or by number; a blank stands for the default. -/
def readMember (name : String) (cs : List Char) : Except CellError Value :=
  match ctx.registry.enum? name with
  | none => .error (.unknownType name)
  | some e =>
    let text := String.ofList cs
    if cs.isEmpty then .ok (ctx.registry.defaultElement (.enum name))
    else if (e.valueOf? text).isSome then .ok (.enum text)
    else
      match (Number.readInt64 cs).toOption.bind e.nameOf? with
      | some member => .ok (.enum member)
      | none => .error (.unknownMember name text)

/-- Reads a value that takes one component. -/
def readLeaf (vt : ValueType) (cs : List Char) : Except CellError Value :=
  let trimmed := Text.trim cs
  let text := String.ofList trimmed
  match vt with
  | .string | .localizedText => .ok (.text (String.ofList cs))
  | .enum name => ctx.readMember name trimmed
  | .scalar kind => (readScalar kind trimmed).map .scalar
  | .time .duration =>
    if trimmed.isEmpty then .ok (.duration 0) else (readDuration trimmed).map .duration
  | .time .dateTime =>
    if trimmed.isEmpty then .ok (.dateTime 0) else (readDateTime trimmed).map .dateTime
  | .recordRef target =>
    if trimmed.isEmpty then .ok (.ref none)
    else
      match ctx.references.guid? target text with
      | some guid => .ok (.ref (some guid))
      | none => .error (.unresolvedReference target text)
  | .asset => .ok (.asset (if trimmed.isEmpty then none else some text))
  | .embedded name => .error (.unknownType name)
  | .composite shape => .error (.unknownType shape.tag)

/-! ### Tuples -/

/-- Takes the first component of those that are left of a tuple. -/
def nextPart (whole : List Char) (parts : List (List Char)) :
    Except CellError (List Char × List (List Char)) :=
  match parts with
  | [] => .error (.arity 1 0 (String.ofList whole))
  | p :: rest => .ok (p, rest)

/-- Reads `count` fixed-width components. -/
def readComponents (kind : ScalarKind) (whole : List Char) :
    (count : Nat) → List (List Char) → Except CellError (List Scalar × List (List Char))
  | 0, parts => .ok ([], parts)
  | count + 1, parts => do
    let (p, parts) ← nextPart whole parts
    let s ← readScalar kind (Text.trim p)
    let (rest, parts) ← readComponents kind whole count parts
    return (s :: rest, parts)

mutual

/-- Reads the components that an outline takes, with `nested` for the lists among them. -/
def readParts (nested : ValueType → List Char → Except CellError Value) (whole : List Char) :
    Outline → List (List Char) → Except CellError (Value × List (List Char))
  | .leaf vt, parts => do
    let (p, parts) ← nextPart whole parts
    return (← ctx.readLeaf vt p, parts)
  | .nested vt, parts => do
    let (p, parts) ← nextPart whole parts
    return (← nested vt p, parts)
  | .composite shape, parts => do
    let (components, parts) ← readComponents shape.componentKind whole shape.arity parts
    return (.composite components, parts)
  | .struct _ fields, parts => do
    let (fields, parts) ← readFields nested whole fields parts
    return (.struct fields, parts)

/-- Reads the components of the fields of a sub-structure. -/
def readFields (nested : ValueType → List Char → Except CellError Value) (whole : List Char) :
    List (String × Outline) → List (List Char) →
      Except CellError (List (String × Value) × List (List Char))
  | [], parts => .ok ([], parts)
  | f :: rest, parts => do
    let (v, parts) ← readParts nested whole f.2 parts
    let (vs, parts) ← readFields nested whole rest parts
    return ((f.1, v) :: vs, parts)

end

/-- Reads a tuple with the given arrangement. -/
def readOutline (nested : ValueType → List Char → Except CellError Value) (outline : Outline)
    (cs : List Char) : Except CellError Value :=
  match Text.splitTopLevel? componentMark cs with
  | none => .error (.unbalanced (String.ofList cs))
  | some parts =>
    if parts.length = outline.arity then (ctx.readParts nested cs outline parts).map (·.1)
    else .error (.arity outline.arity parts.length (String.ofList cs))

/-- Reads a value that stands alone, as a tuple if it is one. -/
def readElement (nested : ValueType → List Char → Except CellError Value) (vt : ValueType)
    (cs : List Char) : Except CellError Value :=
  match vt with
  | .embedded name =>
    match ctx.registry.outline? vt with
    | some outline => ctx.readOutline nested outline cs
    | none => .error (.unknownType name)
  | .composite shape => ctx.readOutline nested (.composite shape) cs
  | _ => ctx.readLeaf vt cs

/-- What stands between an opening bracket in front and a closing one at the end. -/
def bracketed? (cs : List Char) : Option (List Char) :=
  match cs with
  | '[' :: rest => if rest.getLast? = some ']' then some rest.dropLast else none
  | _ => none

/-- Reads a list inside a tuple.  Each list inside a list is shorter by its brackets, so the length
of the text is enough `fuel`. -/
def readNested : (fuel : Nat) → ValueType → List Char → Except CellError Value
  | 0, _, _ => .ok (.list [])
  | fuel + 1, vt, cs =>
    let trimmed := Text.trim cs
    if trimmed.isEmpty then .ok (.list [])
    else
      match bracketed? trimmed with
      | none => .error (.unbalanced (String.ofList cs))
      | some inner =>
        if inner.all Text.isBlank then .ok (.list [])
        else
          match Text.splitTopLevel? nestedMark inner with
          | none => .error (.unbalanced (String.ofList inner))
          | some parts => (parts.mapM (ctx.readElement (readNested fuel) vt)).map .list

/-! ### Cells -/

/-- Reads the cell of a property. -/
def decode (p : Property) (cell : String) : Except CellError Value :=
  let cs := cell.toList
  let element := ctx.readElement (ctx.readNested cs.length)
  match p.shape with
  | .identifier =>
    let text := Text.trim cs
    if text.isEmpty then .error .blankIdentifier else .ok (.text (String.ofList text))
  | .single vt =>
    if vt.isTuple && cs.all Text.isBlank then .ok (ctx.registry.defaultElement vt)
    else element vt cs
  | .list vt =>
    if cs.all Text.isBlank then .ok (.list [])
    else ((Text.splitOn (listMark vt) cs).mapM (element vt)).map .list

end Context

end Cell

end RecordTables
