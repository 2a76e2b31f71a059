import RecordTables.Cell.Decode

/-!
# Writing cells

`Context.encode` writes the cell of a value, the inverse of reading.  A value whose cell would read
back as something else is refused: a list or a sub-structure that would be blank, a missing
sub-structure inside another value, an asset key with blanks around it, and a text that contains a
character which separates values where it stands.
-/

namespace RecordTables.Cell

open Schema

/-- The characters that structure a tuple and cannot stand in its components. -/
def tupleMarks : List Char := [',', '|', '[', ';', ']']

/-- Refuses a text that contains one of the given characters. -/
def reserve (marks : List Char) (text : List Char) : Except CellError (List Char) :=
  if text.any marks.contains then .error (.unrepresentable .reservedCharacter) else .ok text

/-- Writes an instant. -/
def writeDateTime (ms : Int64) : Except CellError String :=
  match DateTime.text? ms with
  | some text => .ok text
  | none => .error (.invalidDateTime (toString ms.toInt))

namespace Context

variable (ctx : Context)

/-- Writes a value that takes one component. -/
def writeLeaf (vt : ValueType) (v : Value) : Except CellError (List Char) :=
  match vt, v with
  | .string, .text s | .localizedText, .text s => .ok s.toList
  | .enum name, .enum member =>
    match ctx.registry.enum? name with
    | none => .error (.unknownType name)
    | some e =>
      if (e.valueOf? member).isSome then .ok member.toList
      else .error (.unknownMember name member)
  | .scalar kind, .scalar s =>
    if s.kind = kind then .ok s.text.toList else .error (.mismatch vt.hostType)
  | .time .duration, .duration ms => .ok (Duration.text ms).toList
  | .time .dateTime, .dateTime ms => (writeDateTime ms).map String.toList
  | .recordRef _, .ref none => .ok []
  | .recordRef target, .ref (some guid) =>
    match ctx.references.identifier? target guid with
    | some identifier => .ok identifier.toList
    | none => .error (.unknownGuid target guid)
  | .asset, .asset none => .ok []
  | .asset, .asset (some key) =>
    if key.isEmpty || Text.trimmed key != key then .error (.unrepresentable .assetKey)
    else .ok key.toList
  | _, _ => .error (.mismatch vt.hostType)

/-! ### Tuples -/

/-- The value of a field that a sub-structure does not have. -/
def absentField : Outline → Value
  | .leaf vt => ctx.registry.defaultElement vt
  | .nested _ => .list []
  | .composite shape => .composite shape.defaultComponents
  | .struct _ _ => .struct []

mutual

/-- The components of a value with the given arrangement, with `nested` for the lists among them. -/
def writeParts (nested : ValueType → Value → Except CellError (List Char)) :
    Outline → Value → Except CellError (List (List Char))
  | .leaf vt, v => do
    return [← reserve tupleMarks (← ctx.writeLeaf vt v)]
  | .nested vt, v => do
    return [← nested vt v]
  | .composite shape, .composite components =>
    if components.length = shape.arity ∧ components.all (fun s => s.kind == shape.componentKind)
    then .ok (components.map fun s => s.text.toList)
    else .error (.mismatch shape.tag)
  | .composite shape, _ => .error (.mismatch shape.tag)
  | .struct _ _, .noStruct => .error (.unrepresentable .nullStruct)
  | .struct _ fields, .struct values => writeFields nested fields values
  | .struct name _, _ => .error (.mismatch name)

/-- The components of the fields of a sub-structure. -/
def writeFields (nested : ValueType → Value → Except CellError (List Char)) :
    List (String × Outline) → List (String × Value) → Except CellError (List (List Char))
  | [], _ => .ok []
  | f :: rest, values => do
    let parts ← writeParts nested f.2 ((Value.field? values f.1).getD (ctx.absentField f.2))
    let others ← writeFields nested rest values
    return parts ++ others

end

/-- Writes a tuple with the given arrangement. -/
def writeOutline (nested : ValueType → Value → Except CellError (List Char)) (outline : Outline)
    (v : Value) : Except CellError (List Char) :=
  (ctx.writeParts nested outline v).map (Text.joinWith componentMark)

/-- Writes a tuple of a category. -/
def writeTuple (nested : ValueType → Value → Except CellError (List Char)) (vt : ValueType)
    (v : Value) : Except CellError (List Char) :=
  match ctx.registry.outline? vt with
  | some outline => ctx.writeOutline nested outline v
  | none => .error (.unknownType vt.hostType)

/-- Whether a value of a category is written as a tuple of components. -/
def takesTuple : ValueType → Bool
  | .embedded _ | .composite _ => true
  | _ => false

/-- Writes a value that stands alone, as a tuple if it is one. -/
def writeElement (nested : ValueType → Value → Except CellError (List Char)) (vt : ValueType)
    (v : Value) : Except CellError (List Char) :=
  if takesTuple vt then ctx.writeTuple nested vt v else ctx.writeLeaf vt v

/-- Writes an element of a list inside a tuple. -/
def writeNestedElement (nested : ValueType → Value → Except CellError (List Char))
    (vt : ValueType) (v : Value) : Except CellError (List Char) :=
  if takesTuple vt then ctx.writeTuple nested vt v
  else (ctx.writeLeaf vt v).bind (reserve tupleMarks)

/-- Writes a list inside a tuple.  Elements are nested less deep than their list, so the depth of
the value is enough `fuel`. -/
def writeNested : (fuel : Nat) → ValueType → Value → Except CellError (List Char)
  | 0, vt, _ => .error (.mismatch s!"List<{vt.hostType}>")
  | fuel + 1, vt, v =>
    match v.items? with
    | none => .error (.mismatch s!"List<{vt.hostType}>")
    | some [] => .ok []
    | some items => do
      let parts ← items.mapM (ctx.writeNestedElement (writeNested fuel) vt)
      match parts with
      | [only] =>
        if only.all Text.isBlank then .error (.unrepresentable .blankNestedList)
        else return '[' :: only ++ [']']
      | _ => return '[' :: Text.joinWith nestedMark parts ++ [']']

/-! ### Cells -/

/-- Writes the cell of a property, as characters. -/
def encodeChars (p : Property) (v : Value) : Except CellError (List Char) :=
  let nested := ctx.writeNested v.depth
  match p.shape with
  | .identifier =>
    match v with
    | .text s => .ok s.toList
    | _ => .error (.mismatch "identifier")
  | .single (.embedded name) =>
    match v with
    | .noStruct => .ok []
    | _ => do
      let cell ← ctx.writeTuple nested (.embedded name) v
      if cell.all Text.isBlank then .error (.unrepresentable .blankStruct) else return cell
  | .single vt => ctx.writeElement nested vt v
  | .list vt =>
    match v.items? with
    | none => .error (.mismatch s!"List<{vt.hostType}>")
    | some items => do
      let parts ← items.mapM fun item =>
        (ctx.writeElement nested vt item).bind (reserve [listMark vt])
      let cell := Text.joinWith (listMark vt) parts
      if items ≠ [] ∧ cell.all Text.isBlank then .error (.unrepresentable .blankList)
      else return cell

/-- Writes the cell of a property. -/
def encode (p : Property) (v : Value) : Except CellError String :=
  (ctx.encodeChars p v).map String.ofList

end Context

end RecordTables.Cell
