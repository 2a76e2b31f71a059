import RecordTables.Cell.Encode

/-!
# Canonical values

A value that is written as a cell and read again comes back with every sub-structure rewritten:
its fields are the declared properties in their order, a field that occurs twice keeps its first
value, a field that is not declared is gone, and one that is absent has its default.  `canonical` is
this rewriting; `canonical_struct` describes it for one sub-structure.

`LeavesReadBack` says of a value that each of its leaves, by itself, is read back after it is
written.
-/

namespace RecordTables

open Schema

/-! ### Defaults -/

namespace Outline

mutual

/-- The value that takes the place of an absent field.  An absent sub-structure is the one of its
defaults. -/
def defaultValue (r : Registry) : Outline → Value
  | leaf vt => r.defaultElement vt
  | nested _ => .list []
  | composite shape => .composite shape.defaultComponents
  | struct _ fields => .struct (defaultFields r fields)

/-- The defaults of the fields of a sub-structure. -/
def defaultFields (r : Registry) : List (String × Outline) → List (String × Value)
  | [] => []
  | f :: rest => (f.1, f.2.defaultValue r) :: defaultFields r rest

end

theorem defaultFields_eq_map (r : Registry) (fields : List (String × Outline)) :
    defaultFields r fields = fields.map fun f => (f.1, f.2.defaultValue r) := by
  induction fields with
  | nil => rfl
  | cons f rest ih => rw [defaultFields, ih, List.map_cons]

end Outline

/-! ### Canonical values -/

mutual

/-- The value that is read back after a value with the given arrangement is written. -/
def Value.canonical (r : Registry) : Value → Outline → Value
  | .struct values, .struct _ fields =>
    .struct (fields.map fun f => (f.1, canonicalField r values f.1 f.2))
  | .list items, .nested vt =>
    match r.outline? vt with
    | some outline => .list (canonicalItems r items outline)
    | none => .list items
  | v, _ => v

/-- The canonical value of the first field of a name, or the default if there is none. -/
def Value.canonicalField (r : Registry) : List (String × Value) → String → Outline → Value
  | [], _, outline => outline.defaultValue r
  | f :: rest, name, outline =>
    if f.1 = name then f.2.canonical r outline else canonicalField r rest name outline

/-- The canonical values of the elements of a list. -/
def Value.canonicalItems (r : Registry) : List Value → Outline → List Value
  | [], _ => []
  | v :: rest, outline => v.canonical r outline :: canonicalItems r rest outline

end

namespace Value

theorem canonicalField_eq (r : Registry) (values : List (String × Value)) (name : String)
    (outline : Outline) :
    canonicalField r values name outline =
      match field? values name with
      | some v => v.canonical r outline
      | none => outline.defaultValue r := by
  induction values with
  | nil => rfl
  | cons f rest ih =>
    unfold canonicalField field?
    by_cases hname : f.1 = name
    · rw [if_pos hname, List.find?_cons_of_pos (by simpa using hname), Option.map_some]
    · rw [if_neg hname, List.find?_cons_of_neg (by simpa using hname), ih, field?]

theorem canonicalItems_eq_map (r : Registry) (items : List Value) (outline : Outline) :
    canonicalItems r items outline = items.map fun v => v.canonical r outline := by
  induction items with
  | nil => rfl
  | cons v rest ih => rw [canonicalItems, ih, List.map_cons]

/-- **The canonical form of a sub-structure.**  Its fields are the declared ones, each with the
canonical form of the first value of its name, or with its default. -/
theorem canonical_struct (r : Registry) (values : List (String × Value)) (name : String)
    (fields : List (String × Outline)) :
    (struct values).canonical r (.struct name fields) =
      .struct (fields.map fun f => (f.1,
        match field? values f.1 with
        | some v => v.canonical r f.2
        | none => f.2.defaultValue r)) := by
  rw [canonical]
  congr 2
  funext f
  rw [canonicalField_eq]

theorem canonical_list {r : Registry} {vt : ValueType} {outline : Outline}
    (h : r.outline? vt = some outline) (items : List Value) :
    (list items).canonical r (.nested vt) = .list (items.map fun v => v.canonical r outline) := by
  rw [canonical, h]
  exact congrArg list (canonicalItems_eq_map r items outline)

@[simp] theorem canonical_list_nil (r : Registry) (vt : ValueType) :
    (list []).canonical r (.nested vt) = .list [] := by
  rw [canonical]
  split <;> rfl

@[simp] theorem canonical_leaf (r : Registry) (v : Value) (vt : ValueType) :
    v.canonical r (.leaf vt) = v := by
  cases v <;> rfl

@[simp] theorem canonical_composite (r : Registry) (v : Value) (shape : CompositeShape) :
    v.canonical r (.composite shape) = v := by
  cases v <;> rfl

@[simp] theorem canonical_noStruct (r : Registry) (outline : Outline) :
    noStruct.canonical r outline = noStruct := by
  cases outline <;> rfl

end Value

namespace Cell.Context

/-- The canonical form of what is written for an absent field is its default. -/
theorem canonical_absentField (ctx : Context) (outline : Outline) :
    (ctx.absentField outline).canonical ctx.registry outline = outline.defaultValue ctx.registry := by
  cases outline with
  | leaf vt => rw [Value.canonical_leaf]; rfl
  | nested vt =>
    rw [absentField, Value.canonical_list_nil, Outline.defaultValue]
  | composite shape => rw [Value.canonical_composite]; rfl
  | struct name fields =>
    rw [absentField, Value.canonical_struct, Outline.defaultValue, Outline.defaultFields_eq_map]
    rfl

/-- The canonical form of what is written for a field. -/
theorem canonical_field? (ctx : Context) (values : List (String × Value)) (name : String)
    (outline : Outline) :
    ((Value.field? values name).getD (ctx.absentField outline)).canonical ctx.registry outline =
      Value.canonicalField ctx.registry values name outline := by
  rw [Value.canonicalField_eq]
  cases Value.field? values name with
  | none => exact ctx.canonical_absentField outline
  | some v => rfl

end Cell.Context

/-! ### The arrangement of a cell -/

/-- The arrangement of the cell of a property. -/
def Registry.cellOutline? (r : Registry) (p : Property) : Option Outline :=
  match p.shape with
  | .identifier => none
  | .single vt => r.outline? vt
  | .list vt => some (.nested vt)

/-- The value that is read back from the cell of a property. -/
def Registry.canonicalCell (r : Registry) (p : Property) (v : Value) : Value :=
  match r.cellOutline? p with
  | some outline => v.canonical r outline
  | none => v

theorem Registry.canonicalCell_of_outline {r : Registry} {p : Property} {outline : Outline}
    (h : r.cellOutline? p = some outline) (v : Value) :
    r.canonicalCell p v = v.canonical r outline := by
  rw [canonicalCell, h]

/-- A list in a value with the given arrangement, at any depth, has elements of the category. -/
inductive Registry.HoldsListOf (r : Registry) : Outline → ValueType → Prop
  | here (vt : ValueType) : HoldsListOf r (.nested vt) vt
  | field {name : String} {fields : List (String × Outline)} {f : String × Outline}
      {vt : ValueType} (hf : f ∈ fields) (h : HoldsListOf r f.2 vt) :
      HoldsListOf r (.struct name fields) vt
  | element {outer vt : ValueType} {outline : Outline} (ho : r.outline? outer = some outline)
      (h : HoldsListOf r outline vt) : HoldsListOf r (.nested outer) vt

/-- The elements of every list, at any depth, have at least one component. -/
def Registry.ListsHaveComponents (r : Registry) (outline : Outline) : Prop :=
  ∀ vt element, r.HoldsListOf outline vt → r.outline? vt = some element → element.arity ≠ 0

/-! ### Leaves -/

namespace Cell.Context

variable (ctx : Context)

/-- Each leaf of a value with the given arrangement is read back after it is written, and so is each
default that stands for an absent field. -/
inductive LeavesReadBack : Outline → Value → Prop
  | leaf {vt : ValueType} {v : Value}
      (h : ∀ cs, ctx.writeLeaf vt v = .ok cs → ctx.readLeaf vt cs = .ok v) :
      LeavesReadBack (.leaf vt) v
  | composite {shape : CompositeShape} {components : List Scalar}
      (h : ∀ s ∈ components, readScalar shape.componentKind (Text.trim s.text.toList) = .ok s) :
      LeavesReadBack (.composite shape) (.composite components)
  | nested {vt : ValueType} {items : List Value}
      (h : ∀ outline, ctx.registry.outline? vt = some outline →
        ∀ v ∈ items, LeavesReadBack outline v) :
      LeavesReadBack (.nested vt) (.list items)
  | struct {name : String} {fields : List (String × Outline)} {values : List (String × Value)}
      (h : ∀ f ∈ fields,
        LeavesReadBack f.2 ((Value.field? values f.1).getD (ctx.absentField f.2))) :
      LeavesReadBack (.struct name fields) (.struct values)
  | noStruct {name : String} {fields : List (String × Outline)} :
      LeavesReadBack (.struct name fields) .noStruct

end Cell.Context

end RecordTables
