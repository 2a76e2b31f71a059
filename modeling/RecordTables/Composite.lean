import RecordTables.Scalar.Basic

/-!
# Multi-component shapes

Vectors and colors are made of a fixed number of components of one scalar kind.  The order of the
components is part of the stored format: component `k` always lives in field or vector `k`.
-/

namespace RecordTables

/-- The known multi-component shapes. -/
inductive CompositeShape where
  | vector2
  | vector3
  | vector2Int
  | vector3Int
  | color
  deriving DecidableEq, Repr, Inhabited

namespace CompositeShape

/-- Every shape, in the order of declaration. -/
def all : List CompositeShape := [vector2, vector3, vector2Int, vector3Int, color]

/-- The name of a shape in a declaration. -/
def tag : CompositeShape → String
  | vector2 => "Vector2"
  | vector3 => "Vector3"
  | vector2Int => "Vector2Int"
  | vector3Int => "Vector3Int"
  | color => "Color"

/-- The shape that a declared type tag names. -/
def ofTag? : String → Option CompositeShape
  | "Vector2" => some vector2
  | "Vector3" => some vector3
  | "Vector2Int" => some vector2Int
  | "Vector3Int" => some vector3Int
  | "Color" => some color
  | _ => none

/-- The names of the components, in their order. -/
def components : CompositeShape → List String
  | vector2 | vector2Int => ["x", "y"]
  | vector3 | vector3Int => ["x", "y", "z"]
  | color => ["r", "g", "b", "a"]

/-- The number of components. -/
def arity (shape : CompositeShape) : Nat := shape.components.length

/-- The kind of every component. -/
def componentKind : CompositeShape → ScalarKind
  | vector2Int | vector3Int => .i32
  | vector2 | vector3 | color => .f32

/-- The zero vector, or opaque black. -/
def defaultComponents : CompositeShape → List Scalar
  | color => [.f32 .zero, .f32 .zero, .f32 .zero, .f32 .one]
  | shape => List.replicate shape.arity (.zero shape.componentKind)

@[simp] theorem ofTag?_tag (shape : CompositeShape) : ofTag? shape.tag = some shape := by
  cases shape <;> rfl

@[simp] theorem length_defaultComponents (shape : CompositeShape) :
    shape.defaultComponents.length = shape.arity := by
  cases shape <;> rfl

end CompositeShape

end RecordTables
