import RecordTables.Composite

/-!
# Resolved properties

A property is resolved once to a `Shape`: the identifier of its record, a single value or a list of
values of a `ValueType`.  Everything that is stored, written or read for a property follows its
shape.
-/

namespace RecordTables

/-! ### Kinds of time values

A time property holds a span of time or an instant.  Both are counted in milliseconds; an instant is
counted from the start of 1970 in universal time.
-/

/-- The kinds of time values. -/
inductive TimeKind where
  /-- A signed span of time. -/
  | duration
  /-- An instant. -/
  | dateTime
  deriving DecidableEq, Repr, Inhabited

namespace TimeKind

/-- The name of a kind in a declaration. -/
def tag : TimeKind → String
  | duration => "TimeSpan"
  | dateTime => "DateTime"

/-- The kind that a declared type tag names. -/
def ofTag? : String → Option TimeKind
  | "TimeSpan" => some duration
  | "DateTime" => some dateTime
  | _ => none

/-- The name of a kind in the storage of a record and in a code generation plan. -/
def name : TimeKind → String
  | duration => "Duration"
  | dateTime => "DateTime"

end TimeKind

namespace Schema

/-! ### Properties -/

/-- The category of one value that is not a list. -/
inductive ValueType where
  | string
  | localizedText
  /-- A member of the enum of this name. -/
  | enum (name : String)
  | scalar (kind : ScalarKind)
  | time (kind : TimeKind)
  /-- A reference to a record of this type. -/
  | recordRef (target : String)
  /-- A sub-structure of this type, stored in its owner. -/
  | embedded (target : String)
  | composite (shape : CompositeShape)
  /-- The key of an external asset. -/
  | asset
  deriving DecidableEq, Repr, Inhabited

namespace ValueType

/-- The type of a value in the storage of a record. -/
def hostType : ValueType → String
  | string => "String"
  | localizedText => "LocalizedText"
  | enum name => name
  | scalar kind => kind.widthName
  | time kind => kind.name
  | recordRef target => s!"Option<Ref<{target}>>"
  | embedded target => s!"Option<{target}>"
  | composite shape => shape.tag
  | asset => "Option<AssetRef>"

/-- The type of an element of a list in the storage of a record: lists hold no absent elements. -/
def elementHostType : ValueType → String
  | recordRef target => s!"Ref<{target}>"
  | embedded target => target
  | asset => "AssetRef"
  | vt => vt.hostType

/-- Whether a value may be absent. -/
def isReference : ValueType → Bool
  | recordRef _ | embedded _ | asset => true
  | _ => false

/-- Whether one value takes a tuple of components, or stands between bars in a list. -/
def isTuple : ValueType → Bool
  | recordRef _ | embedded _ | composite _ => true
  | _ => false

end ValueType

/-- What a property holds. -/
inductive Shape where
  /-- The record's own identifier, which is no stored value. -/
  | identifier
  | single (element : ValueType)
  | list (element : ValueType)
  deriving DecidableEq, Repr, Inhabited

namespace Shape

/-- The category of the value or of the elements; the identifier has none. -/
def element? : Shape → Option ValueType
  | identifier => none
  | single vt | list vt => some vt

/-- Whether the shape is a list. -/
def isList : Shape → Bool
  | list _ => true
  | _ => false

end Shape

/-- A resolved property. -/
structure Property where
  name : String
  shape : Shape
  deriving DecidableEq, Repr, Inhabited

namespace Property

/-- Whether the property is the identifier of its record. -/
def isIdentifier (p : Property) : Bool := p.shape == .identifier

/-- The type of the property in the storage of a record. -/
def hostType (p : Property) : String :=
  match p.shape with
  | .identifier => "String"
  | .single vt => vt.hostType
  | .list vt => s!"Vec<{vt.elementHostType}>"

end Property

end Schema

end RecordTables
