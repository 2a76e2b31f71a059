/-!
# Faults of a schema

Every `SchemaError` makes a declared schema unusable.  `SchemaError.message` is its wording.
-/

namespace RecordTables.Schema

/-- Why a declared schema cannot be used. -/
inductive SchemaError where
  /-- No rule accepts the declared type of a property. -/
  | unsupportedType (owner property typeName : String)
  /-- A table has a field of this name already. -/
  | duplicateField (table field : String)
  /-- Sub-structures hold each other without a list between them. -/
  | circularReference (path : List String)
  /-- A type takes over its own properties. -/
  | circularInheritance (path : List String)
  /-- A parent of a type is not declared as a type. -/
  | unknownType (owner name : String)
  /-- The name of a declaration is taken. -/
  | duplicateType (name : String)
  /-- An enum cannot be stored. -/
  | invalidEnum (name reason : String)
  /-- The identifier of a record type is not a single string. -/
  | invalidIdentifier (owner property typeName : String)
  deriving DecidableEq, Repr

/-- The wording of a fault. -/
def SchemaError.message : SchemaError → String
  | unsupportedType owner property typeName =>
    s!"unsupported type '{typeName}' for property '{owner}.{property}'"
  | duplicateField table field => s!"duplicate field '{field}' in table '{table}'"
  | circularReference path =>
    "circular reference between embeddable types: " ++ " -> ".intercalate path
  | circularInheritance path => "circular inheritance: " ++ " -> ".intercalate path
  | unknownType owner name => s!"type '{owner}' extends unknown type '{name}'"
  | duplicateType name => s!"duplicate type name '{name}'"
  | invalidEnum name reason => s!"invalid enum '{name}': {reason}"
  | invalidIdentifier owner property typeName =>
    s!"identifier '{owner}.{property}' must be a single string, found '{typeName}'"

end RecordTables.Schema
