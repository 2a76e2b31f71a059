import RecordTables.Container.Error
import RecordTables.Exchange.Basic
import RecordTables.Execution
import RecordTables.Reconcile.Plan
import RecordTables.Schema.Error

/-!
# Faults in exchange

A fault is told by its kind and its wording.  Faults of files are told by their kind alone, and
those that show a value by what was expected or by a reason.
-/

namespace RecordTables

/-- A fault of a schema. -/
def Schema.SchemaError.toJson (e : Schema.SchemaError) : Json :=
  let kind := match e with
    | .unsupportedType .. => "UnsupportedType"
    | .duplicateField .. => "DuplicateField"
    | .circularReference .. => "CircularReference"
    | .circularInheritance .. => "CircularInheritance"
    | .unknownType .. => "UnknownType"
    | .duplicateType .. => "DuplicateType"
    | .invalidEnum .. => "InvalidEnum"
    | .invalidIdentifier .. => "InvalidIdentifier"
  .fault kind e.message

/-- The faults of a schema. -/
def Json.ofSchemaErrors (es : List Schema.SchemaError) : Json :=
  .faults "Schema" (es.map (·.toJson))

/-- A fault of generated artifacts. -/
def CompatibilityError.toJson (e : CompatibilityError) : Json :=
  let kind := match e with
    | missing _ => "Missing"
    | codeMismatch .. => "CodeMismatch"
    | dataMismatch .. => "DataMismatch"
  .fault kind e.message

/-- A numeral that is no number. -/
def Number.NumeralFault.toJson (e : Number.NumeralFault) : Json :=
  .faultKind (match e with
    | empty => "Empty"
    | invalidDigit => "InvalidDigit"
    | tooLarge => "PosOverflow"
    | tooSmall => "NegOverflow")

/-- A fault of a cell. -/
def CellError.toJson (e : CellError) : Json :=
  match e with
  | mismatch expected => .object [("error", .text "TypeMismatch"), ("expected", .text expected)]
  | unrepresentable loss =>
    .object [("error", .text "Unrepresentable"), ("reason", .text loss.reason)]
  | blankIdentifier => .fault "BlankIdentifier" e.message
  | invalidScalar .. => .fault "InvalidScalar" e.message
  | unknownMember .. => .fault "UnknownEnumMember" e.message
  | arity .. => .fault "Arity" e.message
  | unresolvedReference .. => .fault "UnresolvedReference" e.message
  | unknownGuid .. => .fault "UnknownGuid" e.message
  | invalidDuration _ => .fault "InvalidDuration" e.message
  | invalidDateTime _ => .fault "InvalidDateTime" e.message
  | unbalanced _ => .fault "Unbalanced" e.message
  | unknownType _ => .fault "UnknownType" e.message

/-- A cell that cannot be read. -/
def CellFault.toJson (f : CellFault) : Json :=
  .object [("line", .nat f.line), ("property", .text f.property), ("source", f.fault.toJson)]

/-- A fault of a store. -/
def StoreError.toJson (e : StoreError) : Json :=
  match e with
  | io => .faultKind "Io"
  | malformed => .faultKind "Malformed"
  | notFound .. => .fault "NotFound" e.message
  | nameTaken .. => .fault "NameTaken" e.message
  | unsafeIdentifier _ => .fault "UnsafeIdentifier" e.message

/-- A fault of an execution. -/
def ExecuteError.toJson (e : ExecuteError) : Json :=
  match e with
  | decode cells => .object [("error", .text "Decode"), ("message", .text e.message),
      ("cells", .array (cells.map CellFault.toJson))]
  | unknownType _ => .fault "UnknownType" e.message
  | missingRecord _ => .fault "MissingRecord" e.message
  | missingRow _ => .fault "MissingRow" e.message
  | store fault => fault.toJson

/-- A fault of a reconciliation. -/
def ReconcileError.toJson (e : ReconcileError) : Json :=
  let kind := match e with
    | blankIdentifier _ => "BlankIdentifier"
    | duplicateIdentifier .. => "DuplicateIdentifier"
    | unknownGuid .. => "UnknownGuidReference"
    | guidConflict .. => "GuidConflict"
    | cancelled _ => "Cancelled"
  .fault kind e.message

/-- The faults of a reconciliation. -/
def Json.ofReconcileErrors (es : List ReconcileError) : Json :=
  .faults "Reconcile" (es.map ReconcileError.toJson)

/-- The part of a text in front of the first occurrence of another; all of it if there is none. -/
def Text.before (mark : List Char) : List Char → List Char
  | [] => []
  | c :: rest => if mark.isPrefixOf (c :: rest) then [] else c :: Text.before mark rest

/-- A fault of a container.  A value that does not fit is told by what was expected. -/
def ContainerError.toJson (e : ContainerError) : Json :=
  match e with
  | unreadable => .faultKind "Decode"
  | magic _ => .fault "InvalidMagic" e.message
  | version _ => .fault "UnsupportedVersion" e.message
  | incompatible fault => fault.toJson
  | unknownTable _ => .fault "UnknownTable" e.message
  | rowRange .. => .fault "RowOutOfRange" e.message
  | unknownProperty .. => .fault "UnknownProperty" e.message
  | dangling .. => .fault "DanglingReference" e.message
  | mismatch .. => .fault "TypeMismatch"
      (String.ofList (Text.before ", got ".toList e.message.toList))
  | corrupt _ => .fault "Corrupt" e.message

end RecordTables
