import RecordTables.Guid

/-!
# References and faults of cells

A cell names another record by its identifier, and a value holds its GUID.  `References` goes from
the one to the other, for each record type.

`CellError` is why a cell cannot be read, or a value cannot be written as a cell.
`CellError.message` is the wording of the faults of reading and of the references and texts on
writing; the faults that show a value (`mismatch`, `unrepresentable`) are told by what was expected
or by their reason.
-/

namespace RecordTables

/-! ### References -/

/-- Which record of a type has an identifier, and which identifier has a record. -/
structure References where
  guid? : (recordType identifier : String) → Option Guid
  identifier? : (recordType : String) → (guid : Guid) → Option String

/-- There are no records to refer to. -/
def References.none : References := ⟨fun _ _ => .none, fun _ _ => .none⟩

/-- A record that references may name: its type, its identifier and its GUID. -/
structure ReferenceEntry where
  recordType : String
  identifier : String
  guid : Guid
  deriving DecidableEq, Repr, Inhabited

/-- References to the records of a list.  The last entry counts, for its identifier and for its
GUID. -/
def References.ofEntries (entries : List ReferenceEntry) : References where
  guid? recordType identifier :=
    (entries.reverse.find? (fun e => e.recordType == recordType && e.identifier == identifier)).map
      (·.guid)
  identifier? recordType guid :=
    (entries.reverse.find? (fun e => e.recordType == recordType && e.guid == guid)).map
      (·.identifier)

/-! ### Faults -/

/-- Why a value has no cell that reads back as it. -/
inductive CellLoss where
  | blankStruct
  | blankList
  | blankNestedList
  | nullStruct
  | assetKey
  | reservedCharacter
  deriving DecidableEq, Repr

/-- The wording of a loss. -/
def CellLoss.reason : CellLoss → String
  | blankStruct => "a blank struct cell reads back as null"
  | blankList => "a blank list cell reads back as empty"
  | blankNestedList => "a blank nested list reads back as empty"
  | nullStruct => "a null struct inside a list or struct reads back as its defaults"
  | assetKey => "asset keys are trimmed and non-blank"
  | reservedCharacter => "text contains a reserved separator"

/-- What is wrong with a cell or with a value to be written as one. -/
inductive CellError where
  | blankIdentifier
  | invalidScalar (kind text : String)
  | unknownMember (enumName member : String)
  | arity (expected found : Nat) (text : String)
  | unresolvedReference (recordType identifier : String)
  | unknownGuid (recordType : String) (guid : Guid)
  | invalidDuration (text : String)
  | invalidDateTime (text : String)
  | unbalanced (text : String)
  | unknownType (name : String)
  /-- The value is none of the property's. -/
  | mismatch (expected : String)
  /-- The value would not read back. -/
  | unrepresentable (loss : CellLoss)
  deriving DecidableEq, Repr

/-- The wording of a fault. -/
def CellError.message : CellError → String
  | blankIdentifier => "identifier must not be blank"
  | invalidScalar kind text => s!"'{text}' is not a valid {kind}"
  | unknownMember enumName member => s!"'{member}' is not a member of enum {enumName}"
  | arity expected found text => s!"expected {expected} components, found {found} in '{text}'"
  | unresolvedReference recordType identifier =>
    s!"no {recordType} record with identifier '{identifier}'"
  | unknownGuid recordType guid => s!"no {recordType} record with GUID {guid.text}"
  | invalidDuration text => s!"invalid duration '{text}', expected [-][d.]hh:mm:ss[.fff]"
  | invalidDateTime text => s!"invalid date-time '{text}'"
  | unbalanced text => s!"unbalanced brackets in '{text}'"
  | unknownType name => s!"unknown type '{name}'"
  | mismatch expected => s!"value does not fit property type {expected}"
  | unrepresentable loss => loss.reason

end RecordTables
