import RecordTables.Record
import RecordTables.Step

/-!
# Record stores

A store keeps the records of all types.  `RecordStore σ` is what every store can do, as steps on its
state `σ`; a step that fails tells why, and what it did to the state before it failed stays done.
-/

namespace RecordTables

/-- Why a store refuses a step. -/
inductive StoreError where
  /-- The file system failed. -/
  | io
  | notFound (recordType : String) (guid : Guid)
  | nameTaken (recordType identifier : String)
  /-- A stored record cannot be read. -/
  | malformed
  /-- The identifier cannot be the name of a file. -/
  | unsafeIdentifier (identifier : String)
  deriving DecidableEq, Repr

/-- The wording of a fault. -/
def StoreError.message : StoreError → String
  | io => "the file system failed"
  | notFound recordType guid => s!"no {recordType} record with GUID {guid.text}"
  | nameTaken recordType identifier =>
    s!"{recordType} already has a record named '{identifier}'"
  | malformed => "a stored record cannot be read"
  | unsafeIdentifier identifier => s!"'{identifier}' cannot name a record file"

/-- What a store can do. -/
structure RecordStore (σ : Type) where
  /-- The records of a type. -/
  load : (recordType : String) → Step σ StoreError RecordSet
  /-- Adds a record. -/
  create : (recordType : String) → Record → Step σ StoreError Unit
  /-- Overwrites the record with the same GUID, which keeps its identifier. -/
  update : (recordType : String) → Record → Step σ StoreError Unit
  /-- Gives a record another identifier. -/
  rename : (recordType : String) → Guid → (identifier : String) → Step σ StoreError Unit
  /-- Takes a record away. -/
  delete : (recordType : String) → Guid → Step σ StoreError Unit

end RecordTables
