import RecordTables.Record
import RecordTables.Store.Basic

/-!
# Stores in memory

The state of a store in memory is a catalog.  It is used to try out a plan before any file is
touched.
-/

namespace RecordTables.MemoryStore

open Catalog

/-- Does something with the set of a type and the key of a record in it. -/
def withRecord (recordType : String) (guid : Guid)
    (act : RecordSet → RecordKey → Except StoreError RecordSet) :
    Step Catalog StoreError Unit := do
  let set := (← get).setOf recordType
  match set.keyOfGuid? guid with
  | none => throw (.notFound recordType guid)
  | some key =>
    match act set key with
    | .error e => throw e
    | .ok changed => modify fun c => NameMap.insert c recordType changed

/-- Adds a record, unless another one has its identifier. -/
def create (recordType : String) (record : Record) : Step Catalog StoreError Unit := do
  let set := (← get).setOf recordType
  if (set.keyOfIdentifier? record.identifier).isSome then
    throw (.nameTaken recordType record.identifier)
  modify fun c => NameMap.insert c recordType (set.insert record).2

/-- Overwrites a record and keeps its identifier. -/
def update (recordType : String) (record : Record) : Step Catalog StoreError Unit :=
  withRecord recordType record.guid fun set key =>
    .ok (set.modify key fun old => { record with identifier := old.identifier })

/-- Gives a record another identifier, unless another one has it. -/
def rename (recordType : String) (guid : Guid) (identifier : String) :
    Step Catalog StoreError Unit :=
  withRecord recordType guid fun set key =>
    match set.keyOfIdentifier? identifier with
    | some other =>
      if other = key then .ok (set.modify key fun old => { old with identifier := identifier })
      else .error (.nameTaken recordType identifier)
    | none => .ok (set.modify key fun old => { old with identifier := identifier })

/-- Takes a record away. -/
def delete (recordType : String) (guid : Guid) : Step Catalog StoreError Unit :=
  withRecord recordType guid fun set key => .ok (set.remove key).2

/-- The store in memory. -/
def store : RecordStore Catalog where
  load recordType := do return (← get).setOf recordType
  create := create
  update := update
  rename := rename
  delete := delete

end RecordTables.MemoryStore
