import RecordTables.Cell.Basic
import RecordTables.NameMap
import RecordTables.Value

/-!
# Records

A record has an identity, an identifier by which people know it, a directory in which it is kept,
and a value for each of its properties.  It remembers the hash of the row from which it was last
made.

A `RecordSet` holds the records of one type in slots.  A record keeps its slot and its key for as
long as it is in the set; a new record takes the slot that was vacated last, or a new one at the
end.  Keys are never given again.  Where two records share a GUID or an identifier, a look-up finds
the one in the later slot.

A `Catalog` holds the record sets of all types, in the order of the types' names, and answers for
the references between their records.
-/

namespace RecordTables

/-- A record. -/
structure Record where
  guid : Guid
  identifier : String
  /-- Where it is kept, relative to the root of its store. -/
  directory : String
  /-- The hash of the cells of the row from which it was made. -/
  contentHash : Option String
  /-- Its values, by the name of the property. -/
  values : NameMap Value
  deriving Inhabited

/-! ## Sets of records -/

/-- The key of a record in a set. -/
structure RecordKey where
  serial : Nat
  deriving DecidableEq, Repr, Inhabited

/-- The records of one type. -/
structure RecordSet where
  recordType : String
  /-- Each slot with its record, or vacated. -/
  slots : List (Option (RecordKey × Record))
  /-- The vacated slots, the last one first. -/
  vacated : List Nat
  /-- The key for the next record. -/
  nextKey : RecordKey
  deriving Inhabited

namespace RecordSet

/-- A set without records. -/
def empty (recordType : String) : RecordSet := ⟨recordType, [], [], ⟨0⟩⟩

/-- The records with their keys, in the order of their slots. -/
def entries (s : RecordSet) : List (RecordKey × Record) := s.slots.filterMap id

/-- The records, in the order of their slots. -/
def records (s : RecordSet) : List Record := s.entries.map (·.2)

/-- The number of records. -/
def size (s : RecordSet) : Nat := s.entries.length

/-- Puts a record into the set, and tells its key. -/
def insert (s : RecordSet) (r : Record) : RecordKey × RecordSet :=
  let key := s.nextKey
  let next : RecordKey := ⟨key.serial + 1⟩
  match s.vacated with
  | slot :: rest =>
    (key, { s with slots := s.slots.set slot (some (key, r)), vacated := rest, nextKey := next })
  | [] => (key, { s with slots := s.slots ++ [some (key, r)], nextKey := next })

/-- The set of the records of a list, put in in order. -/
def ofList (recordType : String) (records : List Record) : RecordSet :=
  records.foldl (fun s r => (s.insert r).2) (empty recordType)

/-- The slot of a key. -/
def slot? (s : RecordSet) (key : RecordKey) : Option Nat :=
  s.slots.findIdx? (fun slot => slot.any (fun e => e.1 == key))

/-- The record of a key. -/
def get? (s : RecordSet) (key : RecordKey) : Option Record :=
  (s.entries.find? (fun e => e.1 == key)).map (·.2)

/-- Takes a record out of the set, and tells it. -/
def remove (s : RecordSet) (key : RecordKey) : Option Record × RecordSet :=
  match s.slot? key with
  | none => (none, s)
  | some slot =>
    (s.get? key, { s with slots := s.slots.set slot none, vacated := slot :: s.vacated })

/-- Changes the record of a key. -/
def modify (s : RecordSet) (key : RecordKey) (change : Record → Record) : RecordSet :=
  { s with slots := s.slots.map fun slot =>
      slot.map fun e => if e.1 = key then (e.1, change e.2) else e }

/-- The key of the last record that satisfies a condition. -/
def findKey? (s : RecordSet) (p : Record → Bool) : Option RecordKey :=
  (s.entries.reverse.find? (fun e => p e.2)).map (·.1)

/-- The key of the record with a GUID. -/
def keyOfGuid? (s : RecordSet) (guid : Guid) : Option RecordKey :=
  s.findKey? (fun r => r.guid == guid)

/-- The key of the record with an identifier. -/
def keyOfIdentifier? (s : RecordSet) (identifier : String) : Option RecordKey :=
  s.findKey? (fun r => r.identifier == identifier)

/-- The record with a GUID. -/
def ofGuid? (s : RecordSet) (guid : Guid) : Option Record :=
  s.records.reverse.find? (fun r => r.guid == guid)

/-- The record with an identifier. -/
def ofIdentifier? (s : RecordSet) (identifier : String) : Option Record :=
  s.records.reverse.find? (fun r => r.identifier == identifier)

/-- The records with their keys, in the order of their identifiers, and those of one identifier in
the order of their slots. -/
def byIdentifier (s : RecordSet) : List (RecordKey × Record) :=
  s.entries.mergeSort (fun a b => decide (a.2.identifier ≤ b.2.identifier))

@[simp] theorem entries_empty (recordType : String) : (empty recordType).entries = [] := rfl

end RecordSet

/-! ## Catalogs -/

/-- The record sets of all types. -/
abbrev Catalog := NameMap RecordSet

namespace Catalog

/-- Puts a set in the place of the set of its type. -/
def insertSet (c : Catalog) (s : RecordSet) : Catalog := NameMap.insert c s.recordType s

/-- The set of a type; a type without a set has no records. -/
def setOf (c : Catalog) (recordType : String) : RecordSet :=
  (NameMap.find? c recordType).getD (.empty recordType)

/-- The number of records of all types. -/
def recordCount (c : Catalog) : Nat := (NameMap.values c).foldr (fun set n => set.size + n) 0

/-- References to the records of a catalog. -/
def references (c : Catalog) : References where
  guid? recordType identifier :=
    ((NameMap.find? c recordType).bind (fun s => s.ofIdentifier? identifier)).map (·.guid)
  identifier? recordType guid :=
    ((NameMap.find? c recordType).bind (fun s => s.ofGuid? guid)).map (·.identifier)

end Catalog

end RecordTables
