import RecordTables.Guid
import RecordTables.NameMap

/-!
# Pending regeneration

Between a change of records and the next generation of data a project is up to date, has a set of
changed records, or needs everything generated anew.  Two pending states merge into one: changes are
joined, and where they disagree about a record everything is needed.
-/

namespace RecordTables

/-- How a record changed. -/
inductive ChangeKind where
  | created
  | updated
  | renamed (old : String)
  deriving DecidableEq, Repr

/-- The changed records of each type, by GUID. -/
structure ChangeSet where
  byType : NameMap (NameMap ChangeKind)
  /-- A type is there only with changed records. -/
  isFilled : ∀ t ∈ byType.entries, t.2.entries ≠ []
  deriving DecidableEq

namespace ChangeSet

/-- No changes. -/
def empty : ChangeSet := ⟨.empty, fun _ h => nomatch h⟩

/-- How a record changed. -/
def find? (s : ChangeSet) (recordType : String) (guid : Guid) : Option ChangeKind :=
  (s.byType.find? recordType).bind (fun m => m.find? guid.text)

/-- Puts a change in, in place of one of the same record. -/
def put (s : ChangeSet) (recordType : String) (guid : Guid) (kind : ChangeKind) : ChangeSet where
  byType := s.byType.insert recordType
    (((s.byType.find? recordType).getD .empty).insert guid.text kind)
  isFilled := by
    intro t ht
    rcases NameMap.mem_insertEntry ht with rfl | ht
    · exact NameMap.insertEntry_ne_nil _ _ _
    · exact s.isFilled t ht

/-- Adds a change; `none` if the record is there with another kind of change. -/
def record? (s : ChangeSet) (recordType : String) (guid : Guid) (kind : ChangeKind) :
    Option ChangeSet :=
  match s.find? recordType guid with
  | some existing => if existing = kind then some s else none
  | none => some (s.put recordType guid kind)

/-- The changes with type and GUID, in the order of both. -/
def toList (s : ChangeSet) : List (String × Guid × ChangeKind) :=
  s.byType.entries.flatMap fun t => t.2.entries.map fun e => (t.1, ⟨e.1⟩, e.2)

/-- The number of changed records. -/
def size (s : ChangeSet) : Nat := s.toList.length

/-- Whether no record changed. -/
def isEmpty (s : ChangeSet) : Bool := s.toList.isEmpty

/-- The types of the changed records, in order. -/
def recordTypes (s : ChangeSet) : List String := s.byType.names

/-- The changes of both sets; `none` if they disagree about a record. -/
def union? (s other : ChangeSet) : Option ChangeSet :=
  other.toList.foldlM (fun s change => s.record? change.1 change.2.1 change.2.2) s

end ChangeSet

/-- What has to be generated before the data can be trusted again. -/
inductive RegenState where
  | upToDate
  | incremental (changes : ChangeSet)
  | full
  deriving DecidableEq

namespace RegenState

/-- The state of some changes; without any, nothing has to be generated. -/
def ofChanges (changes : ChangeSet) : RegenState :=
  if changes.isEmpty then upToDate else incremental changes

/-- The state of two pending states together. -/
def merge : RegenState → RegenState → RegenState
  | full, _ | _, full => full
  | upToDate, s | s, upToDate => s
  | incremental a, incremental b =>
    match a.union? b with
    | some changes => ofChanges changes
    | none => full

/-- Whether nothing has to be generated. -/
def isUpToDate (s : RegenState) : Bool := s == upToDate

/-- Whether everything has to be generated. -/
def isFull (s : RegenState) : Bool := s == full

end RegenState

end RecordTables
