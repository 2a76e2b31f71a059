import RecordTables.Reconcile.Plan
import RecordTables.Record

/-!
# Matching rows with records

`Matcher.reconcile` finds for every row of a table the record it stands for, and makes a plan.
First the rows are checked as a whole: identifiers are neither blank nor repeated, and every GUID is
that of a record.  Then rows are matched in stages, each with the rows and records that the stages
before left:

1. a row whose GUID and identifier are those of one record; it is updated if the row has changed;
2. a row whose GUID is that of a record, which is renamed;
3. a row whose identifier is that of a record, and then a single row that is left together with a
   single record that is left, which is renamed; the row gets the GUID of its record;
4. the rows that are left get new records;
5. the records that are left are deleted.
-/

namespace RecordTables.Matcher

/-- The state of a matching. -/
structure Pass where
  /-- The numbers of the rows that are not settled, in order. -/
  remaining : List Nat
  /-- The records that rows stand for, each with the number of its row. -/
  claimed : List (RecordKey × Nat)
  /-- The identifiers that a temporary one must differ from. -/
  takenNames : List String
  actions : List PlanAction
  backfilled : List (Nat × Guid)
  errors : List ReconcileError

/-! ### Checking the rows -/

/-- The faults of one row by itself. -/
def rowFaults (records : RecordSet) (row : Row) : List ReconcileError :=
  (if Text.isBlankText row.identifier then [.blankIdentifier row.line] else []) ++
  match row.guid with
  | some guid => if (records.keyOfGuid? guid).isNone then [.unknownGuid row.line guid] else []
  | none => []

/-- The lines of the rows of each identifier that is not blank. -/
def linesByIdentifier (rows : List Row) : NameMap (List Nat) :=
  (rows.filter (fun r => !Text.isBlankText r.identifier)).foldl
    (fun m r => m.insert r.identifier ((m.find? r.identifier).getD [] ++ [r.line])) .empty

/-- The faults of the rows as a whole: those of each row, and then the repeated identifiers. -/
def tableFaults (records : RecordSet) (rows : List Row) : List ReconcileError :=
  rows.flatMap (rowFaults records) ++
  ((linesByIdentifier rows).entries.filter (fun e => 1 < e.2.length)).map
    (fun e => .duplicateIdentifier e.1 e.2)

namespace Pass

/-- All rows are left, and no record is claimed. -/
def start (records : RecordSet) (rows : List Row) : Pass where
  remaining := List.range rows.length
  claimed := []
  takenNames := rows.map (·.identifier) ++ records.records.map (·.identifier)
  actions := []
  backfilled := []
  errors := []

/-- Whether a row stands for the record of a key. -/
def isClaimed (p : Pass) (key : RecordKey) : Bool := p.claimed.any (fun e => e.1 == key)

/-- Settles a row. -/
def settle (p : Pass) (i : Nat) : Pass := { p with remaining := p.remaining.filter (· != i) }

/-- Settles a row as standing for the record of a key. -/
def claim (p : Pass) (i : Nat) (key : RecordKey) : Pass :=
  { p.settle i with claimed := p.claimed ++ [(key, i)] }

/-- Plans an action. -/
def act (p : Pass) (a : PlanAction) : Pass := { p with actions := p.actions ++ [a] }

/-- Gives a row the GUID of its record. -/
def backfill (p : Pass) (i : Nat) (guid : Guid) : Pass :=
  { p with backfilled := p.backfilled ++ [(i, guid)] }

/-! ### Temporary identifiers -/

/-- The temporary identifiers for a name: `name_new`, `name_new2`, `name_new3`, … -/
def temporaryName (name : String) (n : Nat) : String :=
  if n = 0 then name ++ "_new" else name ++ "_new" ++ toString (n + 1)

/-- The first temporary identifier that is not taken.  One more of them than there are taken
identifiers are enough to look at. -/
def freshName (taken : List String) (name : String) : String :=
  (((List.range (taken.length + 1)).map (temporaryName name)).find?
    (fun candidate => !taken.contains candidate)).getD name

/-- The renaming of a record, if its identifier changes; its temporary identifier is taken then. -/
def renameTo (p : Pass) (record : Record) (identifier : String) : Option Rename × Pass :=
  if record.identifier = identifier then (none, p)
  else
    let temporary := freshName p.takenNames identifier
    (some ⟨record.identifier, temporary, identifier⟩,
      { p with takenNames := p.takenNames ++ [temporary] })

/-! ### The stages -/

/-- A row whose GUID and identifier are those of one record. -/
def matchExactly (records : RecordSet) (rows : List Row) (p : Pass) (i : Nat) : Pass :=
  match rows[i]? with
  | some ⟨_, identifier, some guid, hash, _⟩ =>
    match records.keyOfGuid? guid, records.ofGuid? guid with
    | some key, some record =>
      if record.identifier = identifier then
        let p := p.claim i key
        if record.contentHash = some hash then p else p.act (.update guid i none)
      else p
    | _, _ => p
  | _ => p

/-- A row whose GUID is that of a record.  If another row stands for the record, this one is at
fault. -/
def matchGuid (records : RecordSet) (rows : List Row) (p : Pass) (i : Nat) : Pass :=
  match rows[i]? with
  | some ⟨line, identifier, some guid, _, _⟩ =>
    match records.keyOfGuid? guid, records.ofGuid? guid with
    | some key, some record =>
      if p.isClaimed key then
        let p := p.settle i
        { p with errors := p.errors ++ [.guidConflict guid line] }
      else
        let (rename, p) := p.renameTo record identifier
        (p.claim i key).act (.update guid i rename)
    | _, _ => p
  | _ => p

/-- A row whose identifier is that of a record for which no row stands. -/
def matchIdentifier (records : RecordSet) (rows : List Row) (p : Pass) (i : Nat) : Pass :=
  match rows[i]? with
  | some row =>
    match records.keyOfIdentifier? row.identifier, records.ofIdentifier? row.identifier with
    | some key, some record =>
      if p.isClaimed key then p
      else ((p.claim i key).backfill i record.guid).act (.update record.guid i none)
    | _, _ => p
  | none => p

/-- The records for which no row stands, in the order of their identifiers. -/
def unclaimed (records : RecordSet) (p : Pass) : List (RecordKey × Record) :=
  records.byIdentifier.filter (fun e => !p.isClaimed e.1)

/-- A single row that is left, without a GUID, stands for a single record that is left. -/
def matchLeftover (records : RecordSet) (rows : List Row) (p : Pass) : Pass :=
  match p.remaining, p.unclaimed records with
  | [i], [(key, record)] =>
    match rows[i]? with
    | some ⟨_, identifier, none, _, _⟩ =>
      let (rename, p) := p.renameTo record identifier
      ((p.claim i key).backfill i record.guid).act (.update record.guid i rename)
    | _ => p
  | _, _ => p

/-- Runs a stage for every row that is left when it begins. -/
def forRemaining (stage : Pass → Nat → Pass) (p : Pass) : Pass := p.remaining.foldl stage p

/-- The directory of the record that the first claiming row stands for, if it has one. -/
def borrowedDirectory? (records : RecordSet) (p : Pass) : Option String :=
  let first := p.claimed.foldl
    (fun (best : Option (RecordKey × Nat)) e =>
      match best with
      | some b => if e.2 < b.2 then some e else some b
      | none => some e) none
  ((first.bind fun e => records.get? e.1).map (·.directory)).filter (fun d => !d.isEmpty)

/-- Plans a new record for a row. -/
def createFor (directory : String) (state : Pass × GuidSupply) (i : Nat) : Pass × GuidSupply :=
  let (guid, supply) := state.2.take
  ((state.1.settle i).act (.create i guid directory), supply)

/-- Plans new records for the rows that are left. -/
def createAll (directory : String) (supply : GuidSupply) (p : Pass) : Pass × GuidSupply :=
  p.remaining.foldl (createFor directory) (p, supply)

/-- Plans to delete the records for which no row stands. -/
def deleteAll (records : RecordSet) (p : Pass) : Pass :=
  { p with actions := p.actions ++ (p.unclaimed records).map (fun e => .delete e.2.guid) }

end Pass

/-- What steers a matching. -/
structure Settings where
  /-- Where new records are kept if no matched record can lend its directory; without it, in the
  directory of their type. -/
  defaultDirectory : Option String
  /-- Whether the matching is called off when a stage is about to begin. -/
  cancelled : ReconcileStage → Bool

/-- Nothing but the defaults. -/
def Settings.standard : Settings := ⟨none, fun _ => false⟩

/-- Fails if the matching is called off before a stage. -/
def Settings.checkpoint (s : Settings) (stage : ReconcileStage) :
    Except (List ReconcileError) Unit :=
  if s.cancelled stage then .error [.cancelled stage] else .ok ()

open Pass in
/-- Matches rows with records.  GUIDs for new records are taken from the supply. -/
def reconcile (settings : Settings) (supply : GuidSupply) (records : RecordSet)
    (rows : List Row) : Except (List ReconcileError) Plan × GuidSupply :=
  let matched : Except (List ReconcileError) Pass := do
    settings.checkpoint .preValidation
    let faults := tableFaults records rows
    if faults ≠ [] then .error faults
    settings.checkpoint .exactMatch
    let p := forRemaining (matchExactly records rows) (start records rows)
    settings.checkpoint .guidMatch
    let p := forRemaining (matchGuid records rows) p
    settings.checkpoint .identifierMatch
    let p := matchLeftover records rows (forRemaining (matchIdentifier records rows) p)
    settings.checkpoint .create
    return p
  match matched with
  | .error errors => (.error errors, supply)
  | .ok p =>
    let directory := ((p.borrowedDirectory? records).or settings.defaultDirectory).getD
      records.recordType
    let (p, supply) := createAll directory supply p
    match settings.checkpoint .delete with
    | .error errors => (.error errors, supply)
    | .ok () =>
      let deletes := p.unclaimed records
      let p := deleteAll records p
      if p.errors ≠ [] then (.error p.errors, supply)
      else (.ok ⟨records.recordType, p.actions, p.backfilled, !deletes.isEmpty⟩, supply)

end RecordTables.Matcher
