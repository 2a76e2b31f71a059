import RecordTables.Cell.Basic
import RecordTables.Guid
import RecordTables.Regen
import RecordTables.Row

/-!
# Reconciliation plans

A plan says how the records of one type are brought in line with the rows of their table: records
are updated from rows, created for rows, or deleted.  A record that takes another identifier is
renamed in two steps, by way of a temporary one, so that records can exchange their identifiers.
-/

namespace RecordTables

/-! ## Faults -/

/-- The stages of a reconciliation. -/
inductive ReconcileStage where
  | preValidation
  | exactMatch
  | guidMatch
  | identifierMatch
  | create
  | delete
  deriving DecidableEq, Repr

/-- The name of a stage. -/
def ReconcileStage.name : ReconcileStage → String
  | preValidation => "pre-validation"
  | exactMatch => "exact match"
  | guidMatch => "GUID match"
  | identifierMatch => "identifier match"
  | create => "create"
  | delete => "delete"

/-- Why rows cannot be reconciled with records. -/
inductive ReconcileError where
  | blankIdentifier (line : Nat)
  | duplicateIdentifier (identifier : String) (lines : List Nat)
  | unknownGuid (line : Nat) (guid : Guid)
  /-- Several rows have the GUID of one record. -/
  | guidConflict (guid : Guid) (line : Nat)
  | cancelled (stage : ReconcileStage)
  deriving DecidableEq, Repr

/-- The wording of a fault. -/
def ReconcileError.message : ReconcileError → String
  | blankIdentifier line => s!"line {line}: identifier is blank"
  | duplicateIdentifier identifier lines =>
    s!"identifier '{identifier}' appears on more than one row (lines [" ++
      ", ".intercalate (lines.map toString) ++ "])"
  | unknownGuid line guid => s!"line {line}: unknown GUID {guid.text}"
  | guidConflict guid line =>
    s!"line {line}: multiple rows claim GUID {guid.text} " ++
      "but the current record doesn't disambiguate them"
  | cancelled stage => s!"reconciliation cancelled before {stage.name}"

/-! ## Plans -/

/-- A renaming in two steps: to the temporary identifier before anything else is done, and to the
new one after everything else. -/
structure Rename where
  old : String
  temporary : String
  new : String
  deriving DecidableEq, Repr

/-- One thing to do.  Rows are told by their number. -/
inductive PlanAction where
  | update (guid : Guid) (row : Nat) (rename : Option Rename)
  | create (row : Nat) (guid : Guid) (directory : String)
  | delete (guid : Guid)
  deriving DecidableEq, Repr

/-- A plan for the records of one type. -/
structure Plan where
  recordType : String
  actions : List PlanAction
  /-- The rows without a GUID that got one from the record they matched. -/
  backfilled : List (Nat × Guid)
  /-- Whether the data have to be generated anew as a whole. -/
  forceFull : Bool
  deriving DecidableEq, Repr

namespace PlanAction

/-- The row of an action that has one. -/
def row? : PlanAction → Option Nat
  | update _ row _ | create row _ _ => some row
  | delete _ => none

/-- Whether the action updates a record. -/
def isUpdate : PlanAction → Bool
  | update .. => true
  | _ => false

/-- Whether the action creates a record. -/
def isCreate : PlanAction → Bool
  | create .. => true
  | _ => false

/-- Whether the action deletes a record. -/
def isDelete : PlanAction → Bool
  | delete _ => true
  | _ => false

/-- The renaming that is part of an action. -/
def rename? : PlanAction → Option Rename
  | update _ _ rename => rename
  | _ => none

end PlanAction

namespace Plan

/-- A plan to do nothing. -/
def empty (recordType : String) : Plan := ⟨recordType, [], [], false⟩

/-- The renamings, in the order of their actions. -/
def renames (p : Plan) : List Rename := p.actions.filterMap (·.rename?)

/-- Sets the element at a position, if there is one. -/
def setAt (l : List (Option Guid)) (e : Nat × Guid) : List (Option Guid) := l.set e.1 (some e.2)

/-- The rows that get new records, with their GUIDs. -/
def created (p : Plan) : List (Nat × Guid) :=
  p.actions.filterMap fun
    | .create row guid _ => some (row, guid)
    | _ => none

/-- The GUID of each row once the plan is carried out: its own, that of the record it matched, or
that of the record created for it. -/
def rowGuids (p : Plan) (rows : List Row) : List (Option Guid) :=
  (p.backfilled ++ p.created).foldl setAt (rows.map (·.guid))

/-- The change that an action makes to a record that stays. -/
def change? : PlanAction → Option (Guid × ChangeKind)
  | .update guid _ (some rename) => some (guid, .renamed rename.old)
  | .update guid _ none => some (guid, .updated)
  | .create _ guid _ => some (guid, .created)
  | .delete _ => none

/-- The changes that actions make; `none` if a record is deleted or changed in two ways. -/
def changes? (recordType : String) (actions : List PlanAction) : Option ChangeSet :=
  actions.foldlM (fun s a => (change? a).bind fun c => s.record? recordType c.1 c.2) .empty

/-- What the plan means for the data. -/
def regenState (p : Plan) : RegenState :=
  if p.forceFull then .full
  else
    match changes? p.recordType p.actions with
    | some changes => .ofChanges changes
    | none => .full

/-- The rows that have a GUID, as records that references may name. -/
def referenceEntries (p : Plan) (rows : List Row) : List ReferenceEntry :=
  (rows.zip (p.rowGuids rows)).filterMap fun (row, guid) =>
    guid.map fun guid => ⟨p.recordType, row.identifier, guid⟩

end Plan

end RecordTables
