import RecordTables.Exchange.Value
import RecordTables.Execution
import RecordTables.Reconcile.Plan

/-!
# Plans and reports in exchange
-/

namespace RecordTables

/-- A renaming, by its three identifiers. -/
def Rename.toJson (r : Rename) : Json := .texts [r.old, r.temporary, r.new]

/-- Reads a renaming. -/
def Rename.ofJson? : Json → Option Rename
  | .array [.text old, .text temporary, .text new] => some ⟨old, temporary, new⟩
  | _ => none

/-- An action. -/
def PlanAction.toJson : PlanAction → Json
  | update guid row rename => .object [("do", .text "update"), ("guid", guid.toJson),
      ("row", .nat row), ("rename", .orNull Rename.toJson rename)]
  | create row guid directory => .object [("do", .text "create"), ("row", .nat row),
      ("guid", guid.toJson), ("dir", .text directory)]
  | delete guid => .object [("do", .text "delete"), ("guid", guid.toJson)]

/-- Reads an action. -/
def PlanAction.ofJson? (v : Json) : Option PlanAction := do
  match ← v.field? "do" Json.text? with
  | "update" =>
    return .update (← v.field? "guid" Guid.ofJson?) (← v.field? "row" Json.nat?)
      (← v.optional? "rename" Rename.ofJson?)
  | "create" =>
    return .create (← v.field? "row" Json.nat?) (← v.field? "guid" Guid.ofJson?)
      (← v.field? "dir" Json.text?)
  | "delete" => return .delete (← v.field? "guid" Guid.ofJson?)
  | _ => none

/-- A plan, with the numbers of its updates, creations, deletions and renamings. -/
def Plan.toJson (p : Plan) : Json :=
  .object [("type", .text p.recordType), ("actions", .array (p.actions.map PlanAction.toJson)),
    ("backfilled", .array (p.backfilled.map fun e => .array [.nat e.1, e.2.toJson])),
    ("force_full", .bool p.forceFull),
    ("counts", .array ([p.actions.countP (·.isUpdate), p.actions.countP (·.isCreate),
      p.actions.countP (·.isDelete), p.renames.length].map .nat)),
    ("empty", .bool p.actions.isEmpty)]

/-- Reads a plan. -/
def Plan.ofJson? (v : Json) : Option Plan := do
  let backfilled? : Json → Option (Nat × Guid)
    | .array [row, .text guid] => row.nat?.map fun row => (row, ⟨guid⟩)
    | _ => none
  return ⟨← v.field? "type" Json.text?, ← v.fieldOr? "actions" (Json.listOf? PlanAction.ofJson?) [],
    ← v.fieldOr? "backfilled" (Json.listOf? backfilled?) [],
    ← v.fieldOr? "force_full" Json.flag? false⟩

/-- A plan and the GUID of each of its rows. -/
def Plan.partsToJson (p : Plan) (rows : List Row) : List (String × Json) :=
  [("plan", p.toJson), ("row_guids", .array ((p.rowGuids rows).map (.orNull Guid.toJson)))]

/-- How a record changed. -/
def ChangeKind.toJson : ChangeKind → Json
  | created => .text "Created"
  | updated => .text "Updated"
  | renamed old => .object [("Renamed", .object [("from", .text old)])]

/-- Reads how a record changed. -/
def ChangeKind.ofJson? : Json → Option ChangeKind
  | .text "Created" => some created
  | .text "Updated" => some updated
  | .object [("Renamed", .object [("from", .text old)])] => some (renamed old)
  | _ => none

/-- A change of a record, by its type, its GUID and its kind. -/
def Json.ofChange (c : String × Guid × ChangeKind) : Json :=
  .array [.text c.1, c.2.1.toJson, c.2.2.toJson]

/-- Reads a change of a record. -/
def Json.change? : Json → Option (String × Guid × ChangeKind)
  | .array [.text recordType, .text guid, kind] =>
    (ChangeKind.ofJson? kind).map fun kind => (recordType, ⟨guid⟩, kind)
  | _ => none

/-- What has to be generated. -/
def RegenState.toJson : RegenState → Json
  | upToDate => .text "UpToDate"
  | full => .text "NeedsFull"
  | incremental changes => .array (changes.toList.map Json.ofChange)

/-- What a plan did. -/
def ExecutionReport.toJson (r : ExecutionReport) : Json :=
  .object [("type", .text r.recordType), ("updated", .nat r.updated), ("created", .nat r.created),
    ("deleted", .nat r.deleted), ("renamed", .nat r.renamed), ("regen", r.regen.toJson)]

end RecordTables
