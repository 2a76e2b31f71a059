import RecordTables.Project.Generation
import RecordTables.Reconcile.Matcher
import RecordTables.Sheet.Export
import RecordTables.Store.Memory

/-!
# Synchronizing tables and records

The records of every type are brought in line with the type's table, and the tables get the GUIDs
and the hashes of their rows.  A type without a table gets one made from its records.  Everything
that can be checked is checked before the first file is written, also whether the records as they
will be make a container.  Data is generated again if records changed, or if it is not that of the
schema.
-/

namespace RecordTables

/-- What a synchronization did. -/
structure SyncReport where
  /-- What was done for each table. -/
  tables : List ExecutionReport
  /-- The types that had no table and got one. -/
  exported : List String
  regen : RegenState
  /-- The data generated, if any was. -/
  data : Option Emission

namespace SyncReport

/-- Whether no record and no table changed. -/
def isNoop (r : SyncReport) : Bool :=
  r.exported.isEmpty &&
    r.tables.all fun t => t.updated + t.created + t.deleted + t.renamed == 0

/-- How far data has to be generated again. -/
def regenText : RegenState → String
  | .upToDate => "up to date"
  | .incremental changes => s!"{changes.size} record(s) changed"
  | .full => "full rebuild"

/-- A report in words. -/
def text (r : SyncReport) : String :=
  let tables := r.tables.map fun t =>
    s!"{t.recordType}: {t.updated} updated, {t.created} created, {t.deleted} deleted, " ++
      s!"{t.renamed} renamed\n"
  let exported := r.exported.map fun t => s!"{t}: table exported\n"
  let data := match r.data with
    | some e => s!", written for schema {e.fingerprint.text}"
    | none => ""
  String.join (tables ++ exported) ++ "data: " ++ regenText r.regen ++ data

end SyncReport

namespace Project

/-- A table, the records of its type, and what is planned for them. -/
structure TableWork where
  path : Path
  sheet : Sheet
  records : RecordSet

/-! ### Sheets in files -/

/-- Writes a sheet in place of a file, by way of another file beside it. -/
def saveSheet (path : Path) (s : Sheet) : Run Unit := do
  let beside := path.withName (path.stem ++ ".tsv.tmp")
  let fault := ProjectError.sheet .io
  Workspace.onFiles (Step.change fault (·.makeDirectories? path.parent))
  Workspace.onFiles (Step.change fault (·.write? beside (Text.utf8 s.text)))
  Workspace.onFiles (Step.change fault (·.moveFile? beside path))

/-- Reads the sheets of the record sets that have one; the others are told apart. -/
def readSheets (p : Project) (files : FileTree) :
    List RecordSet → Except SheetError (List TableWork × List (Path × RecordSet))
  | [] => .ok ([], [])
  | set :: rest => do
    let path := p.config.tablePath set.recordType
    match files.at? path with
    | some (.file content) =>
      let sheet ← Sheet.ofBytes p.registry set.recordType content
      let (work, absent) ← p.readSheets files rest
      return (⟨path, sheet, set⟩ :: work, absent)
    | _ =>
      let (work, absent) ← p.readSheets files rest
      return (work, (path, set) :: absent)

/-! ### Planning -/

/-- Plans every table.  The faults of all of them are told together. -/
def planAll (supply : GuidSupply) : List TableWork →
    List Plan × List (String × ReconcileError) × GuidSupply
  | [] => ([], [], supply)
  | w :: rest =>
    let (outcome, supply) := Matcher.reconcile .standard supply w.records w.sheet.rows
    let (plans, faults, supply) := planAll supply rest
    match outcome with
    | .ok plan => (plan :: plans, faults, supply)
    | .error es => (plans, es.map (w.records.recordType, ·) ++ faults, supply)

/-- Plans every table, or fails if one cannot be planned. -/
def reconcileAll (work : List TableWork) : Run (List (TableWork × Plan)) := do
  let (plans, faults, supply) := planAll (← get).supply work
  modify fun w => { w with supply }
  if faults.isEmpty then return work.zip plans
  throw (.reconcile faults)

/-- The records that references may name: those there are, and those of the planned rows. -/
def referencesOf (c : Catalog) (planned : List (TableWork × Plan)) : References :=
  let present := (NameMap.values c).flatMap fun set =>
    set.records.map fun r => ⟨set.recordType, r.identifier, r.guid⟩
  .ofEntries (present ++ planned.flatMap fun (w, plan) => plan.referenceEntries w.sheet.rows)

/-- The cells of all planned rows that cannot be read. -/
def unreadableCells (ctx : Cell.Context) :
    List (TableWork × Plan) → Except ExecuteError (List (String × CellFault))
  | [] => .ok []
  | (w, plan) :: rest =>
    match Execution.check ctx plan w.sheet.rows with
    | .ok () => unreadableCells ctx rest
    | .error (.decode cells) =>
      (unreadableCells ctx rest).map fun more => cells.map (plan.recordType, ·) ++ more
    | .error e => .error e

/-- Carries out plans on records in memory. -/
def tryPlans (ctx : Cell.Context) : List (TableWork × Plan) → Step Catalog ExecuteError Unit
  | [] => pure ()
  | (w, plan) :: rest => do
    let _ ← Execution.apply ctx MemoryStore.store plan w.sheet.rows w.records
    tryPlans ctx rest

/-- Fails if the records as they will be make no container. -/
def trialBake (p : Project) (ctx : Cell.Context) (c : Catalog)
    (planned : List (TableWork × Plan)) : Run Unit := do
  let (outcome, after) := tryPlans ctx planned c
  ofExcept .execute outcome
  let _ ← ofExcept .rejected (Container.bake p.registry after)

/-! ### Writing -/

/-- Gives the records of a new table the hashes of their rows, so that the next synchronization
finds them unchanged. -/
def stampRecords (p : Project) (set : RecordSet) : List Row → Run Unit
  | [] => pure ()
  | row :: rest => do
    match row.guid.bind set.ofGuid? with
    | some r =>
      if r.contentHash ≠ some row.contentHash then
        (Workspace.onStore (p.records.update set.recordType
          { r with contentHash := some row.contentHash })).mapError .store
    | none => pure ()
    p.stampRecords set rest

/-- Makes the tables that there are not. -/
def exportAll (p : Project) (c : Catalog) : List (Path × RecordSet) → Run (List String)
  | [] => pure []
  | (path, set) :: rest => do
    let s ← ofExcept .sheet (Sheet.ofRecords ⟨p.registry, c.references⟩ set)
    saveSheet path s
    p.stampRecords set s.rows
    return set.recordType :: (← p.exportAll c rest)

/-- Carries out plans on the stored records.  A table is written again if its records change, or if
one of its rows gets a GUID. -/
def applyAll (p : Project) (ctx : Cell.Context) :
    List (TableWork × Plan) → Run (List ExecutionReport)
  | [] => pure []
  | (w, plan) :: rest => do
    let rows := w.sheet.rows
    let report ← (Workspace.onStore
      (Execution.apply ctx p.records plan rows w.records)).mapError .execute
    if !plan.actions.isEmpty ∨ !plan.backfilled.isEmpty then
      saveSheet w.path (w.sheet.stamp (plan.rowGuids rows))
    return report :: (← p.applyAll ctx rest)

/-- Whether the data is not that of the schema. -/
def dataIsStale (p : Project) : Run Bool := do
  let m ← p.manifest
  return !(Checkpoints.verifyData p.registry.fingerprint m.checkpoints.data).isOk

/-- Brings records and tables in line. -/
def sync (p : Project) : Run SyncReport := do
  let c ← p.loadCatalog
  let (work, absent) ← ofExcept .sheet (p.readSheets (← get).files (NameMap.values c))
  p.checkpoint "reconciliation"
  let planned ← reconcileAll work
  p.checkpoint "execution"
  let ctx : Cell.Context := ⟨p.registry, referencesOf c planned⟩
  let unreadable ← ofExcept .execute (unreadableCells ctx planned)
  if !unreadable.isEmpty then throw (.decode unreadable)
  if planned.any fun (_, plan) => !plan.actions.isEmpty then p.trialBake ctx c planned
  let exported ← p.exportAll c absent
  let tables ← p.applyAll ctx planned
  let changed := tables.foldl (fun (s : RegenState) t => s.merge t.regen) .upToDate
  let stale := !exported.isEmpty || (← p.dataIsStale)
  let regen := if stale then changed.merge .full else changed
  let data ← if regen.isUpToDate then pure none else some <$> p.emitData
  return ⟨tables, exported, regen, data⟩

end Project

end RecordTables
