import RecordTables.Cell.Decode
import RecordTables.Reconcile.Plan
import RecordTables.Store.Basic

/-!
# Carrying out a plan

Every row that a plan writes is read before the store is touched, so a cell that cannot be read
leaves the store as it was.  Then the store is changed in a fixed order: renaming to temporary
identifiers, updates, new records, deletions, and renaming to the new identifiers.
-/

namespace RecordTables

open Schema

/-- A cell that cannot be read. -/
structure CellFault where
  line : Nat
  property : String
  fault : CellError
  deriving DecidableEq, Repr

/-- The wording of a cell that cannot be read. -/
def CellFault.message (f : CellFault) : String :=
  s!"line {f.line}, column '{f.property}': {f.fault.message}"

/-- Why a plan cannot be carried out. -/
inductive ExecuteError where
  | decode (cells : List CellFault)
  | unknownType (name : String)
  /-- The plan updates a record that is not among those it was made for. -/
  | missingRecord (guid : Guid)
  /-- The plan has a row that there is not. -/
  | missingRow (row : Nat)
  | store (fault : StoreError)
  deriving DecidableEq, Repr

/-- The wording of a fault. -/
def ExecuteError.message : ExecuteError → String
  | decode cells => s!"{cells.length} cell(s) failed to decode; store left untouched"
  | unknownType name => s!"unknown record type '{name}'"
  | missingRecord guid => s!"plan names record {guid.text}, which is not in the loaded set"
  | missingRow row => s!"plan names row {row}, which does not exist"
  | store fault => fault.message

/-- What a plan did to a store. -/
structure ExecutionReport where
  recordType : String
  updated : Nat
  created : Nat
  deleted : Nat
  renamed : Nat
  regen : RegenState
  deriving DecidableEq

namespace Execution

variable (ctx : Cell.Context)

/-! ### Reading the rows -/

/-- Reads the cells of the given properties that a row has: the values, and the cells that cannot be
read. -/
def readCells (row : Row) : List Property → NameMap Value × List CellFault
  | [] => (.empty, [])
  | p :: rest =>
    let (values, faults) := readCells row rest
    match row.cells.find? p.name with
    | none => (values, faults)
    | some cell =>
      match ctx.decode p cell with
      | .ok v => (values.insert p.name v, faults)
      | .error fault => (values, ⟨row.line, p.name, fault⟩ :: faults)

/-- Reads the property cells of a row.  Properties without a cell are left out. -/
def decodeRow (recordType : String) (row : Row) : Except ExecuteError (NameMap Value) :=
  match ctx.registry.type? recordType with
  | none => .error (.unknownType recordType)
  | some t =>
    match readCells ctx row t.valueProperties with
    | (values, []) => .ok values
    | (_, faults) => .error (.decode faults)

/-- Reads the rows that actions write, one after the other, onto what was read so far. -/
def decodeActions (recordType : String) (rows : List Row) :
    List PlanAction → List (Nat × NameMap Value) → List CellFault →
      Except ExecuteError (List (Nat × NameMap Value))
  | [], values, [] => .ok values
  | [], _, faults => .error (.decode faults)
  | a :: rest, values, faults =>
    match a.row? with
    | none => decodeActions recordType rows rest values faults
    | some i =>
      match rows[i]? with
      | none => .error (.missingRow i)
      | some row =>
        match decodeRow ctx recordType row with
        | .ok v => decodeActions recordType rows rest (values ++ [(i, v)]) faults
        | .error (.decode more) => decodeActions recordType rows rest values (faults ++ more)
        | .error e => .error e

/-- Reads every row that a plan writes, or tells all cells that cannot be read. -/
def decodePlan (plan : Plan) (rows : List Row) :
    Except ExecuteError (List (Nat × NameMap Value)) :=
  decodeActions ctx plan.recordType rows plan.actions [] []

/-- Whether every row that a plan writes can be read. -/
def check (plan : Plan) (rows : List Row) : Except ExecuteError Unit :=
  (decodePlan ctx plan rows).map fun _ => ()

/-! ### Changing the store -/

variable {σ : Type}

/-- A step on the state of a store, as part of an execution. -/
abbrev Run (σ α : Type) := Step σ ExecuteError α

/-- A step of the store as a step of an execution. -/
def lift {α : Type} (step : Step σ StoreError α) : Run σ α := step.mapError .store

/-- The values of a row, which are used once. -/
def takeValues (row : Nat) (values : List (Nat × NameMap Value)) :
    NameMap Value × List (Nat × NameMap Value) :=
  match values.reverse.find? (fun e => e.1 == row) with
  | some e => (e.2, values.filter (fun e => e.1 != row))
  | none => (.empty, values)

/-- A new record of a type: the defaults of its properties, and the values of its row. -/
def newRecord (recordType : String) (row : Row) (guid : Guid) (directory : String)
    (values : NameMap Value) : Record :=
  let properties := ((ctx.registry.type? recordType).map (·.valueProperties)).getD []
  let defaults := NameMap.ofList (properties.filterMap fun p =>
    (ctx.registry.default? p).map fun v => (p.name, v))
  ⟨guid, row.identifier, directory, some row.contentHash, defaults.override values⟩

/-- Renames the records of some actions to their temporary identifiers. -/
def renameTemporarily (store : RecordStore σ) (recordType : String) :
    List PlanAction → Run σ Unit
  | [] => pure ()
  | .update guid _ (some rename) :: rest => do
    lift (store.rename recordType guid rename.temporary)
    renameTemporarily store recordType rest
  | _ :: rest => renameTemporarily store recordType rest

/-- Updates records from their rows; the answer is the values not used yet. -/
def updateAll (store : RecordStore σ) (recordType : String) (records : RecordSet)
    (rows : List Row) :
    List PlanAction → List (Nat × NameMap Value) → Run σ (List (Nat × NameMap Value))
  | [], values => pure values
  | .update guid i rename :: rest, values => do
    match records.ofGuid? guid, rows[i]? with
    | none, _ => throw (.missingRecord guid)
    | _, none => throw (.missingRow i)
    | some record, some row =>
      let (fresh, values) := takeValues i values
      lift (store.update recordType { record with
        identifier := (rename.map (·.temporary)).getD record.identifier
        values := record.values.override fresh
        contentHash := some row.contentHash })
      updateAll store recordType records rows rest values
  | _ :: rest, values => updateAll store recordType records rows rest values

/-- Creates the records of some actions. -/
def createAll (store : RecordStore σ) (recordType : String) (rows : List Row) :
    List PlanAction → List (Nat × NameMap Value) → Run σ Unit
  | [], _ => pure ()
  | .create i guid directory :: rest, values => do
    match rows[i]? with
    | none => throw (.missingRow i)
    | some row =>
      let (fresh, values) := takeValues i values
      lift (store.create recordType (newRecord ctx recordType row guid directory fresh))
      createAll store recordType rows rest values
  | _ :: rest, values => createAll store recordType rows rest values

/-- Deletes the records of some actions. -/
def deleteAll (store : RecordStore σ) (recordType : String) : List PlanAction → Run σ Unit
  | [] => pure ()
  | .delete guid :: rest => do
    lift (store.delete recordType guid)
    deleteAll store recordType rest
  | _ :: rest => deleteAll store recordType rest

/-- The first record that actions rename in a given way. -/
def renamed? (actions : List PlanAction) (rename : Rename) : Option Guid :=
  actions.findSome? fun
    | .update guid _ (some r) => if r = rename then some guid else none
    | _ => none

/-- Renames records to their new identifiers. -/
def renameFinally (store : RecordStore σ) (plan : Plan) : List Rename → Run σ Unit
  | [] => pure ()
  | r :: rest => do
    match renamed? plan.actions r with
    | none => renameFinally store plan rest
    | some guid =>
      lift (store.rename plan.recordType guid r.new)
      renameFinally store plan rest

/-- Carries out a plan, made for the given records, on a store. -/
def apply (store : RecordStore σ) (plan : Plan) (rows : List Row) (records : RecordSet) :
    Run σ ExecutionReport := do
  match decodePlan ctx plan rows with
  | .error e => throw e
  | .ok values =>
    let type := plan.recordType
    renameTemporarily store type plan.actions
    let values ← updateAll store type records rows plan.actions values
    createAll ctx store type rows plan.actions values
    deleteAll store type plan.actions
    renameFinally store plan plan.renames
    return {
      recordType := type
      updated := plan.actions.countP (·.isUpdate)
      created := plan.actions.countP (·.isCreate)
      deleted := plan.actions.countP (·.isDelete)
      renamed := plan.renames.length
      regen := plan.regenState }

end Execution

end RecordTables
