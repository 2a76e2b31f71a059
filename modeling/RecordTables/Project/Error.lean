import RecordTables.Container.Error
import RecordTables.DataFile
import RecordTables.Execution
import RecordTables.Reconcile.Plan
import RecordTables.Schema.Error
import RecordTables.Sheet.Basic

/-!
# Faults of a project
-/

namespace RecordTables

open Schema

/-- Why the schema compiler did not do its work. -/
inductive CompilerError where
  /-- The program cannot be started. -/
  | notStarted
  /-- The program failed; one that was killed has no exit code. -/
  | failed (code : Option Nat) (output errors : String)
  /-- The program did not end within so many seconds. -/
  | timedOut (after : Nat)
  deriving DecidableEq, Repr

/-- Why a step of a project fails. -/
inductive ProjectError where
  | dataFile (fault : DataFileError)
  | schema (faults : List SchemaError)
  | sheet (fault : SheetError)
  /-- Tables that cannot be reconciled, by the faults of each type. -/
  | reconcile (faults : List (String × ReconcileError))
  /-- Cells that cannot be read, by type. -/
  | decode (faults : List (String × CellFault))
  | execute (fault : ExecuteError)
  | store (fault : StoreError)
  | container (fault : ContainerError)
  /-- The records as they would be afterwards make no container. -/
  | rejected (fault : ContainerError)
  | compiler (fault : CompilerError)
  /-- Generated files cannot be written. -/
  | artifact
  | incompatible (fault : CompatibilityError)
  /-- The project was called off before a stage. -/
  | cancelled (stage : String)

namespace ProjectError

/-- Wordings in a row. -/
def joined (parts : List String) : String := "; ".intercalate parts

/-- Wordings in a row, each behind its type. -/
def joinedByType {ε : Type} (message : ε → String) (faults : List (String × ε)) : String :=
  joined (faults.map fun f => f.1 ++ ": " ++ message f.2)

/-- The wording of several faults, or of a project that was called off. -/
def message : ProjectError → String
  | schema faults =>
    s!"schema has {faults.length} error(s): " ++ joined (faults.map (·.message))
  | reconcile faults =>
    s!"reconciliation failed with {faults.length} error(s): " ++
      joinedByType ReconcileError.message faults
  | decode faults =>
    s!"{faults.length} cell(s) failed to decode: " ++ joinedByType CellFault.message faults
  | cancelled stage => s!"cancelled before {stage}"
  | execute fault => fault.message
  | store fault => fault.message
  | container fault => fault.message
  | rejected fault => "sync rejected, store left untouched: " ++ fault.message
  | incompatible fault => fault.message
  | dataFile _ => "a data file cannot be used"
  | sheet _ => "a sheet cannot be used"
  | compiler _ => "the schema compiler failed"
  | artifact => "generated files cannot be written"

end ProjectError

end RecordTables
