import RecordTables.Exchange.Container
import RecordTables.Exchange.Files
import RecordTables.Exchange.Plan
import RecordTables.Exchange.Sheet
import RecordTables.Exchange.Tools
import RecordTables.Project.Sync

/-!
# Projects in exchange
-/

namespace RecordTables

/-- Loads the project of the project directory, with the tools at hand. -/
def Project.load (files : FileTree) : Except ProjectError Project :=
  ofFiles .atHand files

/-- A configuration.  One path shows where tables are. -/
def ProjectConfig.toJson (c : ProjectConfig) : Json :=
  let path (p : Path) : Json := .text p.text
  .object [("schema_dir", path c.schemaDirectory), ("tables_dir", path c.tablesDirectory),
    ("records_dir", path c.recordsDirectory), ("output_dir", path c.outputDirectory),
    ("namespace", .text c.outputNamespace), ("identifier_property", .text c.identifierProperty),
    ("asset_linking", .bool c.assetLinking), ("table_path", path (c.tablePath "Item")),
    ("compiler", .orNull (fun k : CompilerConfig => .object [("program", .text k.program.text),
      ("args", .texts k.args), ("timeout", .nat k.timeout)]) c.compiler)]

/-- A fault of the schema compiler. -/
def CompilerError.toJson : CompilerError → Json
  | notStarted => .faultKind "Spawn"
  | failed code output errors => .object [("error", .text "Failed"),
      ("code", .orNull Json.nat code), ("stdout", .text output), ("stderr", .text errors)]
  | timedOut after => .object [("error", .text "TimedOut"), ("after", .nat after)]

/-- A fault of a project. -/
def ProjectError.toJson (e : ProjectError) : Json :=
  let several (kind : String) (parts : List Json) : Json :=
    .object [("error", .text kind), ("message", .text e.message), ("errors", .array parts)]
  match e with
  | dataFile fault => fault.toJson
  | schema faults => several "Schema" (faults.map (·.toJson))
  | sheet fault => fault.toJson
  | reconcile faults =>
    several "Reconcile" (faults.map fun f => .array [.text f.1, f.2.toJson])
  | decode faults => several "Decode" (faults.map fun f => .array [.text f.1, f.2.toJson])
  | execute fault => fault.toJson
  | store fault => fault.toJson
  | container fault => fault.toJson
  | rejected fault => .object [("error", .text "Rejected"), ("source", fault.toJson)]
  | compiler fault => fault.toJson
  | artifact => .faultKind "Artifact"
  | incompatible fault => fault.toJson
  | cancelled _ => .fault "Cancelled" e.message

/-- What a generation did. -/
def Emission.toJson (e : Emission) : Json :=
  .object [("fingerprint", e.fingerprint.toJson), ("skipped", .bool e.skipped),
    ("artifacts", .texts e.artifacts)]

/-- What a synchronization did. -/
def SyncReport.toJson (r : SyncReport) : Json :=
  .object [("tables", .array (r.tables.map ExecutionReport.toJson)),
    ("exported", .texts r.exported), ("regen", r.regen.toJson),
    ("data", .orNull Emission.toJson r.data), ("noop", .bool r.isNoop), ("text", .text r.text)]

end RecordTables
