import RecordTables.DataFile
import RecordTables.Schema.Resolution
import RecordTables.Text.Blank

/-!
# Configuration of a project

The configuration of a project stands in its directory.  It says where the schema, the tables, the
records and the generated files are, and how the schema compiler is run, if there is one.  Paths in
it start from the project directory.
-/

namespace RecordTables

/-- A program to run. -/
inductive Program where
  /-- One that is found by its name. -/
  | named (name : String)
  /-- One in a file. -/
  | file (path : Path)
  deriving DecidableEq, Repr

namespace Program

/-- The program of a text: a single part is a name, and anything else a path. -/
def ofText (text : String) : Program :=
  let leading := if text = "." ∨ "./".toList.isPrefixOf text.toList then 1 else 0
  if Path.isAbsolute text ∨ 1 < leading + (Path.partsOf text).length then file (Path.ofText text)
  else named text

/-- How a program is shown. -/
def text : Program → String
  | named name => name
  | file path => path.text

end Program

/-- How the schema compiler is run. -/
structure CompilerConfig where
  program : Program
  args : List String
  /-- How long it may take, in seconds. -/
  timeout : Nat
  deriving DecidableEq, Repr

/-- The configuration of a project. -/
structure ProjectConfig where
  /-- The schema files. -/
  schemaDirectory : Path
  /-- The tables, one for each record type. -/
  tablesDirectory : Path
  /-- The root of the records. -/
  recordsDirectory : Path
  /-- The generated files. -/
  outputDirectory : Path
  identifierProperty : String
  assetLinking : Bool
  /-- The namespace of the rendered schema. -/
  outputNamespace : String
  compiler : Option CompilerConfig
  deriving DecidableEq, Repr

namespace CompilerConfig

/-- Reads how the compiler is run. -/
def read? {δ : Type} (form : Form δ) (d : δ) : Option CompilerConfig := do
  let parts ← form.record? "SchemaCompilerConfig" ["program", "args", "timeout_secs"] d
  return ⟨.ofText (← Form.required? parts "program" form.text?),
    ← Form.defaulted? parts "args" [] (form.list? form.text?),
    ← Form.defaulted? parts "timeout_secs" 60 form.nat64?⟩

end CompilerConfig

namespace ProjectConfig

/-- The name of the file of the configuration, without its extension. -/
def baseName : String := "paramforge"

/-- The names of the parts of a configuration. -/
def partNames : List String :=
  ["schema_dir", "tables_dir", "records_dir", "output_dir", "identifier_property", "asset_linking",
    "namespace", "schema_compiler"]

/-- Reads a configuration. -/
def read? {δ : Type} (form : Form δ) (d : δ) : Option ProjectConfig := do
  let parts ← form.record? "PipelineConfig" partNames d
  let directory (name default : String) : Option Path :=
    (Form.defaulted? parts name default form.text?).map Path.ofText
  return {
    schemaDirectory := .ofText (← Form.required? parts "schema_dir" form.text?)
    tablesDirectory := ← directory "tables_dir" "tables"
    recordsDirectory := ← directory "records_dir" "records"
    outputDirectory := ← directory "output_dir" "generated"
    identifierProperty := ← Form.defaulted? parts "identifier_property" "Identifier" form.text?
    assetLinking := ← Form.defaulted? parts "asset_linking" false form.bool?
    outputNamespace := ← Form.defaulted? parts "namespace" "Params" form.text?
    compiler := ← Form.defaulted? parts "schema_compiler" none
      (form.option? (CompilerConfig.read? form)) }

/-- Loads the configuration of a project.  The identifier property must have a name. -/
def load (files : FileTree) : Except DataFileError ProjectConfig := do
  let p ← DataFile.require files .root baseName
  let config ← DataFile.load files (fun _ form d => read? form d) p
  if Text.isBlankText config.identifierProperty then
    throw (.invalid p "identifier_property is blank")
  return config

/-- The table of a record type. -/
def tablePath (config : ProjectConfig) (recordType : String) : Path :=
  config.tablesDirectory.join (recordType ++ ".tsv")

/-- The conventions of the schema. -/
def options (config : ProjectConfig) : Schema.Options :=
  ⟨config.identifierProperty, config.assetLinking⟩

end ProjectConfig

end RecordTables
