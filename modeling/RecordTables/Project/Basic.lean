import RecordTables.Checkpoint
import RecordTables.Container.Basic
import RecordTables.DataFile
import RecordTables.Project.Config
import RecordTables.Project.Error
import RecordTables.Record
import RecordTables.Registry
import RecordTables.Schema.File
import RecordTables.Store.Files

/-!
# Projects

A project is a configuration and the schema that its files declare.  Its steps work on a
`Workspace`: the files, what the store of records remembers of them, and the supply of GUIDs for new
records.

Two things that a project uses are not its own: the packing of containers, and the programs that it
can run.  They are its `Tools`.  What a program does is any function from its arguments and the files
to how it ended; it may change files, whether it succeeds or not.

The manifest of a project stands beside its generated files.  It keeps the checkpoints of the last
generation and the names of the files that were generated.
-/

namespace RecordTables

open Schema

/-! ## Manifests -/

namespace Checkpoints

/-- Nothing has been generated. -/
def none : Checkpoints := ⟨.none, .none⟩

/-- Reads checkpoints. -/
def read? {δ : Type} (form : Form δ) (d : δ) : Option Checkpoints := do
  let parts ← form.record? "Checkpoints" ["code", "data"] d
  let fingerprint? (d : δ) : Option Fingerprint :=
    (form.text? d).bind fun s => (Fingerprint.ofText s).toOption
  return ⟨← Form.defaulted? parts "code" .none (form.option? fingerprint?),
    ← Form.defaulted? parts "data" .none (form.option? fingerprint?)⟩

/-- Checkpoints as data. -/
def node (c : Checkpoints) : Node :=
  let print (f : Option Fingerprint) : Node := .ofOption (f.map fun f => .text f.text)
  .record [("code", print c.code), ("data", print c.data)]

end Checkpoints

/-- What is known of the last generation. -/
structure Manifest where
  checkpoints : Checkpoints
  /-- The files of the last generation of code, by their paths below the generated files. -/
  codeArtifacts : List String
  /-- The files of the last generation of data. -/
  dataArtifacts : List String
  deriving DecidableEq, Repr, Inhabited

namespace Manifest

/-- The manifest of a project for which nothing has been generated. -/
def empty : Manifest := ⟨.none, [], []⟩

/-- Reads a manifest.  Whatever is left out is as in the empty manifest. -/
def read? {δ : Type} (form : Form δ) (d : δ) : Option Manifest := do
  let parts ←
    form.record? "GenerationManifest" ["checkpoints", "code_artifacts", "data_artifacts"] d
  return ⟨← Form.defaulted? parts "checkpoints" .none (Checkpoints.read? form),
    ← Form.defaulted? parts "code_artifacts" [] (form.list? form.text?),
    ← Form.defaulted? parts "data_artifacts" [] (form.list? form.text?)⟩

/-- A manifest as data. -/
def node (m : Manifest) : Node :=
  .record [("checkpoints", m.checkpoints.node),
    ("code_artifacts", .list (m.codeArtifacts.map .text)),
    ("data_artifacts", .list (m.dataArtifacts.map .text))]

/-- The name of the file of a manifest. -/
def fileName : String := "manifest.ron"

/-- Loads the manifest beside generated files; it is empty if there is none. -/
def load (files : FileTree) (directory : Path) : Except DataFileError Manifest :=
  let p := directory.join fileName
  if files.holds p then DataFile.load files (fun _ form d => read? form d) p else .ok empty

/-- Writes a manifest beside generated files. -/
def save (directory : Path) (m : Manifest) : Step FileTree DataFileError Unit :=
  DataFile.save (directory.join fileName) m.node

/-- Whether code was generated, and all of it is still there. -/
def codePresent (m : Manifest) (files : FileTree) (directory : Path) : Bool :=
  !m.codeArtifacts.isEmpty && m.codeArtifacts.all fun name => files.hasFile (directory.join name)

end Manifest

/-! ## Tools -/

/-- How a program ended. -/
inductive ProgramEnding where
  | exited (code : Nat)
  | killed
  /-- It did not end within its time. -/
  | late
  deriving DecidableEq, Repr

/-- What is known of a program that was started. -/
structure ProgramResult where
  ending : ProgramEnding
  output : List UInt8
  errors : List UInt8
  /-- The files behind it. -/
  files : FileTree

/-- What a project works with. -/
structure Tools where
  packing : Packing
  /-- Runs a program with arguments, for some seconds at most; `none` if it cannot be started. -/
  run? : Program → (args : List String) → (seconds : Nat) → FileTree → Option ProgramResult

/-! ## Projects -/

/-- What the steps of a project work on. -/
structure Workspace where
  store : FileStore
  supply : GuidSupply

namespace Workspace

/-- The files. -/
def files (w : Workspace) : FileTree := w.store.files

/-- A step on the files. -/
def onFiles {ε α : Type} (step : Step FileTree ε α) : Step Workspace ε α :=
  step.within files fun w files => { w with store.files := files }

/-- A step on the store. -/
def onStore {ε α : Type} (step : Step FileStore ε α) : Step Workspace ε α :=
  step.within store fun w store => { w with store }

end Workspace

/-- A project whose schema has been resolved. -/
structure Project where
  tools : Tools
  config : ProjectConfig
  registry : Registry
  /-- Whether it has been called off. -/
  isCancelled : Bool

namespace Project

/-- A step of a project. -/
abbrev Run (α : Type) := Step Workspace ProjectError α

/-- An answer that may be a fault, told in the words of a project. -/
def ofExcept {ε α : Type} (fault : ε → ProjectError) : Except ε α → Run α
  | .ok x => pure x
  | .error e => throw (fault e)

/-! ### Loading -/

/-- Why an enum cannot be declared. -/
def invalidEnum (e : EnumEntry) : String :=
  let tag := e.repr.getD ""
  s!"enum '{e.name}' has repr '{tag}', which is not a builtin scalar"

/-- Takes the declarations of a schema file. -/
def addSchemaFile (files : FileTree) (r : Registration) (p : Path) :
    Except DataFileError Registration := do
  let file ← DataFile.load files (fun _ form d => SchemaFile.read? form d) p
  (r.addFile file).mapError fun e => .invalid p (invalidEnum e)

/-- Takes the declarations of the schema files of a directory, in the order of their names. -/
def loadSchema (files : FileTree) (directory : Path) : Except DataFileError Registration := do
  (← DataFile.list files directory).foldlM (addSchemaFile files) .empty

/-- Loads the project of the project directory. -/
def ofFiles (tools : Tools) (files : FileTree) : Except ProjectError Project := do
  let config ← (ProjectConfig.load files).mapError .dataFile
  let declared ← (loadSchema files config.schemaDirectory).mapError .dataFile
  let registry ← (declared.build config.options).mapError .schema
  return ⟨tools, config, registry, false⟩

/-- The project when it has been called off. -/
def cancel (p : Project) : Project := { p with isCancelled := true }

/-- Fails if the project has been called off. -/
def checkpoint (p : Project) (stage : String) : Run Unit :=
  if p.isCancelled then throw (.cancelled stage) else pure ()

/-! ### What the files hold -/

/-- The store of the records. -/
def records (p : Project) : RecordStore FileStore := FileStore.store p.config.recordsDirectory

/-- Reads the records of some types onto a catalog. -/
def loadTypes (p : Project) : List String → Catalog → Run Catalog
  | [], c => pure c
  | recordType :: rest, c => do
    let set ← (Workspace.onStore (p.records.load recordType)).mapError .store
    loadTypes p rest (c.insertSet set)

/-- Reads the records of all types; a store that has seen nothing yet does it. -/
def loadCatalog (p : Project) : Run Catalog := do
  modify fun w => { w with store.seen := [] }
  p.loadTypes (p.registry.recordTypes.map (·.name)) NameMap.empty

/-- The manifest beside the generated files. -/
def manifest (p : Project) : Run Manifest := do
  ofExcept .dataFile (Manifest.load (← get).files p.config.outputDirectory)

/-- Writes the manifest beside the generated files. -/
def saveManifest (p : Project) (m : Manifest) : Run Unit :=
  Workspace.onFiles ((Manifest.save p.config.outputDirectory m).mapError .dataFile)

end Project

end RecordTables
