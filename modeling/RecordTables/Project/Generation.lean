import RecordTables.Container.Bake
import RecordTables.Files.Tree
import RecordTables.Layout.PlanNode
import RecordTables.Project.Basic
import RecordTables.Project.Error
import RecordTables.Step

/-!
# Generating code and data

From its schema a project generates a schema description and a plan for code generators, and
whatever a schema compiler makes of the description; from its records it generates a container.  The
manifest keeps for which schema that was done last.

Generated files are first staged in a directory beside their target and then moved there together,
so a generation that fails leaves the target as it was (`Artifacts.produce`).

The schema compiler is given the path of the schema, `-o`, and the directory for its files, behind
the arguments of its configuration.  It is one of the programs among the tools of the project, and
what it does to the files stays done even if it fails.
-/

namespace RecordTables

/-! ## Artifacts -/

namespace Artifacts

variable {ε : Type}

/-- A step on files. -/
abbrev Run (ε α : Type) := Step FileTree ε α

/-- Where the files for a target are staged. -/
def stagingFor (target : Path) : Path :=
  target.withName ("." ++ (if target.name = "" then "output" else target.name) ++ ".staging")

/-- Makes an empty staging directory. -/
def start (fault : ε) (staging : Path) : Run ε Unit := do
  if (← get).holds staging then Step.change fault (·.removeDirectory? staging)
  Step.change fault (·.makeDirectories? staging)

/-- Stages a file. -/
def write (fault : ε) (staging : Path) (name : String) (content : List UInt8) : Run ε Unit := do
  let p := staging.join name
  Step.change fault (·.makeDirectories? p.parent)
  Step.change fault (·.write? p content)

/-- The staged files by their places below the staging directory, in order. -/
def staged (staging : Path) (files : FileTree) : List (List String) :=
  match files.at? staging with
  | some t => t.files.map (·.1)
  | none => []

/-- Moves staged files into the target, in place of files of the same names. -/
def moveAll (fault : ε) (target staging : Path) : List (List String) → Run ε Unit
  | [] => pure ()
  | place :: rest => do
    let p := place.foldl Path.join target
    Step.change fault (·.makeDirectories? p.parent)
    Step.change fault (·.moveFile? (place.foldl Path.join staging) p)
    moveAll fault target staging rest

/-- Takes the staging directory away, if there is one. -/
def discard (staging : Path) : Run ε Unit :=
  modify fun files => (files.removeDirectory? staging).getD files

/-- Moves all staged files into the target, and tells their names below it. -/
def commit (fault : ε) (target staging : Path) : Run ε (List String) := do
  let places := staged staging (← get)
  tryCatch (do
      Step.change fault (·.makeDirectories? target)
      moveAll fault target staging places
      Step.change fault (·.removeDirectory? staging))
    fun e => do
      discard staging
      throw e
  return places.map fun place => "/".intercalate place

/-- Stages files as `fill` says and moves them into the target; if anything fails, the staging
directory is gone again. -/
def produce (fault : ε) (target : Path) (fill : (staging : Path) → Run ε Unit) :
    Run ε (List String) := do
  let staging := stagingFor target
  start fault staging
  tryCatch (fill staging) fun e => do
    discard staging
    throw e
  commit fault target staging

end Artifacts

/-! ## The schema compiler -/

namespace Compiler

/-- What the result of a program that may take `timeout` seconds means. -/
def outcome (timeout : Nat) (r : ProgramResult) : Except CompilerError Unit :=
  let failed (code : Option Nat) : Except CompilerError Unit :=
    .error (.failed code (Text.ofUtf8Lossy r.output) (Text.ofUtf8Lossy r.errors))
  match r.ending with
  | .exited 0 => .ok ()
  | .exited code => failed (some code)
  | .killed => failed none
  | .late => .error (.timedOut timeout)

/-- Runs the schema compiler on a schema, with a directory for its files. -/
def run (tools : Tools) (config : CompilerConfig) (schema directory : Path) :
    Step FileTree CompilerError Unit := do
  let args := config.args ++ [schema.text, "-o", directory.text]
  match tools.run? config.program args config.timeout (← get) with
  | none => throw .notStarted
  | some r =>
    set r.files
    match outcome config.timeout r with
    | .ok () => return ()
    | .error fault => throw fault

end Compiler

/-! ## Generating -/

/-- What a generation did. -/
structure Emission where
  fingerprint : Fingerprint
  /-- The generated files, by their names below the output directory. -/
  artifacts : List String
  /-- Nothing was written, because what there was is current. -/
  skipped : Bool
  deriving DecidableEq, Repr

namespace Project

/-- The name of the rendered schema. -/
def schemaFile : String := "schema.fbs"

/-- The name of the plan for code generators. -/
def planFile : String := "codegen_plan.ron"

/-- The name of the container. -/
def dataFile : String := "params.bin"

/-- Whether the generated code and data are those of the schema. -/
def verify (p : Project) : Run Unit := do
  ofExcept .incompatible (Checkpoints.verify p.registry.fingerprint (← p.manifest).checkpoints)

/-- Stages the rendered schema and the plan, and runs the schema compiler if there is one. -/
def stageCode (p : Project) (staging : Path) : Artifacts.Run ProjectError Unit := do
  let outputNamespace := p.config.outputNamespace
  Artifacts.write .artifact staging schemaFile (Text.utf8 (p.registry.idl outputNamespace))
  Artifacts.write .artifact staging planFile
    (Text.utf8 (p.registry.storagePlan outputNamespace).node.ron)
  match p.config.compiler with
  | some compiler =>
    (Compiler.run p.tools compiler (staging.join schemaFile) staging).mapError .compiler
  | none => pure ()

/-- Generates code, unless it is current and all there.  If a step fails, the generated files are
left as they were. -/
def emitCode (p : Project) : Run Emission := do
  let current := p.registry.fingerprint
  let output := p.config.outputDirectory
  let m ← p.manifest
  if m.checkpoints.code = some current ∧ m.codePresent (← get).files output then
    return ⟨current, m.codeArtifacts, true⟩
  let artifacts ← Workspace.onFiles (Artifacts.produce .artifact output p.stageCode)
  p.saveManifest { m with checkpoints.code := some current, codeArtifacts := artifacts }
  return ⟨current, artifacts, false⟩

/-- Generates the container of all records. -/
def emitData (p : Project) : Run Emission := do
  let current := p.registry.fingerprint
  let c ← ofExcept .container (Container.bake p.registry (← p.loadCatalog))
  let artifacts ← Workspace.onFiles (Artifacts.produce .artifact p.config.outputDirectory
    fun staging => Artifacts.write .artifact staging dataFile (p.tools.packing.pack c))
  let m ← p.manifest
  p.saveManifest { m with checkpoints.data := some current, dataArtifacts := artifacts }
  return ⟨current, artifacts, false⟩

end Project

end RecordTables
