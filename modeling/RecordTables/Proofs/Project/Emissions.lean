import RecordTables.Proofs.Project.Freshness
import RecordTables.Proofs.Project.Names
import RecordTables.Proofs.Project.ManifestFile
import RecordTables.Proofs.Project.Places
import RecordTables.Proofs.Schema.Agreement

/-!
# The code over a history of emissions

Code is not generated again if the manifest says that it belongs to the current schema and it is all
there.  So it need not be the code of the project that asks for it: it is that of some project that
generated code into the same directory with the same fingerprint (`Project.code_of_emitCode`).  A
fingerprint covers the types and the enums of a schema, but neither the namespace of the code nor
which property is the identifier.  With these also the same, the code is that of the project.

`Project.Recorded` is what every history of emissions keeps, also of ones that fail
(`Project.Recorded.emitCode`): if the manifest names a fingerprint, the code is that of a project with
this fingerprint.
-/

namespace RecordTables

open Step

/-! ### Schemas -/

/-- The schemas of registries, as far as fingerprints cover them: the types with their names, kinds
and effective properties, and the enums. -/
structure Registry.SameSchema (r r' : Registry) : Prop where
  types : r.types.map (fun t => (t.name, t.kind, t.declarations)) =
    r'.types.map fun t => (t.name, t.kind, t.declarations)
  enums : r.declarations.enums = r'.declarations.enums

namespace Registration

variable {a a' : Registration} {options options' : Schema.Options} {r r' : Registry}

/-- The types of a registry are those that enter the stream of its fingerprint. -/
theorem Yields.map_summary
    {closed : List (Schema.TypeDeclaration × List Schema.PropertyDeclaration)}
    (h : a.Yields options closed r) :
    r.types.map (fun t => (t.name, t.kind, t.declarations)) = closed.map Stream.summary := by
  rw [h.types, List.map_map]
  rfl

variable (hr : a.build options = .ok r) (hr' : a'.build options' = .ok r')
  (hsame : r.SameSchema r')

include hr hr' hsame

/-- Registries of one schema were built from types that enter the stream alike, and from the same
enums. -/
theorem exists_yields_of_sameSchema : ∃ closed closed', a.Yields options closed r ∧
    a'.Yields options' closed' r' ∧ closed.map Stream.summary = closed'.map Stream.summary ∧
      a.declarations.enums = a'.declarations.enums := by
  obtain ⟨closed, hy⟩ := exists_yields_of_build hr
  obtain ⟨closed', hy'⟩ := exists_yields_of_build hr'
  refine ⟨closed, closed', hy, hy', ?_, ?_⟩
  · rw [← hy.map_summary, ← hy'.map_summary, hsame.types]
  · rw [← hy.declarations, ← hy'.declarations, hsame.enums]

variable (hfingerprint : r.fingerprint = r'.fingerprint)

include hfingerprint

/-- Registries of one schema are described alike. -/
theorem idl_agree (outputNamespace : String) : r.idl outputNamespace = r'.idl outputNamespace := by
  obtain ⟨closed, closed', hy, hy', htypes, henums⟩ := exists_yields_of_sameSchema hr hr' hsame
  unfold Registry.idl Registry.enums
  rw [layout_agree hy hy' htypes henums, hsame.enums, hfingerprint]

/-- Registries of one schema with one identifier property have one plan. -/
theorem storagePlan_agree (hidentifier : options.identifierProperty = options'.identifierProperty)
    (outputNamespace : String) : r.storagePlan outputNamespace = r'.storagePlan outputNamespace := by
  obtain ⟨closed, closed', hy, hy', htypes, henums⟩ := exists_yields_of_sameSchema hr hr' hsame
  unfold Registry.storagePlan
  rw [tables_agree hy hy' htypes henums hidentifier, hfingerprint]

end Registration

namespace Project

variable {p q : Project} {ps ss : List String} {w w' : Workspace} {e : ProjectError}

/-! ### The code of a project -/

/-- The interface description of a project. -/
def description (p : Project) : List UInt8 :=
  Text.utf8 (p.registry.idl p.config.outputNamespace)

/-- The plan of a project for code generators. -/
def plan (p : Project) : List UInt8 :=
  Text.utf8 (p.registry.storagePlan p.config.outputNamespace).node.ron

/-- The code of a project that has no compiler, in the order of the names. -/
def codeFiles (p : Project) : List (String × List UInt8) :=
  [(planFile, p.plan), (schemaFile, p.description)]

/-- The places of the files of code in a directory. -/
def codePlaces (ps : List String) : List Path :=
  [.inside (ps ++ [planFile]), .inside (ps ++ [schemaFile])]

/-- The code in a directory is that of a project. -/
structure HasCode (p : Project) (ps : List String) (files : FileTree) : Prop where
  plan : files.read? (.inside (ps ++ [planFile])) = some p.plan
  description : files.read? (.inside (ps ++ [schemaFile])) = some p.description

/-- A project that generates its code into a directory, without a compiler.  Its registry was built
from its configuration. -/
structure EmitsTo (p : Project) (ps : List String) : Prop where
  output : p.config.outputDirectory = .inside ps
  compiler : p.config.compiler = none
  built : ∃ declared : Registration, declared.build p.config.options = .ok p.registry

theorem emitsTo_of_ofFiles {tools : Tools} {files : FileTree} (h : ofFiles tools files = .ok p)
    (houtput : p.config.outputDirectory = .inside ps) (hcompiler : p.config.compiler = none) :
    p.EmitsTo ps :=
  ⟨houtput, hcompiler, exists_build_of_ofFiles h⟩

theorem isFileName_planFile : Artifacts.IsFileName planFile := by decide

theorem isFileName_schemaFile : Artifacts.IsFileName schemaFile := by decide

/-- What holds of both files holds of each. -/
theorem forall_codeFiles {P : String × List UInt8 → Prop} (hplan : P (planFile, p.plan))
    (hdescription : P (schemaFile, p.description)) : ∀ f ∈ p.codeFiles, P f :=
  List.forall_mem_cons.2 ⟨hplan, List.forall_mem_singleton.2 hdescription⟩

/-- The code of a project is there if its files are. -/
theorem hasCode_iff {files : FileTree} : p.HasCode ps files ↔
    ∀ f ∈ p.codeFiles, files.read? (.inside (ps ++ [f.1])) = some f.2 := by
  refine ⟨fun h => forall_codeFiles h.plan h.description, fun h => ⟨?_, ?_⟩⟩
  · exact h (planFile, p.plan) List.mem_cons_self
  · exact h (schemaFile, p.description) (List.mem_cons_of_mem _ List.mem_cons_self)

theorem HasCode.congr {files files' : FileTree} (h : p.HasCode ps files)
    (hsame : ∀ q ∈ codePlaces ps, files'.at? q = files.at? q) : p.HasCode ps files' := by
  obtain ⟨hplan, hdescription⟩ := List.forall_mem_cons.1 hsame
  have hdescription := List.forall_mem_singleton.1 hdescription
  constructor
  · unfold FileTree.read?
    rw [hplan]
    exact h.plan
  · unfold FileTree.read?
    rw [hdescription]
    exact h.description

/-- The code of a project stays if the places of the files of code stay, of whatever project. -/
theorem HasCode.of_kept {files files' : FileTree} (h : q.HasCode ps files)
    (hkept : ∀ f ∈ p.codeFiles,
      files'.at? (.inside (ps ++ [f.1])) = files.at? (.inside (ps ++ [f.1]))) :
    q.HasCode ps files' := by
  have hplaces : codePlaces ps = p.codeFiles.map fun f => .inside (ps ++ [f.1]) := rfl
  refine h.congr ?_
  rw [hplaces]
  exact List.forall_mem_map.2 hkept

/-- No directory stands where there is code. -/
theorem HasCode.not_blocked {files : FileTree} (hps : ".." ∉ ps) (h : q.HasCode ps files)
    (p : Project) : ¬Artifacts.Blocked ps p.codeFiles files := by
  have hfree {name : String} {content : List UInt8} (hname : Path.IsName name)
      (hread : files.read? (.inside (ps ++ [name])) = some content) :
      ¬files.isDirectoryAt (ps ++ [name]) = true := by
    rw [FileTree.read?_inside files (Path.plain_concat hps hname)] at hread
    rw [FileTree.isDirectoryAt_eq_false_of_fileAt? hread]
    exact Bool.false_ne_true
  rintro ⟨f, hf, hblocked⟩
  exact forall_codeFiles (P := fun f => ¬files.isDirectoryAt (ps ++ [f.1]) = true)
    (hfree isFileName_planFile.1 h.plan) (hfree isFileName_schemaFile.1 h.description) f hf hblocked

/-- Code that is there is all there, as far as a manifest lists it. -/
theorem HasCode.codePresent {files : FileTree} {m : Manifest} (h : p.HasCode ps files)
    (hnames : m.codeArtifacts = [planFile, schemaFile]) :
    m.codePresent files (.inside ps) = true := by
  have hfile {name : String} {content : List UInt8} (hname : Path.IsName name)
      (hread : files.read? (.inside (ps ++ [name])) = some content) :
      files.hasFile ((Path.inside ps).join name) = true := by
    rw [Path.join_inside ps hname]
    unfold FileTree.read? at hread
    unfold FileTree.hasFile
    split at hread
    · next hfile =>
      rw [hfile]
      rfl
    · cases hread
  unfold Manifest.codePresent
  rw [hnames, List.all_cons, List.all_cons, hfile isFileName_planFile.1 h.plan,
    hfile isFileName_schemaFile.1 h.description]
  rfl

/-! ### Staging code -/

/-- Without a compiler, the plan and the description are staged and nothing else. -/
theorem fills_stageCode (hcompiler : p.config.compiler = none) (hplain : ".." ∉ ss) :
    Artifacts.Fills (p.stageCode (.inside ss)) ss p.codeFiles := by
  unfold stageCode
  rw [hcompiler]
  refine ⟨fun q hq => ?_, fun t t' hempty h => ?_⟩
  · exact (Artifacts.write_keeps isFileName_schemaFile.1 hq).bind fun _ =>
      (Artifacts.write_keeps isFileName_planFile.1 hq).bind fun _ => keeps_pure _
  · obtain ⟨_, t₁, hdescription, h⟩ := answers_bind.1 h
    obtain ⟨_, t₂, hplan, hpure⟩ := answers_bind.1 h
    obtain ⟨-, rfl⟩ := answers_pure_iff.1 hpure
    have hfirst := Artifacts.write_adds isFileName_schemaFile.1 hdescription hplain hempty
    have hbefore : planFile < schemaFile := by decide
    rw [Artifacts.write_adds isFileName_planFile.1 hplan hplain hfirst, NameMap.insertEntry,
      NameMap.insertEntry, if_pos hbefore]
    rfl

theorem canMove_codeFiles (hps : ".." ∉ ps) (p : Project) :
    Artifacts.CanMove ps (ps.dropLast ++ [Artifacts.stagingName ps]) p.codeFiles :=
  Artifacts.canMove_staging hps (forall_codeFiles isFileName_planFile isFileName_schemaFile)
    (by decide : [planFile, schemaFile].Nodup)

theorem codeFiles_ne_nil (p : Project) : p.codeFiles ≠ [] :=
  List.cons_ne_nil _ _

/-! ### One emission -/

theorem manifest_answers {m : Manifest} : p.manifest.Answers w m w' ↔
    Manifest.load w.files p.config.outputDirectory = .ok m ∧ w' = w := by
  unfold manifest
  rw [answers_get_bind, answers_ofExcept]

theorem saveManifest_answers {m : Manifest} (h : (p.saveManifest m).Answers w () w') :
    (Manifest.save p.config.outputDirectory m).Answers w.files () w'.files := by
  unfold saveManifest Workspace.onFiles at h
  obtain ⟨t, hsave, rfl⟩ := answers_within.1 h
  exact answers_mapError.1 hsave

theorem saveManifest_fails {m : Manifest} (h : (p.saveManifest m).Fails w e w') :
    ∃ fault, (Manifest.save p.config.outputDirectory m).Fails w.files fault w'.files := by
  unfold saveManifest Workspace.onFiles at h
  obtain ⟨t, hsave, rfl⟩ := fails_within.1 h
  obtain ⟨fault, hsave, -⟩ := fails_mapError.1 hsave
  exact ⟨fault, hsave⟩

/-- The generated files beside each other are apart. -/
theorem apart_manifest (hps : ".." ∉ ps) {f : String × List UInt8} (hf : f ∈ p.codeFiles) :
    (Path.inside (ps ++ [f.1])).Apart (.inside (ps ++ [Manifest.fileName])) := by
  refine forall_codeFiles (P := fun f => (Path.inside (ps ++ [f.1])).Apart _) ?_ ?_ f hf
  · have hne : planFile ≠ Manifest.fileName := by decide
    exact Path.apart_of_ne hps isFileName_planFile.1 Manifest.isName_fileName hne
  · have hne : schemaFile ≠ Manifest.fileName := by decide
    exact Path.apart_of_ne hps isFileName_schemaFile.1 Manifest.isName_fileName hne

/-- Generates code, and notes in the manifest for which schema. -/
def generateCode (p : Project) (m : Manifest) : Run Emission := do
  let names ← Workspace.onFiles
    (Artifacts.produce .artifact p.config.outputDirectory p.stageCode)
  p.saveManifest
    { m with checkpoints.code := some p.registry.fingerprint, codeArtifacts := names }
  return ⟨p.registry.fingerprint, names, false⟩

theorem emitCode_eq (p : Project) : p.emitCode = (do
    let m ← p.manifest
    let w ← get
    if m.checkpoints.code = some p.registry.fingerprint ∧
        m.codePresent w.files p.config.outputDirectory then
      return ⟨p.registry.fingerprint, m.codeArtifacts, true⟩
    p.generateCode m) :=
  rfl

/-- The manifest says for which schema the code was generated, and all files that it lists are there. -/
def IsCurrent (ps : List String) (f : Fingerprint) (names : List String) (files : FileTree) : Prop :=
  ∃ m, Manifest.load files (.inside ps) = .ok m ∧ m.checkpoints.code = some f ∧
    m.codeArtifacts = names ∧ m.codePresent files (.inside ps) = true

section Emission

variable (hp : p.EmitsTo ps) (hps : ".." ∉ ps)

include hp

/-- Where the code is current, it is not generated again. -/
theorem emitCode_of_isCurrent {names : List String}
    (h : IsCurrent ps p.registry.fingerprint names w.files) :
    p.emitCode.Answers w ⟨p.registry.fingerprint, names, true⟩ w := by
  obtain ⟨m, hload, hcode, rfl, hpresent⟩ := h
  have hmanifest : p.manifest.Answers w m w := manifest_answers.2 ⟨hp.output ▸ hload, rfl⟩
  rw [emitCode_eq]
  refine hmanifest.bind ?_
  rw [answers_get_bind, hp.output, if_pos ⟨hcode, hpresent⟩]
  exact answers_pure _ _

include hps

theorem fills_code : Artifacts.Fills
    (p.stageCode (.inside (ps.dropLast ++ [Artifacts.stagingName ps])))
    (ps.dropLast ++ [Artifacts.stagingName ps]) p.codeFiles :=
  fills_stageCode hp.compiler
    (Artifacts.plain_staging (canMove_codeFiles hps p) p.codeFiles_ne_nil)

/-- Generating code leaves the manifest. -/
theorem produce_keeps_manifest :
    (Artifacts.produce ProjectError.artifact (.inside ps) p.stageCode).Keeps
      fun t => t.at? (.inside (ps ++ [Manifest.fileName])) :=
  Artifacts.produce_keeps (canMove_codeFiles hps p) p.codeFiles_ne_nil (fills_code hp hps)
    (Artifacts.stagingFor_apart hps Manifest.isName_fileName (by decide))
    fun _ hf => apart_manifest hps hf

/-- Code that was generated is there. -/
theorem produce_answers_code {t t' : FileTree} {names : List String}
    (h : (Artifacts.produce ProjectError.artifact (.inside ps) p.stageCode).Answers t names t') :
    names = [planFile, schemaFile] ∧ p.HasCode ps t' ∧
      ∀ part ∈ ps, FileTree.isName part = true := by
  obtain ⟨hnames, hfiles, hparts⟩ := Artifacts.produce_installs (canMove_codeFiles hps p)
    p.codeFiles_ne_nil (fills_code hp hps) h
  exact ⟨hnames, hasCode_iff.2 hfiles, hparts⟩

/-- Code that was generated is there, and the manifest says so. -/
theorem generateCode_answers {m : Manifest} {e : Emission}
    (h : (p.generateCode m).Answers w e w') :
    e = ⟨p.registry.fingerprint, [planFile, schemaFile], false⟩ ∧ p.HasCode ps w'.files ∧
      IsCurrent ps p.registry.fingerprint [planFile, schemaFile] w'.files := by
  unfold generateCode at h
  rw [hp.output] at h
  obtain ⟨names, w₁, hproduced, h⟩ := answers_bind.1 h
  obtain ⟨_, w₂, hsaved, hpure⟩ := answers_bind.1 h
  obtain ⟨rfl, rfl⟩ := answers_pure_iff.1 hpure
  obtain ⟨t, hproduce, rfl⟩ := answers_within.1 hproduced
  obtain ⟨rfl, hcode, -⟩ := produce_answers_code hp hps hproduce
  have hcode' : p.HasCode ps w'.files := by
    refine hcode.of_kept (p := p) fun f hf => ?_
    have hapart := (apart_manifest hps hf).symm
    exact (saveManifest_keeps (manifestPath_eq hp.output ▸ hapart) _).answers hsaved
  refine ⟨rfl, hcode', ?_⟩
  have hsave := saveManifest_answers hsaved
  rw [hp.output] at hsave
  exact ⟨_, Manifest.load_of_save hps hsave, rfl, rfl, hcode'.codePresent rfl⟩

/-- **An emission that succeeds** was skipped because the code is current, or has generated the code
of the project, which is current now. -/
theorem emitCode_answers {e : Emission} (h : p.emitCode.Answers w e w') :
    e.fingerprint = p.registry.fingerprint ∧ IsCurrent ps e.fingerprint e.artifacts w'.files ∧
      (e.skipped = true → w' = w) ∧ (e.skipped = false → p.HasCode ps w'.files) := by
  rw [emitCode_eq, hp.output] at h
  obtain ⟨m, w₁, hmanifest, hrest⟩ := answers_bind.1 h
  obtain ⟨hload, rfl⟩ := manifest_answers.1 hmanifest
  rw [hp.output] at hload
  rw [answers_get_bind] at hrest
  split_ifs at hrest with hcurrent
  · obtain ⟨rfl, rfl⟩ := answers_pure_iff.1 hrest
    exact ⟨rfl, ⟨m, hload, hcurrent.1, rfl, hcurrent.2⟩, fun _ => rfl, Bool.noConfusion⟩
  · obtain ⟨rfl, hcode, hcurrent⟩ := generateCode_answers hp hps hrest
    exact ⟨rfl, hcurrent, Bool.noConfusion, fun _ => hcode⟩

/-- Generating code fails before the manifest is written, and then leaves the code that there was. -/
theorem generateCode_fails {m m₀ : Manifest} (hload : Manifest.load w.files (.inside ps) = .ok m₀)
    (h : (p.generateCode m).Fails w e w') :
    w'.files.at? (.inside (ps ++ [Manifest.fileName])) =
        w.files.at? (.inside (ps ++ [Manifest.fileName])) ∧
      ∀ q : Project, q.HasCode ps w.files → q.HasCode ps w'.files := by
  unfold generateCode at h
  rw [hp.output] at h
  rcases fails_bind.1 h with hproduced | ⟨names, w₁, hproduced, h⟩
  · obtain ⟨t, hproduce, rfl⟩ := fails_within.1 hproduced
    refine ⟨(produce_keeps_manifest hp hps).fails hproduce, fun q hq => ?_⟩
    have hkept := Artifacts.produce_fails (canMove_codeFiles hps p) p.codeFiles_ne_nil
      (fills_code hp hps) hproduce (hq.not_blocked hps p)
    exact hq.of_kept hkept
  · -- the manifest can be written beside the code
    obtain ⟨t, hproduce, rfl⟩ := answers_within.1 hproduced
    obtain ⟨-, hcode, hparts⟩ := produce_answers_code hp hps hproduce
    have hplain := Path.plain_concat hps Manifest.isName_fileName
    have hfree : t.isDirectoryAt (ps ++ [Manifest.fileName]) = false := by
      rw [FileTree.isDirectoryAt_congr hplain ((produce_keeps_manifest hp hps).answers hproduce)]
      exact Manifest.isDirectoryAt_of_load hps hload
    have hplan : (t.fileAt? (ps ++ [planFile])).isSome = true := by
      rw [← FileTree.read?_inside t (Path.plain_concat hps isFileName_planFile.1), hcode.plan]
      rfl
    have hdirectory : t.isDirectoryAt ps = true :=
      FileTree.isDirectoryAt_of_fileAt? hplan (List.cons_ne_nil _ _)
    rcases fails_bind.1 h with hsaved | ⟨_, w₂, -, hpure⟩
    · obtain ⟨fault, hsave⟩ := saveManifest_fails hsaved
      rw [hp.output] at hsave
      obtain ⟨t', hanswers⟩ := Manifest.exists_save hps hparts hdirectory hfree _
      cases congrArg Prod.fst (hsave.symm.trans hanswers)
    · exact absurd hpure not_fails_pure

/-- **An emission that fails** leaves the manifest as it was, and the code as well, if there was some.
-/
theorem emitCode_fails (h : p.emitCode.Fails w e w') :
    w'.files.at? (.inside (ps ++ [Manifest.fileName])) =
        w.files.at? (.inside (ps ++ [Manifest.fileName])) ∧
      ∀ q : Project, q.HasCode ps w.files → q.HasCode ps w'.files := by
  rw [emitCode_eq] at h
  rcases fails_bind.1 h with hmanifest | ⟨m, w₁, hmanifest, hrest⟩
  · obtain ⟨rfl, -⟩ := manifest_fails hmanifest
    exact ⟨rfl, fun _ hq => hq⟩
  obtain ⟨hload, rfl⟩ := manifest_answers.1 hmanifest
  rw [hp.output] at hload
  rw [fails_get_bind] at hrest
  split_ifs at hrest
  · exact absurd hrest not_fails_pure
  · exact generateCode_fails hp hps hload hrest

end Emission

/-- Code is generated once: after an emission the code is current, for whatever project has the same
fingerprint. -/
theorem emitCode_again (hp : p.EmitsTo ps) (hps : ".." ∉ ps) (hq : q.EmitsTo ps)
    (hfingerprint : q.registry.fingerprint = p.registry.fingerprint) {e : Emission}
    (h : p.emitCode.Answers w e w') :
    q.emitCode.Answers w' ⟨e.fingerprint, e.artifacts, true⟩ w' := by
  obtain ⟨hcurrent, hafter, -⟩ := emitCode_answers hp hps h
  rw [hcurrent, ← hfingerprint] at hafter ⊢
  exact emitCode_of_isCurrent hq hafter

/-! ### Histories -/

/-- What emissions into a directory come to.  The projects that generated code there are listed, the
last one first; between them anything but the code and the manifest is edited. -/
inductive Emitted (ps : List String) : List Project → Workspace → Prop where
  /-- No code has been generated. -/
  | start {w : Workspace} (hnone : ∀ m, Manifest.load w.files (.inside ps) = .ok m →
      m.checkpoints.code = none) : Emitted ps [] w
  /-- Anything but the code and the manifest is edited. -/
  | edit {runs : List Project} {w w' : Workspace} (h : Emitted ps runs w)
      (hsame : ∀ q ∈ .inside (ps ++ [Manifest.fileName]) :: codePlaces ps,
        w'.files.at? q = w.files.at? q) : Emitted ps runs w'
  /-- A project generates its code, which may fail. -/
  | emit {runs : List Project} {w : Workspace} {p : Project} (h : Emitted ps runs w)
      (hp : p.EmitsTo ps) : Emitted ps (p :: runs) (p.emitCode.outcome w).2

/-- If the manifest says for which schema the code was generated, then the code is that of some
project with the fingerprint of this schema. -/
def Recorded (ps : List String) (runs : List Project) (files : FileTree) : Prop :=
  ∀ m f, Manifest.load files (.inside ps) = .ok m → m.checkpoints.code = some f →
    ∃ q ∈ runs, q.registry.fingerprint = f ∧ q.HasCode ps files

theorem Recorded.edit {runs : List Project} {files files' : FileTree}
    (h : Recorded ps runs files)
    (hmanifest : files'.at? (.inside (ps ++ [Manifest.fileName])) =
      files.at? (.inside (ps ++ [Manifest.fileName])))
    (hcode : ∀ q : Project, q.HasCode ps files → q.HasCode ps files') :
    Recorded ps runs files' := by
  rw [← Path.join_inside ps Manifest.isName_fileName] at hmanifest
  intro m f hload hfingerprint
  rw [Manifest.load_congr hmanifest] at hload
  obtain ⟨q, hq, hsame, hfound⟩ := h m f hload hfingerprint
  exact ⟨q, hq, hsame, hcode q hfound⟩

/-- **An emission keeps the record**, whether it succeeds or fails. -/
theorem Recorded.emitCode {runs : List Project} (h : Recorded ps runs w.files) (hps : ".." ∉ ps)
    (hp : p.EmitsTo ps) : Recorded ps (p :: runs) (p.emitCode.outcome w).2.files := by
  rcases answers_or_fails p.emitCode w with ⟨e, w', hemit⟩ | ⟨e, w', hemit⟩
  · rw [show p.emitCode.outcome w = (.ok e, w') from hemit]
    obtain ⟨hcurrent, ⟨m, hload, hcode, -, -⟩, hskipped, hwritten⟩ := emitCode_answers hp hps hemit
    intro m' f hload' hcode'
    obtain rfl : m = m' := Except.ok.inj (hload.symm.trans hload')
    obtain rfl : e.fingerprint = f := Option.some.inj (hcode.symm.trans hcode')
    cases hcase : e.skipped with
    | true =>
      rw [hskipped hcase] at hload ⊢
      obtain ⟨q, hq, hsame, hfound⟩ := h m e.fingerprint hload hcode
      exact ⟨q, List.mem_cons_of_mem p hq, hsame, hfound⟩
    | false => exact ⟨p, List.mem_cons_self, hcurrent.symm, hwritten hcase⟩
  · rw [show p.emitCode.outcome w = (.error e, w') from hemit]
    obtain ⟨hmanifest, hcode⟩ := emitCode_fails hp hps hemit
    intro m f hload hfingerprint
    obtain ⟨q, hq, hsame, hfound⟩ := h.edit hmanifest hcode m f hload hfingerprint
    exact ⟨q, List.mem_cons_of_mem p hq, hsame, hfound⟩

namespace Emitted

variable {runs : List Project}

theorem emitsTo (h : Emitted ps runs w) : ∀ q ∈ runs, q.EmitsTo ps := by
  induction h with
  | start _ => exact List.forall_mem_nil _
  | edit _ _ ih => exact ih
  | emit _ hp ih => exact List.forall_mem_cons.2 ⟨hp, ih⟩

theorem recorded (hps : ".." ∉ ps) (h : Emitted ps runs w) : Recorded ps runs w.files := by
  induction h with
  | start hnone =>
    intro m f hload hcode
    rw [hnone m hload] at hcode
    cases hcode
  | edit _ hsame ih =>
    obtain ⟨hmanifest, hcode⟩ := List.forall_mem_cons.1 hsame
    exact ih.edit hmanifest fun q hq => hq.congr hcode
  | emit _ hp ih => exact ih.emitCode hps hp

end Emitted

/-- Projects of one schema and one namespace have one description, and one plan if they have one
identifier property. -/
theorem code_agree (hq : q.EmitsTo ps) (hp : p.EmitsTo ps)
    (hfingerprint : q.registry.fingerprint = p.registry.fingerprint)
    (hsame : q.registry.SameSchema p.registry)
    (hnamespace : q.config.outputNamespace = p.config.outputNamespace) :
    q.description = p.description ∧
      (q.config.identifierProperty = p.config.identifierProperty → q.plan = p.plan) := by
  obtain ⟨a, ha⟩ := hq.built
  obtain ⟨b, hb⟩ := hp.built
  constructor
  · unfold description
    rw [Registration.idl_agree ha hb hsame hfingerprint, hnamespace]
  · intro hidentifier
    unfold plan
    rw [Registration.storagePlan_agree ha hb hsame hfingerprint hidentifier, hnamespace]

/-- **The code after an emission.**  However often code was generated into a directory before,
whatever was edited between, and whether it is generated now or not: afterwards it is the code of some
project of the history with the current fingerprint.  If schemas of one fingerprint are the same, the
description is the current one if that project had the current namespace, and so is the plan if it
also had the current identifier property.  Code that was generated now is that of the project. -/
theorem code_of_emitCode {runs : List Project} (hps : ".." ∉ ps) (h : Emitted ps runs w)
    (hp : p.EmitsTo ps)
    (hdistinct : ∀ q ∈ runs, q.registry.fingerprint = p.registry.fingerprint →
      q.registry.SameSchema p.registry) {e : Emission} (hemit : p.emitCode.Answers w e w') :
    (e.skipped = false → p.HasCode ps w'.files) ∧
      ∃ q ∈ p :: runs, q.registry.fingerprint = p.registry.fingerprint ∧ q.HasCode ps w'.files ∧
        (q.config.outputNamespace = p.config.outputNamespace →
          w'.files.read? (.inside (ps ++ [schemaFile])) = some p.description ∧
            (q.config.identifierProperty = p.config.identifierProperty →
              p.HasCode ps w'.files)) := by
  obtain ⟨hcurrent, ⟨m, hload, hcode, -, -⟩, -, hwritten⟩ := emitCode_answers hp hps hemit
  refine ⟨hwritten, ?_⟩
  -- what a checkpoint says was emitted by one of the runs
  have hrecorded : Recorded ps (p :: runs) w'.files := by
    have hafter := (h.recorded hps).emitCode hps hp
    rwa [show p.emitCode.outcome w = (.ok e, w') from hemit] at hafter
  obtain ⟨q, hq, hfingerprint, hfound⟩ := hrecorded m e.fingerprint hload hcode
  rw [hcurrent] at hfingerprint
  refine ⟨q, hq, hfingerprint, hfound, fun hnamespace => ?_⟩
  -- one fingerprint is that of one schema, so the two runs describe the same under one namespace
  have hagree : q.description = p.description ∧
      (q.config.identifierProperty = p.config.identifierProperty → q.plan = p.plan) := by
    rcases List.mem_cons.1 hq with rfl | hq
    · exact ⟨rfl, fun _ => rfl⟩
    · exact code_agree (h.emitsTo q hq) hp hfingerprint (hdistinct q hq hfingerprint) hnamespace
  obtain ⟨hdescription, hplan⟩ := hagree
  have hread : w'.files.read? (.inside (ps ++ [schemaFile])) = some p.description := by
    rw [← hdescription]
    exact hfound.description
  refine ⟨hread, fun hidentifier => ⟨?_, hread⟩⟩
  rw [← hplan hidentifier]
  exact hfound.plan

/-! ### Coins in another namespace -/

/-- The project of coins, with another namespace for its code. -/
def gameProject : Project :=
  { coinProject with config := { coinProject.config with outputNamespace := "Game" } }

/-- A second emission of the coins is skipped, and the code is theirs.  The one for another namespace
is skipped as well, though the code is not in this namespace. -/
theorem code_of_emitCode_coins :
    ∃ w e w', Emitted ["generated"] [coinProject] w ∧ coinProject.EmitsTo ["generated"] ∧
      coinProject.emitCode.Answers w e w' ∧ e.skipped = true ∧
      coinProject.HasCode ["generated"] w'.files ∧ gameProject.EmitsTo ["generated"] ∧
      gameProject.emitCode.Answers w e w' ∧ ¬gameProject.HasCode ["generated"] w'.files := by
  have hplain : ".." ∉ ["generated"] := by decide
  have hcoin : coinProject.EmitsTo ["generated"] := emitsTo_of_ofFiles ofFiles_coinFiles rfl rfl
  have hgame : gameProject.EmitsTo ["generated"] := ⟨rfl, rfl, hcoin.built⟩
  have hnone : ∀ m, Manifest.load coins.files (.inside ["generated"]) = .ok m →
      m.checkpoints.code = none := by
    have hempty : (Manifest.load coins.files (.inside ["generated"])).toOption = some .empty := by
      decide +kernel
    intro m hload
    rw [hload] at hempty
    rw [show m = .empty from Option.some.inj hempty]
    rfl
  -- the coins are emitted once, and then the emission is skipped
  have hfirst : (coinProject.emitCode.outcome coins).1.toOption.isSome := by decide +kernel
  obtain ⟨first, hemit⟩ := exists_answers hfirst
  have hhistory : Emitted ["generated"] [coinProject] (coinProject.emitCode.outcome coins).2 :=
    .emit (.start hnone) hcoin
  have hagain := emitCode_again hcoin hplain hcoin rfl hemit
  obtain ⟨-, q, hq, -, -, hcode⟩ := code_of_emitCode hplain hhistory hcoin
    (List.forall_mem_singleton.2 fun _ => ⟨rfl, rfl⟩) hagain
  obtain rfl : q = coinProject := by simpa using hq
  obtain ⟨-, hcode⟩ := hcode rfl
  have hcode := hcode rfl
  refine ⟨_, _, _, hhistory, hcoin, hagain, rfl, hcode, hgame,
    emitCode_again hcoin hplain hgame rfl hemit, fun hother => ?_⟩
  -- a game's description differs from that of the coins
  have hne : coinProject.registry.idl "Game" ≠ coinProject.registry.idl "Params" := by
    decide +kernel
  exact hne (Text.utf8_inj (Option.some.inj (hother.description.symm.trans hcode.description)))

end Project

end RecordTables
