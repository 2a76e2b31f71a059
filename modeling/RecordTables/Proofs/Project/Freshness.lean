import RecordTables.Exchange.Tools
import RecordTables.Proofs.Container.Opening
import RecordTables.Proofs.Project.Names
import RecordTables.Proofs.Project.Places
import RecordTables.Proofs.Regen

/-!
# The data after a synchronization

A synchronization that generates no data finds it current: it has written no record, and the manifest
tells that the data is that of the schema (`Project.sync_idle`).  So one synchronization keeps the
data `Project.Fresh` if the manifest can be trusted (`Project.fresh_of_trustworthy`).

`Project.Trusted`: the files that a project comes to by edits of tables and synchronizations, as long
as no synchronization fails after it changed records or generated files.  The manifest of such files
can be trusted (`Project.Trusted.trustworthy`), and a synchronization that succeeds on them leaves
the container of the stored records (`Project.data_of_sync`).
-/

namespace RecordTables

open Step

namespace Execution

variable {σ : Type} {ctx : Cell.Context} {store : RecordStore σ} {rows : List Row}
  {records : RecordSet} {plan : Plan} {s s' : σ}

/-- The report of a plan tells what the plan means for the data. -/
theorem regen_of_apply {report : ExecutionReport}
    (h : (apply ctx store plan rows records).Answers s report s') :
    report.regen = plan.regenState := by
  unfold apply at h
  split at h
  · exact absurd h not_answers_throw
  · obtain ⟨_, s₁, -, h₁⟩ := answers_bind.1 h
    obtain ⟨values, s₂, -, h₂⟩ := answers_bind.1 h₁
    obtain ⟨_, s₃, -, h₃⟩ := answers_bind.1 h₂
    obtain ⟨_, s₄, -, h₄⟩ := answers_bind.1 h₃
    obtain ⟨_, s₅, -, h₅⟩ := answers_bind.1 h₄
    rw [(answers_pure_iff.1 h₅).1]

end Execution

/-- Data is current if it was made for the schema. -/
theorem Checkpoints.verifyData_eq_ok_iff {current : Fingerprint} {data : Option Fingerprint} :
    verifyData current data = .ok () ↔ data = some current := by
  unfold verifyData
  split
  · simp
  · next found =>
    split_ifs with hsame
    · simp [hsame]
    · simp [hsame]

namespace Project

variable {p : Project} {w w' : Workspace}

/-! ### When no data is generated -/

theorem regen_of_applyOne {ctx : Cell.Context} {x : TableWork × Plan} {report : ExecutionReport}
    (h : (p.applyOne ctx x).Answers w report w') : report.regen = x.2.regenState := by
  obtain ⟨report', w₁, happly, hrest⟩ := answers_bind.1 h
  obtain ⟨t, happly, -⟩ := answers_within.1 (answers_mapError.1 happly)
  have hreport : report = report' := by
    split_ifs at hrest
    · obtain ⟨_, w₂, -, hpure⟩ := answers_bind.1 hrest
      exact (answers_pure_iff.1 hpure).1
    · exact (answers_pure_iff.1 hrest).1
  rw [hreport, Execution.regen_of_apply happly]

theorem regen_of_applyAll {ctx : Cell.Context} {planned : List (TableWork × Plan)}
    {tables : List ExecutionReport} (h : (p.applyAll ctx planned).Answers w tables w') :
    tables.map (·.regen) = planned.map (·.2.regenState) := by
  induction planned generalizing w tables with
  | nil =>
    rw [(answers_pure_iff.1 h).1]
    rfl
  | cons x planned ih =>
    obtain ⟨report, w₁, reports, happly, hothers, rfl⟩ := applyAll_cons_answers.1 h
    rw [List.map_cons, List.map_cons, ih hothers, regen_of_applyOne happly]

/-- Every missing table that is made is told. -/
theorem absent_of_exportAll {c : Catalog} {absent : List (Path × RecordSet)}
    (h : (p.exportAll c absent).Answers w [] w') : absent = [] := by
  cases absent with
  | nil => rfl
  | cons x absent =>
    obtain ⟨sheet, w₁, -, h₁⟩ := answers_bind.1 h
    obtain ⟨_, w₂, -, h₂⟩ := answers_bind.1 h₁
    obtain ⟨_, w₃, -, h₃⟩ := answers_bind.1 h₂
    obtain ⟨names, w₄, -, h₄⟩ := answers_bind.1 h₃
    cases (answers_pure_iff.1 h₄).1

/-- Nothing has to be generated only if no table was made, the data is that of the schema, and no plan
changed the data. -/
theorem eq_nil_of_pending {exported : List String} {tables : List ExecutionReport} {stale : Bool}
    (hproper : ∀ t ∈ tables, t.regen.IsProper)
    (h : (pending exported tables stale).isUpToDate = true) :
    exported = [] ∧ stale = false ∧ ∀ t ∈ tables, t.regen = .upToDate := by
  have hfold : tables.foldl (fun s t => RegenState.merge s t.regen) .upToDate =
      (tables.map (·.regen)).foldl RegenState.merge .upToDate := List.foldl_map.symm
  have hstates : ∀ s ∈ tables.map (·.regen), s.IsProper := by
    intro s hs
    obtain ⟨t, ht, rfl⟩ := List.mem_map.1 hs
    exact hproper t ht
  have hstate : pending exported tables stale = .upToDate := beq_iff_eq.1 h
  unfold pending at hstate
  dsimp only at hstate
  rw [hfold] at hstate
  by_cases hfull : (!exported.isEmpty || stale) = true
  · rw [if_pos hfull] at hstate
    cases hmerged : (tables.map (·.regen)).foldl RegenState.merge .upToDate
    all_goals
      rw [hmerged] at hstate
      cases hstate
  · rw [if_neg hfull] at hstate
    have hall := ((RegenState.foldl_merge_eq_upToDate (s := .upToDate) trivial hstates).1 hstate).2
    rw [Bool.not_eq_true, Bool.or_eq_false_iff, Bool.not_eq_false', List.isEmpty_iff] at hfull
    exact ⟨hfull.1, hfull.2, fun t ht => hall _ (List.mem_map_of_mem ht)⟩

theorem verified_of_dataIsStale (h : p.dataIsStale.Answers w false w') :
    ∃ m, Manifest.load w.files p.config.outputDirectory = .ok m ∧
      Checkpoints.verifyData p.registry.fingerprint m.checkpoints.data = .ok () := by
  obtain ⟨m, w₁, hmanifest, hpure⟩ := answers_bind.1 h
  unfold manifest at hmanifest
  rw [answers_get_bind] at hmanifest
  refine ⟨m, (answers_ofExcept.1 hmanifest).1, ?_⟩
  have hfresh := (answers_pure_iff.1 hpure).1
  cases hverify : Checkpoints.verifyData p.registry.fingerprint m.checkpoints.data with
  | ok u => rfl
  | error e =>
    rw [hverify] at hfresh
    cases hfresh

theorem emitPending_none {regen : RegenState} (h : (p.emitPending regen).Answers w none w') :
    regen.isUpToDate = true ∧ w' = w := by
  rcases emitPending_answers_iff.1 h with ⟨hupToDate, -, hsame⟩ | ⟨-, emission, hdata, -⟩
  · exact ⟨hupToDate, hsame⟩
  · cases hdata

/-- **A synchronization that generates no data** leaves the records and the generated files as they
were, and the data is that of the schema. -/
theorem sync_idle (hp : p.HasOwnPlaces) {report : SyncReport}
    (h : p.sync.Answers w report w') (hdata : report.data = none) :
    (∀ q ∈ p.dataPath :: p.manifestPath :: p.recordPlaces, w'.files.at? q = w.files.at? q) ∧
      ∃ m, Manifest.load w'.files p.config.outputDirectory = .ok m ∧
        Checkpoints.verifyData p.registry.fingerprint m.checkpoints.data = .ok () := by
  rw [sync_eq] at h
  obtain ⟨s, w₁, hsurvey, hcarry⟩ := answers_bind.1 h
  obtain ⟨w₂, w₃, stale, hexport, happly, hstale, hregenerated, hemit⟩ := exists_of_carryOut hcarry
  rw [hdata] at hemit
  obtain ⟨hupToDate, rfl⟩ := emitPending_none hemit
  rw [hregenerated] at hupToDate
  -- nothing was pending, so there was nothing to make and nothing to carry out
  have hregen := regen_of_applyAll happly
  have hproper : ∀ t ∈ report.tables, t.regen.IsProper := by
    intro t ht
    have hmem : t.regen ∈ s.planned.map (·.2.regenState) := hregen ▸ List.mem_map_of_mem ht
    obtain ⟨x, -, hx⟩ := List.mem_map.1 hmem
    rw [← hx]
    exact Plan.isProper_regenState x.2
  obtain ⟨hexported, hfresh, hidle⟩ := eq_nil_of_pending hproper hupToDate
  have hactions : ∀ x ∈ s.planned, x.2.actions = [] := by
    intro x hx
    have hmem : x.2.regenState ∈ report.tables.map (·.regen) := hregen ▸ List.mem_map_of_mem hx
    obtain ⟨t, ht, hsame⟩ := List.mem_map.1 hmem
    exact Plan.actions_eq_nil (hsame.symm.trans (hidle t ht))
  rw [hexported] at hexport
  rw [absent_of_exportAll hexport] at hexport
  have hw₂ : w₂ = w₁ := (answers_pure_iff.1 hexport).2
  rw [hfresh] at hstale
  refine ⟨fun q hq => ?_, verified_of_dataIsStale hstale⟩
  have hread : w₁.files = w.files := (survey_keeps p).answers hsurvey
  have hwritten : w'.files.at? q = w₂.files.at? q := by
    refine (applyAll_keeps (f := fun w => w.files.at? q) hactions fun x hx _ sheet => ?_).answers
      happly
    obtain ⟨hpath, hbeside⟩ := path_of_isSurvey (isSurvey_of_answers hsurvey) hx
    exact saveSheet_keeps (hp.tables _ hpath q hq) (hp.tables _ hbeside q hq) sheet
  rw [hwritten, hw₂, hread]

/-! ### Fresh data -/

/-- The container is what the stored records make. -/
def Fresh (p : Project) (w : Workspace) : Prop :=
  ∃ c w₁ k, p.loadCatalog.Answers w c w₁ ∧ Container.bake p.registry c = .ok k ∧
    w.files.read? p.dataPath = some (p.tools.packing.pack k)

/-- If the manifest tells that the data is that of the schema, it is what the stored records make. -/
def Trustworthy (p : Project) (w : Workspace) : Prop :=
  ∀ m, Manifest.load w.files p.config.outputDirectory = .ok m →
    Checkpoints.verifyData p.registry.fingerprint m.checkpoints.data = .ok () → p.Fresh w

/-- The records and the generated files are the same. -/
def SameOutput (p : Project) (w w' : Workspace) : Prop :=
  ∀ q ∈ p.dataPath :: p.manifestPath :: p.recordPlaces, w'.files.at? q = w.files.at? q

theorem Fresh.of_sameOutput (hp : p.HasOwnPlaces) (hnames : p.RecordsNamed w.files)
    (hsame : p.SameOutput w w') (h : p.Fresh w) : p.Fresh w' := by
  obtain ⟨c, w₁, k, hcatalog, hbake, hread⟩ := h
  obtain ⟨w₁', hcatalog'⟩ := loadCatalog_congr hp hnames
    (fun q hq => hsame q (List.mem_cons_of_mem _ (List.mem_cons_of_mem _ hq))) hcatalog
  refine ⟨c, w₁', k, hcatalog', hbake, ?_⟩
  unfold FileTree.read? at hread ⊢
  rw [hsame p.dataPath List.mem_cons_self]
  exact hread

theorem Trustworthy.of_sameOutput (hp : p.HasOwnPlaces) (hnames : p.RecordsNamed w.files)
    (hsame : p.SameOutput w w') (h : p.Trustworthy w) : p.Trustworthy w' := by
  intro m hload hverify
  refine Fresh.of_sameOutput hp hnames hsame (h m ?_ hverify)
  rw [← hload]
  exact (Manifest.load_congr (hsame p.manifestPath (List.mem_cons_of_mem _ List.mem_cons_self))).symm

/-- A synchronization that tells of data ends with generating it. -/
theorem emitData_of_sync {report : SyncReport} (h : p.sync.Answers w report w')
    (hdata : report.data ≠ none) : ∃ emission w₁, p.emitData.Answers w₁ emission w' := by
  rw [sync_eq] at h
  obtain ⟨s, w₁, -, hcarry⟩ := answers_bind.1 h
  obtain ⟨w₂, w₃, stale, -, -, -, -, hemit⟩ := exists_of_carryOut hcarry
  rcases emitPending_answers_iff.1 hemit with ⟨-, hnone, -⟩ | ⟨-, emission, -, hemission⟩
  · exact absurd hnone hdata
  · exact ⟨emission, w₃, hemission⟩

/-- A synchronization that generates data leaves the container of the stored records. -/
theorem fresh_of_data (hp : p.HasOwnPlaces) {report : SyncReport}
    (h : p.sync.Answers w report w') (hdata : report.data ≠ none)
    (hnames : p.RecordsNamed w'.files) : p.Fresh w' := by
  obtain ⟨emission, w₁, hemission⟩ := emitData_of_sync h hdata
  obtain ⟨⟨c, w₂, k, hcatalog, hbake, hread⟩, -, hothers⟩ := emitData_answers hp hemission
  have hkept : ∀ q ∈ p.recordPlaces, w'.files.at? q = w₁.files.at? q := fun q hq =>
    hothers q fun a ha => hp.records a ha q hq
  have hnames₁ : p.RecordsNamed w₁.files := by
    intro q hq d hd
    rw [← hkept q hq] at hd
    exact hnames q hq d hd
  obtain ⟨w₃, hcatalog'⟩ := loadCatalog_congr hp hnames₁ hkept hcatalog
  exact ⟨c, w₃, k, hcatalog', hbake, hread⟩

/-- **After a synchronization** the manifest tells that the data is that of the schema. -/
theorem manifest_of_sync (hp : p.HasOwnPlaces) {report : SyncReport}
    (h : p.sync.Answers w report w') :
    ∃ m, Manifest.load w'.files p.config.outputDirectory = .ok m ∧
      m.checkpoints.data = some p.registry.fingerprint := by
  by_cases hdata : report.data = none
  · obtain ⟨-, m, hload, hverify⟩ := sync_idle hp h hdata
    exact ⟨m, hload, Checkpoints.verifyData_eq_ok_iff.1 hverify⟩
  · obtain ⟨emission, w₁, hemission⟩ := emitData_of_sync h hdata
    exact (emitData_answers hp hemission).2.1

/-- **One synchronization.**  If the manifest can be trusted, a synchronization leaves the container of
the stored records, whether it generates it or finds it current. -/
theorem fresh_of_trustworthy (hp : p.HasOwnPlaces) {report : SyncReport} (htrust : p.Trustworthy w)
    (h : p.sync.Answers w report w') (hnames : p.RecordsNamed w'.files) : p.Fresh w' := by
  by_cases hdata : report.data = none
  · obtain ⟨hsame, m, hload, hverify⟩ := sync_idle hp h hdata
    have hnames' : p.RecordsNamed w.files := by
      intro q hq d hd
      rw [← hsame q (List.mem_cons_of_mem _ (List.mem_cons_of_mem _ hq))] at hd
      exact hnames q hq d hd
    exact htrust.of_sameOutput hp hnames' hsame m hload hverify
  · exact fresh_of_data hp h hdata hnames

/-! ### The history of a project -/

/-- Without a manifest nothing is known to be current. -/
theorem trustworthy_of_no_manifest (h : w.files.at? p.manifestPath = none) : p.Trustworthy w := by
  intro m hload hverify
  have hmissing : w.files.holds (p.config.outputDirectory.join Manifest.fileName) = false := by
    unfold FileTree.holds
    rw [show w.files.at? (p.config.outputDirectory.join Manifest.fileName) = none from h]
    rfl
  unfold Manifest.load at hload
  dsimp only at hload
  rw [if_neg (by rw [hmissing]; decide)] at hload
  rw [← Except.ok.inj hload] at hverify
  cases hverify

/-- What a project comes to without a synchronization that fails halfway. -/
inductive Trusted (p : Project) : Workspace → Prop where
  /-- Nothing has been generated. -/
  | start {w : Workspace} (hnames : w.files.HasNames) (hnone : w.files.at? p.manifestPath = none) :
      p.Trusted w
  /-- Anything but records and generated files is edited. -/
  | edit {w w' : Workspace} (h : p.Trusted w) (hsame : p.SameOutput w w')
      (hnames : w'.files.HasNames) : p.Trusted w'
  /-- A synchronization succeeds. -/
  | sync {w w' : Workspace} {report : SyncReport} (h : p.Trusted w)
      (hsync : p.sync.Answers w report w') : p.Trusted w'
  /-- A synchronization fails before it changes records or generated files. -/
  | refusal {w w' : Workspace} {e : ProjectError} (h : p.Trusted w) (hsync : p.sync.Fails w e w')
      (hsame : p.SameOutput w w') : p.Trusted w'
  /-- A synchronization generates data, whatever was before. -/
  | recovery {w w' : Workspace} {report : SyncReport} (hnames : w.files.HasNames)
      (hsync : p.sync.Answers w report w') (hdata : report.data ≠ none) : p.Trusted w'

namespace Trusted

variable (hclean : p.HasCleanPaths)

include hclean

theorem hasNames (h : p.Trusted w) : w.files.HasNames := by
  have hafter {w : Workspace} (h : w.files.HasNames) :=
    hasNames_sync hclean h
  induction h with
  | start hnames _ => exact hnames
  | edit _ _ hnames _ => exact hnames
  | sync _ hsync ih => exact (congrArg (·.2.files.HasNames) hsync).mp (hafter ih)
  | refusal _ hsync _ ih => exact (congrArg (·.2.files.HasNames) hsync).mp (hafter ih)
  | recovery hnames hsync _ => exact (congrArg (·.2.files.HasNames) hsync).mp (hafter hnames)

theorem trustworthy (hp : p.HasOwnPlaces) (h : p.Trusted w) : p.Trustworthy w := by
  have hrecords {w : Workspace} (h : p.Trusted w) : p.RecordsNamed w.files :=
    recordsNamed_of_hasNames hp (h.hasNames hclean)
  induction h with
  | start _ hnone => exact trustworthy_of_no_manifest hnone
  | edit h hsame _ ih => exact ih.of_sameOutput hp (hrecords h) hsame
  | sync h hsync ih =>
    exact fun _ _ _ => fresh_of_trustworthy hp ih hsync (hrecords (h.sync hsync))
  | refusal h _ hsame ih => exact ih.of_sameOutput hp (hrecords h) hsame
  | recovery hnames hsync hdata =>
    exact fun _ _ _ => fresh_of_data hp hsync hdata (hrecords (.recovery hnames hsync hdata))

end Trusted

/-- **The data after a synchronization** is the container of the stored records, and opens, if its
numbers fit their places.  That holds of every project that was loaded, after any edits and any
synchronizations of which none failed halfway. -/
theorem data_of_sync {tools : Tools} {files : FileTree}
    (hload : ofFiles tools files = .ok p) (hp : p.HasOwnPlaces)
    (h : p.Trusted w) {report : SyncReport} (hsync : p.sync.Answers w report w') :
    ∃ c w₁ k, p.loadCatalog.Answers w' c w₁ ∧ Container.bake p.registry c = .ok k ∧
      w'.files.read? p.dataPath = some (p.tools.packing.pack k) ∧
      (p.registry.WidthsFit → k.RowsFit →
        OpenContainer.ofPacked p.tools.packing p.registry (p.tools.packing.pack k) =
          .ok ⟨p.registry, k, .empty⟩) := by
  have hclean := hasCleanPaths_of_ofFiles hload
  have hnames : p.RecordsNamed w'.files :=
    recordsNamed_of_hasNames hp ((h.sync hsync).hasNames hclean)
  obtain ⟨declared, hbuild⟩ := exists_build_of_ofFiles hload
  obtain ⟨c, w₁, k, hcatalog, hbake, hread⟩ :=
    fresh_of_trustworthy hp (h.trustworthy hclean hp) hsync hnames
  exact ⟨c, w₁, k, hcatalog, hbake, hread, fun hwidth hrows =>
    OpenContainer.ofPacked_bake p.tools.packing (Registration.isLaidOut_of_build hbuild) hwidth hbake
      hrows⟩

/-! ### A project of coins -/

/-- The files of a project that has not been synchronized. -/
def coinFiles : FileTree :=
  .directory [("paramforge.toml", .file (Text.utf8 "schema_dir = \"schema\"")),
    ("schema", .directory [("coins.toml", .file (Text.utf8
      ("[[types]]\nname = \"Item\"\nkind = \"record\"\n" ++
        "[[types.properties]]\nname = \"price\"\ntype = \"int\"\n")))]),
    ("tables", .directory [("Item.tsv", .file (Text.utf8 "Identifier\tprice\nCoin\t10\n"))])]

/-- The declarations of the project. -/
def coinDeclarations : Schema.Declarations :=
  ⟨[⟨"Item", .record, [], [⟨"price", "int", false⟩]⟩], []⟩

/-- The project. -/
def coinProject : Project where
  tools := .atHand
  config :=
    { schemaDirectory := .inside ["schema"]
      tablesDirectory := .inside ["tables"]
      recordsDirectory := .inside ["records"]
      outputDirectory := .inside ["generated"]
      identifierProperty := "Identifier"
      assetLinking := false
      outputNamespace := "Params"
      compiler := none }
  registry :=
    let identifier := Schema.PropertyDeclaration.mk "Identifier" "string" false
    let price := Schema.PropertyDeclaration.mk "price" "int" false
    let item : ResolvedType := ⟨"Item", .record, [identifier, price],
      [⟨"Identifier", .identifier⟩, ⟨"price", .single (.scalar .i32)⟩]⟩
    let plan := Registration.tablePlan coinDeclarations item
    { options := .standard
      declarations := coinDeclarations
      types := [item]
      tables := [plan]
      layout := ⟨[⟨"Item", true, plan.properties.flatMap (·.fields)⟩]⟩
      fingerprint := ⟨0xc2f664d64bb91a65⟩ }
  isCancelled := false

theorem ofFiles_coinFiles : ofFiles .atHand coinFiles = .ok coinProject := by
  have hconfig : ProjectConfig.load coinFiles = .ok coinProject.config := by decide +kernel
  have hschema : (loadSchema coinFiles (.inside ["schema"])).map
      (fun r => (r.declarations, r.errors)) = .ok (coinDeclarations, []) := by decide +kernel
  obtain ⟨⟨declarations, errors⟩, hdeclared, hparts⟩ := map_eq_ok.1 hschema
  cases hparts
  have hbuild : Registration.build ⟨coinDeclarations, []⟩ .standard = .ok coinProject.registry := by
    cbv
  exact bind_eq_ok.2 ⟨_, mapError_eq_ok.2 hconfig, bind_eq_ok.2 ⟨_, mapError_eq_ok.2 hdeclared,
    bind_eq_ok.2 ⟨_, mapError_eq_ok.2 hbuild, rfl⟩⟩⟩

theorem hasOwnPlaces_coinProject : coinProject.HasOwnPlaces where
  output := ⟨["generated"], rfl, by decide⟩
  tables := by decide +kernel
  records := by decide +kernel

/-- The project before it is synchronized. -/
def coins : Workspace := ⟨.ofFiles coinFiles, .numbered "guid"⟩

/-- A second synchronization of the coins finds the data current. -/
theorem data_of_sync_coins :
    ∃ w report w', ofFiles .atHand coinFiles = .ok coinProject ∧ coinProject.HasOwnPlaces ∧
      coinProject.Trusted w ∧ coinProject.sync.Answers w report w' ∧ report.data = none ∧
      ∃ c w₁ k, coinProject.loadCatalog.Answers w' c w₁ ∧
        Container.bake coinProject.registry c = .ok k ∧
        w'.files.read? coinProject.dataPath = some (coinProject.tools.packing.pack k) ∧
        (coinProject.registry.WidthsFit → k.RowsFit →
          OpenContainer.ofPacked coinProject.tools.packing coinProject.registry
            (coinProject.tools.packing.pack k) = .ok ⟨coinProject.registry, k, .empty⟩) := by
  have hnames : coins.files.HasNames := by decide +kernel
  have hnone : (coins.files.at? coinProject.manifestPath).isNone := by decide +kernel
  -- both runs are evaluated together, since the second starts with the first
  have hruns : (coinProject.sync.outcome coins).1.toOption.isSome ∧
      (coinProject.sync.outcome (coinProject.sync.outcome coins).2).1.toOption.map
        (·.data.isNone) = some true := by decide +kernel
  obtain ⟨first, hfirst⟩ := Option.isSome_iff_exists.1 hruns.1
  obtain ⟨second, hsecond, hdata⟩ := Option.map_eq_some_iff.1 hruns.2
  have hw : coinProject.Trusted (coinProject.sync.outcome coins).2 :=
    .sync (.start hnames (Option.isNone_iff_eq_none.1 hnone)) (Prod.ext (toOption_eq_some.1 hfirst) rfl)
  have hsync : coinProject.sync.Answers (coinProject.sync.outcome coins).2 second _ :=
    Prod.ext (toOption_eq_some.1 hsecond) rfl
  exact ⟨_, _, _, ofFiles_coinFiles, hasOwnPlaces_coinProject, hw, hsync,
    Option.isNone_iff_eq_none.1 hdata,
    data_of_sync ofFiles_coinFiles hasOwnPlaces_coinProject hw hsync⟩

end Project

end RecordTables
