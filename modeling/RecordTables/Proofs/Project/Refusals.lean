import RecordTables.Exchange.Tools
import RecordTables.Proofs.Files.Paths
import RecordTables.Proofs.Project.Survey

/-!
# What a failed synchronization leaves behind

A synchronization that fails leaves all files as they were, unless the survey passed and the file
system failed afterwards, or something stopped it that the survey does not look at
(`Project.sync_fails`).  `Survey.Overlooked` lists what that can be.

* The records of a type without a table cannot be written as one, which is seen when the tables of
  the types before it have been made.
* A store in files refuses what records in memory allow: an identifier that cannot name a file, or
  a file in the way of a new one.
* The manifest cannot be read.
* The records make no container.  The survey bakes them only if a plan has something to do.
-/

namespace RecordTables

open Step

/-! ### Faults of the file system -/

/-- The file system failed. -/
def ProjectError.IsIo : ProjectError → Prop
  | .sheet .io | .store .io | .execute (.store .io) | .dataFile .io | .artifact => True
  | _ => False

namespace Artifacts

variable {ε : Type} {P : ε → Prop} {fault : ε}

theorem start_blames (h : P fault) (staging : Path) : (start fault staging).Blames P := by
  refine blames_get.bind fun files => ?_
  dsimp only
  split_ifs
  · exact (blames_change h _).bind fun _ => blames_change h _
  · exact blames_change h _

theorem write_blames (h : P fault) (staging : Path) (name : String) (content : List UInt8) :
    (write fault staging name content).Blames P :=
  (blames_change h _).bind fun _ => blames_change h _

theorem moveAll_blames (h : P fault) (target staging : Path) (places : List (List String)) :
    (moveAll fault target staging places).Blames P := by
  induction places with
  | nil => exact blames_pure _
  | cons place places ih =>
    exact (blames_change h _).bind fun _ => (blames_change h _).bind fun _ => ih

theorem discard_blames (staging : Path) : (discard staging : Run ε Unit).Blames P :=
  blames_modify _

theorem commit_blames (h : P fault) (target staging : Path) :
    (commit fault target staging).Blames P := by
  refine blames_get.bind fun files => Blames.bind ?_ fun _ => blames_pure _
  refine Blames.rethrow ?_ fun _ => discard_blames staging
  exact (blames_change h _).bind fun _ => (moveAll_blames h _ _ _).bind fun _ => blames_change h _

/-- Files are generated unless the file system fails, or they cannot be staged. -/
theorem produce_blames (h : P fault) (target : Path) {fill : Path → Run ε Unit}
    (hfill : ∀ staging, (fill staging).Blames P) : (produce fault target fill).Blames P := by
  refine (start_blames h _).bind fun _ => Blames.bind ?_ fun _ => commit_blames h _ _
  exact (hfill _).rethrow fun _ => discard_blames _

end Artifacts

theorem Manifest.isName_fileName : Path.IsName Manifest.fileName where
  noSlash := by decide
  ne_empty := by decide
  ne_dot := by decide
  ne_dots := by decide

/-- A manifest is written unless the file system fails. -/
theorem Manifest.save_blames (directory : Path) (m : Manifest) :
    (Manifest.save directory m).Blames (· = .io) := by
  have hron : DataNotation.ofPath (directory.join Manifest.fileName) = .ok .ron :=
    DataNotation.ofPath_join directory Manifest.isName_fileName (by decide)
  unfold Manifest.save DataFile.save
  refine Blames.bind ?_ fun text => Blames.bind (blames_change ?_ _) fun _ => blames_change ?_ _
  rotate_left
  · rfl
  · rfl
  intro s e s' h
  unfold DataFile.render at h
  rw [hron] at h
  cases (fails_lift.1 h).1

namespace Project

variable {p : Project} {w w' : Workspace} {e : ProjectError}

theorem saveSheet_blames (path : Path) (s : Sheet) :
    (saveSheet path s).Blames ProjectError.IsIo := by
  refine (Blames.within (blames_change ?_ _)).bind fun _ =>
    (Blames.within (blames_change ?_ _)).bind fun _ => Blames.within (blames_change ?_ _)
  all_goals trivial

theorem saveManifest_blames (p : Project) (m : Manifest) :
    (p.saveManifest m).Blames ProjectError.IsIo := by
  unfold saveManifest Workspace.onFiles
  refine Blames.within ?_
  intro files e files' h
  obtain ⟨fault, hfails, rfl⟩ := fails_mapError.1 h
  rw [Manifest.save_blames _ _ _ _ _ hfails]
  trivial

/-! ### Reading what is there -/

theorem loadTypes_fails {types : List String} {c : Catalog}
    (h : (p.loadTypes types c).Fails w e w') :
    ∃ q fault, FileStore.readRecord p.config.recordsDirectory q w'.files = .error fault ∧
      e = .store fault := by
  induction types generalizing c w with
  | nil => exact absurd h not_fails_pure
  | cons recordType types ih =>
    rcases fails_bind.1 h with hfails | ⟨set, w₁, -, hrest⟩
    · obtain ⟨fault, hfault, rfl⟩ := fails_mapError.1 hfails
      obtain ⟨t, ht, rfl⟩ := fails_within.1 hfault
      obtain ⟨q, hq⟩ := FileStore.load_fails ht
      exact ⟨q, fault, hq, rfl⟩
    · exact ih hrest

/-- All records are read unless a record file cannot be. -/
theorem loadCatalog_fails (h : p.loadCatalog.Fails w e w') :
    ∃ q fault, FileStore.readRecord p.config.recordsDirectory q w'.files = .error fault ∧
      e = .store fault := by
  rcases fails_bind.1 h with hfails | ⟨-, w₁, -, hrest⟩
  · exact absurd hfails (blames_modify (P := fun _ => False) _ _ _ _)
  · exact loadTypes_fails hrest

theorem manifest_fails (h : p.manifest.Fails w e w') :
    w' = w ∧ ∃ fault, Manifest.load w.files p.config.outputDirectory = .error fault ∧
      e = .dataFile fault := by
  unfold manifest at h
  rw [fails_get_bind] at h
  obtain ⟨⟨fault, hload, rfl⟩, rfl⟩ := fails_ofExcept.1 h
  exact ⟨rfl, fault, hload, rfl⟩

theorem dataIsStale_fails (h : p.dataIsStale.Fails w e w') :
    w' = w ∧ ∃ fault, Manifest.load w.files p.config.outputDirectory = .error fault ∧
      e = .dataFile fault := by
  rcases fails_bind.1 h with hfails | ⟨m, w₁, -, hfails⟩
  · exact manifest_fails hfails
  · exact absurd hfails not_fails_pure

/-! ### What the store refuses -/

/-- A request to a store in files is refused because the file system fails, or the files are not
what it needs. -/
theorem request_fails {root : Path} {recordType : String} {request : Execution.Request}
    {t t' : FileStore} {fault : StoreError}
    (h : (request.run (FileStore.store root) recordType).Fails t fault t') :
    fault = .io ∨ FileStore.Refusal root t'.files request.names fault := by
  cases request with
  | rename guid identifier => exact FileStore.rename_fails h
  | update r => exact FileStore.update_fails h
  | create r => exact FileStore.create_fails h
  | delete guid => exact FileStore.delete_fails h

theorem stampRecords_fails {set : RecordSet} {rows : List Row}
    (h : (p.stampRecords set rows).Fails w e w') :
    e.IsIo ∨ ∃ fault, FileStore.Refusal p.config.recordsDirectory w'.files [] fault ∧
      e = .store fault := by
  induction rows generalizing w with
  | nil => exact absurd h not_fails_pure
  | cons row rows ih =>
    unfold stampRecords at h
    split at h
    · next r hr =>
      split_ifs at h with hhash
      · rcases fails_bind.1 h with hfails | ⟨_, w₁, -, hrest⟩
        · obtain ⟨fault, hfault, rfl⟩ := fails_mapError.1 hfails
          obtain ⟨t, ht, rfl⟩ := fails_within.1 hfault
          rcases FileStore.update_fails ht with rfl | hrefused
          · exact Or.inl trivial
          · exact Or.inr ⟨fault, hrefused, rfl⟩
        · exact ih hrest
      · exact ih h
    · exact ih h

/-- Missing tables are made unless the file system fails, records cannot be written as a table, or
records cannot be stamped. -/
theorem exportAll_fails {c : Catalog} {absent : List (Path × RecordSet)}
    (h : (p.exportAll c absent).Fails w e w') :
    e.IsIo ∨
      (∃ x ∈ absent, ∃ fault, Sheet.ofRecords ⟨p.registry, c.references⟩ x.2 = .error fault ∧
        e = .sheet fault) ∨
      ∃ fault, FileStore.Refusal p.config.recordsDirectory w'.files [] fault ∧ e = .store fault := by
  induction absent generalizing w with
  | nil => exact absurd h not_fails_pure
  | cons x absent ih =>
    unfold exportAll at h
    rcases fails_bind.1 h with hfails | ⟨sheet, w₁, -, hrest⟩
    · obtain ⟨⟨fault, hfault, rfl⟩, -⟩ := fails_ofExcept.1 hfails
      exact Or.inr (Or.inl ⟨x, List.mem_cons_self, fault, hfault, rfl⟩)
    rcases fails_bind.1 hrest with hfails | ⟨-, w₂, -, hrest⟩
    · exact Or.inl (saveSheet_blames _ _ _ _ _ hfails)
    rcases fails_bind.1 hrest with hfails | ⟨-, w₃, -, hrest⟩
    · exact (stampRecords_fails hfails).imp_right Or.inr
    rcases fails_bind.1 hrest with hfails | ⟨names, w₄, -, hfails⟩
    · rcases ih hfails with hio | ⟨y, hy, hfault⟩ | hrefused
      · exact Or.inl hio
      · exact Or.inr (Or.inl ⟨y, List.mem_cons_of_mem _ hy, hfault⟩)
      · exact Or.inr (Or.inr hrefused)
    · exact absurd hfails not_fails_pure

/-- A grounded plan is carried out unless the file system fails or the store refuses a request. -/
theorem applyOne_fails {ctx : Cell.Context} {x : TableWork × Plan}
    (hgrounded : Execution.Grounded ctx x.2 x.1.sheet.rows x.1.records)
    (h : (p.applyOne ctx x).Fails w e w') :
    e.IsIo ∨ x.2.actions ≠ [] ∧
      ∃ fault, FileStore.Refusal p.config.recordsDirectory w'.files
        (Execution.namesGiven x.2 x.1.sheet.rows) fault ∧ e = .execute (.store fault) := by
  rcases fails_bind.1 h with hfails | ⟨report, w₁, -, hrest⟩
  · obtain ⟨fault, hfault, rfl⟩ := fails_mapError.1 hfails
    obtain ⟨t, ht, rfl⟩ := fails_within.1 hfault
    have hacts : x.2.actions ≠ [] := by
      intro hnil
      obtain ⟨report, hanswers⟩ := Execution.apply_of_actions_nil hnil w.store
      cases (congrArg Prod.fst (hanswers.symm.trans ht))
    obtain ⟨request, t₀, refusal, hnames, hrefused, rfl⟩ := Execution.apply_fails hgrounded ht
    rcases request_fails hrefused with rfl | hrefusal
    · exact Or.inl trivial
    · exact Or.inr ⟨hacts, refusal, hrefusal.mono hnames, rfl⟩
  · split_ifs at hrest
    · rcases fails_bind.1 hrest with hfails | ⟨_, w₂, -, hfails⟩
      · exact Or.inl (saveSheet_blames _ _ _ _ _ hfails)
      · exact absurd hfails not_fails_pure
    · exact absurd hrest not_fails_pure

/-- Grounded plans are carried out unless the file system fails or the store refuses a request. -/
theorem applyAll_fails {ctx : Cell.Context} {planned : List (TableWork × Plan)}
    (hgrounded : ∀ x ∈ planned, Execution.Grounded ctx x.2 x.1.sheet.rows x.1.records)
    (h : (p.applyAll ctx planned).Fails w e w') :
    e.IsIo ∨ ∃ x ∈ planned, x.2.actions ≠ [] ∧
      ∃ fault, FileStore.Refusal p.config.recordsDirectory w'.files
        (Execution.namesGiven x.2 x.1.sheet.rows) fault ∧ e = .execute (.store fault) := by
  induction planned generalizing w with
  | nil => exact absurd h not_fails_pure
  | cons x planned ih =>
    obtain ⟨hgroundedOne, hothers⟩ := List.forall_mem_cons.1 hgrounded
    rw [applyAll_cons] at h
    rcases fails_bind.1 h with hfails | ⟨report, w₁, -, hrest⟩
    · exact (applyOne_fails hgroundedOne hfails).imp_right fun h => ⟨x, List.mem_cons_self, h⟩
    rcases fails_bind.1 hrest with hfails | ⟨reports, w₂, -, hfails⟩
    · refine (ih hothers hfails).imp_right ?_
      rintro ⟨y, hy, hrefused⟩
      exact ⟨y, List.mem_cons_of_mem _ hy, hrefused⟩
    · exact absurd hfails not_fails_pure

/-! ### Generating data -/

/-- Data is generated unless the file system fails, a record file cannot be read, the records make
no container, or the manifest cannot be read.  In the second and the third case the files are as they
were. -/
theorem emitData_fails (h : p.emitData.Fails w e w') :
    e.IsIo ∨
      (w'.files = w.files ∧ ∃ q fault,
        FileStore.readRecord p.config.recordsDirectory q w'.files = .error fault ∧
          e = .store fault) ∨
      (w'.files = w.files ∧ ∃ c fault, p.loadCatalog.Answers w c w' ∧
        Container.bake p.registry c = .error fault ∧ e = .container fault) ∨
      ∃ fault, Manifest.load w'.files p.config.outputDirectory = .error fault ∧
        e = .dataFile fault := by
  unfold emitData at h
  rcases fails_bind.1 h with hfails | ⟨c, w₁, hcatalog, hrest⟩
  · exact Or.inr (Or.inl ⟨(loadCatalog_keeps p).fails hfails, loadCatalog_fails hfails⟩)
  -- from here on the records are loaded and no file is touched until the data is produced
  have hfiles := (loadCatalog_keeps p).answers hcatalog
  rcases fails_bind.1 hrest with hfails | ⟨k, w₂, -, hrest⟩
  · obtain ⟨⟨fault, hbake, rfl⟩, rfl⟩ := fails_ofExcept.1 hfails
    exact Or.inr (Or.inr (Or.inl ⟨hfiles, c, fault, hcatalog, hbake, rfl⟩))
  rcases fails_bind.1 hrest with hfails | ⟨artifacts, w₃, -, hrest⟩
  · refine Or.inl (Blames.within (Artifacts.produce_blames ?_ _ fun staging => ?_) _ _ _ hfails)
    · trivial
    · exact Artifacts.write_blames trivial _ _ _
  rcases fails_bind.1 hrest with hfails | ⟨m, w₄, -, hrest⟩
  · obtain ⟨rfl, hmanifest⟩ := manifest_fails hfails
    exact Or.inr (Or.inr (Or.inr hmanifest))
  rcases fails_bind.1 hrest with hfails | ⟨-, w₅, -, hfails⟩
  · exact Or.inl (saveManifest_blames _ _ _ _ _ hfails)
  · exact absurd hfails not_fails_pure

/-! ### Nothing to do -/

/-- A plan without actions leaves everything as it was. -/
theorem apply_keeps_of_actions_nil {τ : Type} {f : Workspace → τ} {ctx : Cell.Context} {plan : Plan}
    {rows : List Row} {records : RecordSet} (h : plan.actions = []) :
    ((Workspace.onStore (Execution.apply ctx p.records plan rows records)).mapError
      ProjectError.execute).Keeps f := by
  refine Keeps.mapError ?_ _
  intro w
  obtain ⟨report, hanswers⟩ := Execution.apply_of_actions_nil h w.store
  unfold Workspace.onStore
  rw [outcome_within, hanswers]

/-- Plans without actions write no more than the tables that get GUIDs. -/
theorem applyAll_keeps {τ : Type} {f : Workspace → τ} {ctx : Cell.Context}
    {planned : List (TableWork × Plan)} (hidle : ∀ x ∈ planned, x.2.actions = [])
    (hsheets : ∀ x ∈ planned, x.2.backfilled ≠ [] → ∀ s, (saveSheet x.1.path s).Keeps f) :
    (p.applyAll ctx planned).Keeps f := by
  induction planned with
  | nil => exact keeps_pure _
  | cons x planned ih =>
    obtain ⟨hactions, hidle⟩ := List.forall_mem_cons.1 hidle
    obtain ⟨hsheet, hsheets⟩ := List.forall_mem_cons.1 hsheets
    have hone : (p.applyOne ctx x).Keeps f := by
      refine (apply_keeps_of_actions_nil hactions).bind fun report => ?_
      dsimp only
      split_ifs with hsave
      · refine Keeps.bind (hsheet ?_ _) fun _ => keeps_pure _
        simpa [hactions] using hsave
      · exact keeps_pure _
    rw [applyAll_cons]
    exact hone.bind fun _ => (ih hidle hsheets).bind fun _ => keeps_pure _

end Project

/-! ### What the survey does not look at -/

namespace Survey

/-- A record or a table has to be written. -/
def Acts (s : Survey) : Prop :=
  s.absent ≠ [] ∨ ∃ x ∈ s.planned, x.2.actions ≠ [] ∨ x.2.backfilled ≠ []

/-- What stops a synchronization after the survey, with `files` as they are then, though the file
system does its work. -/
inductive Overlooked (s : Survey) (p : Project) (files : FileTree) : ProjectError → Prop
  /-- The records of a type cannot be written as a table; other tables have been made by then. -/
  | unwritable {x : Path × RecordSet} {fault : SheetError} (hx : x ∈ s.absent.tail)
      (h : Sheet.ofRecords ⟨p.registry, s.catalog.references⟩ x.2 = .error fault) :
      Overlooked s p files (.sheet fault)
  /-- A record of a new table cannot get the hash of its row. -/
  | unstamped {fault : StoreError} (habsent : s.absent ≠ [])
      (h : FileStore.Refusal p.config.recordsDirectory files [] fault) :
      Overlooked s p files (.store fault)
  /-- The store refuses a request of a plan. -/
  | refused {x : Project.TableWork × Plan} {fault : StoreError} (hx : x ∈ s.planned)
      (hacts : x.2.actions ≠ [])
      (h : FileStore.Refusal p.config.recordsDirectory files
        (Execution.namesGiven x.2 x.1.sheet.rows) fault) :
      Overlooked s p files (.execute (.store fault))
  /-- The manifest cannot be read. -/
  | manifest {fault : DataFileError}
      (h : Manifest.load files p.config.outputDirectory = .error fault) :
      Overlooked s p files (.dataFile fault)
  /-- A record that was written cannot be read. -/
  | unread {q : Path} {fault : StoreError} (hacts : s.Acts)
      (h : FileStore.readRecord p.config.recordsDirectory q files = .error fault) :
      Overlooked s p files (.store fault)
  /-- The records make no container. -/
  | unbaked {w w' : Workspace} {c : Catalog} {fault : ContainerError} (hacts : s.Acts)
      (hfiles : w.files = files) (hcatalog : p.loadCatalog.Answers w c w')
      (h : Container.bake p.registry c = .error fault) :
      Overlooked s p files (.container fault)

end Survey

namespace Project

variable {p : Project} {w w' : Workspace} {e : ProjectError} {s : Survey}

/-- The first missing table is the only one that can turn out to be unwritable before anything is
written. -/
theorem exportAll_overlooked (h : (p.exportAll s.catalog s.absent).Fails w e w') :
    w'.files = w.files ∨ s.Overlooked p w'.files e ∨ e.IsIo := by
  cases habsent : s.absent with
  | nil =>
    rw [habsent] at h
    exact absurd h not_fails_pure
  | cons x absent =>
    have hne : s.absent ≠ [] := by rw [habsent]; exact List.cons_ne_nil _ _
    rw [habsent] at h
    unfold exportAll at h
    rcases fails_bind.1 h with hfails | ⟨sheet, w₁, -, hrest⟩
    · exact Or.inl (by rw [(fails_ofExcept.1 hfails).2])
    rcases fails_bind.1 hrest with hfails | ⟨_, w₂, -, hrest⟩
    · exact Or.inr (Or.inr (saveSheet_blames _ _ _ _ _ hfails))
    rcases fails_bind.1 hrest with hfails | ⟨_, w₃, -, hrest⟩
    · rcases stampRecords_fails hfails with hio | ⟨fault, hrefused, rfl⟩
      · exact Or.inr (Or.inr hio)
      · exact Or.inr (Or.inl (.unstamped hne hrefused))
    -- the first table is made, and it is one of the others that fails
    rcases fails_bind.1 hrest with hfails | ⟨names, w₄, -, hfails⟩
    · rcases exportAll_fails hfails with hio | ⟨y, hy, fault, hfault, rfl⟩ | ⟨fault, hrefused, rfl⟩
      · exact Or.inr (Or.inr hio)
      · refine Or.inr (Or.inl (.unwritable ?_ hfault))
        rw [habsent]
        exact hy
      · exact Or.inr (Or.inl (.unstamped hne hrefused))
    · exact absurd hfails not_fails_pure

/-- What was carried out before the data is looked at changed no file, or there was something to
do. -/
theorem files_of_applyAll {ctx : Cell.Context} {exported : List String}
    {tables : List ExecutionReport} {w₁ : Workspace}
    (hexport : (p.exportAll s.catalog s.absent).Answers w exported w₁)
    (happly : (p.applyAll ctx s.planned).Answers w₁ tables w') :
    s.Acts ∨ w'.files = w.files := by
  by_cases hacts : s.Acts
  · exact Or.inl hacts
  refine Or.inr ?_
  have habsent : s.absent = [] := by
    by_contra hne
    exact hacts (Or.inl hne)
  rw [habsent] at hexport
  obtain ⟨-, rfl⟩ := answers_pure_iff.1 hexport
  refine (applyAll_keeps (fun x hx => ?_) fun x hx hne => ?_).answers happly
  · by_contra hne
    exact hacts (Or.inr ⟨x, hx, Or.inl hne⟩)
  · exact absurd (Or.inr ⟨x, hx, Or.inr hne⟩) hacts

/-- Data is generated last, so by then something has been written if there was anything to do. -/
theorem emitPending_overlooked {regen : RegenState} {w₀ : Workspace}
    (hfiles : s.Acts ∨ w.files = w₀.files) (h : (p.emitPending regen).Fails w e w') :
    w'.files = w₀.files ∨ s.Overlooked p w'.files e ∨ e.IsIo := by
  rcases emitData_fails (emitData_fails_of_emitPending h) with hio | ⟨hsame, q, fault, hread, rfl⟩ |
    ⟨hsame, c, fault, hcatalog, hbake, rfl⟩ | ⟨fault, hload, rfl⟩
  · exact Or.inr (Or.inr hio)
  · rcases hfiles with hacts | hfiles
    · exact Or.inr (Or.inl (.unread hacts hread))
    · exact Or.inl (hsame.trans hfiles)
  · rcases hfiles with hacts | hfiles
    · exact Or.inr (Or.inl (.unbaked hacts hsame.symm hcatalog hbake))
    · exact Or.inl (hsame.trans hfiles)
  · exact Or.inr (Or.inl (.manifest hload))

theorem carryOut_fails
    (hgrounded : ∀ x ∈ s.planned,
      Execution.Grounded (s.context p) x.2 x.1.sheet.rows x.1.records)
    (h : (p.carryOut s).Fails w e w') :
    w'.files = w.files ∨ s.Overlooked p w'.files e ∨ e.IsIo := by
  unfold carryOut at h
  rcases fails_bind.1 h with hfails | ⟨exported, w₁, hexport, hrest⟩
  · exact exportAll_overlooked hfails
  rcases fails_bind.1 hrest with hfails | ⟨tables, w₂, happly, hrest⟩
  · rcases applyAll_fails hgrounded hfails with hio | ⟨x, hx, hacts, fault, hrefused, rfl⟩
    · exact Or.inr (Or.inr hio)
    · exact Or.inr (Or.inl (.refused hx hacts hrefused))
  have hfiles := files_of_applyAll hexport happly
  rcases fails_bind.1 hrest with hfails | ⟨stale, w₃, hstale, hrest⟩
  · obtain ⟨rfl, fault, hload, rfl⟩ := dataIsStale_fails hfails
    exact hfiles.elim (fun _ => Or.inr (Or.inl (.manifest hload))) Or.inl
  have hsame := (dataIsStale_keeps p Workspace.files).answers hstale
  rw [← hsame] at hfiles
  rcases fails_bind.1 hrest with hfails | ⟨data, w₄, -, hfails⟩
  · exact emitPending_overlooked hfiles hfails
  · exact absurd hfails not_fails_pure

/-- **A failed synchronization.**  It leaves all files as they were, unless the survey passed and
something stopped it that the survey does not look at, or the file system failed. -/
theorem sync_fails (h : p.sync.Fails w e w') :
    w'.files = w.files ∨
      ∃ s w₁, p.survey.Answers w s w₁ ∧ (s.Overlooked p w'.files e ∨ e.IsIo) := by
  rw [sync_eq] at h
  rcases fails_bind.1 h with hfails | ⟨s, w₁, hsurvey, hfails⟩
  · exact Or.inl ((survey_keeps p).fails hfails)
  · rw [← (survey_keeps p).answers hsurvey]
    exact (carryOut_fails (isSurvey_of_answers hsurvey).grounded hfails).imp_right
      fun hlate => ⟨s, w₁, hsurvey, hlate⟩

/-! ### A manifest that cannot be read -/

/-- A project with one record type and the usual directories. -/
def tinyProject : Project where
  tools := .atHand
  config :=
    { schemaDirectory := .ofText "schema"
      tablesDirectory := .ofText "tables"
      recordsDirectory := .ofText "records"
      outputDirectory := .ofText "generated"
      identifierProperty := "Identifier"
      assetLinking := false
      outputNamespace := "Params"
      compiler := none }
  registry := { (default : Registry) with types := [⟨"Item", .record, [], []⟩] }
  isCancelled := false

/-- Nothing but a manifest that consists of an opening parenthesis. -/
def brokenManifest : Workspace where
  store := .ofFiles (.directory [("generated", .directory [("manifest.ron", .file [40])])])
  supply := .numbered "guid"

/-- The table of the record type is made before the manifest is looked at. -/
theorem sync_fails_brokenManifest :
    ∃ e w', tinyProject.sync.Fails brokenManifest e w' ∧ ¬e.IsIo ∧
      w'.files ≠ brokenManifest.files ∧
      ∃ s w₁, tinyProject.survey.Answers brokenManifest s w₁ ∧
        s.Overlooked tinyProject w'.files e := by
  have houtcome : ∃ q, (tinyProject.sync.outcome brokenManifest).1 =
      .error (.dataFile (.malformed q)) := by
    have hfault : (match (tinyProject.sync.outcome brokenManifest).1 with
      | .error (.dataFile (.malformed _)) => true
      | _ => false) = true := by decide +kernel
    split at hfault
    · next q heq => exact ⟨q, heq⟩
    · cases hfault
  obtain ⟨q, hq⟩ := houtcome
  have hfails : tinyProject.sync.Fails brokenManifest (.dataFile (.malformed q))
    (tinyProject.sync.outcome brokenManifest).2 := Prod.ext hq rfl
  have hchanged : (tinyProject.sync.outcome brokenManifest).2.files.files.map (·.1) ≠
      brokenManifest.files.files.map (·.1) := by decide +kernel
  have hne : (tinyProject.sync.outcome brokenManifest).2.files ≠ brokenManifest.files :=
    fun heq => hchanged (by rw [heq])
  obtain ⟨s, w₁, hsurvey, hlate⟩ := (sync_fails hfails).resolve_left hne
  exact ⟨_, _, hfails, id, hne, s, w₁, hsurvey, hlate.resolve_right id⟩

end Project

end RecordTables
