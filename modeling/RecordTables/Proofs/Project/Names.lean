import RecordTables.Proofs.Files.Invariants
import RecordTables.Proofs.Outcome
import RecordTables.Proofs.Project.Refusals
import RecordTables.Proofs.Registration
import RecordTables.Proofs.Store.Serves
import RecordTables.Store.Files

/-!
# Projects whose files have names

Whatever a store in files is asked to do, and whether it does it or fails, the files below
directories keep names that a path can lead to (`FileStore.store_tidy`): the store writes files at
clean paths only, and those where it has seen records are clean as well.

A project that was loaded has clean paths (`Project.hasCleanPaths_of_ofFiles`).  Then a synchronization
leaves files that have names, whether it succeeds or fails (`Project.hasNames_sync`).

Its registry was built (`Project.exists_build_of_ofFiles`) from declarations that were registered one
after the other, so it is sound (`Project.isSound_of_ofFiles`).
-/

namespace RecordTables

open Step
open FileTree (hereditary_hasNames)

/-! ### Stored records -/

namespace FileStore

variable {root directory p : Path} {recordType : String} {guid : Guid}

/-- The files have names, and records were seen at clean paths. -/
structure Tidy (s : FileStore) : Prop where
  names : s.files.HasNames
  seen : ∀ e ∈ s.seen, e.2.IsClean

theorem remember_tidy (hp : p.IsClean) :
    (remember recordType guid p).Ensures Tidy fun _ => True :=
  ensures_modify fun _ hs => ⟨hs.names, List.forall_mem_cons.2 ⟨hp, hs.seen⟩⟩

theorem forget_tidy : (forget recordType guid).Ensures Tidy fun _ => True :=
  ensures_modify fun _ hs => ⟨hs.names, fun e he => hs.seen e (List.mem_of_mem_filter he)⟩

theorem change_tidy {f : FileTree → Option FileTree}
    (h : ∀ t t', f t = some t' → t.HasNames → t'.HasNames) :
    (change f).Ensures Tidy fun _ => True := by
  refine ensures_change fun s s' hs' hs => ?_
  obtain ⟨files, hfiles, rfl⟩ := Option.map_eq_some_iff.1 hs'
  exact ⟨h _ _ hfiles hs.names, hs.seen⟩

theorem writeRecord_tidy (hp : p.IsClean) (r : Record) :
    (writeRecord p r).Ensures Tidy fun _ => True :=
  (change_tidy fun _ _ h ht => hereditary_hasNames.makeDirectories? hp.parent ht h).bind fun _ _ =>
    change_tidy fun _ _ h ht => hereditary_hasNames.write? hp ht h

theorem isClean_of_fileFor {identifier : String} {directory : String} (hroot : root.IsClean)
    (h : fileFor root directory identifier = .ok p) : p.IsClean := by
  unfold fileFor at h
  split_ifs at h
  rw [← Except.ok.inj h]
  exact (hroot.join _).join _

theorem loadPlaces_tidy (hdirectory : directory.IsClean) (places : List (List String))
    (set : RecordSet) :
    (loadPlaces root directory recordType places set).Ensures Tidy fun _ => True := by
  induction places generalizing set with
  | nil => exact ensures_pure trivial
  | cons place places ih =>
    unfold loadPlaces
    refine ensures_get.bind fun s _ => ?_
    split
    · exact ensures_throw _
    · exact (remember_tidy (hdirectory.foldl_join place)).bind fun _ _ => ih _

section Root

variable (hroot : root.IsClean)

include hroot

theorem load_tidy (recordType : String) : (load root recordType).Ensures Tidy fun _ => True :=
  ensures_get.bind fun _ _ => loadPlaces_tidy (hroot.join _) _ _

/-- A record is found at a clean path. -/
theorem locate_tidy (recordType : String) (guid : Guid) :
    (locate root recordType guid).Ensures Tidy Path.IsClean := by
  have hseen {s : FileStore} (hs : s.Tidy) {q : Path}
      (hq : s.seen.lookup (recordType, guid) = some q) : q.IsClean :=
    hs.seen ((recordType, guid), q) (mem_of_lookup hq)
  unfold locate
  refine ensures_get.bind fun s hs => ?_
  split
  · next q hq => exact ensures_pure (hseen hs (Option.filter_eq_some_iff.1 hq).1)
  · refine (load_tidy hroot recordType).bind fun _ _ => ensures_get.bind fun s' hs' => ?_
    exact ensures_ofOption fun q hq => hseen hs' hq

theorem create_tidy (recordType : String) (r : Record) :
    (create root recordType r).Ensures Tidy fun _ => True := by
  unfold create
  refine Ensures.bind (Q := Path.IsClean) (ensures_lift fun q hq => isClean_of_fileFor hroot hq)
    fun q hq => ensures_get.bind fun s _ => ?_
  have hwrite : (do writeRecord q r; remember recordType r.guid q : Run Unit).Ensures Tidy
      fun _ => True := (writeRecord_tidy hq r).bind fun _ _ => remember_tidy hq
  split_ifs
  · exact Ensures.bind (Q := fun _ => True) (ensures_throw _) fun _ _ => hwrite
  · exact hwrite

theorem update_tidy (recordType : String) (r : Record) :
    (update root recordType r).Ensures Tidy fun _ => True := by
  unfold update
  refine (locate_tidy hroot recordType r.guid).bind fun q hq => ensures_get.bind fun s _ => ?_
  exact Ensures.bind (Q := fun _ => True) (ensures_lift fun _ _ => trivial)
    fun current _ => writeRecord_tidy hq _

theorem rename_tidy (recordType : String) (guid : Guid) (identifier : String) :
    (rename root recordType guid identifier).Ensures Tidy fun _ => True := by
  unfold rename
  refine (locate_tidy hroot recordType guid).bind fun q hq => ensures_get.bind fun s _ => ?_
  refine Ensures.bind (Q := fun _ => True) (ensures_lift fun _ _ => trivial) fun r _ => ?_
  split_ifs
  · exact ensures_pure trivial
  refine Ensures.bind (Q := Path.IsClean) (ensures_lift fun q hq => isClean_of_fileFor hroot hq)
    fun target htarget => ensures_get.bind fun s _ => ?_
  have hmove : (do writeRecord target { r with identifier }; change (·.removeFile? q)
                   remember recordType guid target : Run Unit).Ensures Tidy fun _ => True :=
    (writeRecord_tidy htarget _).bind fun _ _ =>
      (change_tidy fun _ _ h ht => hereditary_hasNames.removeFile? hq ht h).bind fun _ _ =>
        remember_tidy htarget
  split_ifs
  · exact Ensures.bind (Q := fun _ => True) (ensures_throw _) fun _ _ => hmove
  · exact hmove

theorem delete_tidy (recordType : String) (guid : Guid) :
    (delete root recordType guid).Ensures Tidy fun _ => True := by
  unfold delete
  refine (locate_tidy hroot recordType guid).bind fun q hq => ?_
  exact (change_tidy fun _ _ h ht => hereditary_hasNames.removeFile? hq ht h).bind fun _ _ => forget_tidy

/-- **The files of a store keep their names.** -/
theorem store_tidy : (store root).Preserves Tidy where
  load := load_tidy hroot
  create := create_tidy hroot
  update := update_tidy hroot
  rename := rename_tidy hroot
  delete := delete_tidy hroot

end Root

end FileStore

/-! ### Generated files -/

namespace Artifacts

variable {ε : Type} {fault : ε} {staging target : Path}

theorem change_hasNames {f : FileTree → Option FileTree}
    (h : ∀ t t', f t = some t' → t.HasNames → t'.HasNames) :
    (Step.change fault f).Ensures FileTree.HasNames fun _ => True :=
  ensures_change h

theorem isClean_stagingFor (h : target.IsClean) : (stagingFor target).IsClean := by
  refine h.withName (Path.isPart_append ?_ (by decide) (by decide))
  rw [String.toList_append, List.mem_append, not_or]
  refine ⟨by decide, ?_⟩
  split_ifs
  · decide
  · exact Path.noSlash_name target h

theorem start_hasNames (h : staging.IsClean) :
    (start fault staging).Ensures FileTree.HasNames fun _ => True := by
  have hmake : (Step.change fault (·.makeDirectories? staging)).Ensures FileTree.HasNames
      fun _ => True := change_hasNames fun _ _ hmake ht => hereditary_hasNames.makeDirectories? h ht hmake
  unfold start
  refine ensures_get.bind fun t _ => ?_
  dsimp only
  split_ifs
  · exact (change_hasNames fun _ _ hremove ht => hereditary_hasNames.removeDirectory? h ht hremove).bind
      fun _ _ => hmake
  · exact hmake

theorem write_hasNames (h : staging.IsClean) (name : String) (content : List UInt8) :
    (write fault staging name content).Ensures FileTree.HasNames fun _ => True :=
  (change_hasNames fun _ _ hmake ht =>
    hereditary_hasNames.makeDirectories? (h.join name).parent ht hmake).bind fun _ _ =>
      change_hasNames fun _ _ hwrite ht => hereditary_hasNames.write? (h.join name) ht hwrite

theorem moveAll_hasNames (htarget : target.IsClean) (hstaging : staging.IsClean)
    (places : List (List String)) :
    (moveAll fault target staging places).Ensures FileTree.HasNames fun _ => True := by
  induction places with
  | nil => exact ensures_pure trivial
  | cons place places ih =>
    have hplace := htarget.foldl_join place
    refine (change_hasNames fun _ _ hmake ht =>
      hereditary_hasNames.makeDirectories? hplace.parent ht hmake).bind fun _ _ => ?_
    exact (change_hasNames fun _ _ hmove ht =>
      hereditary_hasNames.moveFile? (hstaging.foldl_join place) hplace ht hmove).bind fun _ _ => ih

theorem discard_hasNames (h : staging.IsClean) :
    (discard staging : Run ε Unit).Ensures FileTree.HasNames fun _ => True := by
  refine ensures_modify fun t ht => ?_
  cases hremove : t.removeDirectory? staging with
  | none => exact ht
  | some t' => exact hereditary_hasNames.removeDirectory? h ht hremove

theorem commit_hasNames (htarget : target.IsClean) (hstaging : staging.IsClean) :
    (commit fault target staging).Ensures FileTree.HasNames fun _ => True := by
  refine ensures_get.bind fun t _ => ?_
  refine Ensures.bind (Q := fun _ => True) (Ensures.tryCatch ?_ fun e => ?_) fun _ _ =>
    ensures_pure trivial
  · refine (change_hasNames fun _ _ hmake ht =>
      hereditary_hasNames.makeDirectories? htarget ht hmake).bind fun _ _ => ?_
    exact (moveAll_hasNames htarget hstaging _).bind fun _ _ =>
      change_hasNames fun _ _ hremove ht => hereditary_hasNames.removeDirectory? hstaging ht hremove
  · exact (discard_hasNames hstaging).bind fun _ _ => ensures_throw _

theorem produce_hasNames (htarget : target.IsClean) {fill : Path → Run ε Unit}
    (hfill : ∀ staging : Path, staging.IsClean →
      (fill staging).Ensures FileTree.HasNames fun _ => True) :
    (produce fault target fill).Ensures FileTree.HasNames fun _ => True := by
  have hstaging := isClean_stagingFor htarget
  unfold produce
  refine (start_hasNames hstaging).bind fun _ _ => ?_
  refine Ensures.bind (Q := fun _ => True) (Ensures.tryCatch (hfill _ hstaging) fun e => ?_)
    fun _ _ => commit_hasNames htarget hstaging
  exact (discard_hasNames hstaging).bind fun _ _ => ensures_throw _

end Artifacts

theorem DataFile.save_hasNames {p : Path} (h : p.IsClean) (x : Node) :
    (DataFile.save p x).Ensures FileTree.HasNames fun _ => True := by
  unfold DataFile.save
  refine Ensures.bind (Q := fun _ => True) (ensures_lift fun _ _ => trivial) fun text _ => ?_
  exact (ensures_change fun _ _ hmake ht =>
    hereditary_hasNames.makeDirectories? h.parent ht hmake).bind fun _ _ =>
      ensures_change fun _ _ hwrite ht => hereditary_hasNames.write? h ht hwrite

/-! ### The steps of a synchronization -/

namespace Project

variable {p : Project} {w w' : Workspace}

/-- The places of a project are at clean paths. -/
structure HasCleanPaths (p : Project) : Prop where
  tables : p.config.tablesDirectory.IsClean
  records : p.config.recordsDirectory.IsClean
  output : p.config.outputDirectory.IsClean

/-- The files have names, and records were seen at clean paths. -/
def Tidy (w : Workspace) : Prop := w.store.Tidy

theorem onFiles_tidy {ε α : Type} {step : Step FileTree ε α} {Q : α → Prop}
    (h : step.Ensures FileTree.HasNames Q) : (Workspace.onFiles step).Ensures Tidy Q :=
  h.within (fun _ hw => hw.names) fun _ _ hw ht => ⟨ht, hw.seen⟩

theorem onStore_tidy {ε α : Type} {step : Step FileStore ε α} {Q : α → Prop}
    (h : step.Ensures FileStore.Tidy Q) : (Workspace.onStore step).Ensures Tidy Q :=
  h.within (fun _ hw => hw) fun _ _ _ ht => ht

theorem ofExcept_ensures {ε α : Type} {P : Workspace → Prop} {Q : α → Prop}
    {fault : ε → ProjectError} {r : Except ε α} (h : ∀ x, r = .ok x → Q x) :
    (ofExcept fault r).Ensures P Q := by
  cases r with
  | ok x => exact ensures_pure (h x rfl)
  | error e => exact ensures_throw _

theorem ofExcept_tidy {ε α : Type} (fault : ε → ProjectError) (r : Except ε α) :
    (ofExcept fault r).Ensures Tidy fun _ => True :=
  ofExcept_ensures fun _ _ => trivial

theorem checkpoint_tidy (p : Project) (stage : String) :
    (p.checkpoint stage).Ensures Tidy fun _ => True := by
  unfold checkpoint
  split_ifs
  · exact ensures_throw _
  · exact ensures_pure trivial

theorem reconcileAll_tidy (work : List TableWork) :
    (reconcileAll work).Ensures Tidy fun planned => ∀ x ∈ planned, x.1 ∈ work := by
  unfold reconcileAll
  refine ensures_get.bind fun w _ => ?_
  refine Ensures.bind (Q := fun _ => True) (ensures_modify fun w hw => hw) fun _ _ => ?_
  split_ifs
  · exact ensures_pure fun x hx => (List.of_mem_zip hx).1
  · exact ensures_throw _

theorem saveSheet_tidy {path : Path} (h : path.IsClean) (s : Sheet) :
    (saveSheet path s).Ensures Tidy fun _ => True := by
  have hbeside : (path.withName (path.stem ++ ".tsv.tmp")).IsClean :=
    h.withName (Path.isPart_append (Path.noSlash_stem path h) (by decide) (by decide))
  refine (onFiles_tidy (ensures_change fun _ _ hmake ht => ?_)).bind fun _ _ =>
    (onFiles_tidy (ensures_change fun _ _ hwrite ht => ?_)).bind fun _ _ =>
      onFiles_tidy (ensures_change fun _ _ hmove ht => ?_)
  · exact hereditary_hasNames.makeDirectories? h.parent ht hmake
  · exact hereditary_hasNames.write? hbeside ht hwrite
  · exact hereditary_hasNames.moveFile? hbeside h ht hmove

section CleanPaths

variable (hp : p.HasCleanPaths)

include hp

theorem loadTypes_tidy (types : List String) (c : Catalog) :
    (p.loadTypes types c).Ensures Tidy fun _ => True := by
  induction types generalizing c with
  | nil => exact ensures_pure trivial
  | cons recordType types ih =>
    exact ((onStore_tidy (FileStore.load_tidy hp.records recordType)).mapError _).bind
      fun _ _ => ih _

theorem loadCatalog_tidy : p.loadCatalog.Ensures Tidy fun _ => True :=
  (ensures_modify fun _ hw => ⟨hw.names, fun _ he => nomatch he⟩).bind fun _ _ =>
    loadTypes_tidy hp _ _

theorem stampRecords_tidy (set : RecordSet) (rows : List Row) :
    (p.stampRecords set rows).Ensures Tidy fun _ => True := by
  induction rows with
  | nil => exact ensures_pure trivial
  | cons row rows ih =>
    unfold stampRecords
    split
    · split_ifs
      · exact ((onStore_tidy (FileStore.update_tidy hp.records _ _)).mapError _).bind
          fun _ _ => ih
      · exact ih
    · exact ih

theorem exportAll_tidy {c : Catalog} {absent : List (Path × RecordSet)}
    (habsent : ∀ x ∈ absent, x.1.IsClean) : (p.exportAll c absent).Ensures Tidy fun _ => True := by
  induction absent with
  | nil => exact ensures_pure trivial
  | cons x absent ih =>
    refine (ofExcept_tidy _ _).bind fun s _ => ?_
    refine (saveSheet_tidy (habsent x List.mem_cons_self) s).bind fun _ _ => ?_
    refine (stampRecords_tidy hp _ _).bind fun _ _ => ?_
    exact (ih fun y hy => habsent y (List.mem_cons_of_mem _ hy)).bind fun _ _ =>
      ensures_pure trivial

theorem applyAll_tidy {ctx : Cell.Context} {planned : List (TableWork × Plan)}
    (hplanned : ∀ x ∈ planned, x.1.path.IsClean) :
    (p.applyAll ctx planned).Ensures Tidy fun _ => True := by
  induction planned with
  | nil => exact ensures_pure trivial
  | cons x planned ih =>
    obtain ⟨hclean, hplanned⟩ := List.forall_mem_cons.1 hplanned
    have hone : (p.applyOne ctx x).Ensures Tidy fun _ => True := by
      have happly := @Execution.apply_ensures _ _ _ x.1.sheet.rows x.1.records ctx x.2
        (FileStore.store_tidy hp.records)
      refine ((onStore_tidy happly).mapError _).bind fun report _ => ?_
      dsimp only
      split_ifs
      · exact (saveSheet_tidy hclean _).bind fun _ _ => ensures_pure trivial
      · exact ensures_pure trivial
    rw [applyAll_cons]
    exact hone.bind fun _ _ => (ih hplanned).bind fun _ _ => ensures_pure trivial

theorem saveManifest_tidy (m : Manifest) : (p.saveManifest m).Ensures Tidy fun _ => True :=
  onFiles_tidy ((DataFile.save_hasNames (hp.output.join _) _).mapError _)

theorem emitData_tidy : p.emitData.Ensures Tidy fun _ => True := by
  unfold emitData
  refine (loadCatalog_tidy hp).bind fun c _ => (ofExcept_tidy _ _).bind fun k _ => ?_
  refine (onFiles_tidy (Artifacts.produce_hasNames hp.output fun staging hstaging =>
    Artifacts.write_hasNames hstaging _ _)).bind fun artifacts _ => ?_
  refine Ensures.bind (Q := fun _ => True) (ensures_get.bind fun _ _ => ofExcept_tidy _ _)
    fun m _ => ?_
  exact (saveManifest_tidy hp _).bind fun _ _ => ensures_pure trivial

/-- The tables are at clean paths. -/
theorem isClean_of_readSheets {files : FileTree} {sets : List RecordSet} {work : List TableWork}
    {absent : List (Path × RecordSet)} (h : p.readSheets files sets = .ok (work, absent)) :
    (∀ x ∈ work, x.path.IsClean) ∧ ∀ x ∈ absent, x.1.IsClean := by
  induction sets generalizing work absent with
  | nil =>
    cases h
    exact ⟨List.forall_mem_nil _, List.forall_mem_nil _⟩
  | cons set sets ih =>
    have hpath : (p.config.tablePath set.recordType).IsClean := hp.tables.join _
    unfold readSheets at h
    dsimp only at h
    split at h
    · obtain ⟨sheet, -, h⟩ := bind_eq_ok.1 h
      obtain ⟨⟨others, absent'⟩, hothers, h⟩ := bind_eq_ok.1 h
      cases h
      exact ⟨List.forall_mem_cons.2 ⟨hpath, (ih hothers).1⟩, (ih hothers).2⟩
    · obtain ⟨⟨others, absent'⟩, hothers, h⟩ := bind_eq_ok.1 h
      cases h
      exact ⟨(ih hothers).1, List.forall_mem_cons.2 ⟨hpath, (ih hothers).2⟩⟩

theorem survey_tidy : p.survey.Ensures Tidy fun s =>
    (∀ x ∈ s.planned, x.1.path.IsClean) ∧ ∀ x ∈ s.absent, x.1.IsClean := by
  unfold survey
  refine (loadCatalog_tidy hp).bind fun c _ => ensures_get.bind fun w _ => ?_
  refine (ofExcept_ensures fun x hx => isClean_of_readSheets hp hx).bind fun sheets hsheets => ?_
  refine (checkpoint_tidy p _).bind fun _ _ => (reconcileAll_tidy _).bind fun planned hmem => ?_
  refine (checkpoint_tidy p _).bind fun _ _ => (ofExcept_tidy _ _).bind fun unreadable _ => ?_
  have hplanned : ∀ x ∈ planned, x.1.path.IsClean := fun x hx => hsheets.1 _ (hmem x hx)
  have htrial : (p.trialBake (Survey.context ⟨c, sheets.2, planned⟩ p) c planned).Ensures Tidy
      fun _ => True :=
    (ofExcept_tidy _ _).bind fun _ _ => (ofExcept_tidy _ _).bind fun _ _ => ensures_pure trivial
  dsimp only
  split_ifs
  · exact Ensures.bind (Q := fun _ => True) (ensures_throw _) fun _ _ =>
      htrial.bind fun _ _ => ensures_pure ⟨hplanned, hsheets.2⟩
  · exact Ensures.bind (Q := fun _ => True) (ensures_throw _) fun _ _ =>
      ensures_pure ⟨hplanned, hsheets.2⟩
  · exact htrial.bind fun _ _ => ensures_pure ⟨hplanned, hsheets.2⟩
  · exact ensures_pure ⟨hplanned, hsheets.2⟩

/-- **A synchronization leaves files that have names**, whether it succeeds or fails. -/
theorem sync_tidy : p.sync.Ensures Tidy fun _ => True := by
  rw [sync_eq]
  refine (survey_tidy hp).bind fun s hs => ?_
  unfold carryOut
  refine (exportAll_tidy hp hs.2).bind fun _ _ => (applyAll_tidy hp hs.1).bind fun _ _ => ?_
  refine Ensures.bind ((dataIsStale_keeps p id).ensures Tidy) fun stale _ => ?_
  refine Ensures.bind (Q := fun _ => True) ?_ fun _ _ => ensures_pure trivial
  unfold emitPending
  split_ifs
  · exact ensures_pure trivial
  · rw [map_eq_pure_bind]
    exact (emitData_tidy hp).bind fun _ _ => ensures_pure trivial

end CleanPaths

/-- What a store remembers from before makes no difference. -/
theorem outcome_sync_forget (p : Project) (w : Workspace) :
    p.sync.outcome { w with store.seen := [] } = p.sync.outcome w := rfl

theorem hasNames_sync (hp : p.HasCleanPaths) (h : w.files.HasNames) :
    (p.sync.outcome w).2.files.HasNames := by
  have htidy : Tidy { w with store.seen := [] } := ⟨h, List.forall_mem_nil _⟩
  rw [← outcome_sync_forget]
  exact (sync_tidy hp _ htidy).1.names

end Project

/-! ### Projects that were loaded -/

/-- What is read from a data file was read from data in one of the notations. -/
theorem DataFile.exists_of_load {α : Type} {files : FileTree}
    {read : (δ : Type) → Form δ → δ → Option α} {p : Path} {x : α}
    (h : load files read p = .ok x) :
    ∃ (δ : Type) (form : Form δ) (d : δ), read δ form d = some x := by
  unfold load at h
  cases hform : DataNotation.ofPath p with
  | error e =>
    rw [hform] at h
    cases h
  | ok n =>
    rw [hform] at h
    dsimp only at h
    split at h
    · cases h
    split at h
    · next text _ y hy =>
      rw [← Except.ok.inj h]
      cases n with
      | ron =>
        obtain ⟨d, -, hd⟩ := Option.bind_eq_some_iff.1 hy
        exact ⟨_, _, d, hd⟩
      | toml =>
        obtain ⟨d, -, hd⟩ := Option.bind_eq_some_iff.1 hy
        exact ⟨_, _, d, hd⟩
      | json =>
        obtain ⟨d, -, hd⟩ := Option.bind_eq_some_iff.1 hy
        exact ⟨_, _, d, hd⟩
    · cases h

theorem ProjectConfig.isClean_of_read? {δ : Type} {form : Form δ} {d : δ} {config : ProjectConfig}
    (h : read? form d = some config) : config.tablesDirectory.IsClean ∧
      config.recordsDirectory.IsClean ∧ config.outputDirectory.IsClean := by
  unfold read? at h
  simp only [Option.bind_eq_bind, Option.bind_eq_some_iff, Option.map_eq_some_iff,
    Option.pure_def, Option.some.injEq] at h
  obtain ⟨parts, -, schema, -, _, ⟨tables, -, rfl⟩, _, ⟨records, -, rfl⟩, _, ⟨output, -, rfl⟩,
    identifier, -, linking, -, outputNamespace, -, compiler, -, rfl⟩ := h
  exact ⟨Path.isClean_ofText _, Path.isClean_ofText _, Path.isClean_ofText _⟩

theorem ProjectConfig.isClean_of_load {files : FileTree} {config : ProjectConfig}
    (h : load files = .ok config) : config.tablesDirectory.IsClean ∧
      config.recordsDirectory.IsClean ∧ config.outputDirectory.IsClean := by
  unfold load at h
  obtain ⟨p, -, h⟩ := bind_eq_ok.1 h
  obtain ⟨config', hload, h⟩ := bind_eq_ok.1 h
  obtain ⟨δ, form, d, hread⟩ := DataFile.exists_of_load hload
  have hsame : config' = config := by
    split_ifs at h
    · cases h
    · exact Except.ok.inj h
  rw [← hsame]
  exact isClean_of_read? hread

/-! ### Registered declarations -/

namespace Registration

variable {r r' : Registration}

theorem isRegistered_addEnumEntries {entries : List Schema.EnumEntry} (h : r.IsRegistered)
    (hentries : r.addEnumEntries entries = .ok r') : r'.IsRegistered := by
  induction entries generalizing r with
  | nil => exact Except.ok.inj hentries ▸ h
  | cons e entries ih =>
    unfold addEnumEntries at hentries
    split at hentries
    · next declaration _ => exact ih (h.addEnum declaration) hentries
    · cases hentries

/-- The declarations of a file are registered. -/
theorem isRegistered_addFile {file : Schema.SchemaFile} (h : r.IsRegistered)
    (hfile : r.addFile file = .ok r') : r'.IsRegistered := by
  obtain ⟨declared, hdeclared, rfl⟩ := map_eq_ok.1 hfile
  have hstart := isRegistered_addEnumEntries h hdeclared
  clear hfile hdeclared
  generalize file.types = types
  induction types generalizing declared with
  | nil => exact hstart
  | cons t types ih => exact ih (declared.addType t) (hstart.addType t)

end Registration

namespace Project

/-- The declarations of a schema are registered. -/
theorem isRegistered_of_loadSchema {files : FileTree} {directory : Path} {r : Registration}
    (h : loadSchema files directory = .ok r) : r.IsRegistered := by
  obtain ⟨paths, -, h⟩ := bind_eq_ok.1 h
  have hstart : Registration.IsRegistered .empty := .empty
  generalize Registration.empty = start at h hstart
  induction paths generalizing start with
  | nil => exact Except.ok.inj h ▸ hstart
  | cons path paths ih =>
    obtain ⟨declared, hfile, h⟩ := bind_eq_ok.1 h
    obtain ⟨file, -, hfile⟩ := bind_eq_ok.1 hfile
    exact ih declared h (Registration.isRegistered_addFile hstart (mapError_eq_ok.1 hfile))

variable {tools : Tools} {files : FileTree} {p : Project}

/-- What is known of a project that was loaded. -/
structure IsLoaded (files : FileTree) (p : Project) : Prop where
  config : ProjectConfig.load files = .ok p.config
  registry : ∃ declared, loadSchema files p.config.schemaDirectory = .ok declared ∧
    declared.build p.config.options = .ok p.registry
  active : p.isCancelled = false

theorem isLoaded_of_ofFiles (h : ofFiles tools files = .ok p) : IsLoaded files p := by
  unfold ofFiles at h
  obtain ⟨config, hconfig, h⟩ := bind_eq_ok.1 h
  obtain ⟨declared, hdeclared, h⟩ := bind_eq_ok.1 h
  obtain ⟨registry, hregistry, h⟩ := bind_eq_ok.1 h
  obtain rfl := Except.ok.inj h
  exact ⟨mapError_eq_ok.1 hconfig,
    ⟨declared, mapError_eq_ok.1 hdeclared, mapError_eq_ok.1 hregistry⟩, rfl⟩

theorem hasCleanPaths_of_ofFiles (h : ofFiles tools files = .ok p) : p.HasCleanPaths := by
  obtain ⟨htables, hrecords, houtput⟩ := ProjectConfig.isClean_of_load (isLoaded_of_ofFiles h).config
  exact ⟨htables, hrecords, houtput⟩

theorem exists_build_of_ofFiles (h : ofFiles tools files = .ok p) :
    ∃ declared : Registration, declared.build p.config.options = .ok p.registry := by
  obtain ⟨declared, -, hbuild⟩ := (isLoaded_of_ofFiles h).registry
  exact ⟨declared, hbuild⟩

/-- **The registry of a project that was loaded** is sound. -/
theorem isSound_of_ofFiles (h : ofFiles tools files = .ok p) : p.registry.IsSound := by
  obtain ⟨declared, hdeclared, hbuild⟩ := (isLoaded_of_ofFiles h).registry
  exact Registration.isSound_of_build (isRegistered_of_loadSchema hdeclared) hbuild

end Project

end RecordTables
