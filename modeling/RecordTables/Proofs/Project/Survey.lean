import RecordTables.Project.Sync
import RecordTables.Proofs.Execution.Faults
import RecordTables.Proofs.Store.Files

/-!
# What a synchronization checks first

A synchronization has two parts, `Project.survey` and `Project.carryOut` (`Project.sync_eq`).  The
survey reads the records and the tables, plans, and tries the plans out on records in memory; it does
not change a file (`Project.survey_keeps`).  What it answers (`Project.isSurvey_of_answers`) is about
the stored records and their tables, and can be carried out as far as records tell: all cells can be
read, and the plans are grounded.
-/

namespace RecordTables

open Step

/-- What a survey finds: the stored records, the types without a table, and the plans for the
others. -/
structure Survey where
  catalog : Catalog
  absent : List (Path × RecordSet)
  planned : List (Project.TableWork × Plan)

/-- What cells are read and written with. -/
def Survey.context (s : Survey) (p : Project) : Cell.Context :=
  ⟨p.registry, Project.referencesOf s.catalog s.planned⟩

namespace Project

/-- Checks everything that is checked before the first file is written. -/
def survey (p : Project) : Run Survey := do
  let c ← p.loadCatalog
  let (work, absent) ← ofExcept .sheet (p.readSheets (← get).files (NameMap.values c))
  p.checkpoint "reconciliation"
  let planned ← reconcileAll work
  p.checkpoint "execution"
  let s : Survey := ⟨c, absent, planned⟩
  let unreadable ← ofExcept .execute (unreadableCells (s.context p) planned)
  if !unreadable.isEmpty then throw (.decode unreadable)
  if planned.any fun (_, plan) => !plan.actions.isEmpty then p.trialBake (s.context p) c planned
  return s

/-- What has to be generated after tables were made and plans carried out. -/
def pending (exported : List String) (tables : List ExecutionReport) (stale : Bool) : RegenState :=
  let changed := tables.foldl (fun (s : RegenState) t => s.merge t.regen) .upToDate
  if !exported.isEmpty || stale then changed.merge .full else changed

/-- Generates data, if that is needed. -/
def emitPending (p : Project) (regen : RegenState) : Run (Option Emission) :=
  if regen.isUpToDate then pure none else some <$> p.emitData

/-- Makes the missing tables, carries out the plans, and generates data if that is needed. -/
def carryOut (p : Project) (s : Survey) : Run SyncReport := do
  let exported ← p.exportAll s.catalog s.absent
  let tables ← p.applyAll (s.context p) s.planned
  let stale ← p.dataIsStale
  let regen := pending exported tables stale
  let data ← p.emitPending regen
  return ⟨tables, exported, regen, data⟩

theorem carryOut_eq (p : Project) (s : Survey) :
    p.carryOut s = (do
      let exported ← p.exportAll s.catalog s.absent
      let tables ← p.applyAll (s.context p) s.planned
      let changed := tables.foldl (fun (s : RegenState) t => s.merge t.regen) .upToDate
      let stale := !exported.isEmpty || (← p.dataIsStale)
      let regen := if stale then changed.merge .full else changed
      let data ← if regen.isUpToDate then pure none else some <$> p.emitData
      return ⟨tables, exported, regen, data⟩) := by
  unfold carryOut emitPending pending
  refine bind_congr fun exported => bind_congr fun tables => bind_congr fun stale => ?_
  dsimp only
  split_ifs <;> rfl

/-- **The two parts of a synchronization.** -/
theorem sync_eq (p : Project) : p.sync = p.survey >>= p.carryOut := by
  unfold sync survey
  simp only [bind_assoc]
  refine bind_congr fun c => bind_congr fun w => bind_congr fun sheets => ?_
  refine bind_congr fun _ => bind_congr fun planned => bind_congr fun _ => ?_
  refine bind_congr fun unreadable => ?_
  by_cases hunreadable : (!unreadable.isEmpty) = true
  · rw [if_pos hunreadable, if_pos hunreadable]
    rfl
  · rw [if_neg hunreadable, if_neg hunreadable]
    by_cases hacts : (planned.any fun (_, plan) => !plan.actions.isEmpty) = true
    · rw [if_pos hacts, if_pos hacts, bind_assoc]
      exact bind_congr fun _ => (carryOut_eq p ⟨c, sheets.2, planned⟩).symm
    · rw [if_neg hacts, if_neg hacts]
      exact (carryOut_eq p ⟨c, sheets.2, planned⟩).symm

/-- Carries out the plan for one table. -/
def applyOne (p : Project) (ctx : Cell.Context) (x : TableWork × Plan) : Run ExecutionReport := do
  let rows := x.1.sheet.rows
  let report ← (Workspace.onStore
    (Execution.apply ctx p.records x.2 rows x.1.records)).mapError .execute
  if !x.2.actions.isEmpty ∨ !x.2.backfilled.isEmpty then
    saveSheet x.1.path (x.1.sheet.stamp (x.2.rowGuids rows))
  return report

theorem applyAll_cons (p : Project) (ctx : Cell.Context) (x : TableWork × Plan)
    (planned : List (TableWork × Plan)) :
    p.applyAll ctx (x :: planned) =
      (do return (← p.applyOne ctx x) :: (← p.applyAll ctx planned)) := by
  unfold applyOne
  rw [applyAll, bind_assoc]
  refine bind_congr fun report => ?_
  dsimp only
  split_ifs
  · rw [bind_assoc]
    rfl
  · rfl

/-- Plans are carried out one after the other. -/
theorem applyAll_cons_answers {p : Project} {ctx : Cell.Context} {x : TableWork × Plan}
    {planned : List (TableWork × Plan)} {w w' : Workspace} {reports : List ExecutionReport} :
    (p.applyAll ctx (x :: planned)).Answers w reports w' ↔
      ∃ report w₁ others, (p.applyOne ctx x).Answers w report w₁ ∧
        (p.applyAll ctx planned).Answers w₁ others w' ∧ reports = report :: others := by
  rw [applyAll_cons, answers_bind]
  refine exists_congr fun report => exists_congr fun w₁ => ?_
  rw [answers_bind]
  constructor
  · rintro ⟨happly, others, w₂, hothers, hpure⟩
    obtain ⟨rfl, rfl⟩ := answers_pure_iff.1 hpure
    exact ⟨others, happly, hothers, rfl⟩
  · rintro ⟨others, happly, hothers, rfl⟩
    exact ⟨happly, others, w', hothers, answers_pure w' _⟩

/-! ### Faults told in the words of a project -/

section OfExcept

variable {ε α : Type} {fault : ε → ProjectError} {r : Except ε α} {w w' : Workspace}

theorem answers_ofExcept {x : α} : (ofExcept fault r).Answers w x w' ↔ r = .ok x ∧ w' = w := by
  cases r with
  | ok y =>
    rw [ofExcept, answers_pure_iff]
    simp [eq_comm]
  | error e => simp [ofExcept, not_answers_throw]

theorem fails_ofExcept {e' : ProjectError} :
    (ofExcept fault r).Fails w e' w' ↔ (∃ e, r = .error e ∧ e' = fault e) ∧ w' = w := by
  cases r with
  | ok y => simp [ofExcept, not_fails_pure]
  | error e =>
    rw [ofExcept, fails_throw]
    simp

theorem keeps_ofExcept {τ : Type} {f : Workspace → τ} (fault : ε → ProjectError)
    (r : Except ε α) : (ofExcept fault r).Keeps f := by
  cases r with
  | ok x => exact keeps_pure x
  | error e => exact keeps_throw _

end OfExcept

/-! ### The survey changes no file -/

theorem onStore_keeps {ε α : Type} {step : Step FileStore ε α} (h : step.Keeps FileStore.files) :
    (Workspace.onStore step).Keeps Workspace.files :=
  h.within (fun _ => rfl) fun _ _ => rfl

theorem loadTypes_keeps (p : Project) (types : List String) (c : Catalog) :
    (p.loadTypes types c).Keeps Workspace.files := by
  induction types generalizing c with
  | nil => exact keeps_pure c
  | cons recordType types ih =>
    exact ((onStore_keeps (FileStore.load_keeps _ _)).mapError _).bind fun _ => ih _

/-- Reading all records leaves the files as they were. -/
theorem loadCatalog_keeps (p : Project) : p.loadCatalog.Keeps Workspace.files := by
  refine Keeps.bind ?_ fun _ => loadTypes_keeps _ _ _
  exact keeps_modify fun _ => rfl

theorem checkpoint_keeps (p : Project) (stage : String) :
    (p.checkpoint stage).Keeps Workspace.files := by
  unfold checkpoint
  split_ifs
  · exact keeps_throw _
  · exact keeps_pure _

theorem reconcileAll_keeps (work : List TableWork) :
    (reconcileAll work).Keeps Workspace.files := by
  unfold reconcileAll
  refine keeps_get.bind fun w => ?_
  dsimp only
  refine Keeps.bind (keeps_modify ?_) fun _ => ?_
  · exact fun _ => rfl
  · split_ifs
    · exact keeps_pure _
    · exact keeps_throw _

theorem trialBake_keeps (p : Project) (ctx : Cell.Context) (c : Catalog)
    (planned : List (TableWork × Plan)) : (p.trialBake ctx c planned).Keeps Workspace.files :=
  (keeps_ofExcept _ _).bind fun _ => (keeps_ofExcept _ _).bind fun _ => keeps_pure _

/-- **The survey leaves all files as they were**, whether it answers or fails. -/
theorem survey_keeps (p : Project) : p.survey.Keeps Workspace.files := by
  unfold survey
  refine (loadCatalog_keeps p).bind fun c => keeps_get.bind fun w => ?_
  refine (keeps_ofExcept _ _).bind fun sheets => (checkpoint_keeps p _).bind fun _ => ?_
  refine (reconcileAll_keeps _).bind fun planned => (checkpoint_keeps p _).bind fun _ => ?_
  refine (keeps_ofExcept _ _).bind fun unreadable => ?_
  dsimp only
  split_ifs
  · exact (keeps_throw _).bind fun _ => (trialBake_keeps _ _ _ _).bind fun _ => keeps_pure _
  · exact (keeps_throw _).bind fun _ => keeps_pure _
  · exact (trialBake_keeps _ _ _ _).bind fun _ => keeps_pure _
  · exact keeps_pure _

/-! ### What carrying out a survey answers -/

/-- Data is generated if and only if something is pending. -/
theorem emitPending_answers_iff {p : Project} {regen : RegenState} {w w' : Workspace}
    {data : Option Emission} : (p.emitPending regen).Answers w data w' ↔
      (regen.isUpToDate = true ∧ data = none ∧ w' = w) ∨
        regen.isUpToDate = false ∧
          ∃ emission, data = some emission ∧ p.emitData.Answers w emission w' := by
  unfold emitPending
  cases regen.isUpToDate with
  | true =>
    rw [if_pos rfl, answers_pure_iff]
    simp
  | false =>
    rw [if_neg Bool.false_ne_true, map_eq_pure_bind, answers_bind]
    constructor
    · rintro ⟨emission, w₁, hemission, hpure⟩
      obtain ⟨rfl, rfl⟩ := answers_pure_iff.1 hpure
      exact Or.inr ⟨rfl, emission, rfl, hemission⟩
    · rintro (⟨hupToDate, -⟩ | ⟨-, emission, rfl, hemission⟩)
      · cases hupToDate
      · exact ⟨emission, w', hemission, answers_pure w' _⟩

/-- Only generating data can fail then. -/
theorem emitData_fails_of_emitPending {p : Project} {regen : RegenState} {w w' : Workspace}
    {e : ProjectError} (h : (p.emitPending regen).Fails w e w') : p.emitData.Fails w e w' := by
  unfold emitPending at h
  split_ifs at h
  · exact absurd h not_fails_pure
  rw [map_eq_pure_bind] at h
  rcases fails_bind.1 h with hfails | ⟨emission, w₁, -, hpure⟩
  · exact hfails
  · exact absurd hpure not_fails_pure

theorem dataIsStale_keeps (p : Project) {τ : Type} (f : Workspace → τ) : p.dataIsStale.Keeps f :=
  Keeps.bind (keeps_get.bind fun _ => keeps_ofExcept _ _) fun _ => keeps_pure _

/-- **What carrying out a survey does**: it makes the missing tables, carries out the plans, and then
generates what is pending, which the manifest tells as well. -/
theorem exists_of_carryOut {p : Project} {s : Survey} {w w' : Workspace} {report : SyncReport}
    (h : (p.carryOut s).Answers w report w') :
    ∃ w₁ w₂ stale, (p.exportAll s.catalog s.absent).Answers w report.exported w₁ ∧
      (p.applyAll (s.context p) s.planned).Answers w₁ report.tables w₂ ∧
      p.dataIsStale.Answers w₂ stale w₂ ∧
      report.regen = pending report.exported report.tables stale ∧
      (p.emitPending report.regen).Answers w₂ report.data w' := by
  obtain ⟨exported, w₁, hexport, h₁⟩ := answers_bind.1 h
  obtain ⟨tables, w₂, happly, h₂⟩ := answers_bind.1 h₁
  obtain ⟨stale, w₃, hstale, h₃⟩ := answers_bind.1 h₂
  obtain ⟨data, w₄, hemit, h₄⟩ := answers_bind.1 h₃
  obtain ⟨rfl, rfl⟩ := answers_pure_iff.1 h₄
  obtain rfl : w₃ = w₂ := (dataIsStale_keeps p id).answers hstale
  exact ⟨w₁, w₃, stale, hexport, happly, hstale, rfl, hemit⟩

/-! ### What a survey answers -/

theorem grounded_of_tryPlans {ctx : Cell.Context} {planned : List (TableWork × Plan)}
    {c c' : Catalog} (h : (tryPlans ctx planned).Answers c () c') :
    ∀ e ∈ planned, Execution.Grounded ctx e.2 e.1.sheet.rows e.1.records := by
  induction planned generalizing c with
  | nil => exact fun e he => nomatch he
  | cons e planned ih =>
    obtain ⟨report, c₁, happly, hrest⟩ := answers_bind.1 h
    intro e' he'
    rcases List.mem_cons.1 he' with rfl | he'
    · exact Execution.grounded_of_apply happly
    · exact ih hrest e' he'

theorem grounded_of_trialBake {p : Project} {ctx : Cell.Context} {c : Catalog}
    {planned : List (TableWork × Plan)} {w w' : Workspace}
    (h : (p.trialBake ctx c planned).Answers w () w') :
    ∀ e ∈ planned, Execution.Grounded ctx e.2 e.1.sheet.rows e.1.records := by
  obtain ⟨_, w₁, hplans, -⟩ := answers_bind.1 h
  have houtcome := (answers_ofExcept.1 hplans).1
  exact grounded_of_tryPlans (Prod.ext houtcome rfl)

theorem grounded_of_actions_nil {ctx : Cell.Context} {e : TableWork × Plan}
    (h : e.2.actions = []) : Execution.Grounded ctx e.2 e.1.sheet.rows e.1.records where
  read := ⟨[], by unfold Execution.decodePlan; rw [h]; rfl⟩
  record := by
    intro guid i rename ha
    rw [h] at ha
    cases ha

/-- What the answer of a survey has to do with the project: it is about the stored records and their
tables, and its plans can be carried out as far as records tell. -/
structure IsSurvey (p : Project) (w : Workspace) (s : Survey) (w' : Workspace) : Prop where
  catalog : ∃ w₁, p.loadCatalog.Answers w s.catalog w₁ ∧ w'.store = w₁.store
  sheets : ∃ work, p.readSheets w.files (NameMap.values s.catalog) = .ok (work, s.absent) ∧
    ∃ w₁ w₂, w₁.supply = w.supply ∧ (reconcileAll work).Answers w₁ s.planned w₂
  readable : unreadableCells (s.context p) s.planned = .ok []
  grounded : ∀ e ∈ s.planned, Execution.Grounded (s.context p) e.2 e.1.sheet.rows e.1.records

theorem mem_of_reconcileAll {work : List TableWork} {planned : List (TableWork × Plan)}
    {w w' : Workspace} (h : (reconcileAll work).Answers w planned w') :
    ∀ e ∈ planned, e.1 ∈ work := by
  unfold reconcileAll at h
  rw [answers_get_bind] at h
  obtain ⟨-, w₁, -, hrest⟩ := answers_bind.1 h
  split_ifs at hrest
  · obtain ⟨rfl, -⟩ := answers_pure_iff.1 hrest
    exact fun e he => (List.of_mem_zip he).1
  · exact absurd hrest not_answers_throw

/-- Reading records takes no GUIDs. -/
theorem loadTypes_keeps_supply (p : Project) (types : List String) (c : Catalog) :
    (p.loadTypes types c).Keeps Workspace.supply := by
  induction types generalizing c with
  | nil => exact keeps_pure c
  | cons recordType types ih => exact Keeps.bind (fun _ => rfl) fun _ => ih _

theorem loadCatalog_keeps_supply (p : Project) : p.loadCatalog.Keeps Workspace.supply :=
  Keeps.bind (keeps_modify fun _ => rfl) fun _ => loadTypes_keeps_supply _ _ _

theorem reconcileAll_keeps_store (work : List TableWork) :
    (reconcileAll work).Keeps Workspace.store := by
  unfold reconcileAll
  refine keeps_get.bind fun w => ?_
  dsimp only
  refine Keeps.bind (keeps_modify ?_) fun _ => ?_
  · exact fun _ => rfl
  · split_ifs
    · exact keeps_pure _
    · exact keeps_throw _

theorem checkpoint_answers {p : Project} {stage : String} {w w' : Workspace}
    (h : (p.checkpoint stage).Answers w () w') : w' = w := by
  unfold checkpoint at h
  split_ifs at h
  · exact absurd h not_answers_throw
  · exact (answers_pure_iff.1 h).2

theorem checkpoint_of_active {p : Project} (hactive : p.isCancelled = false) (stage : String)
    (w : Workspace) : (p.checkpoint stage).Answers w () w := by
  unfold checkpoint
  rw [hactive, if_neg Bool.false_ne_true]
  exact answers_pure w ()

/-- Plans that are tried out change nothing. -/
theorem trialBake_answers {p : Project} {ctx : Cell.Context} {c : Catalog}
    {planned : List (TableWork × Plan)} {w w' : Workspace}
    (h : (p.trialBake ctx c planned).Answers w () w') : w' = w := by
  obtain ⟨_, w₁, hplans, hrest⟩ := answers_bind.1 h
  obtain ⟨_, w₂, hbake, hpure⟩ := answers_bind.1 hrest
  rw [(answers_pure_iff.1 hpure).2, (answers_ofExcept.1 hbake).2, (answers_ofExcept.1 hplans).2]

/-- **What a survey answers.** -/
theorem isSurvey_of_answers {p : Project} {s : Survey} {w w' : Workspace}
    (h : p.survey.Answers w s w') : p.IsSurvey w s w' := by
  unfold survey at h
  obtain ⟨c, w₁, hcatalog, h₁⟩ := answers_bind.1 h
  rw [answers_get_bind] at h₁
  obtain ⟨⟨work, absent⟩, w₂, hsheets, h₂⟩ := answers_bind.1 h₁
  obtain ⟨_, w₃, hfirst, h₃⟩ := answers_bind.1 h₂
  obtain ⟨planned, w₄, hplanned, h₄⟩ := answers_bind.1 h₃
  obtain ⟨_, w₅, hsecond, h₅⟩ := answers_bind.1 h₄
  obtain ⟨unreadable, w₆, hunreadable, h₆⟩ := answers_bind.1 h₅
  dsimp only at h₆
  obtain ⟨hsheets', rfl⟩ := answers_ofExcept.1 hsheets
  obtain rfl := checkpoint_answers hfirst
  obtain rfl := checkpoint_answers hsecond
  obtain ⟨hunreadable', rfl⟩ := answers_ofExcept.1 hunreadable
  rw [(loadCatalog_keeps p).answers hcatalog] at hsheets'
  -- the rest of the survey fails, or tries the plans out, or has nothing to try out
  have hrest : s = ⟨c, absent, planned⟩ ∧ w' = w₆ ∧ unreadable = [] ∧
      ∀ e ∈ planned, Execution.Grounded (Survey.context ⟨c, absent, planned⟩ p) e.2
        e.1.sheet.rows e.1.records := by
    have hnil (h : ¬(!unreadable.isEmpty) = true) : unreadable = [] := by simpa using h
    split_ifs at h₆ with hcells hacts hacts
    · obtain ⟨_, w₇, hthrow, -⟩ := answers_bind.1 h₆
      exact absurd hthrow not_answers_throw
    · obtain ⟨_, w₇, hthrow, -⟩ := answers_bind.1 h₆
      exact absurd hthrow not_answers_throw
    · obtain ⟨_, w₇, htrial, h₇⟩ := answers_bind.1 h₆
      obtain ⟨hanswer, hlast⟩ := answers_pure_iff.1 h₇
      exact ⟨hanswer, hlast.trans (trialBake_answers htrial), hnil hcells,
        grounded_of_trialBake htrial⟩
    · obtain ⟨hanswer, hlast⟩ := answers_pure_iff.1 h₆
      refine ⟨hanswer, hlast, hnil hcells, fun e he => grounded_of_actions_nil ?_⟩
      by_contra hne
      refine hacts (List.any_eq_true.2 ⟨e, he, ?_⟩)
      simpa using hne
  obtain ⟨rfl, rfl, rfl, hgrounded⟩ := hrest
  exact ⟨⟨_, hcatalog, (reconcileAll_keeps_store work).answers hplanned⟩,
    ⟨work, hsheets', _, _, (loadCatalog_keeps_supply p).answers hcatalog, hplanned⟩, hunreadable',
    hgrounded⟩

end Project

end RecordTables
