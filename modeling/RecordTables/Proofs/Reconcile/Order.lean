import Mathlib.Logic.Equiv.Basic
import RecordTables.Proofs.Reconcile.Verdicts

/-!
# The order of the rows does not matter

Two lists of the same rows are reconciled alike: either both reconciliations fail, or their plans
are the same up to the numbers of the rows (`Plan.SameUpTo`), whatever the GUIDs for new records are
and wherever these are kept.  `reconcile_perm` puts this together.

A matching makes the links of `linkOf?`, which are told from the rows as a whole (`linkOf?_perm`),
and it fails for faults and repeated GUIDs, which do not depend on an order either.
-/

namespace RecordTables

/-! ### Renumbering -/

/-- The action for a row of another number. -/
def PlanAction.renumber (σ : Nat → Nat) : PlanAction → PlanAction
  | .update guid row rename => .update guid (σ row) rename
  | .create row guid directory => .create (σ row) guid directory
  | .delete guid => .delete guid

/-- The second plan is the first one for rows of other numbers, but for the GUIDs and the directory of
new records, and the order of the actions that are no deletions. -/
structure Plan.SameUpTo (σ : Nat → Nat) (plan plan' : Plan) : Prop where
  recordType : plan'.recordType = plan.recordType
  deletes : plan'.actions.filter (·.isDelete) = plan.actions.filter (·.isDelete)
  updates : (plan'.actions.filter (·.isUpdate)).Perm
    ((plan.actions.filter (·.isUpdate)).map (·.renumber σ))
  backfilled : plan'.backfilled.Perm (plan.backfilled.map fun e => (σ e.1, e.2))
  created : (plan'.created.map (·.1)).Perm ((plan.created.map (·.1)).map σ)
  forceFull : plan'.forceFull = plan.forceFull

/-- A permutation of the numbers after the first. -/
def shiftNumbers (σ : Equiv.Perm Nat) : Equiv.Perm Nat where
  toFun
    | 0 => 0
    | n + 1 => σ n + 1
  invFun
    | 0 => 0
    | n + 1 => σ.symm n + 1
  left_inv n := by cases n <;> simp
  right_inv n := by cases n <;> simp

/-- Permuted lists are renumbered. -/
theorem exists_renumbering {α : Type} {l l' : List α} (h : l.Perm l') :
    ∃ σ : Equiv.Perm Nat, ∀ i, l'[σ i]? = l[i]? := by
  induction h with
  | nil => exact ⟨Equiv.refl Nat, fun _ => rfl⟩
  | cons a _ ih =>
    obtain ⟨σ, hσ⟩ := ih
    refine ⟨shiftNumbers σ, fun i => ?_⟩
    cases i with
    | zero => rfl
    | succ i => exact hσ i
  | swap a b l =>
    refine ⟨Equiv.swap 0 1, fun i => ?_⟩
    match i with
    | 0 => rfl
    | 1 => rfl
    | i + 2 =>
      rw [Equiv.swap_apply_of_ne_of_ne (by omega) (by omega)]
      rfl
  | trans _ _ ih ih' =>
    obtain ⟨σ, hσ⟩ := ih
    obtain ⟨σ', hσ'⟩ := ih'
    exact ⟨σ.trans σ', fun i => (hσ' (σ i)).trans (hσ i)⟩

namespace Matcher

variable {records : RecordSet} {rows rows' : List Row}

/-! ### What does not depend on the order -/

theorem partner?_perm (h : rows.Perm rows') (row : Row) :
    partner? records rows' row = partner? records rows row := by
  have hnamed : ∀ key, isNamed records rows' key = isNamed records rows key := fun key =>
    h.symm.any_eq
  unfold partner?
  simp only [hnamed]

theorem spare_perm (h : rows.Perm rows') : (spare records rows').Perm (spare records rows) := by
  unfold spare
  simp only [partner?_perm h]
  exact h.symm.filter _

theorem orphans_perm (h : rows.Perm rows') : orphans records rows' = orphans records rows := by
  unfold orphans
  simp only [partner?_perm h]
  exact List.filter_congr fun e _ => congrArg _ h.symm.any_eq

theorem mate?_perm (h : rows.Perm rows') (row : Row) :
    mate? records rows' row = mate? records rows row := by
  unfold mate?
  rw [partner?_perm h, orphans_perm h, (spare_perm h).length_eq]

theorem treatment_perm (h : rows.Perm rows') (row : Row) (record : Record) :
    treatment records rows' row record = treatment records rows row record := by
  have hnames : (allNames records rows').Perm (allNames records rows) := (h.symm.map _).append_right _
  unfold treatment
  rw [Pass.freshName_congr fun n => hnames.mem_iff]

/-- The link for a row of another number. -/
def Link.renumber (σ : Nat → Nat) (l : Link) : Link := { l with index := σ l.index }

theorem Link.action?_renumber (σ : Nat → Nat) (l : Link) :
    (l.renumber σ).action? = l.action?.map (·.renumber σ) := by
  unfold action? renumber
  dsimp only
  split
  · rfl
  · rfl

theorem Link.backfill?_renumber (σ : Nat → Nat) (l : Link) :
    (l.renumber σ).backfill? = l.backfill?.map fun e => (σ e.1, e.2) := by
  unfold backfill? renumber
  dsimp only
  split_ifs
  · rfl
  · rfl

section Renumbered

variable (h : rows.Perm rows') {σ : Equiv.Perm Nat} (hσ : ∀ i, rows'[σ i]? = rows[i]?)

include hσ

theorem range_perm : ((List.range rows.length).map σ).Perm (List.range rows'.length) := by
  have hlt : ∀ i, σ i < rows'.length ↔ i < rows.length := fun i => by
    rw [← not_iff_not, Nat.not_lt, Nat.not_lt, ← List.getElem?_eq_none_iff, hσ,
      List.getElem?_eq_none_iff]
  refine (List.perm_ext_iff_of_nodup (List.nodup_range.map σ.injective) List.nodup_range).2 fun j => ?_
  obtain ⟨i, rfl⟩ := σ.surjective j
  rw [List.mem_map_of_injective σ.injective, List.mem_range, List.mem_range, hlt]

theorem length_claimants_perm (guid : Guid) :
    (claimants rows' guid).length = (claimants rows guid).length := by
  have hperm := (range_perm hσ).filter (guidAt rows' · == some guid)
  have hsame : (guidAt rows' · == some guid) ∘ σ = (guidAt rows · == some guid) := by
    funext i
    rw [Function.comp_apply, guidAt, hσ, guidAt]
  rw [List.filter_map, hsame] at hperm
  exact hperm.symm.length_eq.trans (List.length_map _)

include h

/-- **The link of a row** is that of the row wherever it stands. -/
theorem linkOf?_perm (i : Nat) :
    linkOf? records rows' (σ i) = (linkOf? records rows i).map (Link.renumber σ) := by
  unfold linkOf?
  rw [hσ]
  cases rows[i]? with
  | none => rfl
  | some row =>
    rw [Option.bind_some, Option.bind_some, mate?_perm h, Option.map_map]
    refine Option.map_congr fun e _ => ?_
    rw [treatment_perm h]
    rfl

theorem links_perm : ((List.range rows'.length).filterMap (linkOf? records rows')).Perm
    (((List.range rows.length).filterMap (linkOf? records rows)).map (Link.renumber σ)) := by
  have hperm := ((range_perm hσ).symm.filterMap (linkOf? records rows'))
  rw [List.filterMap_map] at hperm
  rw [List.map_filterMap]
  exact hperm.trans (List.Perm.of_eq (List.filterMap_congr fun i _ => linkOf?_perm h hσ i))

theorem unlinked_perm : ((List.range rows'.length).filter fun i => (linkOf? records rows' i).isNone).Perm
    (((List.range rows.length).filter fun i => (linkOf? records rows i).isNone).map σ) := by
  have hperm := ((range_perm hσ).symm.filter fun i => (linkOf? records rows' i).isNone)
  have hsame : (fun i => (linkOf? records rows' i).isNone) ∘ σ =
      fun i => (linkOf? records rows i).isNone := by
    funext i
    rw [Function.comp_apply, linkOf?_perm h hσ, Option.isNone_map]
  rwa [List.filter_map, hsame] at hperm

end Renumbered

/-! ### Plans -/

open Pass

/-- The records for which no row stands. -/
def lost (records : RecordSet) (rows : List Row) : List (RecordKey × Record) :=
  records.byIdentifier.filter fun e =>
    !rows.any fun row => (mate? records rows row).any (·.1 == e.1)

theorem lost_perm (h : rows.Perm rows') : lost records rows' = lost records rows := by
  unfold lost
  simp only [mate?_perm h]
  exact List.filter_congr fun e _ => congrArg _ h.symm.any_eq

/-- The records without a link are those for which no row stands. -/
theorem unclaimed_eq_lost {links : List Link} {p : Pass} (hbuilt : Built records rows links p)
    (hlinks : links.Perm ((List.range rows.length).filterMap (linkOf? records rows))) :
    p.unclaimed records = lost records rows := by
  unfold unclaimed lost
  refine List.filter_congr fun e _ => congrArg _ ?_
  have hiff : p.isClaimed e.1 = true ↔ ∃ l ∈ links, l.key = e.1 := by
    rw [← Bool.not_eq_false, isClaimed_eq_false hbuilt, not_not, List.mem_map]
  rw [Bool.eq_iff_iff, hiff, List.any_eq_true]
  constructor
  · rintro ⟨l, hl, hkey⟩
    obtain ⟨i, -, hlink⟩ := List.mem_filterMap.1 (hlinks.mem_iff.1 hl)
    obtain ⟨row, hrow, hmap⟩ := Option.bind_eq_some_iff.1 hlink
    obtain ⟨e', hmate, rfl⟩ := Option.map_eq_some_iff.1 hmap
    exact ⟨row, List.mem_of_getElem? hrow, (Option.any_eq_true _ _).2 ⟨e', hmate, beq_iff_eq.2 hkey⟩⟩
  · rintro ⟨row, hrow, hmate⟩
    obtain ⟨e', hmate, hkey⟩ := (Option.any_eq_true _ _).1 hmate
    obtain ⟨i, hi⟩ := List.getElem?_of_mem hrow
    refine ⟨⟨i, row, e'.1, e'.2, treatment records rows row e'.2⟩, hlinks.mem_iff.2 ?_,
      beq_iff_eq.1 hkey⟩
    refine List.mem_filterMap.2 ⟨i, List.mem_range.2 (List.getElem?_eq_some_iff.1 hi).1, ?_⟩
    rw [linkOf?, hi, Option.bind_some, hmate, Option.map_some]

namespace Settlement

variable (s : Settlement)

theorem filter_isUpdate : s.actions.filter (·.isUpdate) = s.links.filterMap Link.action? := by
  have hlinks : (s.links.filterMap Link.action?).filter (·.isUpdate) =
      s.links.filterMap Link.action? := List.filter_eq_self.2 fun a ha => by
    obtain ⟨l, -, -, rfl⟩ := Link.exists_of_mem_actions ha
    rfl
  have hothers : (s.creations ++ s.deletions).filter (·.isUpdate) = [] := by
    rw [List.filter_append, creations, deletions, List.filter_map, List.filter_map]
    simp [Function.comp_def, PlanAction.isUpdate]
  rw [actions, List.filter_append, hlinks, hothers, List.append_nil]

theorem filter_isDelete : s.actions.filter (·.isDelete) = s.deletions := by
  have hlinks : (s.links.filterMap Link.action?).filter (·.isDelete) = [] :=
    List.filter_eq_nil_iff.2 fun a ha => by
      obtain ⟨l, -, -, rfl⟩ := Link.exists_of_mem_actions ha
      exact Bool.false_ne_true
  have hcreations : s.creations.filter (·.isDelete) = [] := by
    rw [creations, List.filter_map]
    simp [Function.comp_def, PlanAction.isDelete]
  have hdeletions : s.deletions.filter (·.isDelete) = s.deletions := by
    rw [deletions, List.filter_map]
    simp [Function.comp_def, PlanAction.isDelete]
  rw [actions, List.filter_append, List.filter_append, hlinks, hcreations, hdeletions,
    List.nil_append, List.nil_append]

/-- The plan carries out the settlement, which is the one that the rows and the records as a whole
call for. -/
structure Due (records : RecordSet) (rows : List Row) (plan : Plan) : Prop where
  recordType : plan.recordType = records.recordType
  actions : plan.actions = s.actions
  backfilled : plan.backfilled = s.links.filterMap Link.backfill?
  forceFull : plan.forceFull = !s.deleted.isEmpty
  links : s.links.Perm ((List.range rows.length).filterMap (linkOf? records rows))
  created : (s.created.map (·.1)).Perm
    ((List.range rows.length).filter fun i => (linkOf? records rows i).isNone)
  deleted : s.deleted = (lost records rows).map (·.2)

end Settlement

variable {settings : Settings} {supply supply' : GuidSupply} {plan plan' : Plan}

/-- **The plan of a reconciliation** is the one that the rows and the records as a whole call for. -/
theorem exists_due_of_reconcile (hs : records.WellFormed)
    (h : (reconcile settings supply records rows).1 = .ok plan) :
    ∃ s : Settlement, s.Due records rows plan := by
  obtain ⟨-, hfaults, directory, -, herrors, -⟩ := reconcile_eq_ok (Prod.ext h rfl)
  obtain ⟨-, -, -, herrors'⟩ := createAll_spec directory supply (matchAll records rows)
  have hone := conflicts_eq_nil_iff.1
    ((errors_matchAll hs hfaults).symm.trans (herrors'.symm.trans herrors))
  obtain ⟨links, hbuilt, hlinks, hleft⟩ := exists_links_perm hs hfaults hone
  obtain ⟨directory, -, htype, hactions, hbackfilled, hforce⟩ :=
    plan_of_built (Prod.ext h rfl) hbuilt
  exact ⟨.ofPass records supply directory links (matchAll records rows),
  { recordType := htype
    actions := hactions
    backfilled := hbackfilled
    forceFull := by rw [hforce, Settlement.ofPass, List.isEmpty_map]
    links := hlinks
    created := by rwa [Settlement.ofPass, map_fst_assign]
    deleted := by rw [Settlement.ofPass, unclaimed_eq_lost hbuilt hlinks] }⟩

/-- For the same rows in another order, the plan is the same up to their numbers. -/
theorem Settlement.Due.sameUpTo {s s' : Settlement} (hdue : s.Due records rows plan)
    (hdue' : s'.Due records rows' plan') (h : rows.Perm rows') {σ : Equiv.Perm Nat}
    (hσ : ∀ i, rows'[σ i]? = rows[i]?) : plan.SameUpTo σ plan' := by
  -- the links of the permuted rows are the same but for their indices
  have hlinks : s'.links.Perm (s.links.map (Link.renumber σ)) :=
    hdue'.links.trans ((links_perm h hσ).trans (hdue.links.symm.map _))
  have hdeleted : s'.deleted = s.deleted := by
    rw [hdue'.deleted, hdue.deleted, lost_perm h]
  exact
  { recordType := hdue'.recordType.trans hdue.recordType.symm
    deletes := by
      rw [hdue'.actions, hdue.actions, filter_isDelete, filter_isDelete, deletions, deletions,
        hdeleted]
    updates := by
      rw [hdue'.actions, hdue.actions, filter_isUpdate, filter_isUpdate, List.map_filterMap]
      refine (hlinks.filterMap Link.action?).trans (List.Perm.of_eq ?_)
      rw [List.filterMap_map]
      exact List.filterMap_congr fun l _ => Link.action?_renumber σ l
    backfilled := by
      rw [hdue'.backfilled, hdue.backfilled, List.map_filterMap]
      refine (hlinks.filterMap Link.backfill?).trans (List.Perm.of_eq ?_)
      rw [List.filterMap_map]
      exact List.filterMap_congr fun l _ => Link.backfill?_renumber σ l
    created := by
      rw [created_of_actions hdue'.actions, created_of_actions hdue.actions]
      exact hdue'.created.trans ((unlinked_perm h hσ).trans (hdue.created.symm.map σ))
    forceFull := by rw [hdue'.forceFull, hdue.forceFull, hdeleted] }

/-! ### Failures -/

/-- A reconciliation makes a plan if it is not called off, no row is at fault, and no GUID is that of
several rows. -/
theorem exists_plan_iff (hs : records.WellFormed) :
    (∃ plan, (reconcile settings supply records rows).1 = .ok plan) ↔
      (∀ stage, settings.cancelled stage = false) ∧ ¬Faulty records rows ∧
        ∀ guid, (claimants rows guid).length ≤ 1 := by
  constructor
  · rintro ⟨plan, h⟩
    obtain ⟨hactive, hfaults, directory, -, herrors, -⟩ := reconcile_eq_ok (Prod.ext h rfl)
    rw [(createAll_spec directory supply _).2.2.2, errors_matchAll hs hfaults] at herrors
    exact ⟨hactive, tableFaults_eq_nil_iff.1 hfaults, conflicts_eq_nil_iff.1 herrors⟩
  · rintro ⟨hactive, hfaultless, hone⟩
    have hfaults := tableFaults_eq_nil_iff.2 hfaultless
    refine (reconcile_of_no_faults hactive supply hfaults).2 ?_
    rw [errors_matchAll hs hfaults, conflicts_eq_nil_iff.2 hone]

/-- Faults do not depend on the order of the rows. -/
theorem faulty_perm (h : rows.Perm rows') : Faulty records rows' ↔ Faulty records rows := by
  unfold Faulty
  simp only [h.symm.mem_iff, (h.symm.map _).nodup_iff]

theorem exists_error_iff {ε α : Type} {x : Except ε α} :
    (∃ e, x = .error e) ↔ ¬∃ a, x = .ok a := by
  cases x <;> simp

/-- **The order of the rows does not matter.**  Reconciling the same rows in another order fails, or
comes to the same plan up to the numbers of the rows. -/
theorem reconcile_perm (hs : records.WellFormed) (settings : Settings) (supply supply' : GuidSupply)
    (h : rows.Perm rows') :
    ((∃ errors, (reconcile settings supply records rows).1 = .error errors) ↔
      ∃ errors, (reconcile settings supply' records rows').1 = .error errors) ∧
    ∀ plan plan', (reconcile settings supply records rows).1 = .ok plan →
      (reconcile settings supply' records rows').1 = .ok plan' →
      ∃ σ : Equiv.Perm Nat, (∀ i, rows'[σ i]? = rows[i]?) ∧ plan.SameUpTo σ plan' := by
  obtain ⟨σ, hσ⟩ := exists_renumbering h
  constructor
  · rw [exists_error_iff, exists_error_iff, exists_plan_iff hs, exists_plan_iff hs, faulty_perm h]
    simp only [length_claimants_perm hσ]
  · intro plan plan' hplan hplan'
    obtain ⟨s, hdue⟩ := exists_due_of_reconcile hs hplan
    obtain ⟨s', hdue'⟩ := exists_due_of_reconcile hs hplan'
    exact ⟨σ, hσ, hdue.sameUpTo hdue' h hσ⟩

/-! ### A shuffled hoard -/

/-- The rows of the hoard in another order. -/
def shuffledRows : List Row :=
  [⟨5, "Ring", none, "f", ∅⟩, ⟨3, "Coin", none, "d", ∅⟩, ⟨2, "Gem", some ⟨"g1"⟩, "c", ∅⟩,
    ⟨4, "Pearl", none, "e", ∅⟩]

/-- What has to be done for these rows.  The new records are kept beside the other coin, whose row now
comes first. -/
def shuffledPlan : Plan where
  recordType := "Item"
  actions := [.update ⟨"g1"⟩ 2 (some ⟨"Coin", "Gem_new", "Gem"⟩), .update ⟨"g2"⟩ 1 none,
    .create 0 ⟨"n"⟩ "Item/old", .create 3 ⟨"nn"⟩ "Item/old", .delete ⟨"g3"⟩]
  backfilled := [(1, ⟨"g2"⟩)]
  forceFull := true

/-- Both plans are the same but for the numbers of the rows, and for where new records are kept. -/
theorem reconcile_perm_hoard :
    (reconcile .standard Execution.unarySupply hoard hoardRows).1 = .ok hoardPlan ∧
      (reconcile .standard Execution.unarySupply hoard shuffledRows).1 = .ok shuffledPlan ∧
      ∃ σ : Equiv.Perm Nat, (∀ i, shuffledRows[σ i]? = hoardRows[i]?) ∧
        hoardPlan.SameUpTo σ shuffledPlan := by
  have hplan : (reconcile .standard Execution.unarySupply hoard hoardRows).1 = .ok hoardPlan := by
    cbv
  have hshuffled : (reconcile .standard Execution.unarySupply hoard shuffledRows).1 =
      .ok shuffledPlan := by cbv
  exact ⟨hplan, hshuffled, (reconcile_perm (RecordSet.wellFormed_ofList _ _) .standard
    Execution.unarySupply Execution.unarySupply (by decide)).2 _ _ hplan hshuffled⟩

end Matcher

end RecordTables
