import Mathlib.Data.List.Basic
import RecordTables.Proofs.NameMap
import RecordTables.Reconcile.Plan

/-!
# When nothing has to be generated

A plan leaves the data up to date only if it has no actions (`Plan.actions_eq_nil`): a deletion asks
for everything, and any other action leaves a change.  Several pending states together are up to date
only if each of them is (`RegenState.foldl_merge_eq_upToDate`).  This holds for states whose sets of
changes are not empty (`RegenState.IsProper`), which those of plans are.

Actions that delete nothing and are about different records leave one change each
(`Plan.exists_changes?`).
-/

namespace RecordTables

/-! ### Sets of changes -/

namespace ChangeSet

variable {s s' : ChangeSet} {recordType : String} {guid : Guid} {kind : ChangeKind}

theorem isEmpty_of_find? (h : s.find? recordType guid = some kind) : s.isEmpty = false := by
  obtain ⟨changes, hchanges, hkind⟩ := Option.bind_eq_some_iff.1 h
  have hmem : (recordType, (⟨guid.text⟩ : Guid), kind) ∈ s.toList :=
    List.mem_flatMap.2 ⟨_, NameMap.mem_entries_of_find? hchanges,
      List.mem_map.2 ⟨_, NameMap.mem_entries_of_find? hkind, rfl⟩⟩
  unfold isEmpty
  rw [List.isEmpty_eq_false_iff]
  exact List.ne_nil_of_mem hmem

/-- What is found when a change was put in. -/
theorem find?_put (s : ChangeSet) (recordType : String) (guid : Guid) (kind : ChangeKind)
    (recordType' : String) (guid' : Guid) :
    (s.put recordType guid kind).find? recordType' guid' =
      if recordType = recordType' ∧ guid = guid' then some kind else s.find? recordType' guid' := by
  unfold find? put
  dsimp only
  rw [NameMap.find?_insert]
  by_cases htype : recordType = recordType'
  · subst htype
    rw [if_pos rfl, Option.bind_some, NameMap.find?_insert]
    by_cases hguid : guid = guid'
    · rw [if_pos (congrArg Guid.text hguid), if_pos ⟨rfl, hguid⟩]
    · rw [if_neg fun h => hguid (congrArg Guid.mk h), if_neg fun h => hguid h.2]
      cases s.byType.find? recordType <;> rfl
  · rw [if_neg htype, if_neg fun h => htype h.1]

/-- A change that was added is found. -/
theorem find?_of_record? (h : s.record? recordType guid kind = some s') :
    s'.find? recordType guid = some kind := by
  unfold record? at h
  split at h
  · next existing hexisting =>
    split_ifs at h with hsame
    rw [← Option.some.inj h, hexisting, hsame]
  · rw [← Option.some.inj h, find?_put, if_pos ⟨rfl, rfl⟩]

/-- After a change was added the set is not empty. -/
theorem isEmpty_of_record? (h : s.record? recordType guid kind = some s') : s'.isEmpty = false :=
  isEmpty_of_find? (find?_of_record? h)

/-- A set that is not empty stays so when the changes of another set are added. -/
theorem isEmpty_of_union? {other : ChangeSet} (hs : s.isEmpty = false)
    (h : s.union? other = some s') : s'.isEmpty = false := by
  unfold union? at h
  generalize other.toList = changes at h
  induction changes generalizing s with
  | nil =>
    rw [← Option.some.inj h]
    exact hs
  | cons change changes ih =>
    rw [List.foldlM_cons] at h
    obtain ⟨s₁, hrecord, hrest⟩ := Option.bind_eq_some_iff.1 h
    exact ih (isEmpty_of_record? hrecord) hrest

/-- The changes of the types but one. -/
def others (s : ChangeSet) (recordType : String) : List (String × Guid × ChangeKind) :=
  (s.byType.erase recordType).entries.flatMap fun t => t.2.entries.map fun e => (t.1, ⟨e.1⟩, e.2)

/-- The changes are those of one type and those of the others. -/
theorem toList_perm (s : ChangeSet) (recordType : String) :
    s.toList.Perm ((((s.byType.find? recordType).getD .empty).entries.map fun e =>
      (recordType, ⟨e.1⟩, e.2)) ++ s.others recordType) := by
  have hentries := (s.byType.entries_perm recordType).flatMap_right
    fun t => t.2.entries.map fun e => (t.1, (⟨e.1⟩ : Guid), e.2)
  rw [List.flatMap_append] at hentries
  refine hentries.trans (List.Perm.of_eq ?_)
  cases s.byType.find? recordType with
  | none => rfl
  | some changes =>
    show List.flatMap _ [(recordType, changes)] ++ _ = _
    rw [List.flatMap_singleton]
    rfl

/-- A change of a new record is put beside those that there are. -/
theorem toList_put_perm (h : s.find? recordType guid = none) (kind : ChangeKind) :
    (s.put recordType guid kind).toList.Perm ((recordType, guid, kind) :: s.toList) := by
  have hold := s.toList_perm recordType
  refine ((s.byType.entries_insert_perm recordType _).flatMap_right _).trans ?_
  unfold find? at h
  cases hfind : s.byType.find? recordType with
  | none =>
    rw [hfind] at hold
    exact hold.symm.cons _
  | some changes =>
    rw [hfind] at h hold
    have hchanges : (changes.insert guid.text kind).entries.Perm
        ((guid.text, kind) :: changes.entries) := by
      rw [← NameMap.entries_erase_of_find? h]
      exact changes.entries_insert_perm guid.text kind
    refine (List.Perm.append_right _ (hchanges.map _)).trans ?_
    exact hold.symm.cons _

/-- A new change is put beside those that there are, and changes nothing for other records. -/
theorem record?_of_find? (h : s.find? recordType guid = none) (kind : ChangeKind) :
    ∃ s', s.record? recordType guid kind = some s' ∧
      s'.toList.Perm ((recordType, guid, kind) :: s.toList) ∧
      ∀ other ≠ guid, s'.find? recordType other = s.find? recordType other := by
  refine ⟨s.put recordType guid kind, ?_, toList_put_perm h kind, fun other hother => ?_⟩
  · unfold record?
    rw [h]
  · rw [find?_put, if_neg fun heq => hother heq.2.symm]

end ChangeSet

/-! ### Pending states -/

namespace RegenState

variable {s t : RegenState}

/-- A set of changes that is pending is not empty. -/
def IsProper : RegenState → Prop
  | incremental changes => changes.isEmpty = false
  | upToDate | full => True

theorem isProper_ofChanges (changes : ChangeSet) : (ofChanges changes).IsProper := by
  unfold ofChanges
  split_ifs with hempty
  · trivial
  · exact Bool.eq_false_iff.2 hempty

theorem ofChanges_eq_upToDate {changes : ChangeSet} :
    ofChanges changes = upToDate ↔ changes.isEmpty = true := by
  unfold ofChanges
  split_ifs with hempty
  · exact iff_of_true rfl hempty
  · exact iff_of_false (fun h => nomatch h) hempty

/-- Merging keeps states proper. -/
theorem IsProper.merge (hs : s.IsProper) (ht : t.IsProper) : (s.merge t).IsProper := by
  match s, t with
  | full, _ => trivial
  | upToDate, full => trivial
  | incremental _, full => trivial
  | upToDate, upToDate => trivial
  | upToDate, incremental _ => exact ht
  | incremental _, upToDate => exact hs
  | incremental a, incremental b =>
    unfold RegenState.merge
    dsimp only
    split
    · exact isProper_ofChanges _
    · trivial

/-- Two states together are up to date only if each is. -/
theorem merge_eq_upToDate (hs : s.IsProper) :
    s.merge t = upToDate ↔ s = upToDate ∧ t = upToDate := by
  match s, t with
  | full, _ => simp [merge]
  | upToDate, full => simp [merge]
  | incremental _, full => simp [merge]
  | upToDate, upToDate => simp [merge]
  | upToDate, incremental _ => simp [merge]
  | incremental _, upToDate => simp [merge]
  | incremental a, incremental b =>
    refine iff_of_false ?_ fun h => nomatch h.1
    simp only [merge]
    split
    · next changes hchanges =>
      rw [ofChanges_eq_upToDate, ChangeSet.isEmpty_of_union? hs hchanges]
      exact Bool.false_ne_true
    · exact fun h => nomatch h

/-- **Many states together** are up to date only if each is. -/
theorem foldl_merge_eq_upToDate {states : List RegenState} (hs : s.IsProper)
    (hstates : ∀ t ∈ states, t.IsProper) :
    states.foldl RegenState.merge s = upToDate ↔ s = upToDate ∧ ∀ t ∈ states, t = upToDate := by
  induction states generalizing s with
  | nil => simp
  | cons t states ih =>
    have ht : t.IsProper := hstates t List.mem_cons_self
    rw [List.foldl_cons, ih (hs.merge ht) fun u hu => hstates u (List.mem_cons_of_mem _ hu),
      merge_eq_upToDate hs, List.forall_mem_cons, and_assoc]

end RegenState

/-! ### Plans -/

/-- The record that an action is about. -/
def PlanAction.guid : PlanAction → Guid
  | update guid _ _ | create _ guid _ | delete guid => guid

namespace Plan

variable {plan : Plan}

theorem isProper_regenState (plan : Plan) : plan.regenState.IsProper := by
  unfold regenState
  split_ifs
  · trivial
  · split
    · exact RegenState.isProper_ofChanges _
    · trivial

/-- Actions that can be told as changes leave changes. -/
theorem isEmpty_of_changes? {recordType : String} {actions : List PlanAction} {changes : ChangeSet}
    (h : changes? recordType actions = some changes) (hne : actions ≠ []) :
    changes.isEmpty = false := by
  obtain ⟨front, a, rfl⟩ := List.eq_nil_or_concat' actions |>.resolve_left hne
  unfold changes? at h
  rw [List.foldlM_append] at h
  obtain ⟨s, -, hlast⟩ := Option.bind_eq_some_iff.1 h
  rw [List.foldlM_cons] at hlast
  obtain ⟨s', hrecord, hs'⟩ := Option.bind_eq_some_iff.1 hlast
  obtain ⟨c, -, hc⟩ := Option.bind_eq_some_iff.1 hrecord
  rw [← Option.some.inj hs']
  exact ChangeSet.isEmpty_of_record? hc

/-- **Actions that delete nothing**, each about another record, leave one change each. -/
theorem exists_changes? {recordType : String} {actions : List PlanAction} {s : ChangeSet}
    (hstays : ∀ a ∈ actions, a.isDelete = false) (hnodup : (actions.map (·.guid)).Nodup)
    (hnew : ∀ a ∈ actions, s.find? recordType a.guid = none) :
    ∃ changes, actions.foldlM (fun s a => (change? a).bind fun c => s.record? recordType c.1 c.2) s =
        some changes ∧
      changes.toList.Perm
        (actions.filterMap (fun a => (change? a).map fun c => (recordType, c)) ++ s.toList) := by
  induction actions generalizing s with
  | nil => exact ⟨s, rfl, List.Perm.refl _⟩
  | cons a actions ih =>
    obtain ⟨hnotMem, hnodup⟩ := List.nodup_cons.1 hnodup
    obtain ⟨kind, hkind⟩ : ∃ kind, change? a = some (a.guid, kind) := by
      cases a with
      | update guid row rename => cases rename <;> exact ⟨_, rfl⟩
      | create row guid directory => exact ⟨_, rfl⟩
      | delete guid => cases hstays _ List.mem_cons_self
    -- the change is recorded, and it stands under no GUID of the other actions
    obtain ⟨s₁, hrecord, hperm, hothers⟩ :=
      ChangeSet.record?_of_find? (hnew a List.mem_cons_self) kind
    have hnew₁ : ∀ b ∈ actions, s₁.find? recordType b.guid = none := by
      intro b hb
      rw [hothers b.guid fun heq => hnotMem (List.mem_map.2 ⟨b, hb, heq⟩)]
      exact hnew b (List.mem_cons_of_mem _ hb)
    obtain ⟨changes, hrest, hchanges⟩ :=
      ih (fun b hb => hstays b (List.mem_cons_of_mem _ hb)) hnodup hnew₁
    refine ⟨changes, ?_, hchanges.trans ?_⟩
    · rw [List.foldlM_cons, hkind, Option.bind_some, hrecord]
      exact hrest
    · rw [List.filterMap_cons, hkind]
      exact (hperm.append_left _).trans List.perm_middle

/-- **A plan that leaves the data up to date does nothing.** -/
theorem actions_eq_nil (h : plan.regenState = .upToDate) : plan.actions = [] := by
  unfold regenState at h
  split_ifs at h
  split at h
  · next changes hchanges =>
    by_contra hne
    rw [RegenState.ofChanges_eq_upToDate, isEmpty_of_changes? hchanges hne] at h
    exact Bool.false_ne_true h
  · cases h

end Plan

end RecordTables
