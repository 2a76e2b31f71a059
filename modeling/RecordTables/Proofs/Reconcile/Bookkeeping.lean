import RecordTables.Proofs.Execution.Apply
import RecordTables.Proofs.Reconcile.Accounts
import RecordTables.Proofs.Regen

/-!
# Every row and every record once

`Plan.AccountsFor` says that a plan accounts for every row and every record exactly once, in terms of
what can be seen of the plan: the GUIDs of the rows, the actions, and what the plan means for the
data.  `reconcile_accountsFor`: the plan of every reconciliation does, whatever the GUIDs and the
identifiers of the rows and the records are, if no two records have one GUID.

The plan carries out a settlement (`exists_accounts_of_reconcile`).  The GUIDs of the rows are those
of the linked and of the new records (`Accounts.exists_guids`), and the linked records and those that
are deleted are all records; the rest is counting.
-/

namespace RecordTables

open Matcher

/-- A plan accounts for every row and every record exactly once. -/
structure Plan.AccountsFor (plan : Plan) (records : RecordSet) (rows : List Row) : Prop where
  /-- Every row gets a GUID, and no two rows get the same. -/
  guids : ∃ guids : List Guid,
    plan.rowGuids rows = guids.map some ∧ guids.length = rows.length ∧ guids.Nodup
  /-- No row is in two actions. -/
  rows_nodup : (plan.actions.filterMap PlanAction.row?).Nodup
  /-- No record is in two actions. -/
  guids_nodup : (plan.actions.map (·.guid)).Nodup
  /-- A record is that of one row, or it is deleted once. -/
  record : ∀ r ∈ records.records,
    (∃! i : Nat, (plan.rowGuids rows)[i]? = some (some r.guid)) ∧ .delete r.guid ∉ plan.actions ∨
      some r.guid ∉ plan.rowGuids rows ∧ plan.actions.count (.delete r.guid) = 1
  /-- A row is created if and only if its GUID is that of no record. -/
  created : ∀ i guid, (plan.rowGuids rows)[i]? = some (some guid) →
    ((∃ guid' directory, .create i guid' directory ∈ plan.actions) ↔
      guid ∉ records.records.map (·.guid))
  forceFull : plan.forceFull = true ↔ ∃ guid, .delete guid ∈ plan.actions
  full : plan.regenState = .full ↔ ∃ guid, .delete guid ∈ plan.actions
  upToDate : plan.regenState = .upToDate ↔ plan.actions = []
  /-- Otherwise there is one change for each action. -/
  incremental : plan.actions ≠ [] → (∀ guid, .delete guid ∉ plan.actions) →
    ∃ changes, plan.regenState = .incremental changes ∧ changes.size = plan.actions.length ∧
      changes.toList.Perm
        (plan.actions.filterMap fun a => (Plan.change? a).map fun c => (plan.recordType, c))

namespace Matcher

variable {s : Settlement} {records : RecordSet} {rows : List Row} {plan : Plan}

/-- The records of the actions for links are those of the links. -/
theorem Link.guids_sublist (links : List Link) :
    ((links.filterMap action?).map (·.guid)).Sublist (links.map (·.record.guid)) := by
  induction links with
  | nil => exact List.Sublist.refl _
  | cons l links ih =>
    unfold action?
    rw [List.filterMap_cons]
    split
    · exact ih.cons _
    · next a ha =>
      split at ha
      · cases ha
      · obtain rfl := Option.some.inj ha
        exact ih.cons_cons _

namespace Settlement.Accounts

variable (h : s.Accounts records rows plan)

include h

/-- **The GUIDs of the rows** are those of the linked records and of the new ones. -/
theorem exists_guids :
    ∃ guids : List Guid, plan.rowGuids rows = guids.map some ∧ guids.length = rows.length ∧
      guids.Perm (s.links.map (·.record.guid) ++ s.created.map (·.2)) := by
  -- each GUID with the number of its row
  have hrows : ((s.links.map (fun l => (l.index, l.record.guid)) ++ s.created).map
      Prod.fst).Perm (List.range rows.length) := by
    rw [List.map_append, List.map_map]
    exact h.rows_perm
  obtain ⟨numbered, hrange, hperm⟩ : ∃ numbered : List (Nat × Guid),
      List.range rows.length = numbered.map Prod.fst ∧
        numbered.Perm (s.links.map (fun l => (l.index, l.record.guid)) ++ s.created) :=
    (congrFun₂ (List.eq_map_comp_perm Prod.fst) (List.range rows.length) _).mpr hrows.symm
  have hlength : numbered.length = rows.length := by
    rw [← List.length_map (f := Prod.fst), ← hrange, List.length_range]
  refine ⟨numbered.map Prod.snd, ?_, (List.length_map _).trans hlength, ?_⟩
  · refine List.ext_getElem? fun i => ?_
    rw [List.map_map, List.getElem?_map]
    by_cases hi : i < rows.length
    · obtain ⟨⟨j, guid⟩, he⟩ : ∃ e, numbered[i]? = some e :=
        ⟨_, List.getElem?_eq_getElem (hlength ▸ hi)⟩
      have hj : j = i := by
        have hget : (numbered.map Prod.fst)[i]? = some j := by rw [List.getElem?_map, he]; rfl
        rw [← hrange, List.getElem?_range hi] at hget
        exact (Option.some.inj hget).symm
      subst hj
      rw [he]
      rcases List.mem_append.1 (hperm.mem_iff.1 (List.mem_of_getElem? he)) with hmem | hmem
      · obtain ⟨l, hl, heq⟩ := List.mem_map.1 hmem
        obtain ⟨rfl, rfl⟩ := Prod.mk.inj heq
        exact h.rowGuids_link hl
      · exact h.rowGuids_created hmem
    · have hguids : (plan.rowGuids rows).length = rows.length := by
        unfold Plan.rowGuids
        rw [length_foldl_setAt, List.length_map]
      rw [List.getElem?_eq_none (by omega), List.getElem?_eq_none (by omega)]
      rfl
  · have hsnd := hperm.map Prod.snd
    rw [List.map_append, List.map_map] at hsnd
    exact hsnd

/-- No GUID is that of two rows, or of a row and a deleted record. -/
theorem nodup_allGuids (hguids : (records.records.map (·.guid)).Nodup) :
    (s.links.map (·.record.guid) ++ (s.created.map (·.2) ++ s.deleted.map (·.guid))).Nodup := by
  have hold : (s.links.map (·.record.guid) ++ s.deleted.map (·.guid)).Perm
      (records.records.map (·.guid)) := by
    have hmap := h.records_perm.map (·.guid)
    rwa [List.map_append, List.map_map] at hmap
  have hperm : (s.links.map (·.record.guid) ++ (s.created.map (·.2) ++ s.deleted.map (·.guid))).Perm
      (s.created.map (·.2) ++ (s.links.map (·.record.guid) ++ s.deleted.map (·.guid))) := by
    rw [← List.append_assoc, ← List.append_assoc]
    exact List.perm_append_comm.append_right _
  refine hperm.nodup_iff.2 (List.nodup_append.2 ⟨h.created_nodup, hold.nodup_iff.2 hguids, ?_⟩)
  intro guid hguid guid' hguid' heq
  obtain ⟨e, he, rfl⟩ := List.mem_map.1 hguid
  refine h.created_fresh e he ?_
  rw [heq]
  exact hold.mem_iff.1 hguid'

theorem guids_of_actions :
    plan.actions.map (·.guid) =
      (s.links.filterMap Link.action?).map (·.guid) ++
        (s.created.map (·.2) ++ s.deleted.map (·.guid)) := by
  rw [h.actions, Settlement.actions, creations, deletions, List.map_append, List.map_append,
    List.map_map, List.map_map]
  rfl

/-- No record is in two actions. -/
theorem nodup_guids_of_actions (hguids : (records.records.map (·.guid)).Nodup) :
    (plan.actions.map (·.guid)).Nodup := by
  rw [h.guids_of_actions]
  exact ((Link.guids_sublist s.links).append (List.Sublist.refl _)).nodup (h.nodup_allGuids hguids)

theorem delete_mem_actions {guid : Guid} :
    .delete guid ∈ plan.actions ↔ guid ∈ s.deleted.map (·.guid) := by
  rw [h.mem_actions]
  constructor
  · rintro (hmem | ⟨e, -, heq⟩ | ⟨r, hr, heq⟩)
    · obtain ⟨l, -, -, heq⟩ := Link.exists_of_mem_actions hmem
      cases heq
    · cases heq
    · cases heq
      exact List.mem_map_of_mem hr
  · intro hmem
    obtain ⟨r, hr, rfl⟩ := List.mem_map.1 hmem
    exact Or.inr (Or.inr ⟨r, hr, rfl⟩)

/-! ### Rows and their GUIDs -/

/-- The GUIDs of the rows are those of the linked records and the new ones. -/
theorem some_mem_rowGuids {guid : Guid} :
    some guid ∈ plan.rowGuids rows ↔ guid ∈ s.links.map (·.record.guid) ++ s.created.map (·.2) := by
  obtain ⟨guids, hrows, -, hperm⟩ := h.exists_guids
  rw [hrows, ← hperm.mem_iff, List.mem_map]
  exact ⟨fun ⟨g, hg, heq⟩ => Option.some.inj heq ▸ hg, fun hg => ⟨guid, hg, rfl⟩⟩

/-- A GUID is that of one row. -/
theorem index_eq_of_guid (hguids : (records.records.map (·.guid)).Nodup) {i j : Nat} {guid : Guid}
    (hi : (plan.rowGuids rows)[i]? = some (some guid))
    (hj : (plan.rowGuids rows)[j]? = some (some guid)) : i = j := by
  obtain ⟨guids, hrows, -, hperm⟩ := h.exists_guids
  have hall := h.nodup_allGuids hguids
  rw [← List.append_assoc] at hall
  have hnodup : (plan.rowGuids rows).Nodup := by
    rw [hrows]
    exact (hperm.nodup_iff.2 (List.nodup_append.1 hall).1).map fun _ _ => Option.some.inj
  exact (List.getElem?_inj (List.getElem?_eq_some_iff.1 hi).1 hnodup).1 (hi.trans hj.symm)

/-- A record is linked with the row that has its GUID. -/
theorem exists_link_of_guid (hguids : (records.records.map (·.guid)).Nodup) {i : Nat} {r : Record}
    (hr : r ∈ records.records) (hi : (plan.rowGuids rows)[i]? = some (some r.guid)) :
    ∃ l ∈ s.links, l.index = i ∧ l.record = r := by
  rcases List.mem_append.1 (h.some_mem_rowGuids.1 (List.mem_of_getElem? hi)) with hlink | hcreated
  · obtain ⟨l, hl, hguid⟩ := List.mem_map.1 hlink
    have hrow := h.rowGuids_link hl
    rw [show l.record.guid = r.guid from hguid] at hrow
    refine ⟨l, hl, h.index_eq_of_guid hguids hrow hi, ?_⟩
    exact List.inj_on_of_nodup_map hguids (List.mem_map_of_mem (h.valid l hl).mem) hr hguid
  · obtain ⟨e, he, hguid⟩ := List.mem_map.1 hcreated
    exact absurd (hguid ▸ List.mem_map_of_mem hr) (h.created_fresh e he)

/-- **Every record once.**  A record is that of one row, or it is deleted once. -/
theorem record_cases (hguids : (records.records.map (·.guid)).Nodup) {r : Record}
    (hr : r ∈ records.records) :
    (∃! i : Nat, (plan.rowGuids rows)[i]? = some (some r.guid)) ∧ .delete r.guid ∉ plan.actions ∨
      some r.guid ∉ plan.rowGuids rows ∧ plan.actions.count (.delete r.guid) = 1 := by
  have hall := h.nodup_allGuids hguids
  rcases List.mem_append.1 (h.records_perm.mem_iff.2 hr) with hlink | hdeleted
  · left
    obtain ⟨l, hl, rfl⟩ := List.mem_map.1 hlink
    refine ⟨⟨l.index, h.rowGuids_link hl, fun j hj => ?_⟩, fun hdelete => ?_⟩
    · exact h.index_eq_of_guid hguids hj (h.rowGuids_link hl)
    · exact (List.nodup_append.1 hall).2.2 _ (List.mem_map_of_mem hl) _
        (List.mem_append_right _ (h.delete_mem_actions.1 hdelete)) rfl
  · right
    refine ⟨fun hmem => ?_, ?_⟩
    · rw [← List.append_assoc] at hall
      exact (List.nodup_append.1 hall).2.2 _ (h.some_mem_rowGuids.1 hmem) _
        (List.mem_map_of_mem hdeleted) rfl
    · refine List.count_eq_one_of_mem (List.Nodup.of_map _ (h.nodup_guids_of_actions hguids)) ?_
      exact h.delete_mem_actions.2 (List.mem_map_of_mem hdeleted)

/-- A row is created if and only if its GUID is that of no record. -/
theorem created_iff (hguids : (records.records.map (·.guid)).Nodup) {i : Nat} {guid : Guid}
    (hi : (plan.rowGuids rows)[i]? = some (some guid)) :
    (∃ guid' directory, .create i guid' directory ∈ plan.actions) ↔
      guid ∉ records.records.map (·.guid) := by
  constructor
  · rintro ⟨guid', directory, hmem⟩
    rcases h.mem_actions.1 hmem with hlink | ⟨e, he, heq⟩ | ⟨r, -, heq⟩
    · obtain ⟨l, -, -, heq⟩ := Link.exists_of_mem_actions hlink
      cases heq
    · cases heq
      rw [h.rowGuids_created he] at hi
      exact Option.some.inj (Option.some.inj hi) ▸ h.created_fresh e he
    · cases heq
  · intro hnew
    rcases List.mem_append.1 (h.some_mem_rowGuids.1 (List.mem_of_getElem? hi)) with
      hlink | hcreated
    · obtain ⟨l, hl, rfl⟩ := List.mem_map.1 hlink
      refine absurd (List.mem_map_of_mem ?_) hnew
      exact h.records_perm.mem_iff.1 (List.mem_append_left _ (List.mem_map_of_mem hl))
    · obtain ⟨e, he, rfl⟩ := List.mem_map.1 hcreated
      have hindex : i = e.1 := h.index_eq_of_guid hguids hi (h.rowGuids_created he)
      exact ⟨e.2, s.directory, h.mem_actions.2 (Or.inr (Or.inl ⟨e, he, hindex ▸ rfl⟩))⟩

/-! ### What the plan means for the data -/

theorem forceFull_iff : plan.forceFull = true ↔ ∃ guid, .delete guid ∈ plan.actions := by
  rw [h.forceFull, Bool.not_eq_true', List.isEmpty_eq_false_iff_exists_mem]
  constructor
  · rintro ⟨r, hr⟩
    exact ⟨r.guid, h.delete_mem_actions.2 (List.mem_map_of_mem hr)⟩
  · rintro ⟨guid, hmem⟩
    obtain ⟨r, hr, -⟩ := List.mem_map.1 (h.delete_mem_actions.1 hmem)
    exact ⟨r, hr⟩

/-- What a plan without deletions means for the data. -/
theorem exists_regenState (hguids : (records.records.map (·.guid)).Nodup)
    (hstays : ∀ guid, .delete guid ∉ plan.actions) :
    ∃ changes, plan.regenState = .ofChanges changes ∧ changes.size = plan.actions.length ∧
      changes.toList.Perm
        (plan.actions.filterMap fun a => (Plan.change? a).map fun c => (plan.recordType, c)) := by
  -- no action is a deletion, so each of them leaves a change
  have hstays' : ∀ a ∈ plan.actions, a.isDelete = false := by
    intro a ha
    cases a with
    | delete guid => exact absurd ha (hstays guid)
    | update guid row rename => rfl
    | create row guid directory => rfl
  obtain ⟨changes, hchanges, hperm⟩ := @Plan.exists_changes? plan.recordType _ .empty hstays'
    (h.nodup_guids_of_actions hguids) fun _ _ => rfl
  have hforce : ¬plan.forceFull = true := by
    rw [h.forceFull_iff]
    rintro ⟨guid, hmem⟩
    exact hstays guid hmem
  rw [show ChangeSet.empty.toList = [] from rfl, List.append_nil] at hperm
  refine ⟨changes, ?_, ?_, hperm⟩
  · unfold Plan.regenState
    rw [if_neg hforce]
    unfold Plan.changes?
    rw [hchanges]
  · refine hperm.length_eq.trans (List.filterMap_length_eq_length.2 fun a ha => ?_)
    cases a with
    | delete guid => exact absurd ha (hstays guid)
    | update guid row rename => cases rename <;> rfl
    | create row guid directory => rfl

theorem regenState_eq_full_iff (hguids : (records.records.map (·.guid)).Nodup) :
    plan.regenState = .full ↔ ∃ guid, .delete guid ∈ plan.actions := by
  by_cases hdelete : ∃ guid, .delete guid ∈ plan.actions
  · refine iff_of_true ?_ hdelete
    unfold Plan.regenState
    rw [if_pos (h.forceFull_iff.2 hdelete)]
  · obtain ⟨changes, hstate, -, -⟩ :=
      h.exists_regenState hguids fun guid hmem => hdelete ⟨guid, hmem⟩
    refine iff_of_false (fun hfull => ?_) hdelete
    rw [hstate] at hfull
    unfold RegenState.ofChanges at hfull
    split_ifs at hfull

theorem regenState_eq_upToDate_iff (hguids : (records.records.map (·.guid)).Nodup) :
    plan.regenState = .upToDate ↔ plan.actions = [] := by
  refine ⟨Plan.actions_eq_nil, fun hnil => ?_⟩
  have hstays : ∀ guid, .delete guid ∉ plan.actions := by
    rw [hnil]
    exact fun _ hmem => nomatch hmem
  obtain ⟨changes, hstate, hsize, -⟩ := h.exists_regenState hguids hstays
  rw [hnil] at hsize
  rw [hstate, RegenState.ofChanges_eq_upToDate]
  exact List.isEmpty_iff_length_eq_zero.2 hsize

end Settlement.Accounts

/-- **Every row and every record once.**  The plan of a reconciliation accounts for all of them. -/
theorem reconcile_accountsFor {settings : Settings} {supply supply' : GuidSupply}
    (hs : records.WellFormed) (hguids : (records.records.map (·.guid)).Nodup)
    (hsupply : supply.FreshFor records)
    (h : reconcile settings supply records rows = (.ok plan, supply')) :
    plan.AccountsFor records rows := by
  obtain ⟨s, h, -⟩ := exists_accounts_of_reconcile hs hsupply h
  obtain ⟨guids, hrows, hlength, hperm⟩ := h.exists_guids
  have hall := h.nodup_allGuids hguids
  rw [← List.append_assoc] at hall
  exact
  { guids := ⟨guids, hrows, hlength, hperm.nodup_iff.2 (List.nodup_append.1 hall).1⟩
    rows_nodup := h.nodup_rows
    guids_nodup := h.nodup_guids_of_actions hguids
    record := fun r hr => h.record_cases hguids hr
    created := fun i guid hi => h.created_iff hguids hi
    forceFull := h.forceFull_iff
    full := h.regenState_eq_full_iff hguids
    upToDate := h.regenState_eq_upToDate_iff hguids
    incremental := by
      intro hne hstays
      obtain ⟨changes, hstate, hsize, hchanges⟩ := h.exists_regenState hguids hstays
      refine ⟨changes, ?_, hsize, hchanges⟩
      rw [hstate, RegenState.ofChanges, if_neg fun hempty => hne ?_]
      refine List.eq_nil_of_length_eq_zero (hsize.symm.trans ?_)
      exact List.isEmpty_iff_length_eq_zero.1 hempty }

/-! ### Two coins -/

/-- Two coins of one identifier, and a gem. -/
def hoard : RecordSet :=
  .ofList "Item" [⟨⟨"g1"⟩, "Coin", "Item", some "a", ∅⟩, ⟨⟨"g2"⟩, "Coin", "Item/old", some "b", ∅⟩,
    ⟨⟨"g3"⟩, "Gem", "Item", some "c", ∅⟩]

/-- The first coin, called like the gem, then a coin, a pearl and a ring. -/
def hoardRows : List Row :=
  [⟨2, "Gem", some ⟨"g1"⟩, "c", ∅⟩, ⟨3, "Coin", none, "d", ∅⟩, ⟨4, "Pearl", none, "e", ∅⟩,
    ⟨5, "Ring", none, "f", ∅⟩]

/-- What has to be done for these rows: the other coin is the one of the row without a GUID. -/
def hoardPlan : Plan where
  recordType := "Item"
  actions := [.update ⟨"g1"⟩ 0 (some ⟨"Coin", "Gem_new", "Gem"⟩), .update ⟨"g2"⟩ 1 none,
    .create 2 ⟨"n"⟩ "Item", .create 3 ⟨"nn"⟩ "Item", .delete ⟨"g3"⟩]
  backfilled := [(1, ⟨"g2"⟩)]
  forceFull := true

/-- Records may share an identifier. -/
theorem reconcile_accountsFor_hoard :
    (reconcile .standard Execution.unarySupply hoard hoardRows).1 = .ok hoardPlan ∧
      (hoard.records.map (·.guid)).Nodup ∧ hoardPlan.AccountsFor hoard hoardRows := by
  have hplan : (reconcile .standard Execution.unarySupply hoard hoardRows).1 = .ok hoardPlan := by
    cbv
  exact ⟨hplan, by decide, reconcile_accountsFor (RecordSet.wellFormed_ofList _ _) (by decide)
    (Execution.freshFor_unarySupply (by decide)) (Prod.ext hplan rfl)⟩

end Matcher

end RecordTables
