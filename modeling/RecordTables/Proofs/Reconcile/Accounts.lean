import RecordTables.Execution
import RecordTables.Proofs.Reconcile.Settlement

/-!
# What a settled plan says of its rows

The plan of a settlement tells for every row which record it stands for: `Accounts.rowGuids_link` and
`Accounts.rowGuids_created` read the GUIDs off that the rows have once the plan is carried out.  Rows
and actions belong together one to one: no two links have the same row or record
(`Accounts.eq_of_index`), no row is written twice (`Accounts.nodup_rows`), and each renaming leads back
to its record (`Accounts.renamed?`).
-/

namespace RecordTables.Matcher

/-! ### GUIDs that are set -/

theorem length_foldl_setAt (l : List (Nat × Guid)) (guids : List (Option Guid)) :
    (l.foldl Plan.setAt guids).length = guids.length := by
  induction l generalizing guids with
  | nil => rfl
  | cons e l ih => rw [List.foldl_cons, ih, Plan.setAt, List.length_set]

theorem getElem?_foldl_setAt_of_notMem {l : List (Nat × Guid)} {i : Nat}
    (h : i ∉ l.map (·.1)) (guids : List (Option Guid)) :
    (l.foldl Plan.setAt guids)[i]? = guids[i]? := by
  induction l generalizing guids with
  | nil => rfl
  | cons e l ih =>
    obtain ⟨hne, hnotMem⟩ := List.ne_and_not_mem_of_not_mem_cons h
    rw [List.foldl_cons, ih hnotMem, Plan.setAt, List.getElem?_set_ne (Ne.symm hne)]

theorem getElem?_foldl_setAt_of_mem {l : List (Nat × Guid)} {e : Nat × Guid}
    (hnodup : (l.map (·.1)).Nodup) (he : e ∈ l) {guids : List (Option Guid)}
    (hlt : e.1 < guids.length) : (l.foldl Plan.setAt guids)[e.1]? = some (some e.2) := by
  induction l generalizing guids with
  | nil => cases he
  | cons e' l ih =>
    obtain ⟨hnotMem, hnodup⟩ := List.nodup_cons.1 hnodup
    rw [List.foldl_cons]
    rcases List.mem_cons.1 he with rfl | he
    · rw [getElem?_foldl_setAt_of_notMem hnotMem, Plan.setAt, List.getElem?_set_self hlt]
    · exact ih hnodup he (by rwa [Plan.setAt, List.length_set])

/-- The entries for references of a plan are those of the rows that have a GUID. -/
theorem mem_referenceEntries {plan : Plan} {rows : List Row} {e : ReferenceEntry} :
    e ∈ plan.referenceEntries rows ↔ e.recordType = plan.recordType ∧
      ∃ (i : Nat) (row : Row), rows[i]? = some row ∧
        (plan.rowGuids rows)[i]? = some (some e.guid) ∧ row.identifier = e.identifier := by
  unfold Plan.referenceEntries
  rw [List.mem_filterMap]
  constructor
  · rintro ⟨⟨row, guid⟩, hmem, he⟩
    obtain ⟨guid, rfl, rfl⟩ := Option.map_eq_some_iff.1 he
    obtain ⟨i, hi⟩ := List.getElem?_of_mem hmem
    obtain ⟨hrow, hguid⟩ := List.getElem?_zip_eq_some.1 hi
    exact ⟨rfl, i, row, hrow, hguid, rfl⟩
  · rintro ⟨htype, i, row, hrow, hguid, hidentifier⟩
    refine ⟨(row, some e.guid),
      List.mem_of_getElem? (List.getElem?_zip_eq_some.2 ⟨hrow, hguid⟩), ?_⟩
    dsimp only
    rw [← htype, hidentifier]
    rfl

/-! ### Rows, links and actions -/

namespace Link

/-- The rows of the actions for links are rows of links. -/
theorem rows_sublist (links : List Link) :
    ((links.filterMap action?).filterMap PlanAction.row?).Sublist (links.map (·.index)) := by
  induction links with
  | nil => exact List.Sublist.refl _
  | cons l links ih =>
    unfold action?
    rw [List.filterMap_cons]
    split
    · exact ih.cons _
    · next a ha =>
      split at ha
      · cases ha
      · obtain rfl := Option.some.inj ha
        exact ih.cons_cons _

/-- The rows that get a GUID are rows of links. -/
theorem backfilled_sublist (links : List Link) :
    ((links.filterMap backfill?).map (·.1)).Sublist (links.map (·.index)) := by
  induction links with
  | nil => exact List.Sublist.refl _
  | cons l links ih =>
    unfold backfill?
    rw [List.filterMap_cons]
    split
    · exact ih.cons _
    · next e he =>
      split at he
      · obtain rfl := Option.some.inj he
        exact ih.cons_cons _
      · cases he

/-- The renamings of the actions for links are those of the links. -/
theorem filterMap_rename? (links : List Link) :
    (links.filterMap action?).filterMap PlanAction.rename? = links.filterMap rename? := by
  induction links with
  | nil => rfl
  | cons l links ih =>
    obtain ⟨index, row, key, record, treatment⟩ := l
    cases treatment with
    | keep => exact ih
    | update => exact ih
    | rename temporary => exact congrArg (_ :: ·) ih

theorem renamed?_cons_some (guid : Guid) (i : Nat) (r rename : Rename) (tail : List PlanAction) :
    Execution.renamed? (.update guid i (some r) :: tail) rename =
      if r = rename then some guid else Execution.renamed? tail rename := by
  unfold Execution.renamed?
  rw [List.findSome?_cons]
  dsimp only
  split_ifs <;> rfl

/-- The first action with a renaming is that of its link: temporary identifiers are distinct. -/
theorem renamed?_of_mem {links : List Link} (hnodup : (links.filterMap temporary?).Nodup)
    {l : Link} (hl : l ∈ links) {rename : Rename} (hrename : l.rename? = some rename)
    (tail : List PlanAction) :
    Execution.renamed? (links.filterMap action? ++ tail) rename = some l.record.guid := by
  induction links with
  | nil => cases hl
  | cons l' links ih =>
    obtain ⟨temporary, htemporary, hrenameEq⟩ := Option.map_eq_some_iff.1 hrename
    obtain ⟨index, row, key, record, treatment⟩ := l'
    cases treatment with
    | keep =>
      rcases List.mem_cons.1 hl with rfl | hl
      · cases htemporary
      · exact ih hnodup hl
    | update =>
      rcases List.mem_cons.1 hl with rfl | hl
      · cases htemporary
      · exact ih hnodup hl
    | rename temporary' =>
      obtain ⟨hnotMem, hnodup⟩ := List.nodup_cons.1 hnodup
      refine (renamed?_cons_some _ _ _ _ _).trans ?_
      rcases List.mem_cons.1 hl with rfl | hl
      · exact if_pos (Option.some.inj hrename)
      -- the temporary names differ, so it is not the rename of another link
      · have hne : temporary' ≠ temporary := by
          rintro rfl
          exact hnotMem (List.mem_filterMap.2 ⟨l, hl, htemporary⟩)
        rw [if_neg (by rw [← hrenameEq]; exact fun heq => hne (congrArg Rename.temporary heq))]
        exact ih hnodup hl

theorem exists_of_mem_actions {links : List Link} {a : PlanAction}
    (h : a ∈ links.filterMap action?) :
    ∃ l ∈ links, l.treatment ≠ .keep ∧ a = .update l.record.guid l.index l.rename? := by
  obtain ⟨l, hl, ha⟩ := List.mem_filterMap.1 h
  unfold action? at ha
  split at ha
  · cases ha
  · next hkeep => exact ⟨l, hl, hkeep, (Option.some.inj ha).symm⟩

end Link

/-- What is read off the actions that are for no link. -/
theorem Settlement.filterMap_creations (s : Settlement) {α : Type} (f : PlanAction → Option α)
    (g : Nat × Guid → Option α) (hcreate : ∀ e : Nat × Guid, f (.create e.1 e.2 s.directory) = g e)
    (hdelete : ∀ guid, f (.delete guid) = none) :
    (s.creations ++ s.deletions).filterMap f = s.created.filterMap g := by
  have hcreated : f ∘ (fun e : Nat × Guid => PlanAction.create e.1 e.2 s.directory) = g :=
    funext hcreate
  have hdeleted : s.deleted.filterMap (f ∘ fun r => .delete r.guid) = [] :=
    List.filterMap_eq_nil_iff.2 fun r _ => hdelete r.guid
  rw [creations, deletions, List.filterMap_append, List.filterMap_map, List.filterMap_map,
    hcreated, hdeleted, List.append_nil]

theorem Settlement.rows_of_creations (s : Settlement) :
    (s.creations ++ s.deletions).filterMap PlanAction.row? = s.created.map (·.1) := by
  rw [s.filterMap_creations PlanAction.row? (fun e => some e.1) (fun _ => rfl) fun _ => rfl,
    List.filterMap_eq_map']

/-- The new records of a plan are those of its settlement. -/
theorem Settlement.created_of_actions {s : Settlement} {plan : Plan}
    (h : plan.actions = s.actions) : plan.created = s.created := by
  unfold Plan.created
  rw [h, actions, List.filterMap_append]
  refine (congrArg _ (s.filterMap_creations _ some (fun _ => rfl) fun _ => rfl)).trans ?_
  rw [List.filterMap_some]
  refine List.append_left_eq_self.2 (List.filterMap_eq_nil_iff.2 fun a ha => ?_)
  obtain ⟨l, -, -, rfl⟩ := Link.exists_of_mem_actions ha
  rfl

namespace Settlement.Accounts

variable {s : Settlement} {records : RecordSet} {rows : List Row} {plan : Plan}
  (h : s.Accounts records rows plan)

include h

theorem nodup_indices : (s.links.map (·.index) ++ s.created.map (·.1)).Nodup :=
  h.rows_perm.nodup_iff.2 List.nodup_range

/-- A row has one link. -/
theorem eq_of_index {l l' : Link} (hl : l ∈ s.links) (hl' : l' ∈ s.links)
    (hindex : l.index = l'.index) : l = l' :=
  List.inj_on_of_nodup_map (List.nodup_append.1 h.nodup_indices).1 hl hl' hindex

/-- A row with a link gets no new record. -/
theorem index_ne_created {l : Link} {e : Nat × Guid} (hl : l ∈ s.links) (he : e ∈ s.created) :
    l.index ≠ e.1 :=
  (List.nodup_append.1 h.nodup_indices).2.2 _ (List.mem_map_of_mem hl) _ (List.mem_map_of_mem he)

theorem exists_row_of_created {e : Nat × Guid} (he : e ∈ s.created) :
    ∃ row, rows[e.1]? = some row := by
  have hmem := h.rows_perm.mem_iff.1 (List.mem_append_right _ (List.mem_map_of_mem he))
  exact ⟨_, List.getElem?_eq_getElem (List.mem_range.1 hmem)⟩

/-- The actions of a plan, one by one. -/
theorem mem_actions {a : PlanAction} :
    a ∈ plan.actions ↔ a ∈ s.links.filterMap Link.action? ∨
      (∃ e ∈ s.created, .create e.1 e.2 s.directory = a) ∨ ∃ r ∈ s.deleted, .delete r.guid = a := by
  rw [h.actions, Settlement.actions, List.mem_append, List.mem_append, creations, deletions,
    List.mem_map, List.mem_map]

/-- Actions are about rows that there are. -/
theorem exists_row {a : PlanAction} (ha : a ∈ plan.actions) {i : Nat} (hi : a.row? = some i) :
    ∃ row, rows[i]? = some row := by
  rcases h.mem_actions.1 ha with ha | ⟨e, he, rfl⟩ | ⟨r, -, rfl⟩
  · obtain ⟨l, hl, -, rfl⟩ := Link.exists_of_mem_actions ha
    obtain rfl := Option.some.inj hi
    exact ⟨l.row, (h.valid l hl).row_eq⟩
  · obtain rfl := Option.some.inj hi
    exact h.exists_row_of_created he
  · cases hi

theorem filterMap_actions {α : Type} (f : PlanAction → Option α) (g : Nat × Guid → Option α)
    (hcreate : ∀ e : Nat × Guid, f (.create e.1 e.2 s.directory) = g e)
    (hdelete : ∀ guid, f (.delete guid) = none) :
    plan.actions.filterMap f =
      (s.links.filterMap Link.action?).filterMap f ++ s.created.filterMap g := by
  rw [h.actions, Settlement.actions, List.filterMap_append,
    s.filterMap_creations f g hcreate hdelete]

theorem rows_of_actions :
    plan.actions.filterMap PlanAction.row? =
      (s.links.filterMap Link.action?).filterMap PlanAction.row? ++ s.created.map (·.1) := by
  rw [h.actions, Settlement.actions, List.filterMap_append, s.rows_of_creations]

/-- **No row is written twice.** -/
theorem nodup_rows : (plan.actions.filterMap PlanAction.row?).Nodup := by
  rw [h.rows_of_actions]
  exact ((Link.rows_sublist s.links).append (List.Sublist.refl _)).nodup h.nodup_indices

theorem renames_eq : plan.renames = s.links.filterMap Link.rename? := by
  unfold Plan.renames
  rw [h.filterMap_actions (·.rename?) (fun _ => none) (fun _ => rfl) fun _ => rfl,
    List.filterMap_none, List.append_nil]
  exact Link.filterMap_rename? s.links

theorem created_eq : plan.created = s.created := created_of_actions h.actions

/-- A renaming leads back to the record of its link. -/
theorem renamed? {l : Link} (hl : l ∈ s.links) {rename : Rename}
    (hrename : l.rename? = some rename) :
    Execution.renamed? plan.actions rename = some l.record.guid := by
  rw [h.actions]
  exact Link.renamed?_of_mem h.temporaries_nodup hl hrename _

/-! ### The GUIDs of the rows -/

theorem nodup_setRows : ((plan.backfilled ++ plan.created).map (·.1)).Nodup := by
  rw [List.map_append, h.created_eq, h.backfilled]
  exact ((Link.backfilled_sublist s.links).append (List.Sublist.refl _)).nodup h.nodup_indices

/-- A row with a new record gets its GUID. -/
theorem rowGuids_created {e : Nat × Guid} (he : e ∈ s.created) :
    (plan.rowGuids rows)[e.1]? = some (some e.2) := by
  obtain ⟨row, hrow⟩ := h.exists_row_of_created he
  have hlt : e.1 < (rows.map (·.guid)).length := by
    rw [List.length_map]
    exact (List.getElem?_eq_some_iff.1 hrow).1
  refine getElem?_foldl_setAt_of_mem h.nodup_setRows (List.mem_append_right _ ?_) hlt
  rw [h.created_eq]
  exact he

/-- **A row with a link has the GUID of its record**, its own or a new one. -/
theorem rowGuids_link {l : Link} (hl : l ∈ s.links) :
    (plan.rowGuids rows)[l.index]? = some (some l.record.guid) := by
  have hvalid := h.valid l hl
  unfold Plan.rowGuids
  -- a row without a GUID is given that of its record
  cases hguid : l.row.guid with
  | none =>
    have hlt : l.index < (rows.map (·.guid)).length := by
      rw [List.length_map]
      exact (List.getElem?_eq_some_iff.1 hvalid.row_eq).1
    have hmem : (l.index, l.record.guid) ∈ plan.backfilled ++ plan.created := by
      rw [h.backfilled]
      exact List.mem_append_left _ (List.mem_filterMap.2 ⟨l, hl, if_pos hguid⟩)
    exact getElem?_foldl_setAt_of_mem h.nodup_setRows hmem hlt
  | some guid =>
    -- a row with a GUID is neither filled in nor created
    have hnotMem : l.index ∉ (plan.backfilled ++ plan.created).map (·.1) := by
      rw [List.map_append, h.created_eq, h.backfilled, List.mem_append]
      rintro (hmem | hmem)
      · obtain ⟨e, he, hindex⟩ := List.mem_map.1 hmem
        obtain ⟨l', hl', hbackfill⟩ := List.mem_filterMap.1 he
        unfold Link.backfill? at hbackfill
        split_ifs at hbackfill with hnone
        obtain rfl := Option.some.inj hbackfill
        rw [h.eq_of_index hl' hl hindex, hguid] at hnone
        cases hnone
      · obtain ⟨e, he, hindex⟩ := List.mem_map.1 hmem
        exact h.index_ne_created hl he hindex.symm
    rw [getElem?_foldl_setAt_of_notMem hnotMem, List.getElem?_map, hvalid.row_eq, Option.map_some,
      hguid, hvalid.guid guid hguid]

end Settlement.Accounts

end RecordTables.Matcher
