import RecordTables.Proofs.Execution.Values
import RecordTables.Proofs.Reconcile.Settlement
import RecordTables.Proofs.Store.Serves

/-!
# The phases of an execution

A plan is carried out in five phases, and each is described on the list of records that the store
holds: renaming to temporary identifiers (`renameTemporarily_yields`), updates
(`updateAll_yields`), new records (`createAll_yields`), deletions (`deleteAll_yields`) and
renaming to the new identifiers (`renameFinally_yields`).  That holds of every store that serves the
records of the type.

In each phase the induction is on the links, or the rows or records, that are still to be treated.
Those treated already stand in the `frame` with all records that the phase does not touch, so a step
is about the record in front, and what it needs is that no identifier in the frame is in its way.
-/

namespace RecordTables

open Matcher Step

/-! ### What becomes of a linked record -/

namespace Matcher.Link

/-- The record with its temporary identifier, if it is renamed. -/
def renamedTemporarily (l : Link) : Record :=
  { l.record with identifier := l.temporary?.getD l.record.identifier }

/-- The record with the values of its row, unless it is kept as it is. -/
def updated (ctx : Cell.Context) (recordType : String) (l : Link) : Record :=
  match l.treatment with
  | .keep => l.record
  | _ => { l.renamedTemporarily with
      contentHash := some l.row.contentHash
      values := l.record.values.override (Execution.rowValues ctx recordType l.row) }

/-- The record in the end, called like its row. -/
def settled (ctx : Cell.Context) (recordType : String) (l : Link) : Record :=
  { l.updated ctx recordType with identifier := l.row.identifier }

@[simp] theorem guid_renamedTemporarily (l : Link) : l.renamedTemporarily.guid = l.record.guid := rfl

@[simp] theorem guid_updated (ctx : Cell.Context) (recordType : String) (l : Link) :
    (l.updated ctx recordType).guid = l.record.guid := by
  unfold updated
  split <;> rfl

theorem action?_of_ne_keep {l : Link} (h : l.treatment ≠ .keep) :
    l.action? = some (.update l.record.guid l.index l.rename?) := by
  unfold action?
  split
  · next hkeep => exact absurd hkeep h
  · rfl

theorem updated_of_ne_keep {l : Link} (h : l.treatment ≠ .keep) (ctx : Cell.Context)
    (recordType : String) :
    l.updated ctx recordType = { l.renamedTemporarily with
      contentHash := some l.row.contentHash
      values := l.record.values.override (Execution.rowValues ctx recordType l.row) } := by
  unfold updated
  split
  · next hkeep => exact absurd hkeep h
  · rfl

theorem identifier_updated (ctx : Cell.Context) (recordType : String) (l : Link) :
    (l.updated ctx recordType).identifier = l.temporary?.getD l.record.identifier := by
  unfold updated temporary?
  split <;> simp_all [renamedTemporarily, temporary?]

end Matcher.Link

namespace Execution

/-- An execution fails because its store does. -/
def FailsWith (Bad : StoreError → Prop) (e : ExecuteError) : Prop := ∃ fault, Bad fault ∧ e = .store fault

variable {σ : Type} {store : RecordStore σ} {Holds : List Record → σ → Prop} {Fits : Record → Prop}
  {Bad : StoreError → Prop} {ctx : Cell.Context} {recordType : String} {rows : List Row} {c : σ}
  {links : List Link} {frame : List Record} {tail : List PlanAction}

/-- A step of the store as a step of an execution. -/
theorem yields_lift {Q : Unit → σ → Prop} {step : Step σ StoreError Unit} (h : step.Yields c Q Bad) :
    (lift step).Yields c Q (FailsWith Bad) :=
  h.mapError fun fault hfault => ⟨fault, hfault, rfl⟩

/-! ### Renaming to temporary identifiers -/

theorem renameTemporarily_of_none (h : ∀ a ∈ tail, a.rename? = none) (c : σ) :
    (renameTemporarily store recordType tail).Answers c () c := by
  induction tail with
  | nil => exact answers_pure c ()
  | cons a tail ih =>
    have ha := h a List.mem_cons_self
    have hrest := ih fun b hb => h b (List.mem_cons_of_mem _ hb)
    cases a with
    | update guid row rename =>
      cases rename with
      | none => exact hrest
      | some rename => cases ha
    | create row guid directory => exact hrest
    | delete guid => exact hrest

/-- The record in front goes to the frame, with the same GUID. -/
theorem nodup_guids_of_cons {r r' : Record} {l : List Record} (hguid : r'.guid = r.guid)
    (h : ((r :: (l ++ frame)).map (·.guid)).Nodup) : ((l ++ r' :: frame).map (·.guid)).Nodup := by
  have hperm : ((r' :: (l ++ frame)).map (·.guid)).Perm ((l ++ r' :: frame).map (·.guid)) :=
    List.perm_middle.symm.map _
  rw [← hperm.nodup_iff, List.map_cons, hguid, ← List.map_cons]
  exact h

/-- **The first phase.**  No temporary identifier is taken when it is given. -/
theorem renameTemporarily_yields (hserves : store.Serves recordType Holds Fits Bad)
    (htail : ∀ a ∈ tail, a.rename? = none) (h : Holds (links.map (·.record) ++ frame) c)
    (hguids : ((links.map (·.record) ++ frame).map (·.guid)).Nodup)
    (hnodup : (links.filterMap Link.temporary?).Nodup)
    (hfresh : ∀ t ∈ links.filterMap Link.temporary?,
      ∀ r ∈ links.map (·.record) ++ frame, r.identifier ≠ t) :
    (renameTemporarily store recordType (links.filterMap Link.action? ++ tail)).Yields c
      (fun _ => Holds (links.map Link.renamedTemporarily ++ frame)) (FailsWith Bad) := by
  induction links generalizing c frame with
  | nil => exact (renameTemporarily_of_none htail c).yields h
  | cons l links ih =>
    have hfresh' : ∀ t ∈ links.filterMap Link.temporary?,
        ∀ r ∈ l.record :: (links.map (·.record) ++ frame), r.identifier ≠ t := by
      intro t ht
      refine hfresh t ?_
      rw [List.filterMap_cons]
      split
      · exact ht
      · exact List.mem_cons_of_mem _ ht
    have hnodup' : (links.filterMap Link.temporary?).Nodup := by
      rw [List.filterMap_cons] at hnodup
      split at hnodup
      · exact hnodup
      · exact (List.nodup_cons.1 hnodup).2
    -- the others are treated with this record in the frame
    have hothers : ∀ {r : Record} {c' : σ}, r.guid = l.record.guid →
        (∀ t ∈ links.filterMap Link.temporary?, r.identifier ≠ t) →
        Holds (r :: (links.map (·.record) ++ frame)) c' →
          (renameTemporarily store recordType (links.filterMap Link.action? ++ tail)).Yields c'
            (fun _ => Holds (r :: (links.map Link.renamedTemporarily ++ frame)))
              (FailsWith Bad) := by
      intro r c' hguid hne hholds
      have hrun := ih (hserves.perm hholds List.perm_middle.symm)
        (nodup_guids_of_cons hguid hguids) hnodup' fun t ht r' hr' => by
          rcases List.mem_cons.1 (List.perm_middle.mem_iff.1 hr') with rfl | hr'
          · exact hne t ht
          · exact hfresh' t ht r' (List.mem_cons_of_mem _ hr')
      exact hrun.mono fun _ _ hholds' => hserves.perm hholds' List.perm_middle
    obtain ⟨index, row, key, record, treatment⟩ := l
    cases treatment with
    | keep => exact hothers rfl (fun t ht => hfresh' t ht _ List.mem_cons_self) h
    | update => exact hothers rfl (fun t ht => hfresh' t ht _ List.mem_cons_self) h
    | rename temporary =>
      have hmem : temporary ∈ temporary :: links.filterMap Link.temporary? := List.mem_cons_self
      have hnotMem : record.guid ∉ (links.map (·.record) ++ frame).map (·.guid) :=
        (List.nodup_cons.1 hguids).1
      have hfree : temporary ∉ (links.map (·.record) ++ frame).map (·.identifier) := by
        intro hmem'
        obtain ⟨r, hr, hidentifier⟩ := List.mem_map.1 hmem'
        exact hfresh temporary hmem r (List.mem_cons_of_mem _ hr) hidentifier
      refine (yields_lift (hserves.rename h hnotMem hfree)).bind fun _ c' hholds => ?_
      exact hothers (r := { record with identifier := temporary }) rfl
        (fun t ht (heq : temporary = t) => (List.nodup_cons.1 hnodup).1 (heq ▸ ht)) hholds

/-! ### Updates -/

theorem updateAll_of_none {records : RecordSet} {values : List (Nat × NameMap Value)}
    (h : ∀ a ∈ tail, a.isUpdate = false) (c : σ) :
    (updateAll store recordType records rows tail values).Answers c values c := by
  induction tail with
  | nil => exact answers_pure c values
  | cons a tail ih =>
    have ha := h a List.mem_cons_self
    have hrest := ih fun b hb => h b (List.mem_cons_of_mem _ hb)
    cases a with
    | update guid row rename => cases ha
    | create row guid directory => exact hrest
    | delete guid => exact hrest

/-- An update action is carried out on the record in front. -/
theorem updateAll_cons {records : RecordSet} {values : List (Nat × NameMap Value)}
    {Q : Unit → σ → Prop} {R : List (Nat × NameMap Value) → σ → Prop} {guid : Guid} {i : Nat}
    {rename : Option Rename} {record : Record} {row : Row}
    (hrecord : records.ofGuid? guid = some record) (hrow : rows[i]? = some row)
    (hupdate : (store.update recordType { record with
      identifier := (rename.map (·.temporary)).getD record.identifier
      values := record.values.override (takeValues i values).1
      contentHash := some row.contentHash }).Yields c Q Bad)
    (hrest : ∀ c', Q () c' →
      (updateAll store recordType records rows tail (takeValues i values).2).Yields c' R
        (FailsWith Bad)) :
    (updateAll store recordType records rows (.update guid i rename :: tail) values).Yields c R
      (FailsWith Bad) := by
  unfold updateAll
  rw [hrecord, hrow]
  exact (yields_lift hupdate).bind fun _ => hrest

/-- **The second phase.**  Every update finds its record, its row and the values of the row. -/
theorem updateAll_yields (hserves : store.Serves recordType Holds Fits Bad) {records : RecordSet}
    {values : List (Nat × NameMap Value)} (htail : ∀ a ∈ tail, a.isUpdate = false)
    (hlinks : ∀ l ∈ links, rows[l.index]? = some l.row ∧
      records.ofGuid? l.record.guid = some l.record)
    (h : Holds (links.map Link.renamedTemporarily ++ frame) c)
    (hguids : ((links.map Link.renamedTemporarily ++ frame).map (·.guid)).Nodup)
    (hready : Ready ctx recordType rows values
      ((links.filterMap Link.action? ++ tail).filterMap PlanAction.row?))
    (hpending : ((links.filterMap Link.action? ++ tail).filterMap PlanAction.row?).Nodup) :
    (updateAll store recordType records rows (links.filterMap Link.action? ++ tail) values).Yields c
      (fun values' c' => Holds (links.map (Link.updated ctx recordType) ++ frame) c' ∧
        Ready ctx recordType rows values' (tail.filterMap PlanAction.row?)) (FailsWith Bad) := by
  induction links generalizing c frame values with
  | nil => exact (updateAll_of_none htail c).yields ⟨h, hready⟩
  | cons l links ih =>
    have hlinks' := fun l' hl' => hlinks l' (List.mem_cons_of_mem _ hl')
    obtain ⟨hrow, hrecord⟩ := hlinks l List.mem_cons_self
    -- the others are treated with this record in the frame
    have hothers : ∀ {r : Record} {c' : σ} {values' : List (Nat × NameMap Value)},
        r.guid = l.renamedTemporarily.guid →
        Holds (r :: (links.map Link.renamedTemporarily ++ frame)) c' →
        Ready ctx recordType rows values'
          ((links.filterMap Link.action? ++ tail).filterMap PlanAction.row?) →
        ((links.filterMap Link.action? ++ tail).filterMap PlanAction.row?).Nodup →
          (updateAll store recordType records rows
              (links.filterMap Link.action? ++ tail) values').Yields c' (fun values'' c'' =>
            Holds (r :: (links.map (Link.updated ctx recordType) ++ frame)) c'' ∧
            Ready ctx recordType rows values'' (tail.filterMap PlanAction.row?))
              (FailsWith Bad) := by
      intro r c' values' hguid hholds hready hpending
      have hrun := ih hlinks' (hserves.perm hholds List.perm_middle.symm)
        (nodup_guids_of_cons hguid hguids) hready hpending
      exact hrun.mono fun _ _ hafter => ⟨hserves.perm hafter.1 List.perm_middle, hafter.2⟩
    have hnotMem : l.renamedTemporarily.guid ∉
        (links.map Link.renamedTemporarily ++ frame).map (·.guid) := (List.nodup_cons.1 hguids).1
    by_cases hkeep : l.treatment = .keep
    · have haction : l.action? = none := by rw [Link.action?, hkeep]
      have hupdated : l.updated ctx recordType = l.renamedTemporarily := by
        rw [Link.updated, hkeep, Link.renamedTemporarily, Link.temporary?, hkeep]
        rfl
      rw [List.filterMap_cons_none haction] at hready hpending ⊢
      rw [List.map_cons, hupdated]
      exact hothers rfl h hready hpending
    · have haction := Link.action?_of_ne_keep hkeep
      rw [List.filterMap_cons_some haction, List.cons_append,
        List.filterMap_cons_some (f := PlanAction.row?) (b := l.index) rfl] at hready hpending
      rw [List.filterMap_cons_some haction, List.cons_append]
      obtain ⟨hpending, hnodup⟩ := List.nodup_cons.1 hpending
      obtain ⟨hvalues, -, hready'⟩ := takeValues_spec hready hpending hrow
      have hupdate := @RecordStore.Serves.update _ _ _ _ _ _ hserves _ { l.record with
        identifier := (l.rename?.map (·.temporary)).getD l.record.identifier
        values := l.record.values.override (takeValues l.index values).1
        contentHash := some l.row.contentHash } _ _ h hnotMem rfl rfl
      refine updateAll_cons hrecord hrow hupdate fun c' hholds => ?_
      rw [hvalues] at hholds
      exact hothers (r := l.updated ctx recordType) (Link.guid_updated ctx recordType l)
        (by rw [Link.updated_of_ne_keep hkeep]; exact hholds) hready' hnodup

/-! ### New records -/

theorem createAll_of_none {values : List (Nat × NameMap Value)} {actions : List PlanAction}
    (h : ∀ a ∈ actions, a.isCreate = false) :
    createAll ctx store recordType rows (actions ++ tail) values =
      createAll ctx store recordType rows tail values := by
  induction actions with
  | nil => rfl
  | cons a actions ih =>
    have ha := h a List.mem_cons_self
    have hrest := ih fun b hb => h b (List.mem_cons_of_mem _ hb)
    cases a with
    | update guid row rename => exact hrest
    | create row guid directory => cases ha
    | delete guid => exact hrest

/-- The record that is created for a row. -/
def createdRecord (ctx : Cell.Context) (recordType : String) (rows : List Row)
    (directory : String) (e : Nat × Guid) : Record :=
  match rows[e.1]? with
  | some row => newRecord ctx recordType row e.2 directory (rowValues ctx recordType row)
  | none => default

theorem createdRecord_of_row {e : Nat × Guid} {row : Row} (h : rows[e.1]? = some row)
    (directory : String) :
    createdRecord ctx recordType rows directory e =
      newRecord ctx recordType row e.2 directory (rowValues ctx recordType row) := by
  rw [createdRecord, h]

/-- **The third phase.**  The identifier of a row that gets a new record is not taken, and neither is
the GUID of the record. -/
theorem createAll_yields (hserves : store.Serves recordType Holds Fits Bad)
    {values : List (Nat × NameMap Value)} {created : List (Nat × Guid)}
    (directory : String) (hids : (rows.map (·.identifier)).Nodup)
    (htail : ∀ a ∈ tail, a.isCreate = false) (h : Holds frame c)
    (hfits : ∀ e ∈ created, Fits (createdRecord ctx recordType rows directory e))
    (hrows : ∀ e ∈ created, ∃ row, rows[e.1]? = some row)
    (hnodup : (created.map (·.1)).Nodup) (hguids : (created.map (·.2) ++ frame.map (·.guid)).Nodup)
    (hready : Ready ctx recordType rows values (created.map (·.1)))
    (hfree : ∀ e ∈ created, ∀ row, rows[e.1]? = some row →
      ∀ r ∈ frame, r.identifier ≠ row.identifier) :
    (createAll ctx store recordType rows
        (created.map (fun e => .create e.1 e.2 directory) ++ tail) values).Yields c
      (fun _ => Holds (created.map (createdRecord ctx recordType rows directory) ++ frame))
        (FailsWith Bad) := by
  induction created generalizing c frame values with
  | nil =>
    have hnone : createAll ctx store recordType rows (tail ++ []) values =
        createAll ctx store recordType rows [] values :=
      createAll_of_none htail
    rw [List.append_nil] at hnone
    rw [List.map_nil, List.nil_append, hnone]
    exact yields_pure h
  | cons e created ih =>
    obtain ⟨row, hrow⟩ := hrows e List.mem_cons_self
    obtain ⟨hnotMem, hnodup⟩ := List.nodup_cons.1 hnodup
    rw [List.map_cons, List.cons_append] at hguids
    obtain ⟨hunused, -⟩ := List.nodup_cons.1 hguids
    rw [List.mem_append, not_or] at hunused
    obtain ⟨hvalues, -, hready'⟩ := takeValues_spec hready hnotMem hrow
    have hnew : createdRecord ctx recordType rows directory e =
        newRecord ctx recordType row e.2 directory (rowValues ctx recordType row) :=
      createdRecord_of_row hrow directory
    have hfreeNew : (createdRecord ctx recordType rows directory e).identifier ∉
        frame.map (·.identifier) := by
      rw [hnew]
      intro hmem
      obtain ⟨r, hr, hidentifier⟩ := List.mem_map.1 hmem
      exact hfree e List.mem_cons_self row hrow r hr hidentifier
    have hguidNew : (createdRecord ctx recordType rows directory e).guid ∉ frame.map (·.guid) := by
      rw [hnew]
      exact hunused.2
    have hcreate := hserves.create h (hfits e List.mem_cons_self) hguidNew hfreeNew
    rw [List.map_cons, List.cons_append]
    unfold createAll
    rw [hrow]
    dsimp only
    rw [hvalues, ← hnew]
    refine (yields_lift hcreate).bind fun _ c' hholds => ?_
    have hguidsNew : (created.map (·.2) ++ (createdRecord ctx recordType rows directory e ::
        frame).map (·.guid)).Nodup := by
      rw [List.map_cons, hnew]
      exact List.perm_middle.nodup_iff.2 hguids
    have hrun := ih hholds (fun e' he' => hfits e' (List.mem_cons_of_mem _ he'))
      (fun e' he' => hrows e' (List.mem_cons_of_mem _ he')) hnodup hguidsNew hready'
      fun e' he' row' hrow' r hr => by
        rcases List.mem_cons.1 hr with rfl | hr
        · -- another row has another identifier
          rw [hnew]
          intro hidentifier
          have hsame : e.1 = e'.1 := index_eq_of_identifier hids hrow hrow' hidentifier
          exact hnotMem (List.mem_map.2 ⟨e', he', hsame.symm⟩)
        · exact hfree e' (List.mem_cons_of_mem _ he') row' hrow' r hr
    exact hrun.mono fun _ _ hholds' => hserves.perm hholds' List.perm_middle

/-! ### Deletions -/

theorem deleteAll_of_none {actions : List PlanAction} (h : ∀ a ∈ actions, a.isDelete = false) :
    deleteAll store recordType (actions ++ tail) = deleteAll store recordType tail := by
  induction actions with
  | nil => rfl
  | cons a actions ih =>
    have ha := h a List.mem_cons_self
    have hrest := ih fun b hb => h b (List.mem_cons_of_mem _ hb)
    cases a with
    | update guid row rename => exact hrest
    | create row guid directory => exact hrest
    | delete guid => cases ha

/-- **The fourth phase.**  Every record to delete is there. -/
theorem deleteAll_yields (hserves : store.Serves recordType Holds Fits Bad) {deleted : List Record}
    (h : Holds (deleted ++ frame) c) (hguids : ((deleted ++ frame).map (·.guid)).Nodup) :
    (deleteAll store recordType (deleted.map fun r => .delete r.guid)).Yields c
      (fun _ => Holds frame) (FailsWith Bad) := by
  induction deleted generalizing c with
  | nil => exact yields_pure h
  | cons r deleted ih =>
    obtain ⟨hnotMem, hguids⟩ := List.nodup_cons.1 hguids
    exact (yields_lift (hserves.delete h hnotMem)).bind fun _ c' hholds => ih hholds hguids

/-! ### Renaming to the new identifiers -/

/-- **The fifth phase.**  When a record gets its new identifier, no other record has it. -/
theorem renameFinally_yields {plan : Plan}
    (hserves : store.Serves plan.recordType Holds Fits Bad)
    (hplan : ∀ l ∈ links, ∀ rename, l.rename? = some rename →
      renamed? plan.actions rename = some l.record.guid)
    (hsame : ∀ l ∈ links, l.temporary? = none → l.record.identifier = l.row.identifier)
    (hids : (links.map (·.row.identifier)).Nodup)
    (h : Holds (links.map (Link.updated ctx recordType) ++ frame) c)
    (hguids : ((links.map (Link.updated ctx recordType) ++ frame).map (·.guid)).Nodup)
    (hfree : ∀ l ∈ links, l.temporary? ≠ none →
      ∀ r ∈ links.map (Link.updated ctx recordType) ++ frame, r.identifier ≠ l.row.identifier) :
    (renameFinally store plan (links.filterMap Link.rename?)).Yields c
      (fun _ => Holds (links.map (Link.settled ctx recordType) ++ frame)) (FailsWith Bad) := by
  induction links generalizing c frame with
  | nil => exact yields_pure h
  | cons l links ih =>
    obtain ⟨hnotMemId, hids⟩ := List.nodup_cons.1 hids
    have hnotMem : (l.updated ctx recordType).guid ∉
        (links.map (Link.updated ctx recordType) ++ frame).map (·.guid) :=
      (List.nodup_cons.1 hguids).1
    -- the others are treated with this record in the frame
    have hothers : ∀ {c' : σ},
        Holds (l.settled ctx recordType :: (links.map (Link.updated ctx recordType) ++ frame)) c' →
          (renameFinally store plan (links.filterMap Link.rename?)).Yields c' (fun _ =>
            Holds (l.settled ctx recordType :: (links.map (Link.settled ctx recordType) ++ frame)))
              (FailsWith Bad) := by
      intro c' hholds
      have hrun := ih (fun l' hl' => hplan l' (List.mem_cons_of_mem _ hl'))
        (fun l' hl' => hsame l' (List.mem_cons_of_mem _ hl')) hids
        (hserves.perm hholds List.perm_middle.symm) (nodup_guids_of_cons rfl hguids)
        fun l' hl' htemporary r hr => by
          rcases List.mem_cons.1 (List.perm_middle.mem_iff.1 hr) with rfl | hr
          · exact fun heq => hnotMemId (List.mem_map.2 ⟨l', hl', heq.symm⟩)
          · exact hfree l' (List.mem_cons_of_mem _ hl') htemporary r (List.mem_cons_of_mem _ hr)
      exact hrun.mono fun _ _ hholds' => hserves.perm hholds' List.perm_middle
    cases htemporary : l.temporary? with
    | none =>
      have hrename : l.rename? = none := by rw [Link.rename?, htemporary]; rfl
      have hsettled : l.settled ctx recordType = l.updated ctx recordType := by
        have hid := l.identifier_updated ctx recordType
        rw [htemporary, Option.getD_none, hsame l List.mem_cons_self htemporary] at hid
        rw [Link.settled, ← hid]
      rw [List.filterMap_cons_none hrename]
      rw [List.map_cons, ← hsettled] at h
      exact hothers h
    | some temporary =>
      have hrename : l.rename? = some ⟨l.record.identifier, temporary, l.row.identifier⟩ := by
        rw [Link.rename?, htemporary]
        rfl
      have hfound := hplan l List.mem_cons_self _ hrename
      have hunused : l.row.identifier ∉
          (links.map (Link.updated ctx recordType) ++ frame).map (·.identifier) := by
        intro hmem
        obtain ⟨r, hr, hidentifier⟩ := List.mem_map.1 hmem
        refine hfree l List.mem_cons_self ?_ r (List.mem_cons_of_mem _ hr) hidentifier
        rw [htemporary]
        exact Option.some_ne_none _
      rw [List.filterMap_cons_some hrename]
      unfold renameFinally
      rw [hfound, ← Link.guid_updated ctx recordType l]
      exact (yields_lift (hserves.rename h hnotMem hunused)).bind fun _ c' hholds => hothers hholds

end Execution

end RecordTables
