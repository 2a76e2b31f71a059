import Mathlib
import RecordTables.Proofs.Execution.Phases
import RecordTables.Proofs.Reconcile.Accounts
import RecordTables.Proofs.Store.Memory

/-!
# A plan that is carried out

`apply_reconcile`: a plan that a reconciliation made, and whose rows can be read, is carried out on
the store in memory without being refused, whatever the records exchange their identifiers for.
Afterwards the store holds one record for each row, as `Settled` describes it, and the records of
other types as before.

The five phases are put together by what is in the way of an identifier in each: temporary
identifiers are nobody's (first phase), a row with a new record is called like no record that is
left and not renamed (third phase), and a row whose record is renamed is called like no other row
(fifth phase).
-/

namespace RecordTables.Execution

open Matcher Step

variable {σ : Type} {store : RecordStore σ} {Holds : List Record → σ → Prop} {Fits : Record → Prop}
  {Bad : StoreError → Prop} {ctx : Cell.Context} {s : Settlement} {records : RecordSet}
  {rows : List Row} {plan : Plan}

/-! ### What a row comes to -/

/-- The defaults of the properties of a type. -/
def defaultValues (ctx : Cell.Context) (recordType : String) : NameMap Value :=
  NameMap.ofList ((((ctx.registry.type? recordType).map (·.valueProperties)).getD []).filterMap
    fun p => (ctx.registry.default? p).map fun v => (p.name, v))

/-- The values of the record of a row: if the plan does nothing for the row, the record is as it was;
if it updates the record, the values are those that it had with the cells of the row on top; and if
it creates the record, they are the defaults with the cells on top. -/
inductive HasValues (ctx : Cell.Context) (records : RecordSet) (plan : Plan) (i : Nat) (row : Row)
    (r : Record) : Prop
  | unchanged (hold : r ∈ records.records) (hplan : ∀ a ∈ plan.actions, a.row? ≠ some i)
  | updated (old : Record) (rename : Option Rename) (values : NameMap Value)
      (hold : old ∈ records.records) (hguid : old.guid = r.guid)
      (hplan : .update r.guid i rename ∈ plan.actions)
      (hread : decodeRow ctx plan.recordType row = .ok values)
      (hvalues : r.values = old.values.override values)
  | created (directory : String) (values : NameMap Value)
      (hplan : .create i r.guid directory ∈ plan.actions)
      (hread : decodeRow ctx plan.recordType row = .ok values)
      (hvalues : r.values = (defaultValues ctx plan.recordType).override values)

/-- **Where a value comes from**: a cell of the row, the default of the property, or the record as it
was, if the row is not read or has no cell for the property. -/
theorem HasValues.origin {i : Nat} {row : Row} {r : Record} (h : HasValues ctx records plan i row r)
    {t : ResolvedType} (ht : ctx.registry.type? plan.recordType = some t)
    (hnodup : (t.valueProperties.map (·.name)).Nodup) {p : Schema.Property}
    (hp : p ∈ t.valueProperties) {v : Value} (hv : r.values.find? p.name = some v) :
    (∃ cell, row.cells.find? p.name = some cell ∧ ctx.decode p cell = .ok v) ∨
      ctx.registry.default? p = some v ∨
      ∃ old ∈ records.records, old.guid = r.guid ∧ old.values.find? p.name = some v ∧
        ((∀ a ∈ plan.actions, a.row? ≠ some i) ∨ row.cells.find? p.name = none) := by
  -- what is read of a row lies on top of a base
  have hread {base values : NameMap Value}
      (hread : decodeRow ctx plan.recordType row = .ok values)
      (hvalues : r.values = base.override values) :
      (∃ cell, row.cells.find? p.name = some cell ∧ ctx.decode p cell = .ok v) ∨
        row.cells.find? p.name = none ∧ base.find? p.name = some v := by
    rw [hvalues] at hv
    cases hcell : row.cells.find? p.name with
    | some cell =>
      obtain ⟨w, hdecode, hw⟩ := find?_of_decodeRow ht hnodup hread hp hcell
      rw [NameMap.find?_override hw] at hv
      exact Or.inl ⟨cell, rfl, Option.some.inj hv ▸ hdecode⟩
    | none =>
      rw [NameMap.find?_override_of_none (find?_decodeRow_of_none hread hcell)] at hv
      exact Or.inr ⟨rfl, hv⟩
  cases h with
  | unchanged hold hplan => exact Or.inr (Or.inr ⟨r, hold, rfl, hv, Or.inl hplan⟩)
  | updated old _ values hold hguid _ hrow hvalues =>
    refine (hread hrow hvalues).imp_right fun ⟨hcell, hfound⟩ => Or.inr ?_
    exact ⟨old, hold, hguid, hfound, Or.inr hcell⟩
  | created _ values _ hrow hvalues =>
    refine (hread hrow hvalues).imp_right fun ⟨_, hfound⟩ => Or.inl ?_
    unfold defaultValues at hfound
    rw [ht, Option.map_some, Option.getD_some] at hfound
    obtain ⟨q, hq, hdefault⟩ := List.mem_filterMap.1 (NameMap.mem_of_find?_ofList hfound)
    obtain ⟨w, hw, heq⟩ := Option.map_eq_some_iff.1 hdefault
    obtain ⟨hname, rfl⟩ := Prod.mk.inj heq
    rwa [← List.inj_on_of_nodup_map hnodup hq hp hname]

/-- The record that stands for a row once the plan is carried out. -/
structure Settled (ctx : Cell.Context) (records : RecordSet) (rows : List Row) (plan : Plan)
    (i : Nat) (row : Row) (r : Record) : Prop where
  guid : (plan.rowGuids rows)[i]? = some (some r.guid)
  identifier : r.identifier = row.identifier
  contentHash : r.contentHash = some row.contentHash
  values : HasValues ctx records plan i row r

/-- Row by row, the records stand for the rows. -/
def AllSettled (ctx : Cell.Context) (records : RecordSet) (rows : List Row) (plan : Plan)
    (rs : List Record) : Prop :=
  rs.length = rows.length ∧
    ∀ i row r, rows[i]? = some row → rs[i]? = some r → Settled ctx records rows plan i row r

/-! ### What the phases need -/

section Phases

variable (h : s.Settles records rows plan)

include h

theorem rows_distinct {l l' : Link} (hl : l ∈ s.links) (hl' : l' ∈ s.links)
    (hidentifier : l.row.identifier = l'.row.identifier) : l = l' :=
  h.eq_of_index hl hl' (index_eq_of_identifier h.identifiers_nodup (h.valid l hl).row_eq
    (h.valid l' hl').row_eq hidentifier)

/-- No temporary identifier is that of a row. -/
theorem identifier_ne_temporary {l : Link} (hl : l ∈ s.links) {t : String}
    (ht : l.temporary? = some t) {row : Row} (hrow : row ∈ rows) : t ≠ row.identifier := by
  rintro rfl
  refine h.temporaries_fresh _ (List.mem_filterMap.2 ⟨l, hl, ht⟩) ?_
  exact List.mem_append_left _ (List.mem_map_of_mem hrow)

/-- After the second phase, a linked record is not called like another row. -/
theorem identifier_updated_ne {l : Link} (hl : l ∈ s.links) {i : Nat} {row : Row}
    (hrow : rows[i]? = some row) (hne : l.temporary? = none → l.index ≠ i) :
    (l.updated ctx plan.recordType).identifier ≠ row.identifier := by
  rw [Link.identifier_updated]
  cases htemporary : l.temporary? with
  | none =>
    intro hidentifier
    rw [Option.getD_none, (h.valid l hl).identifier htemporary] at hidentifier
    exact hne htemporary
      (index_eq_of_identifier h.identifiers_nodup (h.valid l hl).row_eq hrow hidentifier)
  | some t => exact identifier_ne_temporary h hl htemporary (List.mem_of_getElem? hrow)

omit h in
/-- After the third phase, a new record is called like its row. -/
theorem identifier_createdRecord {e : Nat × Guid} {row : Row} (hrow : rows[e.1]? = some row) :
    (createdRecord ctx plan.recordType rows s.directory e).identifier = row.identifier := by
  rw [createdRecord_of_row hrow]
  rfl

theorem guid_createdRecord {e : Nat × Guid} (he : e ∈ s.created) :
    (createdRecord ctx plan.recordType rows s.directory e).guid = e.2 := by
  obtain ⟨row, hrow⟩ := h.exists_row_of_created he
  rw [createdRecord_of_row hrow]
  rfl

theorem nodup_guids (hguids : (records.records.map (·.guid)).Nodup) :
    ((s.links.map (·.record) ++ s.deleted).map (·.guid)).Nodup :=
  (h.records_perm.map _).nodup_iff.2 hguids

/-- No new GUID is that of a record or of another new record. -/
theorem nodup_guids_updated (ctx : Cell.Context) (hguids : (records.records.map (·.guid)).Nodup) :
    (s.created.map (·.2) ++
      (s.links.map (Link.updated ctx plan.recordType) ++ s.deleted).map (·.guid)).Nodup := by
  have hupdated : (s.links.map (Link.updated ctx plan.recordType)).map (·.guid) =
      (s.links.map (·.record)).map (·.guid) := by
    rw [List.map_map, List.map_map]
    exact List.map_congr_left fun l _ => Link.guid_updated ctx plan.recordType l
  have hold := nodup_guids h hguids
  rw [List.map_append] at hold ⊢
  rw [hupdated]
  refine List.nodup_append.2 ⟨h.created_nodup, hold, ?_⟩
  intro guid hguid guid' hguid' heq
  obtain ⟨e, he, rfl⟩ := List.mem_map.1 hguid
  refine h.created_fresh e he ?_
  rw [heq, ← (h.records_perm.map _).mem_iff, List.map_append]
  exact hguid'

omit h in
/-- The records after the third phase, those to delete in front. -/
theorem created_perm (s : Settlement) (ctx : Cell.Context) (rows : List Row) (plan : Plan) :
    (s.created.map (createdRecord ctx plan.recordType rows s.directory) ++
      (s.links.map (Link.updated ctx plan.recordType) ++ s.deleted)).Perm
        (s.deleted ++ (s.links.map (Link.updated ctx plan.recordType) ++
          s.created.map (createdRecord ctx plan.recordType rows s.directory))) := by
  rw [← List.append_assoc s.deleted]
  exact List.perm_append_comm.trans (List.perm_append_comm.append_right _)

/-- The GUIDs after the third phase are distinct. -/
theorem nodup_guids_created (ctx : Cell.Context)
    (hguids : (records.records.map (·.guid)).Nodup) :
    ((s.deleted ++ (s.links.map (Link.updated ctx plan.recordType) ++
      s.created.map (createdRecord ctx plan.recordType rows s.directory))).map (·.guid)).Nodup := by
  have hcreated : (s.created.map (createdRecord ctx plan.recordType rows s.directory)).map (·.guid) =
      s.created.map (·.2) := by
    rw [List.map_map]
    exact List.map_congr_left fun e he => guid_createdRecord h he
  rw [← ((created_perm s ctx rows plan).map _).nodup_iff, List.map_append, hcreated]
  exact nodup_guids_updated h ctx hguids

end Phases

/-! ### The phases together -/

/-- What is told of a plan that is carried out. -/
def report (plan : Plan) : ExecutionReport where
  recordType := plan.recordType
  updated := plan.actions.countP (·.isUpdate)
  created := plan.actions.countP (·.isCreate)
  deleted := plan.actions.countP (·.isDelete)
  renamed := plan.renames.length
  regen := plan.regenState

/-- The records when a settlement has been carried out: those that are linked with rows, called like
their rows, and the new ones. -/
def recordsAfter (ctx : Cell.Context) (rows : List Row) (plan : Plan) (s : Settlement) :
    List Record :=
  s.links.map (Link.settled ctx plan.recordType) ++
    s.created.map (createdRecord ctx plan.recordType rows s.directory)

/-- **The five phases.**  They lead to the records of the settlement, unless the store fails. -/
theorem apply_yields (hserves : store.Serves plan.recordType Holds Fits Bad)
    (h : s.Settles records rows plan) (hguids : (records.records.map (·.guid)).Nodup)
    (hcheck : check ctx plan rows = .ok ())
    (hfits : ∀ e ∈ s.created, Fits (createdRecord ctx plan.recordType rows s.directory e)) {c : σ}
    (hc : Holds records.records c) :
    (apply ctx store plan rows records).Yields c
      (fun answer c' => answer = report plan ∧ Holds (recordsAfter ctx rows plan s) c')
        (FailsWith Bad) := by
  obtain ⟨values, hvalues, -⟩ := map_eq_ok.1 hcheck
  have hready := decodePlan_spec hvalues
  have hpending := h.nodup_rows
  have hactions : plan.actions =
      s.links.filterMap Link.action? ++ (s.creations ++ s.deletions) := h.actions
  rw [hactions] at hready hpending
  unfold apply
  rw [hvalues]
  dsimp only
  -- renaming to temporary identifiers
  have hrename : ∀ a ∈ s.creations ++ s.deletions, a.rename? = none :=
    List.forall_mem_append.2 ⟨List.forall_mem_map.2 fun _ _ => rfl,
      List.forall_mem_map.2 fun _ _ => rfl⟩
  have hrun₁ := renameTemporarily_yields hserves hrename
    (hserves.perm hc h.records_perm.symm) (nodup_guids h hguids) h.temporaries_nodup
      fun t ht r hr hidentifier => h.temporaries_fresh t ht (List.mem_append_right _
        (List.mem_map.2 ⟨r, h.records_perm.mem_iff.1 hr, hidentifier⟩))
  rw [← hactions] at hrun₁
  refine hrun₁.bind fun _ c₁ hholds₁ => ?_
  -- updates
  have hguids₁ : ((s.links.map Link.renamedTemporarily ++ s.deleted).map (·.guid)).Nodup := by
    have hnodup := nodup_guids h hguids
    rw [List.map_append, List.map_map] at hnodup ⊢
    exact hnodup
  have hupdate : ∀ a ∈ s.creations ++ s.deletions, a.isUpdate = false :=
    List.forall_mem_append.2 ⟨List.forall_mem_map.2 fun _ _ => rfl,
      List.forall_mem_map.2 fun _ _ => rfl⟩
  have hrun₂ := updateAll_yields hserves hupdate
    (fun l hl => ⟨(h.valid l hl).row_eq,
      RecordSet.ofGuid?_of_mem hguids (List.mem_map_of_mem (h.valid l hl).mem)⟩)
    hholds₁ hguids₁ hready hpending
  rw [← hactions] at hrun₂
  refine hrun₂.bind fun values' c₂ hafter₂ => ?_
  obtain ⟨hholds₂, hready'⟩ := hafter₂
  -- new records
  rw [s.rows_of_creations] at hready'
  have hcreate : ∀ a ∈ s.deletions, a.isCreate = false := List.forall_mem_map.2 fun _ _ => rfl
  have hrun₃ := createAll_yields hserves s.directory h.identifiers_nodup hcreate hholds₂ hfits
    (fun e he => h.exists_row_of_created he) (List.nodup_append.1 h.nodup_indices).2.1
    (nodup_guids_updated h ctx hguids) hready' fun e he row hrow r hr => by
      rcases List.mem_append.1 hr with hr | hr
      · obtain ⟨l, hl, rfl⟩ := List.mem_map.1 hr
        exact identifier_updated_ne h hl hrow fun _ => h.index_ne_created hl he
      · exact h.created_free e he row hrow r hr
  have hnoCreate : ∀ a ∈ s.links.filterMap Link.action?, a.isCreate = false := by
    intro a ha
    obtain ⟨l, -, -, rfl⟩ := Link.exists_of_mem_actions ha
    rfl
  have hall₃ : createAll ctx store plan.recordType rows plan.actions values' =
      createAll ctx store plan.recordType rows (s.creations ++ s.deletions) values' := by
    rw [hactions, createAll_of_none hnoCreate]
  rw [hall₃]
  refine Yields.bind hrun₃ fun _ c₃ hholds₃ => ?_
  -- deletions
  have hguids₃ := nodup_guids_created h ctx hguids
  have hnoDelete : ∀ a ∈ s.links.filterMap Link.action? ++ s.creations, a.isDelete = false := by
    intro a ha
    rcases List.mem_append.1 ha with ha | ha
    · obtain ⟨l, -, -, rfl⟩ := Link.exists_of_mem_actions ha
      rfl
    · obtain ⟨e, -, rfl⟩ := List.mem_map.1 ha
      rfl
  have hall₄ : deleteAll store plan.recordType plan.actions =
      deleteAll store plan.recordType s.deletions := by
    rw [hactions, ← List.append_assoc, deleteAll_of_none hnoDelete]
  rw [hall₄]
  refine (deleteAll_yields hserves (hserves.perm hholds₃ (created_perm s ctx rows plan)) hguids₃).bind
    fun _ c₄ hholds₄ => ?_
  -- renaming to the new identifiers
  have hids : (s.links.map (·.row.identifier)).Nodup :=
    List.Nodup.map_on (fun l hl l' hl' => rows_distinct h hl hl')
      (List.Nodup.of_map (·.index) (List.nodup_append.1 h.nodup_indices).1)
  rw [List.map_append] at hguids₃
  have hrun₅ := renameFinally_yields hserves (fun l hl rename hrename => h.renamed? hl hrename)
    (fun l hl => (h.valid l hl).identifier) hids hholds₄ (List.nodup_append.1 hguids₃).2.1
    fun l hl htemporary r hr => by
      have hrow := (h.valid l hl).row_eq
      rcases List.mem_append.1 hr with hr | hr
      · obtain ⟨l', hl', rfl⟩ := List.mem_map.1 hr
        refine identifier_updated_ne h hl' hrow fun hnone hindex => htemporary ?_
        rw [← h.eq_of_index hl' hl hindex]
        exact hnone
      · obtain ⟨e, he, rfl⟩ := List.mem_map.1 hr
        obtain ⟨row, hrow'⟩ := h.exists_row_of_created he
        rw [identifier_createdRecord hrow']
        intro hidentifier
        exact h.index_ne_created hl he
          (index_eq_of_identifier h.identifiers_nodup hrow hrow' hidentifier.symm)
  rw [← h.renames_eq] at hrun₅
  exact hrun₅.bind fun _ c₅ hholds₅ => yields_pure ⟨rfl, hholds₅⟩

/-! ### One record for each row -/

/-- The rows of a plan that can be read are read. -/
theorem decodeRow_of_check (hcheck : check ctx plan rows = .ok ()) {a : PlanAction} {i : Nat}
    {row : Row} (ha : a ∈ plan.actions) (hi : a.row? = some i) (hrow : rows[i]? = some row) :
    decodeRow ctx plan.recordType row = .ok (rowValues ctx plan.recordType row) := by
  obtain ⟨values, hvalues, -⟩ := map_eq_ok.1 hcheck
  have hready := decodePlan_spec hvalues
  obtain ⟨v, hv⟩ := hready.complete i (List.mem_filterMap.2 ⟨a, ha, hi⟩)
  obtain ⟨row', hrow', hread⟩ := hready.sound _ hv
  obtain rfl : row' = row := Option.some.inj (hrow'.symm.trans hrow)
  rw [rowValues_of_decodeRow hread]
  exact hread

/-- A linked record stands for its row. -/
theorem settled_link (h : s.Settles records rows plan) (hcheck : check ctx plan rows = .ok ())
    {l : Link} (hl : l ∈ s.links) :
    Settled ctx records rows plan l.index l.row (l.settled ctx plan.recordType) := by
  have hvalid := h.valid l hl
  have hguid := h.rowGuids_link hl
  by_cases hkeep : l.treatment = .keep
  · have hnone : l.temporary? = none := by rw [Link.temporary?, hkeep]
    have hsame : l.settled ctx plan.recordType = l.record := by
      rw [Link.settled, Link.updated, hkeep, ← hvalid.identifier hnone]
    rw [hsame]
    refine ⟨hguid, hvalid.identifier hnone, hvalid.hash hkeep, .unchanged
      (List.mem_map_of_mem hvalid.mem) fun a ha hrow => ?_⟩
    rcases h.mem_actions.1 ha with ha | ⟨e, he, rfl⟩ | ⟨r, -, rfl⟩
    · obtain ⟨l', hl', hkeep', rfl⟩ := Link.exists_of_mem_actions ha
      exact hkeep' (h.eq_of_index hl' hl (Option.some.inj hrow) ▸ hkeep)
    · exact h.index_ne_created hl he (Option.some.inj hrow).symm
    · cases hrow
  · have haction : .update l.record.guid l.index l.rename? ∈ plan.actions :=
      h.mem_actions.2 (Or.inl (List.mem_filterMap.2 ⟨l, hl, Link.action?_of_ne_keep hkeep⟩))
    have hread := decodeRow_of_check hcheck haction rfl hvalid.row_eq
    rw [Link.settled, Link.updated_of_ne_keep hkeep]
    exact ⟨hguid, rfl, rfl, .updated l.record l.rename? _ (List.mem_map_of_mem hvalid.mem) rfl
      haction hread rfl⟩

/-- A new record stands for its row. -/
theorem settled_created (h : s.Settles records rows plan) (hcheck : check ctx plan rows = .ok ())
    {e : Nat × Guid} (he : e ∈ s.created) {row : Row} (hrow : rows[e.1]? = some row) :
    Settled ctx records rows plan e.1 row
      (createdRecord ctx plan.recordType rows s.directory e) := by
  have haction : .create e.1 e.2 s.directory ∈ plan.actions :=
    h.mem_actions.2 (Or.inr (Or.inl ⟨e, he, rfl⟩))
  have hread := decodeRow_of_check hcheck haction rfl hrow
  rw [createdRecord_of_row hrow]
  exact ⟨h.rowGuids_created he, rfl, rfl, .created s.directory _ haction hread rfl⟩

/-- The records in the end, in the order of the rows. -/
theorem exists_allSettled (h : s.Settles records rows plan)
    (hcheck : check ctx plan rows = .ok ()) :
    ∃ rs, (recordsAfter ctx rows plan s).Perm rs ∧ AllSettled ctx records rows plan rs := by
  -- each record with the number of its row
  have hrows : ((s.links.map (fun l => (l.index, l.settled ctx plan.recordType)) ++
      s.created.map fun e => (e.1, createdRecord ctx plan.recordType rows s.directory e)).map
        Prod.fst).Perm (List.range rows.length) := by
    rw [List.map_append, List.map_map, List.map_map]
    exact h.rows_perm
  obtain ⟨numbered, hrange, hperm⟩ : ∃ numbered : List (Nat × Record),
      List.range rows.length = numbered.map Prod.fst ∧
        numbered.Perm (s.links.map (fun l => (l.index, l.settled ctx plan.recordType)) ++
          s.created.map fun e => (e.1, createdRecord ctx plan.recordType rows s.directory e)) :=
    (congrFun₂ (List.eq_map_comp_perm Prod.fst) (List.range rows.length) _).mpr hrows.symm
  refine ⟨numbered.map Prod.snd, ?_, ?_, fun i row r hrow hr => ?_⟩
  · have hsnd := (hperm.map Prod.snd).symm
    rw [List.map_append, List.map_map, List.map_map] at hsnd
    exact hsnd
  · rw [List.length_map, ← List.length_map (f := Prod.fst), ← hrange, List.length_range]
  · rw [List.getElem?_map] at hr
    obtain ⟨⟨j, r'⟩, he, rfl⟩ := Option.map_eq_some_iff.1 hr
    have hj : j = i := by
      have hget : (numbered.map Prod.fst)[i]? = some j := by rw [List.getElem?_map, he]; rfl
      rw [← hrange, List.getElem?_range (List.getElem?_eq_some_iff.1 hrow).1] at hget
      exact (Option.some.inj hget).symm
    subst hj
    rcases List.mem_append.1 (hperm.mem_iff.1 (List.mem_of_getElem? he)) with hmem | hmem
    · obtain ⟨l, hl, heq⟩ := List.mem_map.1 hmem
      obtain ⟨rfl, rfl⟩ := Prod.mk.inj heq
      obtain rfl : l.row = row := Option.some.inj ((h.valid l hl).row_eq.symm.trans hrow)
      exact settled_link h hcheck hl
    · obtain ⟨e, he', heq⟩ := List.mem_map.1 hmem
      obtain ⟨rfl, rfl⟩ := Prod.mk.inj heq
      exact settled_created h hcheck he' hrow

/-- The store in memory does not refuse a plan that settles the rows. -/
theorem exists_apply_of_settles (h : s.Settles records rows plan) (hs : records.WellFormed)
    (hguids : (records.records.map (·.guid)).Nodup) (hcheck : check ctx plan rows = .ok ())
    {c : Catalog} (hc : c.setOf records.recordType = records) :
    ∃ c' rs, (apply ctx MemoryStore.store plan rows records).Answers c (report plan) c' ∧
      MemoryStore.Holds c records.recordType rs c' ∧ AllSettled ctx records rows plan rs := by
  have hstart : MemoryStore.Holds c records.recordType records.records c :=
    ⟨hc.symm ▸ hs, hc.symm ▸ List.Perm.refl _, fun _ _ => rfl⟩
  have hserves := MemoryStore.serves c records.recordType
  rw [← h.recordType] at hserves
  obtain ⟨_, c', hrun, rfl, hholds⟩ :=
    ((apply_yields hserves h hguids hcheck (fun _ _ => trivial) (h.recordType ▸ hstart)).weaken
      fun e he => he.choose_spec.1).exists
  obtain ⟨rs, hperm, hsettled⟩ := exists_allSettled h hcheck
  exact ⟨c', rs, hrun, h.recordType ▸ hholds.perm hperm, hsettled⟩

/-- **A reconciled plan makes the store equal to the table.**  The store in memory refuses nothing,
and afterwards it holds one record for each row and, for other types, what it held before. -/
theorem apply_reconcile {settings : Settings} {supply supply' : GuidSupply}
    (hs : records.WellFormed) (hguids : (records.records.map (·.guid)).Nodup)
    (hnames : (records.records.map (·.identifier)).Nodup) (hsupply : supply.FreshFor records)
    (hplan : reconcile settings supply records rows = (.ok plan, supply'))
    (hcheck : check ctx plan rows = .ok ()) {c : Catalog}
    (hc : c.setOf records.recordType = records) :
    ∃ c' rs, (apply ctx MemoryStore.store plan rows records).Answers c (report plan) c' ∧
      MemoryStore.Holds c records.recordType rs c' ∧ AllSettled ctx records rows plan rs := by
  obtain ⟨s, h⟩ := exists_settlement_of_reconcile hs hnames hsupply hplan
  exact exists_apply_of_settles h hs hguids hcheck hc

/-! ### A swap -/

/-- A coin and a gem. -/
def treasure : RecordSet :=
  .ofList "Item" [⟨⟨"g1"⟩, "Coin", "Item", some "a", ∅⟩, ⟨⟨"g2"⟩, "Gem", "Item", some "b", ∅⟩]

/-- The coin and the gem, each called like the other, and a pearl. -/
def treasureRows : List Row :=
  [⟨2, "Gem", some ⟨"g1"⟩, "c", ∅⟩, ⟨3, "Coin", some ⟨"g2"⟩, "d", ∅⟩, ⟨4, "Pearl", none, "e", ∅⟩]

/-- What has to be done for these rows. -/
def treasurePlan : Plan where
  recordType := "Item"
  actions := [.update ⟨"g1"⟩ 0 (some ⟨"Coin", "Gem_new", "Gem"⟩),
    .update ⟨"g2"⟩ 1 (some ⟨"Gem", "Coin_new", "Coin"⟩), .create 2 ⟨"n"⟩ "Item"]
  backfilled := []
  forceFull := false

/-- A registry that knows the type of the treasure. -/
def treasureRegistry : Registry :=
  { (default : Registry) with types := [⟨"Item", .record, [], []⟩] }

/-- The GUIDs `n`, `nn`, `nnn` and so on. -/
def unarySupply : GuidSupply := ⟨fun n => ⟨String.ofList (List.replicate (n + 1) 'n')⟩, 0⟩

/-- These GUIDs are new if no record has one that starts like them. -/
theorem freshFor_unarySupply (h : ∀ r ∈ records.records, r.guid.text.toList.head? ≠ some 'n') :
    unarySupply.FreshFor records where
  distinct := by
    intro m n _ _ h
    have hlength := congrArg (fun g : Guid => g.text.toList.length) h
    simpa [unarySupply] using hlength
  unused := by
    intro n _ hmem
    obtain ⟨r, hr, hguid⟩ := List.mem_map.1 hmem
    refine h r hr ?_
    rw [hguid]
    simp [unarySupply, List.replicate_succ]

theorem freshFor_treasure : unarySupply.FreshFor treasure := freshFor_unarySupply (by decide)

/-- The coin and the gem exchange their identifiers. -/
theorem apply_reconcile_treasure :
    (reconcile .standard unarySupply treasure treasureRows).1 = .ok treasurePlan ∧
    check ⟨treasureRegistry, .none⟩ treasurePlan treasureRows = .ok () ∧
    ∃ c' rs, (apply ⟨treasureRegistry, .none⟩ MemoryStore.store treasurePlan treasureRows
        treasure).Answers (NameMap.insert ∅ "Item" treasure) (report treasurePlan) c' ∧
      MemoryStore.Holds (NameMap.insert ∅ "Item" treasure) "Item" rs c' ∧
      AllSettled ⟨treasureRegistry, .none⟩ treasure treasureRows treasurePlan rs := by
  have hplan : (reconcile .standard unarySupply treasure treasureRows).1 = .ok treasurePlan := by
    cbv
  have hcheck : check ⟨treasureRegistry, .none⟩ treasurePlan treasureRows = .ok () := by
    decide +kernel
  exact ⟨hplan, hcheck, apply_reconcile (RecordSet.wellFormed_ofList _ _) (by decide) (by decide)
    freshFor_treasure (Prod.ext hplan rfl) hcheck rfl⟩

end RecordTables.Execution
