import RecordTables.Proofs.Execution.Values
import RecordTables.Proofs.Step

/-!
# Why a plan is not carried out

If the rows of a plan can be read and the records that it updates are there, a plan fails for a
single reason: the store refuses a request (`apply_fails`).  Whether the rows can be read and the
records are there does not depend on the store, so it is enough that the plan was carried out on some
store before (`grounded_of_apply`).
-/

namespace RecordTables.Execution

open Step

variable {σ : Type} {ctx : Cell.Context} {store : RecordStore σ} {recordType : String}
  {rows : List Row} {records : RecordSet} {plan : Plan} {actions : List PlanAction} {s s' : σ}
  {e : ExecuteError}

/-! ### Plans that only a store can refuse -/

/-- The rows that a plan writes can be read, and the records that it updates are there. -/
structure Grounded (ctx : Cell.Context) (plan : Plan) (rows : List Row) (records : RecordSet) :
    Prop where
  read : ∃ values, decodePlan ctx plan rows = .ok values
  record : ∀ guid i rename, .update guid i rename ∈ plan.actions →
    ∃ r, records.ofGuid? guid = some r

/-- The rows of a plan that can be read are there. -/
theorem Grounded.row (h : Grounded ctx plan rows records) {a : PlanAction} (ha : a ∈ plan.actions)
    {i : Nat} (hi : a.row? = some i) : ∃ row, rows[i]? = some row := by
  obtain ⟨values, hvalues⟩ := h.read
  have hready := decodePlan_spec hvalues
  obtain ⟨v, hv⟩ := hready.complete i (List.mem_filterMap.2 ⟨a, ha, hi⟩)
  obtain ⟨row, hrow, -⟩ := hready.sound _ hv
  exact ⟨row, hrow⟩

theorem record_of_updateAll {values values' : List (Nat × NameMap Value)}
    (h : (updateAll store recordType records rows actions values).Answers s values' s') {guid : Guid}
    {i : Nat} {rename : Option Rename} (ha : .update guid i rename ∈ actions) :
    ∃ r, records.ofGuid? guid = some r := by
  induction actions generalizing values s with
  | nil => cases ha
  | cons a actions ih =>
    cases a with
    | update guid' j rename' =>
      unfold updateAll at h
      split at h
      · exact absurd h not_answers_throw
      · exact absurd h not_answers_throw
      -- the record of the first update is there, and the others are not asked for before it is
      -- written
      · next record row hrecord hrow =>
        rcases List.mem_cons.1 ha with heq | ha
        · cases heq
          exact ⟨record, hrecord⟩
        · obtain ⟨-, t, -, hrest⟩ := answers_bind.1 h
          exact ih hrest ha
    | create j guid' directory =>
      rcases List.mem_cons.1 ha with heq | ha
      · cases heq
      · exact ih h ha
    | delete guid' =>
      rcases List.mem_cons.1 ha with heq | ha
      · cases heq
      · exact ih h ha

/-- A plan that was carried out on a store can only be refused by another one. -/
theorem grounded_of_apply {report : ExecutionReport}
    (h : (apply ctx store plan rows records).Answers s report s') :
    Grounded ctx plan rows records := by
  unfold apply at h
  split at h
  · exact absurd h not_answers_throw
  · next values hvalues =>
    obtain ⟨-, t, -, hrest⟩ := answers_bind.1 h
    obtain ⟨values', u, hupdate, -⟩ := answers_bind.1 hrest
    exact ⟨⟨values, hvalues⟩, fun guid i rename ha => record_of_updateAll hupdate ha⟩

/-! ### Requests -/

/-- What a plan asks of a store. -/
inductive Request where
  | rename (guid : Guid) (identifier : String)
  | update (record : Record)
  | create (record : Record)
  | delete (guid : Guid)

namespace Request

/-- Asks a store. -/
def run (store : RecordStore σ) (recordType : String) : Request → Step σ StoreError Unit
  | rename guid identifier => store.rename recordType guid identifier
  | update record => store.update recordType record
  | create record => store.create recordType record
  | delete guid => store.delete recordType guid

/-- The identifiers that a request gives to records. -/
def names : Request → List String
  | rename _ identifier => [identifier]
  | create record => [record.identifier]
  | update _ | delete _ => []

end Request

/-- The identifiers that a plan gives to records. -/
def namesGiven (plan : Plan) (rows : List Row) : List String :=
  plan.renames.map (·.temporary) ++ plan.renames.map (·.new) ++ rows.map (·.identifier)

/-- A request of a plan was refused with a fault. -/
def Refused (store : RecordStore σ) (plan : Plan) (rows : List Row) (e : ExecuteError) (s' : σ) :
    Prop :=
  ∃ (request : Request) (s : σ) (fault : StoreError),
    (∀ name ∈ request.names, name ∈ namesGiven plan rows) ∧
      (request.run store plan.recordType).Fails s fault s' ∧ e = .store fault

theorem mem_renames {guid : Guid} {i : Nat} {rename : Rename}
    (h : .update guid i (some rename) ∈ plan.actions) : rename ∈ plan.renames :=
  List.mem_filterMap.2 ⟨_, h, rfl⟩

theorem renameTemporarily_fails (hactions : ∀ a ∈ actions, a ∈ plan.actions)
    (h : (renameTemporarily store plan.recordType actions).Fails s e s') :
    Refused store plan rows e s' := by
  induction actions generalizing s with
  | nil => exact absurd h not_fails_pure
  | cons a actions ih =>
    have ih' := fun s => ih (s := s) fun b hb => hactions b (List.mem_cons_of_mem _ hb)
    match a with
    | .update guid i (some rename) =>
      rcases fails_bind.1 h with hfails | ⟨-, t, -, hrest⟩
      · obtain ⟨fault, hrefused, rfl⟩ := fails_mapError.1 hfails
        refine ⟨.rename guid rename.temporary, s, fault, fun name hname => ?_, hrefused, rfl⟩
        rw [List.mem_singleton.1 hname]
        exact List.mem_append_left _ (List.mem_append_left _
          (List.mem_map_of_mem (mem_renames (hactions _ List.mem_cons_self))))
      · exact ih' t hrest
    | .update guid i none => exact ih' s h
    | .create i guid directory => exact ih' s h
    | .delete guid => exact ih' s h

theorem updateAll_fails (hground : Grounded ctx plan rows records)
    (hactions : ∀ a ∈ actions, a ∈ plan.actions) {values : List (Nat × NameMap Value)}
    (h : (updateAll store plan.recordType records rows actions values).Fails s e s') :
    Refused store plan rows e s' := by
  induction actions generalizing s values with
  | nil => exact absurd h not_fails_pure
  | cons a actions ih =>
    have hothers : ∀ b ∈ actions, b ∈ plan.actions :=
      fun b hb => hactions b (List.mem_cons_of_mem _ hb)
    match a with
    | .update guid i rename =>
      have ha := hactions _ List.mem_cons_self
      obtain ⟨r, hr⟩ := hground.record guid i rename ha
      obtain ⟨row, hrow⟩ := hground.row ha rfl
      unfold updateAll at h
      rw [hr, hrow] at h
      rcases fails_bind.1 h with hfails | ⟨-, t, -, hrest⟩
      · obtain ⟨fault, hrefused, rfl⟩ := fails_mapError.1 hfails
        exact ⟨.update _, s, fault, (fun _ hname => nomatch hname), hrefused, rfl⟩
      · exact ih hothers hrest
    | .create i guid directory => exact ih hothers h
    | .delete guid => exact ih hothers h

theorem createAll_fails (hground : Grounded ctx plan rows records)
    (hactions : ∀ a ∈ actions, a ∈ plan.actions) {values : List (Nat × NameMap Value)}
    (h : (createAll ctx store plan.recordType rows actions values).Fails s e s') :
    Refused store plan rows e s' := by
  induction actions generalizing s values with
  | nil => exact absurd h not_fails_pure
  | cons a actions ih =>
    have hothers : ∀ b ∈ actions, b ∈ plan.actions :=
      fun b hb => hactions b (List.mem_cons_of_mem _ hb)
    match a with
    | .create i guid directory =>
      obtain ⟨row, hrow⟩ := hground.row (hactions _ List.mem_cons_self) rfl
      unfold createAll at h
      rw [hrow] at h
      rcases fails_bind.1 h with hfails | ⟨-, t, -, hrest⟩
      · obtain ⟨fault, hrefused, rfl⟩ := fails_mapError.1 hfails
        refine ⟨.create _, s, fault, fun name hname => ?_, hrefused, rfl⟩
        rw [List.mem_singleton.1 hname]
        exact List.mem_append_right _ (List.mem_map_of_mem (List.mem_of_getElem? hrow))
      · exact ih hothers hrest
    | .update guid i rename => exact ih hothers h
    | .delete guid => exact ih hothers h

theorem deleteAll_fails (h : (deleteAll store plan.recordType actions).Fails s e s') :
    Refused store plan rows e s' := by
  induction actions generalizing s with
  | nil => exact absurd h not_fails_pure
  | cons a actions ih =>
    match a with
    | .delete guid =>
      rcases fails_bind.1 h with hfails | ⟨-, t, -, hrest⟩
      · obtain ⟨fault, hrefused, rfl⟩ := fails_mapError.1 hfails
        exact ⟨.delete guid, s, fault, (fun _ hname => nomatch hname), hrefused, rfl⟩
      · exact ih hrest
    | .update guid i rename => exact ih h
    | .create i guid directory => exact ih h

theorem renameFinally_fails {renames : List Rename} (hrenames : ∀ r ∈ renames, r ∈ plan.renames)
    (h : (renameFinally store plan renames).Fails s e s') : Refused store plan rows e s' := by
  induction renames generalizing s with
  | nil => exact absurd h not_fails_pure
  | cons r renames ih =>
    have hothers : ∀ r' ∈ renames, r' ∈ plan.renames :=
      fun r' hr' => hrenames r' (List.mem_cons_of_mem _ hr')
    unfold renameFinally at h
    split at h
    · exact ih hothers h
    · next guid _ =>
      rcases fails_bind.1 h with hfails | ⟨-, t, -, hrest⟩
      · obtain ⟨fault, hrefused, rfl⟩ := fails_mapError.1 hfails
        refine ⟨.rename guid r.new, s, fault, fun name hname => ?_, hrefused, rfl⟩
        rw [List.mem_singleton.1 hname]
        exact List.mem_append_left _ (List.mem_append_right _
          (List.mem_map_of_mem (hrenames _ List.mem_cons_self)))
      · exact ih hothers hrest

/-- **Only a store refuses a plan that is grounded.** -/
theorem apply_fails (hground : Grounded ctx plan rows records)
    (h : (apply ctx store plan rows records).Fails s e s') : Refused store plan rows e s' := by
  obtain ⟨values, hvalues⟩ := hground.read
  unfold apply at h
  rw [hvalues] at h
  rcases fails_bind.1 h with hfails | ⟨-, s₁, -, hrest⟩
  · exact renameTemporarily_fails (fun _ ha => ha) hfails
  rcases fails_bind.1 hrest with hfails | ⟨values', s₂, -, hrest⟩
  · exact updateAll_fails hground (fun _ ha => ha) hfails
  rcases fails_bind.1 hrest with hfails | ⟨-, s₃, -, hrest⟩
  · exact createAll_fails hground (fun _ ha => ha) hfails
  rcases fails_bind.1 hrest with hfails | ⟨-, s₄, -, hrest⟩
  · exact deleteAll_fails hfails
  rcases fails_bind.1 hrest with hfails | ⟨-, s₅, -, hrest⟩
  · exact renameFinally_fails (fun _ hr => hr) hfails
  · exact absurd hrest not_fails_pure

/-- A plan without actions does nothing to a store. -/
theorem apply_of_actions_nil (h : plan.actions = []) (s : σ) :
    ∃ report, (apply ctx store plan rows records).Answers s report s := by
  have hread : decodePlan ctx plan rows = .ok [] := by
    unfold decodePlan
    rw [h]
    rfl
  have hrenames : plan.renames = [] := by
    unfold Plan.renames
    rw [h]
    rfl
  unfold apply
  rw [hread, h, hrenames]
  exact ⟨_, rfl⟩

end RecordTables.Execution
