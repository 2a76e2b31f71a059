import RecordTables.Execution
import RecordTables.Proofs.Step
import Mathlib.Tactic.SplitIfs

/-!
# What stores do when they are asked

`RecordStore.Serves` describes a store by the list of the records of one type.  Each step is described
on the one record that it is about, in front of all others: which records there are afterwards, unless
the step fails in a way that the store may always fail.

A plan is carried out by requests to a store and nothing else, so what every request preserves
(`RecordStore.Preserves`) is preserved by the plan (`Execution.apply_ensures`), whether it is carried
out to its end or not.
-/

namespace RecordTables

open Step

/-- What the store does to the records of a type, of which `Holds` tells that they are there.  New
records must fit the store, and it may fail as `Bad` says. -/
structure RecordStore.Serves {σ : Type} (store : RecordStore σ) (recordType : String)
    (Holds : List Record → σ → Prop) (Fits : Record → Prop) (Bad : StoreError → Prop) : Prop where
  /-- The order of the records does not matter. -/
  perm : ∀ {l l' : List Record} {s : σ}, Holds l s → l.Perm l' → Holds l' s
  /-- A record can be renamed to what no other record is called. -/
  rename : ∀ {r : Record} {l : List Record} {s : σ} {identifier : String}, Holds (r :: l) s →
    r.guid ∉ l.map (·.guid) → identifier ∉ l.map (·.identifier) →
      (store.rename recordType r.guid identifier).Yields s
        (fun _ => Holds ({ r with identifier := identifier } :: l)) Bad
  /-- A record can be overwritten, and keeps its identifier. -/
  update : ∀ {r record : Record} {l : List Record} {s : σ}, Holds (r :: l) s →
    r.guid ∉ l.map (·.guid) → record.guid = r.guid → record.directory = r.directory →
      (store.update recordType record).Yields s
        (fun _ => Holds ({ record with identifier := r.identifier } :: l)) Bad
  /-- A record can be added if no record has its GUID or its identifier. -/
  create : ∀ {record : Record} {l : List Record} {s : σ}, Holds l s → Fits record →
    record.guid ∉ l.map (·.guid) → record.identifier ∉ l.map (·.identifier) →
      (store.create recordType record).Yields s (fun _ => Holds (record :: l)) Bad
  /-- A record can be taken away. -/
  delete : ∀ {r : Record} {l : List Record} {s : σ}, Holds (r :: l) s →
    r.guid ∉ l.map (·.guid) →
      (store.delete recordType r.guid).Yields s (fun _ => Holds l) Bad

/-- Whatever the store is asked to do, `P` holds of its state afterwards if it did before. -/
structure RecordStore.Preserves {σ : Type} (P : σ → Prop) (store : RecordStore σ) : Prop where
  load : ∀ recordType, (store.load recordType).Ensures P fun _ => True
  create : ∀ recordType r, (store.create recordType r).Ensures P fun _ => True
  update : ∀ recordType r, (store.update recordType r).Ensures P fun _ => True
  rename : ∀ recordType guid identifier,
    (store.rename recordType guid identifier).Ensures P fun _ => True
  delete : ∀ recordType guid, (store.delete recordType guid).Ensures P fun _ => True

namespace Execution

variable {σ : Type} {P : σ → Prop} {store : RecordStore σ} {recordType : String} {rows : List Row}
  {records : RecordSet} {ctx : Cell.Context} {plan : Plan}

section Store

variable (hstore : store.Preserves P)

include hstore

theorem renameTemporarily_ensures (actions : List PlanAction) :
    (renameTemporarily store recordType actions).Ensures P fun _ => True := by
  induction actions with
  | nil => exact ensures_pure trivial
  | cons action actions ih =>
    match action with
    | .update guid i (some rename) => exact ((hstore.rename _ _ _).mapError _).bind fun _ _ => ih
    | .update guid i none => exact ih
    | .create i guid directory => exact ih
    | .delete guid => exact ih

theorem updateAll_ensures (actions : List PlanAction) (values : List (Nat × NameMap Value)) :
    (updateAll store recordType records rows actions values).Ensures P fun _ => True := by
  induction actions generalizing values with
  | nil => exact ensures_pure trivial
  | cons action actions ih =>
    match action with
    | .update guid i rename =>
      unfold updateAll
      split
      · exact ensures_throw _
      · exact ensures_throw _
      · exact ((hstore.update _ _).mapError _).bind fun _ _ => ih _
    | .create i guid directory => exact ih values
    | .delete guid => exact ih values

theorem createAll_ensures (actions : List PlanAction) (values : List (Nat × NameMap Value)) :
    (createAll ctx store recordType rows actions values).Ensures P fun _ => True := by
  induction actions generalizing values with
  | nil => exact ensures_pure trivial
  | cons action actions ih =>
    match action with
    | .create i guid directory =>
      unfold createAll
      split
      · exact ensures_throw _
      · exact ((hstore.create _ _).mapError _).bind fun _ _ => ih _
    | .update guid i rename => exact ih values
    | .delete guid => exact ih values

theorem deleteAll_ensures (actions : List PlanAction) :
    (deleteAll store recordType actions).Ensures P fun _ => True := by
  induction actions with
  | nil => exact ensures_pure trivial
  | cons action actions ih =>
    match action with
    | .delete guid => exact ((hstore.delete _ _).mapError _).bind fun _ _ => ih
    | .update guid i rename => exact ih
    | .create i guid directory => exact ih

theorem renameFinally_ensures (renames : List Rename) :
    (renameFinally store plan renames).Ensures P fun _ => True := by
  induction renames with
  | nil => exact ensures_pure trivial
  | cons rename renames ih =>
    unfold renameFinally
    split
    · exact ih
    · exact ((hstore.rename _ _ _).mapError _).bind fun _ _ => ih

/-- **Carrying out a plan** preserves what every request preserves. -/
theorem apply_ensures : (apply ctx store plan rows records).Ensures P fun _ => True := by
  unfold apply
  split
  · exact ensures_throw _
  · refine (renameTemporarily_ensures hstore _).bind fun _ _ => ?_
    refine (updateAll_ensures hstore _ _).bind fun _ _ => ?_
    refine (createAll_ensures hstore _ _).bind fun _ _ => ?_
    refine (deleteAll_ensures hstore _).bind fun _ _ => ?_
    exact (renameFinally_ensures hstore _).bind fun _ _ => ensures_pure trivial

end Store

end Execution

end RecordTables
