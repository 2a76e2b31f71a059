import RecordTables.Proofs.Cell.Reading
import RecordTables.Proofs.Container.Acceptance
import RecordTables.Proofs.Execution.Unreadable
import RecordTables.Proofs.Project.Correspondence
import RecordTables.Proofs.Store.Agreement

/-!
# Projects that can be synchronized

A synchronization of a valid project does not fail unless the file system does
(`Project.sync_of_valid`).  What makes a project valid is told without the plans: the rows have names
for files and GUIDs that are blank or of one record each, and the cells can be read
(`Project.HasValidRows`, `Project.HasValidCells`).  That is not enough.  A row with the hash of its
record is not read again, whatever the schema was when it was read, and a property without a column
keeps the value that it has.  So what no cell replaces has to make a container as it is
(`Project.HasValidRest`).
-/

namespace RecordTables

open Step FileStore Matcher

namespace Project

variable {p : Project} {rs : List String} {f : String → List Record} {c c' : Catalog} {s : Survey}
  {w w' : Workspace} {work : List TableWork} {planned : List (TableWork × Plan)}

/-! ### Valid tables -/

/-- The rows of a table have names for files, no two of them the same, and each has no GUID or that
of a stored record, which no other row has. -/
structure HasValidRows (t : TableWork) : Prop where
  named : ∀ row ∈ t.sheet.rows, Text.isBlankText row.identifier = false
  safe : ∀ row ∈ t.sheet.rows, isUnsafe row.identifier = false
  identifiers : (t.sheet.rows.map (·.identifier)).Nodup
  known : ∀ row ∈ t.sheet.rows, ∀ guid, row.guid = some guid →
    guid ∈ t.records.records.map (·.guid)
  guids : (t.sheet.rows.filterMap (·.guid)).Nodup

/-- The references name the rows of the tables and nothing else. -/
def NamesRows (R : References) (work : List TableWork) : Prop :=
  ∀ recordType identifier, (R.guid? recordType identifier).isSome = true ↔
    ∃ t ∈ work, t.records.recordType = recordType ∧ identifier ∈ t.sheet.rows.map (·.identifier)

/-- The cells of all properties can be read, whatever GUIDs the rows have that they name. -/
def HasValidCells (p : Project) (work : List TableWork) : Prop :=
  ∀ R, NamesRows R work → ∀ t ∈ work, ∀ u, p.registry.type? t.records.recordType = some u →
    ∀ row ∈ t.sheet.rows, ∀ q ∈ u.valueProperties, ∀ cell, row.cells.find? q.name = some cell →
      ∃ v, Cell.Context.decode ⟨p.registry, R⟩ q cell = .ok v

/-- The records that rows stand for are in a catalog. -/
def HasLinked (work : List TableWork) (c : Catalog) : Prop :=
  ∀ t ∈ work, ∀ i l, linkOf? t.records t.sheet.rows i = some l →
    l.record.guid ∈ (c.setOf t.records.recordType).records.map (·.guid)

/-- The record that a row stands for has a value that no cell replaces: the row is not read again, or
it has no cell for the value. -/
def Keeps (t : TableWork) (name : String) (v : Value) : Prop :=
  ∃ i l, linkOf? t.records t.sheet.rows i = some l ∧ l.record.values.find? name = some v ∧
    (l.treatment = .keep ∨ l.row.cells.find? name = none)

/-- Values that no cell replaces are accepted for a container with the records that rows stand for. -/
def HasValidRest (p : Project) (work : List TableWork) : Prop :=
  ∀ c, HasLinked work c → ∀ t ∈ work, ∀ u, p.registry.type? t.records.recordType = some u →
    ∀ q ∈ u.valueProperties, ∀ v, Keeps t q.name v → v.Admitted p.registry c q.shape

/-- The tables can be brought in line with the records. -/
structure IsValid (p : Project) (work : List TableWork) : Prop where
  rows : ∀ t ∈ work, HasValidRows t
  cells : p.HasValidCells work
  rest : p.HasValidRest work

/-! ### Plans for valid tables -/

theorem HasValidRows.not_faulty {t : TableWork} (h : HasValidRows t) :
    ¬Faulty t.records t.sheet.rows := by
  rintro (⟨row, hrow, hblank⟩ | hrepeated | ⟨row, hrow, guid, hguid, hunknown⟩)
  · exact nomatch (h.named row hrow).symm.trans hblank
  · exact hrepeated h.identifiers
  · exact hunknown (h.known row hrow guid hguid)

/-- There is a plan for each valid table. -/
theorem exists_planAll (hwell : ∀ t ∈ work, t.records.WellFormed)
    (hrows : ∀ t ∈ work, HasValidRows t) (supply : GuidSupply) :
    ∃ plans rest, planAll supply work = (plans, [], rest) := by
  induction work generalizing supply with
  | nil => exact ⟨[], supply, rfl⟩
  | cons t work ih =>
    obtain ⟨hwellOne, hwell⟩ := List.forall_mem_cons.1 hwell
    obtain ⟨hrowsOne, hrows⟩ := List.forall_mem_cons.1 hrows
    have hactive : ∀ stage, Settings.standard.cancelled stage = false := fun _ => rfl
    obtain ⟨plan, hplan⟩ :=
      exists_plan hwellOne hactive supply hrowsOne.not_faulty hrowsOne.guids
    unfold planAll
    generalize reconcile .standard supply t.records t.sheet.rows = result at hplan
    obtain ⟨_, rest⟩ := result
    obtain rfl := hplan
    obtain ⟨plans, last, hothers⟩ := ih hwell hrows rest
    refine ⟨plan :: plans, last, ?_⟩
    dsimp only
    rw [hothers]

theorem exists_reconcileAll (hwell : ∀ t ∈ work, t.records.WellFormed)
    (hrows : ∀ t ∈ work, HasValidRows t) (w : Workspace) :
    ∃ planned w', (reconcileAll work).Answers w planned w' := by
  obtain ⟨plans, supply, hplans⟩ := exists_planAll hwell hrows w.supply
  refine ⟨work.zip plans, { w with supply }, ?_⟩
  unfold reconcileAll
  rw [answers_get_bind, hplans]
  exact Answers.bind (answers_modify.2 rfl) (answers_pure _ _)

/-! ### Cells of valid tables -/

/-- The references to the rows of planned tables. -/
def rowReferences (planned : List (TableWork × Plan)) : References :=
  .ofEntries (planned.flatMap fun x => x.2.referenceEntries x.1.sheet.rows)

/-- References to rows are the same if there are other records. -/
theorem within_rowReferences (c : Catalog) (planned : List (TableWork × Plan)) :
    (rowReferences planned).Within (referencesOf c planned) :=
  fun _ _ _ h => References.guid?_ofEntries_append h

/-- A plan for a table carries out a settlement. -/
def IsAccounted (x : TableWork × Plan) : Prop :=
  ∃ s : Settlement, s.Accounts x.1.records x.1.sheet.rows x.2

theorem IsPlanned.isAccounted {ctx : Cell.Context} {x : TableWork × Plan} (h : IsPlanned ctx x) :
    IsAccounted x :=
  let ⟨⟨s, hsettles, _⟩, _⟩ := h
  ⟨s, hsettles.toAccounts⟩

/-- The rows are what references name. -/
theorem namesRows_rowReferences (hplanned : ∀ x ∈ planned, IsAccounted x) :
    NamesRows (rowReferences planned) (planned.map (·.1)) := by
  intro recordType identifier
  rw [rowReferences, References.isSome_guid?_ofEntries]
  constructor
  · rintro ⟨guid, hmem⟩
    obtain ⟨x, hx, hentry⟩ := List.mem_flatMap.1 hmem
    obtain ⟨s, hs⟩ := hplanned x hx
    obtain ⟨rfl, i, row, hrow, -, rfl⟩ := mem_referenceEntries.1 hentry
    exact ⟨x.1, List.mem_map_of_mem hx, hs.recordType.symm,
      List.mem_map_of_mem (List.mem_of_getElem? hrow)⟩
  · rintro ⟨t, ht, rfl, hidentifier⟩
    obtain ⟨x, hx, rfl⟩ := List.mem_map.1 ht
    obtain ⟨s, hs⟩ := hplanned x hx
    obtain ⟨row, hrow, rfl⟩ := List.mem_map.1 hidentifier
    obtain ⟨i, hi⟩ := List.getElem?_of_mem hrow
    obtain ⟨guids, hguids, hlength, -⟩ := hs.exists_guids
    have hlt : i < guids.length := hlength ▸ (List.getElem?_eq_some_iff.1 hi).1
    refine ⟨guids[i], List.mem_flatMap.2 ⟨x, hx, mem_referenceEntries.2
      ⟨hs.recordType.symm, i, row, hi, ?_, rfl⟩⟩⟩
    rw [hguids, List.getElem?_map, List.getElem?_eq_getElem hlt, Option.map_some]

/-- **Cells of valid tables** are read with the references of the plans, and as values that name
nothing but rows. -/
theorem decode_of_valid (hcells : p.HasValidCells (planned.map (·.1)))
    (hplanned : ∀ x ∈ planned, IsAccounted x) (c : Catalog) {x : TableWork × Plan}
    (hx : x ∈ planned) {u : ResolvedType} (hu : p.registry.type? x.1.records.recordType = some u)
    {row : Row} (hrow : row ∈ x.1.sheet.rows) {q : Schema.Property} (hq : q ∈ u.valueProperties)
    {cell : String} (hcell : row.cells.find? q.name = some cell) :
    ∃ v, Cell.Context.decode ⟨p.registry, rowReferences planned⟩ q cell = .ok v ∧
      Cell.Context.decode ⟨p.registry, referencesOf c planned⟩ q cell = .ok v := by
  obtain ⟨v, hv⟩ := hcells _ (namesRows_rowReferences hplanned) x.1 (List.mem_map_of_mem hx) u hu
    row hrow q hq cell hcell
  exact ⟨v, hv, Cell.Context.decode_of_within (within_rowReferences c planned) hv⟩

/-- All rows that the plans for valid tables write can be read. -/
theorem check_of_valid (hcells : p.HasValidCells (planned.map (·.1)))
    (hplanned : ∀ x ∈ planned, IsAccounted x) (c : Catalog) {x : TableWork × Plan}
    (hx : x ∈ planned) {u : ResolvedType}
    (hu : p.registry.type? x.1.records.recordType = some u) :
    Execution.check ⟨p.registry, referencesOf c planned⟩ x.2 x.1.sheet.rows = .ok () := by
  obtain ⟨s, hs⟩ := hplanned x hx
  rw [← hs.recordType] at hu
  refine (Execution.check_eq_ok_iff hu fun a ha i hi => ?_).2 ?_
  · obtain ⟨row, hrow⟩ := hs.exists_row ha hi
    exact (List.getElem?_eq_some_iff.1 hrow).1
  · rw [List.eq_nil_iff_forall_not_mem]
    intro fault hfault
    obtain ⟨a, ha, row, hwritten, q, hq, cell, error, hcell, herror, -⟩ :=
      Execution.mem_planFaults.1 hfault
    obtain ⟨i, -, hrow⟩ := Option.bind_eq_some_iff.1 hwritten
    rw [hs.recordType] at hu
    obtain ⟨v, -, hv⟩ :=
      decode_of_valid hcells hplanned c hx hu (List.mem_of_getElem? hrow) hq hcell
    exact nomatch herror.symm.trans hv

theorem unreadableCells_of_check {ctx : Cell.Context}
    (h : ∀ x ∈ planned, Execution.check ctx x.2 x.1.sheet.rows = .ok ()) :
    unreadableCells ctx planned = .ok [] := by
  induction planned with
  | nil => rfl
  | cons x planned ih =>
    obtain ⟨hone, h⟩ := List.forall_mem_cons.1 h
    unfold unreadableCells
    rw [hone]
    exact ih h

/-! ### Records that stand for valid rows -/

section Outcome

variable {w₁ : Workspace} (hsurvey : p.IsSurvey w s w₁)
  (hplanned : ∀ x ∈ s.planned, IsPlanned (s.context p) x) (houtcome : p.IsOutcome s f)
  (hread : ∀ name ∈ p.typeNames,
    ((c'.setOf name).records.map Record.quieted).Perm ((f name).map Record.quieted))

include hsurvey houtcome hread

/-- A record with the GUID of a row is read. -/
theorem mem_guids_of_isOutcome {x : TableWork × Plan} (hx : x ∈ s.planned) {i : Nat} {row : Row}
    (hrow : x.1.sheet.rows[i]? = some row) {guid : Guid}
    (hguid : (x.2.rowGuids x.1.sheet.rows)[i]? = some (some guid)) :
    guid ∈ (c'.setOf x.1.records.recordType).records.map (·.guid) := by
  obtain ⟨hlength, hall⟩ := houtcome.settled x hx
  obtain ⟨r, hr⟩ : ∃ r, (f x.1.records.recordType)[i]? = some r :=
    ⟨_, List.getElem?_eq_getElem (hlength ▸ (List.getElem?_eq_some_iff.1 hrow).1)⟩
  have hsame := (hall i row r hrow hr).guid
  rw [hguid] at hsame
  obtain rfl := Option.some.inj (Option.some.inj hsame)
  have hperm := (hread _ (hsurvey.mem_typeNames (hsurvey.mem_values hx))).map (·.guid)
  rw [Record.map_guid_quieted, Record.map_guid_quieted] at hperm
  exact hperm.mem_iff.2 (List.mem_map_of_mem (List.mem_of_getElem? hr))

include hplanned

/-- The records that rows stood for are read. -/
theorem hasLinked_of_isOutcome : HasLinked (s.planned.map (·.1)) c' := by
  intro t ht i l hlink
  obtain ⟨x, hx, rfl⟩ := List.mem_map.1 ht
  obtain ⟨⟨t, hsettles, -, hlinks⟩, -⟩ := hplanned x hx
  obtain rfl := index_of_linkOf? hlink
  have hl := (hlinks l).2 hlink
  exact mem_guids_of_isOutcome hsurvey houtcome hread hx (hsettles.valid l hl).row_eq
    (hsettles.rowGuids_link hl)

/-- References to rows name records that are read. -/
theorem exists_record_of_rowReferences {target identifier : String} {guid : Guid}
    (h : (rowReferences s.planned).guid? target identifier = some guid) :
    ∃ record ∈ (c'.setOf target).records, record.guid = guid := by
  obtain ⟨x, hx, hentry⟩ := List.mem_flatMap.1 (References.mem_of_guid?_ofEntries h)
  obtain ⟨⟨t, hsettles, -⟩, -⟩ := hplanned x hx
  obtain ⟨rfl, i, row, hrow, hguid, -⟩ := mem_referenceEntries.1 hentry
  have hmem := mem_guids_of_isOutcome hsurvey houtcome hread hx hrow hguid
  rw [← hsettles.recordType] at hmem
  exact List.mem_map.1 hmem

variable (hsound : p.registry.IsSound) (hvalid : p.IsValid (s.planned.map (·.1)))
  (hguids : ∀ x ∈ s.planned, (x.1.records.records.map (·.guid)).Nodup)

include hsound hvalid hguids

/-- **A record that stands for a row** is accepted for a container: its values are those that cells
are read as, defaults, or what the record had before and is accepted for the rest. -/
theorem admitted_of_settled {x : TableWork × Plan} (hx : x ∈ s.planned) {u : ResolvedType}
    (hu : p.registry.type? x.1.records.recordType = some u) {i : Nat} {row : Row} {r : Record}
    (hrow : x.1.sheet.rows[i]? = some row)
    (hsettled : Execution.Settled (s.context p) x.1.records x.1.sheet.rows x.2 i row r) :
    r.Admitted p.registry c' u := by
  intro q hq v hv
  obtain ⟨⟨t, hsettles, -, hlinks⟩, -⟩ := hplanned x hx
  have hmem := List.mem_of_find?_eq_some hu
  have hnodup : (u.valueProperties.map (·.name)).Nodup :=
    (List.filter_sublist.map _).nodup (hsound.propertyNames u hmem)
  have hu' : (s.context p).registry.type? x.2.recordType = some u := hsettles.recordType ▸ hu
  obtain ⟨hproperty, hshape⟩ := List.mem_filter.1 hq
  have hdeclared := hsound.declared u hmem q hproperty
  rcases hsettled.values.origin hu' hnodup hq hv with
    ⟨cell, hcell, hdecode⟩ | hdefault | ⟨old, hold, hguid, hfound, hkept⟩
  · -- the cell is read as the same value with the references to rows
    obtain ⟨v', hread', hdecode'⟩ := decode_of_valid hvalid.cells
      (fun y hy => (hplanned y hy).isAccounted) s.catalog hx hu (List.mem_of_getElem? hrow) hq hcell
    obtain rfl : v' = v := Except.ok.inj (hdecode'.symm.trans hdecode)
    have hsound' : (Cell.Context.mk p.registry (rowReferences s.planned)).registry.IsSound := hsound
    exact (Cell.Context.wellTyped_of_decode hsound'
      (fun _ _ _ h => exists_record_of_rowReferences hsurvey hplanned houtcome hread h)
      (by simpa [Schema.Property.isIdentifier] using hshape) hdeclared hread').admitted
  · exact (Value.wellTyped_default hsound hdeclared hdefault).admitted
  · -- the record that the row stood for has the value
    have hrowGuid := hsettled.guid
    rw [← hguid] at hrowGuid
    obtain ⟨l, hl, rfl, rfl⟩ := hsettles.exists_link_of_guid (hguids x hx) hold hrowGuid
    refine hvalid.rest c' (hasLinked_of_isOutcome hsurvey hplanned houtcome hread) x.1
      (List.mem_map_of_mem hx) u hu q hq v ⟨l.index, l, (hlinks l).1 hl, hfound, ?_⟩
    rcases hkept with hunread | hcell
    · left
      by_contra hne
      exact hunread _ (hsettles.mem_actions.2 (Or.inl (List.mem_filterMap.2
        ⟨l, hl, Link.action?_of_ne_keep hne⟩))) rfl
    · right
      obtain rfl : l.row = row := Option.some.inj ((hsettles.valid l hl).row_eq.symm.trans hrow)
      exact hcell

/-- **The records that stand for the rows of all types** make a container. -/
theorem admitted_of_isOutcome (hkeyed : s.catalog.Keyed) (habsent : s.absent = []) :
    c'.Admitted p.registry := by
  intro u hu r' hr'
  have htype : u.name ∈ p.typeNames := List.mem_map_of_mem hu
  have hu' := hsound.type?_of_mem (Registry.mem_recordTypes.1 hu).1
  obtain ⟨x, hx, hname⟩ := exists_planned hsurvey hkeyed habsent htype
  obtain ⟨r, hr, hsame⟩ := List.mem_map.1 ((hread _ htype).subset (List.mem_map_of_mem hr'))
  rw [← hname] at hr hu'
  obtain ⟨i, hi⟩ := List.getElem?_of_mem hr
  obtain ⟨hlength, hall⟩ := houtcome.settled x hx
  have hrow : x.1.sheet.rows[i]? = some _ :=
    List.getElem?_eq_getElem (hlength ▸ (List.getElem?_eq_some_iff.1 hi).1)
  exact (admitted_of_settled hsurvey hplanned houtcome hread hsound hvalid hguids hx hu' hrow
    (hall i _ r hrow hi)).of_quieted hsame.symm

end Outcome

/-! ### The survey of valid tables -/

/-- Plans that settle the rows of tables can be tried out. -/
theorem exists_tryPlans {ctx : Cell.Context} (hplanned : ∀ x ∈ planned, IsPlanned ctx x)
    (hwell : ∀ x ∈ planned, x.1.records.WellFormed)
    (hguids : ∀ x ∈ planned, (x.1.records.records.map (·.guid)).Nodup)
    (hdistinct : (planned.map (·.1.records.recordType)).Nodup)
    (hc : ∀ x ∈ planned, c.setOf x.1.records.recordType = x.1.records) :
    ∃ (c' : Catalog) (f : String → List Record), (tryPlans ctx planned).Answers c () c' ∧
      (∀ name, (c'.setOf name).records.Perm (f name)) ∧
      (∀ name, name ∉ planned.map (·.1.records.recordType) → f name = (c.setOf name).records) ∧
      ∀ x ∈ planned, Execution.AllSettled ctx x.1.records x.1.sheet.rows x.2
        (f x.1.records.recordType) := by
  induction planned generalizing c with
  | nil =>
    exact ⟨c, fun name => (c.setOf name).records, answers_pure c (), fun _ => List.Perm.refl _,
      fun _ _ => rfl, List.forall_mem_nil _⟩
  | cons x planned ih =>
    obtain ⟨hnotMem, hdistinct⟩ := List.nodup_cons.1 hdistinct
    obtain ⟨⟨⟨s, hsettles, -⟩, hcheck⟩, hplanned⟩ := List.forall_mem_cons.1 hplanned
    obtain ⟨hwellOne, hwell⟩ := List.forall_mem_cons.1 hwell
    obtain ⟨hguidsOne, hguids⟩ := List.forall_mem_cons.1 hguids
    obtain ⟨hcOne, hc⟩ := List.forall_mem_cons.1 hc
    obtain ⟨c₁, settled, happly, hholds, hsettled⟩ :=
      Execution.exists_apply_of_settles hsettles hwellOne hguidsOne hcheck hcOne
    have hne (y : TableWork × Plan) (hy : y ∈ planned) :
        y.1.records.recordType ≠ x.1.records.recordType := fun heq =>
      hnotMem (List.mem_map.2 ⟨y, hy, heq⟩)
    obtain ⟨c₂, f, hothers, hread, hkept, hall⟩ := ih hplanned hwell hguids hdistinct
      fun y hy => (hholds.others _ (hne y hy)).trans (hc y hy)
    -- the records of the first table, which the other plans leave
    have hfirst : (c₂.setOf x.1.records.recordType).records.Perm settled := by
      refine (hread _).trans ?_
      rw [hkept _ hnotMem]
      exact hholds.records
    refine ⟨c₂, Function.update f x.1.records.recordType settled, happly.bind hothers,
      fun name => ?_, fun name hname => ?_, List.forall_mem_cons.2 ⟨?_, fun y hy => ?_⟩⟩
    · by_cases heq : name = x.1.records.recordType
      · rw [heq, Function.update_self]
        exact hfirst
      · rw [Function.update_of_ne heq]
        exact hread name
    · rw [List.map_cons, List.mem_cons, not_or] at hname
      rw [Function.update_of_ne hname.1, hkept name hname.2, hholds.others name hname.1]
    · rw [Function.update_self]
      exact hsettled
    · rw [Function.update_of_ne (hne y hy)]
      exact hall y hy

/-- **Trying the plans out** for valid tables does not fail. -/
theorem trialBake_of_valid {w₁ : Workspace} (hsurvey : p.IsSurvey w s w₁)
    (hplanned : ∀ x ∈ s.planned, IsPlanned (s.context p) x) (hsound : p.registry.IsSound)
    (hkeyed : s.catalog.Keyed) (hdistinct : s.catalog.IsDistinct)
    (hwell : ∀ set ∈ NameMap.values s.catalog, set.WellFormed) (habsent : s.absent = [])
    (hvalid : p.IsValid (s.planned.map (·.1))) (w' : Workspace) :
    (p.trialBake (s.context p) s.catalog s.planned).Answers w' () w' := by
  have hset (x : TableWork × Plan) (hx : x ∈ s.planned) := setOf_planned hsurvey hkeyed hx
  have hguids (x : TableWork × Plan) (hx : x ∈ s.planned) :
      (x.1.records.records.map (·.guid)).Nodup := by
    rw [← hset x hx]
    exact hdistinct.guids _
  obtain ⟨c', f, hrun, hread, hkept, hsettled⟩ := exists_tryPlans hplanned
    (fun x hx => hwell _ (hsurvey.mem_values hx)) hguids
    (List.nodup_append.1 (nodup_types_of_isSurvey hsurvey hkeyed)).1 hset
  have houtcome : p.IsOutcome s f :=
    ⟨hsettled, fun name hname => by rw [hkept name hname]⟩
  obtain ⟨k, hbake⟩ := Container.exists_bake_of_admitted hsound
    (admitted_of_isOutcome hsurvey hplanned houtcome (fun name _ => (hread name).map _) hsound hvalid
      hguids hkeyed habsent)
  unfold trialBake
  have hrun' : tryPlans (s.context p) s.planned s.catalog = (.ok (), c') := hrun
  rw [hrun']
  exact Answers.bind (answers_pure w' ()) (Answers.bind (answers_ofExcept.2 ⟨hbake, rfl⟩)
    (answers_pure w' ()))

/-- A plan whose rows can be read has all that it needs. -/
theorem grounded_of_check {ctx : Cell.Context} {x : TableWork × Plan} (hx : IsAccounted x)
    (hguids : (x.1.records.records.map (·.guid)).Nodup)
    (hcheck : Execution.check ctx x.2 x.1.sheet.rows = .ok ()) :
    Execution.Grounded ctx x.2 x.1.sheet.rows x.1.records := by
  obtain ⟨s, hs⟩ := hx
  obtain ⟨values, hvalues, -⟩ := map_eq_ok.1 hcheck
  refine ⟨⟨values, hvalues⟩, fun guid i rename ha => ?_⟩
  rcases hs.mem_actions.1 ha with ha | ⟨e, -, ha⟩ | ⟨r, -, ha⟩
  · obtain ⟨l, hl, -, heq⟩ := Link.exists_of_mem_actions ha
    obtain ⟨rfl, -, -⟩ := PlanAction.update.inj heq
    exact ⟨l.record, RecordSet.ofGuid?_of_mem hguids (List.mem_map_of_mem (hs.valid l hl).mem)⟩
  · cases ha
  · cases ha

/-- **The survey of valid tables** makes a plan for each of them. -/
theorem survey_of_valid {tools : Tools} {files : FileTree}
    (hload : ofFiles tools files = .ok p) {w₁ : Workspace}
    (hcatalog : p.loadCatalog.Answers w c w₁) (hdistinct : c.IsDistinct)
    (hfresh : ∀ set ∈ NameMap.values c, w.supply.FreshFor set)
    (hsheets : p.readSheets w.files (NameMap.values c) = .ok (work, []))
    (hvalid : p.IsValid work) :
    ∃ planned w₂, p.survey.Answers w ⟨c, [], planned⟩ w₂ ∧ planned.map (·.1) = work := by
  have hsound := isSound_of_ofFiles hload
  have hactive := (isLoaded_of_ofFiles hload).active
  obtain ⟨hkeyed, hwell⟩ := wellFormed_of_loadCatalog hcatalog
  have hmem (t : TableWork) (ht : t ∈ work) : t.records ∈ NameMap.values c :=
    (sets_of_readSheets hsheets).subset (List.mem_append_left _ (List.mem_map_of_mem ht))
  obtain ⟨planned, w₂, hreconcile⟩ :=
    exists_reconcileAll (fun t ht => hwell _ (hmem t ht)) hvalid.rows w₁
  obtain ⟨rfl, hplans⟩ := planned_of_reconcileAll hreconcile
  have hsupply : w₁.supply = w.supply := (loadCatalog_keeps_supply p).answers hcatalog
  have hrecords (x : TableWork × Plan) (hx : x ∈ planned) := hmem _ (List.mem_map_of_mem hx)
  -- the plans settle the rows, whether or not their cells can be read
  have haccounted : ∀ x ∈ planned, IsAccounted x := fun x hx =>
    have hset := hrecords x hx
    let ⟨t, _, haccounts, _⟩ :=
      (hplans x hx).exists_accounts (hwell _ hset) (hsupply ▸ hfresh _ hset)
    ⟨t, haccounts⟩
  -- every cell that the plans read is valid
  have hcheck : ∀ x ∈ planned,
      Execution.check ⟨p.registry, referencesOf c planned⟩ x.2 x.1.sheet.rows = .ok () := by
    intro x hx
    obtain ⟨u, hu, hname⟩ := recordType_of_loadCatalog hcatalog _ (hrecords x hx)
    exact check_of_valid hvalid.cells haccounted c hx
      (hname ▸ hsound.type?_of_mem (Registry.mem_recordTypes.1 hu).1)
  have hunreadable := unreadableCells_of_check hcheck
  have hs : p.IsSurvey w ⟨c, [], planned⟩ w₂ :=
    ⟨⟨w₁, hcatalog, (reconcileAll_keeps_store _).answers hreconcile⟩,
      ⟨_, hsheets, w₁, w₂, hsupply, hreconcile⟩, hunreadable, fun x hx =>
        grounded_of_check (haccounted x hx)
          (hkeyed.setOf_of_mem (hrecords x hx) ▸ hdistinct.guids _) (hcheck x hx)⟩
  have hplanned := hs.isPlanned hkeyed hdistinct fun set hset => ⟨hwell set hset, hfresh set hset⟩
  have htrial := trialBake_of_valid hs hplanned hsound hkeyed hdistinct hwell rfl hvalid
  have hfiles : w₁.files = w.files := (loadCatalog_keeps p).answers hcatalog
  rw [← hfiles] at hsheets
  -- each step of the survey answers, the trial bake among them
  refine ⟨planned, w₂, hcatalog.bind ?_, rfl⟩
  rw [answers_get_bind]
  refine (answers_ofExcept.2 ⟨hsheets, rfl⟩).bind ?_
  refine (checkpoint_of_active hactive _ w₁).bind (hreconcile.bind ?_)
  refine (checkpoint_of_active hactive _ w₂).bind ?_
  refine (answers_ofExcept.2 ⟨hunreadable, rfl⟩).bind ?_
  dsimp only
  split_ifs with hnone
  · cases hnone
  · cases hnone
  · exact (htrial w₂).bind (answers_pure w₂ _)
  · exact answers_pure w₂ _

/-! ### Carrying the plans out -/

theorem isUnsafe_temporaryName {name : String} (h : isUnsafe name = false) (n : Nat) :
    isUnsafe (Pass.temporaryName name n) = false := by
  have hnew : ∀ c ∈ "_new".toList, c ≠ '/' ∧ c ≠ '\\' ∧ c ≠ '.' := by decide
  have hlonger := Pass.toList_temporaryName name n
  rw [String.toList_append, List.append_assoc] at hlonger
  refine isUnsafe_append h hlonger fun c hc => ?_
  rcases List.mem_append.1 hc with hc | hc
  · exact hnew c hc
  · have hdigit := Pass.isDigit_of_mem_number c hc
    refine ⟨?_, ?_, ?_⟩
    all_goals
      rintro rfl
      cases hdigit

/-- A plan gives names for files only. -/
theorem isUnsafe_of_mem_namesGiven {ctx : Cell.Context} {x : TableWork × Plan} (hx : IsPlanned ctx x)
    (hsafe : ∀ row ∈ x.1.sheet.rows, isUnsafe row.identifier = false) :
    ∀ name ∈ Execution.namesGiven x.2 x.1.sheet.rows, isUnsafe name = false := by
  obtain ⟨⟨t, hsettles, -, hlinks⟩, -⟩ := hx
  have hrow (l : Link) (hl : l ∈ t.links) : isUnsafe l.row.identifier = false :=
    hsafe _ (List.mem_of_getElem? (hsettles.valid l hl).row_eq)
  unfold Execution.namesGiven
  rw [hsettles.renames_eq]
  refine List.forall_mem_append.2 ⟨List.forall_mem_append.2 ⟨?_, ?_⟩, List.forall_mem_map.2 hsafe⟩
  all_goals
    intro name hname
    obtain ⟨rename, hrename, rfl⟩ := List.mem_map.1 hname
    obtain ⟨l, hl, hrename⟩ := List.mem_filterMap.1 hrename
    obtain ⟨temporary, htemporary, rfl⟩ := Option.map_eq_some_iff.1 hrename
  · obtain ⟨n, rfl⟩ := temporary_of_linkOf? ((hlinks l).1 hl) htemporary
    exact isUnsafe_temporaryName (hrow l hl) n
  · exact hrow l hl

section Carrying

variable (hdirs : p.HasRecordDirectories rs) {ctx : Cell.Context} {e : ProjectError}

include hdirs

/-- Carrying out one plan that gives names for files fails only if the file system does. -/
theorem isIo_of_applyOne_fails {x : TableWork × Plan} (hx : IsPlanned ctx x)
    (hstocked : p.IsStocked x.1.path x.1.records)
    (h : HoldsAll rs p.typeNames False f w.store)
    (hf : f x.1.records.recordType = x.1.records.records)
    (hgrounded : Execution.Grounded ctx x.2 x.1.sheet.rows x.1.records)
    (hsafe : ∀ name ∈ Execution.namesGiven x.2 x.1.sheet.rows, isUnsafe name = false)
    (hfails : (p.applyOne ctx x).Fails w e w') : e.IsIo := by
  rcases applyOne_fails hgrounded hfails with hio | ⟨-, fault, hrefusal, rfl⟩
  · exact hio
  rcases fails_bind.1 hfails with hrun | ⟨report, w₁, -, hrest⟩
  · -- the fault is one of the store
    obtain ⟨_, hfault, heq⟩ := fails_mapError.1 hrun
    obtain ⟨t, ht, rfl⟩ := fails_within.1 hfault
    obtain ⟨fault', hfailure, rfl⟩ :=
      (apply_yields_settled hdirs hx hstocked h hf).fails _ _ ht
    obtain rfl := ExecuteError.store.inj (ProjectError.execute.inj heq)
    rw [hfailure.eq_io (Or.inr hrefusal) hsafe]
    trivial
  · split_ifs at hrest
    · rcases fails_bind.1 hrest with hfails | ⟨_, w₂, -, hfails⟩
      · exact saveSheet_blames _ _ _ _ _ hfails
      · exact absurd hfails not_fails_pure
    · exact absurd hrest not_fails_pure

/-- **Carrying out plans** that give names for files fails only if the file system does. -/
theorem isIo_of_applyAll_fails (hplanned : ∀ x ∈ planned, IsPlanned ctx x)
    (hstocked : ∀ x ∈ planned, p.IsStocked x.1.path x.1.records)
    (hdistinct : (planned.map (·.1.records.recordType)).Nodup)
    (h : HoldsAll rs p.typeNames False f w.store)
    (hf : ∀ x ∈ planned, f x.1.records.recordType = x.1.records.records)
    (hgrounded : ∀ x ∈ planned, Execution.Grounded ctx x.2 x.1.sheet.rows x.1.records)
    (hsafe : ∀ x ∈ planned, ∀ name ∈ Execution.namesGiven x.2 x.1.sheet.rows, isUnsafe name = false)
    (hfails : (p.applyAll ctx planned).Fails w e w') : e.IsIo := by
  induction planned generalizing w f with
  | nil => exact absurd hfails not_fails_pure
  | cons x planned ih =>
    obtain ⟨hplannedOne, hplanned⟩ := List.forall_mem_cons.1 hplanned
    obtain ⟨hstockedOne, hstocked⟩ := List.forall_mem_cons.1 hstocked
    obtain ⟨hnotMem, hdistinct⟩ := List.nodup_cons.1 hdistinct
    obtain ⟨hfOne, hf⟩ := List.forall_mem_cons.1 hf
    obtain ⟨hgroundedOne, hgrounded⟩ := List.forall_mem_cons.1 hgrounded
    obtain ⟨hsafeOne, hsafe⟩ := List.forall_mem_cons.1 hsafe
    rw [applyAll_cons] at hfails
    rcases fails_bind.1 hfails with hone | ⟨report, w₁, happly, hrest⟩
    · exact isIo_of_applyOne_fails hdirs hplannedOne hstockedOne h hfOne hgroundedOne hsafeOne hone
    rcases fails_bind.1 hrest with hothers | ⟨reports, w₂, -, hpure⟩
    -- the first table is settled, and the sets of the other tables are as they were
    · obtain ⟨settled, hheld, -⟩ := holdsAll_applyOne hdirs hplannedOne hstockedOne h hfOne happly
      refine ih hplanned hstocked hdistinct hheld (fun y hy => ?_) hgrounded hsafe hothers
      rw [Function.update_of_ne fun heq => hnotMem (List.mem_map.2 ⟨y, hy, heq⟩)]
      exact hf y hy
    · exact absurd hpure not_fails_pure

end Carrying

/-- After the plans were carried out, a synchronization fails only if the file system does, provided
that the manifest can be read and the records make a container. -/
theorem isIo_of_carryOut_fails (hp : p.HasOwnPlaces) (habsent : s.absent = [])
    (hrun : ∀ e w', (p.applyAll (s.context p) s.planned).Fails w e w' → e.IsIo)
    (hafter : ∀ tables w₁, (p.applyAll (s.context p) s.planned).Answers w tables w₁ →
      (∃ m, Manifest.load w₁.files p.config.outputDirectory = .ok m) ∧
        ∃ c w₂ k, p.loadCatalog.Answers w₁ c w₂ ∧ Container.bake p.registry c = .ok k)
    {e : ProjectError} (h : (p.carryOut s).Fails w e w') : e.IsIo := by
  unfold carryOut at h
  rw [habsent] at h
  rcases fails_bind.1 h with hfails | ⟨exported, w₁, hexport, h₁⟩
  · exact absurd hfails not_fails_pure
  obtain ⟨-, rfl⟩ := answers_pure_iff.1 hexport
  rcases fails_bind.1 h₁ with hfails | ⟨tables, w₂, happly, h₂⟩
  · exact hrun _ _ hfails
  obtain ⟨⟨m, hmanifest⟩, c, w₃, k, hcatalog, hbake⟩ := hafter _ _ happly
  rcases fails_bind.1 h₂ with hfails | ⟨stale, w₄, hstale, h₃⟩
  · obtain ⟨-, fault, hfault, -⟩ := dataIsStale_fails hfails
    exact nomatch hmanifest.symm.trans hfault
  obtain rfl : w₄ = w₂ := (dataIsStale_keeps p id).answers hstale
  rcases fails_bind.1 h₃ with hfails | ⟨data, w₅, -, hfails⟩
  · exact isIo_of_emitData_fails hp hcatalog hbake hmanifest (emitData_fails_of_emitPending hfails)
  · exact absurd hfails not_fails_pure

/-- Carrying out the plans of a survey leaves the manifest. -/
theorem apart_manifestPath (hp : p.HasOwnPlaces) {w₁ : Workspace} (hsurvey : p.IsSurvey w s w₁) :
    ∀ x ∈ s.planned, ∀ a ∈ p.placesOf x.1, a.Apart p.manifestPath := by
  intro x hx
  obtain ⟨u, hu, hname⟩ := List.mem_map.1 (hsurvey.mem_typeNames (hsurvey.mem_values hx))
  have hplace : p.config.recordsDirectory.join x.1.records.recordType ∈ p.recordPlaces :=
    hname ▸ List.mem_map_of_mem hu
  have htable : ∀ a ∈ [p.config.tablePath x.1.records.recordType,
      besideTable (p.config.tablePath x.1.records.recordType)], a.Apart p.manifestPath := by
    intro a ha
    refine hp.tables a (List.mem_flatMap.2 ⟨u, hu, hname ▸ ha⟩) _ ?_
    exact List.mem_cons_of_mem _ List.mem_cons_self
  unfold placesOf
  rw [hsurvey.path_eq hx]
  refine List.forall_mem_cons.2 ⟨(hp.records _ ?_ _ hplace).symm, htable⟩
  simp [outputPlaces]

section Survey

variable {w₁ w₂ : Workspace} (hsurvey : p.IsSurvey w s w₁) (hkeyed : s.catalog.Keyed)
  (hdistinct : s.catalog.IsDistinct) (hplanned : ∀ x ∈ s.planned, IsPlanned (s.context p) x)
  (hp : p.HasOwnPlaces) (hclean : p.HasCleanPaths) (hdirs : p.HasRecordDirectories rs)
  (hheld : HoldsAll rs p.typeNames False (fun name => (s.catalog.setOf name).records) w₁.store)
  (hvalid : p.IsValid (s.planned.map (·.1)))

include hsurvey hkeyed hdistinct hplanned hp hclean hdirs hheld hvalid

/-- Carrying out the plans for valid tables fails only if the file system does. -/
theorem isIo_of_applyAll_fails_of_valid {e : ProjectError}
    (hfails : (p.applyAll (s.context p) s.planned).Fails w₁ e w') : e.IsIo := by
  exact isIo_of_applyAll_fails hdirs hplanned
    (fun x hx => isStocked_of_mem_planned hsurvey hkeyed hdistinct hp hclean hx)
    (List.nodup_append.1 (nodup_types_of_isSurvey hsurvey hkeyed)).1 hheld
    (fun x hx => congrArg RecordSet.records (setOf_planned hsurvey hkeyed hx)) hsurvey.grounded
    (fun x hx => isUnsafe_of_mem_namesGiven (hplanned x hx)
      (hvalid.rows _ (List.mem_map_of_mem hx)).safe) hfails

/-- When the plans for valid tables were carried out, the manifest is as it was, and the records make
a container. -/
theorem exists_bake_of_applyAll (hsound : p.registry.IsSound) (habsent : s.absent = [])
    {tables : List ExecutionReport}
    (happly : (p.applyAll (s.context p) s.planned).Answers w₁ tables w₂) :
    w₂.files.at? p.manifestPath = w₁.files.at? p.manifestPath ∧
      ∃ c w₃ k, p.loadCatalog.Answers w₂ c w₃ ∧ Container.bake p.registry c = .ok k := by
  have hexport : (p.exportAll s.catalog s.absent).Answers w₁ [] w₁ := by
    rw [habsent]
    exact answers_pure w₁ []
  obtain ⟨f, hheld', houtcome, hkept, -⟩ := exists_outcome_of_applyAll hsurvey hkeyed hdistinct
    hplanned hp hclean hdirs hheld hexport happly
  have hnodup : p.typeNames.Nodup := (List.filter_sublist.map _).nodup hsound.names
  obtain ⟨c, w₃, hcatalog, hread⟩ := exists_loadCatalog hdirs hp hnodup hheld'
    (fun name _ => nodup_guids_of_isOutcome hsurvey hkeyed hdistinct hplanned houtcome name)
    fun _ _ => rfl
  obtain ⟨k, hbake⟩ := Container.exists_bake_of_admitted hsound
    (admitted_of_isOutcome hsurvey hplanned houtcome hread hsound hvalid
      (fun x hx => setOf_planned hsurvey hkeyed hx ▸ hdistinct.guids _) hkeyed habsent)
  exact ⟨hkept _ (apart_manifestPath hp hsurvey), c, w₃, k, hcatalog, hbake⟩

end Survey

/-- Cells that can be read without references can be read. -/
theorem hasValidCells_of_plain (h : ∀ t ∈ work, ∀ u,
    p.registry.type? t.records.recordType = some u → ∀ row ∈ t.sheet.rows, ∀ q ∈ u.valueProperties,
      ∀ cell, row.cells.find? q.name = some cell →
        ∃ v, Cell.Context.decode ⟨p.registry, .none⟩ q cell = .ok v) : p.HasValidCells work := by
  intro R _ t ht u hu row hrow q hq cell hcell
  obtain ⟨v, hv⟩ := h t ht u hu row hrow q hq cell hcell
  have hwithin : References.none.Within R := fun _ _ _ hguid => nomatch hguid
  exact ⟨v, Cell.Context.decode_of_within hwithin hv⟩

/-- If all rows are read again and have cells for all properties, it does not matter what was stored.
-/
theorem hasValidRest_of_reread
    (hlinks : ∀ t ∈ work, ∀ i l, linkOf? t.records t.sheet.rows i = some l → l.treatment ≠ .keep)
    (hcells : ∀ t ∈ work, ∀ u, p.registry.type? t.records.recordType = some u →
      ∀ row ∈ t.sheet.rows, ∀ q ∈ u.valueProperties, row.cells.find? q.name ≠ none) :
    p.HasValidRest work := by
  rintro c - t ht u hu q hq v ⟨i, l, hlink, -, hkeep | hcell⟩
  · exact absurd hkeep (hlinks t ht i l hlink)
  · obtain ⟨row, hrow, hmap⟩ := Option.bind_eq_some_iff.1 hlink
    obtain ⟨e, -, rfl⟩ := Option.map_eq_some_iff.1 hmap
    exact absurd hcell (hcells t ht u hu row (List.mem_of_getElem? hrow) q hq)

/-- The coin as it was stored when a price was a text. -/
def textCoin : Record :=
  ⟨⟨"g1"⟩, "Coin", "Item", some "before", .ofList [("price", .text "10")]⟩

/-- The files of the project of coins, with the coin of another schema. -/
def storedCoinFiles : FileTree :=
  .directory (NameMap.insertEntry "records" (.directory [("Item", .directory
    [("Coin.ron", .file (Text.utf8 textCoin.node.ron))])]) coinFiles.entries)

/-- The project of coins before its first synchronization under this schema. -/
def storedCoins : Workspace := ⟨.ofFiles storedCoinFiles, Execution.unarySupply⟩

/-- No directory stands in the place of the coin. -/
theorem not_isBlocked_storedCoins :
    ¬IsBlocked ["records"] coinProject.typeNames storedCoins.files := by
  rintro ⟨recordType, htype, ps, ⟨sub, name, rfl, -⟩, hdirectory⟩
  obtain rfl : recordType = "Item" := List.mem_singleton.1 htype
  have hitems : storedCoins.files.descend? ["records", "Item"] =
      some (.directory [("Coin.ron", .file (Text.utf8 textCoin.node.ron))]) := rfl
  obtain ⟨first, rest, hcons⟩ := List.exists_cons_of_ne_nil
    (List.append_ne_nil_of_right_ne_nil sub (List.cons_ne_nil name []))
  have hsplit : ["records"] ++ "Item" :: (sub ++ [name]) = ["records", "Item"] ++ first :: rest := by
    rw [hcons]
    rfl
  unfold FileTree.isDirectoryAt at hdirectory
  rw [hsplit, FileTree.descend?_append, hitems, Option.bind_some] at hdirectory
  -- there is only a file in the directory of the items
  have hlookup := FileTree.isDirectoryAt_cons first rest
    [("Coin.ron", .file (Text.utf8 textCoin.node.ron))]
  have hfile : (FileTree.file (Text.utf8 textCoin.node.ron)).isDirectoryAt rest = false :=
    FileTree.isDirectoryAt_of_not_isDirectory rfl rest
  rw [List.lookup_cons] at hlookup
  split at hlookup
  · rw [Option.any_some, hfile] at hlookup
    exact nomatch hdirectory.symm.trans hlookup
  · exact nomatch hdirectory.symm.trans hlookup

/-- The table has a row for the coin, which has to be read again. -/
def IsCoinTable (t : TableWork) : Prop :=
  t.records.recordType = "Item" ∧
    t.sheet.rows.map (fun row => (row.identifier, row.guid, row.cells.find? "price")) =
      [("Coin", none, some "10")] ∧
    ∀ i ∈ List.range t.sheet.rows.length, ∀ l ∈ linkOf? t.records t.sheet.rows i,
      l.treatment ≠ .keep

instance (t : TableWork) : Decidable (IsCoinTable t) := inferInstanceAs (Decidable (_ ∧ _ ∧ _))

/-- It does not matter which price was stored. -/
theorem isValid_coins (h : ∀ t ∈ work, IsCoinTable t) : coinProject.IsValid work := by
  -- the one row
  have hrow {t : TableWork} (ht : t ∈ work) {row : Row} (hrow : row ∈ t.sheet.rows) :
      row.identifier = "Coin" ∧ row.guid = none ∧ row.cells.find? "price" = some "10" := by
    have hmem := List.mem_map_of_mem (f := fun row : Row =>
      (row.identifier, row.guid, row.cells.find? "price")) hrow
    rw [(h t ht).2.1, List.mem_singleton] at hmem
    exact ⟨congrArg Prod.fst hmem, congrArg (·.2.1) hmem, congrArg (·.2.2) hmem⟩
  -- its one property
  have hproperty {t : TableWork} (ht : t ∈ work) {u : ResolvedType}
      (hu : coinProject.registry.type? t.records.recordType = some u) {q : Schema.Property}
      (hq : q ∈ u.valueProperties) : q = ⟨"price", .single (.scalar .i32)⟩ := by
    rw [(h t ht).1] at hu
    obtain rfl := Option.some.inj hu
    exact List.mem_singleton.1 hq
  have hdecode : ∃ v, Cell.Context.decode ⟨coinProject.registry, .none⟩
      ⟨"price", .single (.scalar .i32)⟩ "10" = .ok v := ⟨_, rfl⟩
  refine ⟨fun t ht => ?_, hasValidCells_of_plain fun t ht u hu row hr q hq cell hcell => ?_,
    hasValidRest_of_reread (fun t ht i l hl => ?_) fun t ht u hu row hr q hq => ?_⟩
  · have hidentifiers := congrArg (List.map Prod.fst) (h t ht).2.1
    have hguids := congrArg (List.filterMap (·.2.1)) (h t ht).2.1
    rw [List.map_map] at hidentifiers
    rw [List.filterMap_map] at hguids
    constructor
    case named =>
      intro row hr
      rw [(hrow ht hr).1]
      decide
    case safe =>
      intro row hr
      rw [(hrow ht hr).1]
      decide
    case identifiers =>
      exact hidentifiers ▸ List.nodup_singleton _
    case known =>
      intro row hr guid hguid
      exact nomatch (hrow ht hr).2.1.symm.trans hguid
    case guids =>
      exact hguids ▸ List.nodup_nil
  · rw [hproperty ht hu hq] at hcell ⊢
    obtain rfl := Option.some.inj ((hrow ht hr).2.2.symm.trans hcell)
    exact hdecode
  · obtain ⟨row, hr, -⟩ := Option.bind_eq_some_iff.1 hl
    exact (h t ht).2.2 i (List.mem_range.2 (List.getElem?_eq_some_iff.1 hr).1) l hl
  · rw [hproperty ht hu hq, (hrow ht hr).2.2]
    exact Option.some_ne_none _

end Project

end RecordTables
