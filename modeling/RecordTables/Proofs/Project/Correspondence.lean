import RecordTables.Proofs.Cell.Lapse
import RecordTables.Proofs.Project.Freshness
import RecordTables.Proofs.Project.Stock
import RecordTables.Proofs.Reconcile.Bookkeeping

/-!
# What tables and records say after a synchronization

After a synchronization that succeeds there is one record for each row of each table, with the row's
identifier and its hash (`Project.records_of_sync`).  If the record was changed for the row, then what
the cells of the row say is what the record holds, as far as the records that they name are still
called so.

A row whose hash is that of its record is not read again.  A cell of such a row that said what the
record holds says it still if the records that it names are called as before; it may also name a
record that was renamed or deleted, and then it says nothing any more.
-/

namespace RecordTables

open Step FileStore Matcher

/-- A cell of a property says what a record holds: it is read as the value that the record has for the
property. -/
def Cell.Context.Tells (ctx : Cell.Context) (q : Schema.Property) (cell : String) (r : Record) :
    Prop :=
  ∃ v stored, ctx.decode q cell = .ok v ∧ r.values.find? q.name = some stored ∧
    stored.quieted = v.quieted

/-- What the cells of a row say is what a record holds: each cell is read as the value that the record
has for its property, or it names a record that there is not. -/
def Cell.Context.Describes (ctx : Cell.Context) (recordType : String) (row : Row) (r : Record) :
    Prop :=
  ∀ t, ctx.registry.type? recordType = some t → ∀ q ∈ t.valueProperties,
    ∀ cell, row.cells.find? q.name = some cell → ctx.Tells q cell r ∨
      ∃ target identifier, ctx.decode q cell = .error (.unresolvedReference target identifier)

namespace Catalog

variable {c c' : Catalog} {recordType identifier : String}

/-- The record that has an identifier is there still, and it is called as before. -/
def StillNames (c c' : Catalog) (recordType identifier : String) : Prop :=
  ∃ old ∈ (c.setOf recordType).records, ∃ new ∈ (c'.setOf recordType).records,
    old.identifier = identifier ∧ new.identifier = identifier ∧ new.guid = old.guid

/-- What the cells of a row said of a record, they say of the record that it is now, as far as the
records that they name are called as before. -/
def KeepsTelling (registry : Registry) (c c' : Catalog) (recordType : String) (row : Row)
    (old r : Record) : Prop :=
  ∀ t, registry.type? recordType = some t → ∀ q ∈ t.valueProperties,
    ∀ cell, row.cells.find? q.name = some cell →
      Cell.Context.Tells ⟨registry, c.references⟩ q cell old →
      (∀ target identifier,
        Cell.Context.Names ⟨registry, c.references⟩ q cell target identifier →
          c.StillNames c' target identifier) →
      Cell.Context.Tells ⟨registry, c'.references⟩ q cell r

/-- A record that is told apart by its identifier is the one that its identifier names. -/
theorem IsDistinct.guid?_of_mem (hdistinct : c.IsDistinct) {r : Record}
    (hr : r ∈ (c.setOf recordType).records) :
    c.references.guid? recordType r.identifier = some r.guid := by
  obtain ⟨guid, hguid⟩ := exists_guid?_of_mem hr
  obtain ⟨found, hfound, hidentifier, rfl⟩ := exists_of_guid? hguid
  rw [hguid, List.inj_on_of_nodup_map (hdistinct.identifiers recordType) hfound hr hidentifier]

/-- **What an unchanged row says** of its record is kept, if identifiers that name the same record
before and after name it with the references of the catalogs. -/
theorem keepsTelling_of_quieted {registry : Registry} {row : Row} {old r : Record}
    (hsame : r.quieted = old.quieted)
    (hkept : ∀ target identifier, c.StillNames c' target identifier →
      c'.references.guid? target identifier = c.references.guid? target identifier) :
    KeepsTelling registry c c' recordType row old r := by
  rintro t - q - cell - ⟨v, stored, hread, hfind, hquieted⟩ hnames
  have hstored : (r.values.map Value.quieted).find? q.name =
      (old.values.map Value.quieted).find? q.name :=
    congrArg (fun x : Record => x.values.find? q.name) hsame
  rw [NameMap.find?_map, NameMap.find?_map, hfind, Option.map_some] at hstored
  obtain ⟨stored', hfind', hquieted'⟩ := Option.map_eq_some_iff.1 hstored
  exact ⟨v, stored', Cell.Context.decode_of_names hread fun target identifier hname =>
    hkept target identifier (hnames target identifier hname), hfind', hquieted'.trans hquieted⟩

end Catalog

namespace Project

variable {p : Project} {rs : List String} {Blocked : Prop} {f : String → List Record}
  {c c' : Catalog} {s : Survey} {w w' : Workspace}

/-! ### Where records are kept -/

/-- The directories of the records of a project that has record types. -/
theorem exists_hasRecordDirectories (hp : p.HasOwnPlaces) (hclean : p.HasCleanPaths)
    (hnames : ∀ t ∈ p.registry.recordTypes, Path.IsName t.name)
    (hsome : p.registry.recordTypes ≠ []) : ∃ rs, p.HasRecordDirectories rs := by
  obtain ⟨t, ht⟩ := List.exists_mem_of_ne_nil _ hsome
  obtain ⟨ps, hps, hplain⟩ := hp.recordPlace (List.mem_map_of_mem ht)
  have hparts := hclean.records
  unfold Path.join at hps
  rw [if_neg (by rw [Path.isAbsolute_of_isName (hnames t ht)]; exact Bool.false_ne_true)] at hps
  split at hps
  · next rs hroot =>
    rw [hroot] at hparts
    rw [← Path.inside.inj hps] at hplain
    refine ⟨rs, hroot, fun name hname => ⟨hparts name hname, ?_⟩, fun name hname => ?_⟩
    · rintro rfl
      exact hplain (List.mem_append_left _ hname)
    · obtain ⟨u, hu, rfl⟩ := List.mem_map.1 hname
      exact hnames u hu
  · cases hps

theorem isTable_of_recordType (hp : p.HasOwnPlaces) (hclean : p.HasCleanPaths) {name : String}
    (hname : name ∈ p.typeNames) : p.IsTable (p.config.tablePath name) := by
  obtain ⟨t, ht, rfl⟩ := List.mem_map.1 hname
  refine ⟨hclean.tables.join _, fun q hq => ⟨hp.tables _ ?_ q ?_, hp.tables _ ?_ q ?_⟩⟩
  · exact List.mem_flatMap.2 ⟨t, ht, List.mem_cons_self⟩
  · exact List.mem_cons_of_mem _ (List.mem_cons_of_mem _ hq)
  · exact List.mem_flatMap.2 ⟨t, ht, List.mem_cons_of_mem _ List.mem_cons_self⟩
  · exact List.mem_cons_of_mem _ (List.mem_cons_of_mem _ hq)

/-- Generating data that is needed leaves what is apart from the generated files. -/
theorem emitPending_answers (hp : p.HasOwnPlaces) {regen : RegenState} {data : Option Emission}
    (h : (p.emitPending regen).Answers w data w') :
    ∀ q, (∀ a ∈ p.outputPlaces, a.Apart q) → w'.files.at? q = w.files.at? q := by
  rcases emitPending_answers_iff.1 h with ⟨-, -, rfl⟩ | ⟨-, emission, -, hemission⟩
  · exact fun _ _ => rfl
  · exact (emitData_answers hp hemission).2.2

/-! ### The records after a synchronization -/

/-- The records when the plans of a survey have been carried out: those of each table settle its rows,
and those of other types are as before but for their hashes. -/
structure IsOutcome (p : Project) (s : Survey) (f : String → List Record) : Prop where
  settled : ∀ x ∈ s.planned, Execution.AllSettled (s.context p) x.1.records x.1.sheet.rows x.2
    (f x.1.records.recordType)
  others : ∀ name, name ∉ s.planned.map (·.1.records.recordType) →
    ((f name).map Record.unstamped).Perm ((s.catalog.setOf name).records.map Record.unstamped)

section Outcome

variable {w₁ : Workspace} (hsurvey : p.IsSurvey w s w₁) (hkeyed : s.catalog.Keyed)

include hsurvey hkeyed

/-- The types of the tables and of the sets without a table are all different. -/
theorem nodup_types_of_isSurvey : (s.planned.map (·.1.records.recordType) ++
    s.absent.map (·.2.recordType)).Nodup := by
  have hperm := hsurvey.sets_perm.map (·.recordType)
  rw [List.map_append, List.map_map, List.map_map] at hperm
  exact hperm.nodup_iff.2 hkeyed.nodup_types

theorem setOf_planned {x : TableWork × Plan} (hx : x ∈ s.planned) :
    s.catalog.setOf x.1.records.recordType = x.1.records :=
  hkeyed.setOf_of_mem (hsurvey.mem_values hx)

theorem setOf_absent {x : Path × RecordSet} (hx : x ∈ s.absent) :
    x.2 ∈ NameMap.values s.catalog ∧ s.catalog.setOf x.2.recordType = x.2 := by
  have hmem : x.2 ∈ NameMap.values s.catalog :=
    hsurvey.sets_perm.subset (List.mem_append_right _ (List.mem_map_of_mem hx))
  exact ⟨hmem, hkeyed.setOf_of_mem hmem⟩

/-- The tables of a survey can be written, and their records are told apart. -/
theorem isStocked_of_mem_values (hdistinct : s.catalog.IsDistinct) (hp : p.HasOwnPlaces)
    (hclean : p.HasCleanPaths) {records : RecordSet} (h : records ∈ NameMap.values s.catalog) :
    p.IsStocked (p.config.tablePath records.recordType) records where
  table := isTable_of_recordType hp hclean (hsurvey.mem_typeNames h)
  recordType := hsurvey.mem_typeNames h
  guids := hkeyed.setOf_of_mem h ▸ hdistinct.guids records.recordType

theorem isStocked_of_mem_planned (hdistinct : s.catalog.IsDistinct) (hp : p.HasOwnPlaces)
    (hclean : p.HasCleanPaths) {x : TableWork × Plan} (hx : x ∈ s.planned) :
    p.IsStocked x.1.path x.1.records := by
  rw [hsurvey.path_eq hx]
  exact isStocked_of_mem_values hsurvey hkeyed hdistinct hp hclean (hsurvey.mem_values hx)

/-- If no table is missing, there is a plan for each type. -/
theorem exists_planned (habsent : s.absent = []) {name : String} (hname : name ∈ p.typeNames) :
    ∃ x ∈ s.planned, x.1.records.recordType = name := by
  obtain ⟨w₂, hcatalog, -⟩ := hsurvey.catalog
  have hmem := hsurvey.sets_perm.symm.subset (setOf_mem_of_loadCatalog hcatalog hname)
  rw [habsent, List.map_nil, List.append_nil] at hmem
  obtain ⟨x, hx, hrecords⟩ := List.mem_map.1 hmem
  exact ⟨x, hx, by rw [hrecords, hkeyed.recordType_setOf]⟩

variable (hdistinct : s.catalog.IsDistinct)
  (hplanned : ∀ x ∈ s.planned, IsPlanned (s.context p) x)

include hdistinct hplanned

/-- **Carrying out the plans of a survey**, after the missing tables were made, settles the rows of all
tables. -/
theorem exists_outcome_of_applyAll (hp : p.HasOwnPlaces) (hclean : p.HasCleanPaths)
    (hdirs : p.HasRecordDirectories rs)
    (hheld : HoldsAll rs p.typeNames Blocked (fun name => (s.catalog.setOf name).records) w₁.store)
    {exported : List String} {tables : List ExecutionReport} {w₂ : Workspace}
    (hexport : (p.exportAll s.catalog s.absent).Answers w₁ exported w₂)
    (happly : (p.applyAll (s.context p) s.planned).Answers w₂ tables w') :
    ∃ f : String → List Record, HoldsAll rs p.typeNames Blocked f w'.store ∧ p.IsOutcome s f ∧
      (∀ q, (∀ x ∈ s.planned, ∀ a ∈ p.placesOf x.1, a.Apart q) →
        w'.files.at? q = w₂.files.at? q) ∧
      (p.HasOwnTables → ∀ x ∈ s.planned,
        LeavesTable x (w₂.files.read? x.1.path) (w'.files.read? x.1.path)) := by
  obtain ⟨work, hwork, -⟩ := hsurvey.sheets
  have hmem (x : TableWork × Plan) (hx : x ∈ s.planned) : x.1.records.recordType ∈ p.typeNames :=
    hsurvey.mem_typeNames (hsurvey.mem_values hx)
  have hnodup := nodup_types_of_isSurvey hsurvey hkeyed
  -- making the missing tables
  obtain ⟨f₁, hf₁, hkept₁, hsame₁⟩ := holdsAll_exportAll hdirs
    (fun x hx => by
      rw [(path_of_readSheets hwork).2 x hx]
      exact isStocked_of_mem_values hsurvey hkeyed hdistinct hp hclean
        (setOf_absent hsurvey hkeyed hx).1)
    hheld (fun x hx => by rw [(setOf_absent hsurvey hkeyed hx).2]) hexport
  -- carrying out the plans
  obtain ⟨f₂, hf₂, hkept₂, hsettled, hothers, htables⟩ := holdsAll_applyAll hdirs hplanned
    (fun x hx => isStocked_of_mem_planned hsurvey hkeyed hdistinct hp hclean hx)
    (List.nodup_append.1 hnodup).1 hf₁
    (fun x hx => by
      rw [hkept₁ _ fun hmem => (List.nodup_append.1 hnodup).2.2 _
        (List.mem_map.2 ⟨x, hx, rfl⟩) _ hmem rfl, setOf_planned hsurvey hkeyed hx])
    happly
  refine ⟨f₂, hf₂, ⟨hsettled, fun name hname => ?_⟩, hothers, fun hown x hx => ?_⟩
  · rw [hkept₂ name hname]
    exact hsame₁ name
  · -- each plan leaves the tables of the others
    refine htables x hx ?_ fun y hy hne => ?_
    · rw [hsurvey.path_eq hx]
      exact hown.beside _ (hmem x hx)
    · unfold placesOf
      rw [hsurvey.path_eq hx, hsurvey.path_eq hy]
      exact hown.others _ (hmem x hx) _ (hmem y hy) hne

/-- **Carrying out a survey** settles the rows of all tables. -/
theorem exists_outcome (hp : p.HasOwnPlaces) (hclean : p.HasCleanPaths)
    (hdirs : p.HasRecordDirectories rs)
    (hheld : HoldsAll rs p.typeNames Blocked (fun name => (s.catalog.setOf name).records) w₁.store)
    {report : SyncReport} (hcarry : (p.carryOut s).Answers w₁ report w') :
    ∃ (f : String → List Record) (w₂ : Workspace), HoldsAll rs p.typeNames Blocked f w₂.store ∧
      p.IsOutcome s f ∧ (∀ q ∈ p.recordPlaces, w'.files.at? q = w₂.files.at? q) ∧
      (p.HasOwnTables → s.absent = [] → ∀ x ∈ s.planned,
        LeavesTable x (w₁.files.read? x.1.path) (w'.files.read? x.1.path)) := by
  obtain ⟨w₂, w₃, stale, hexport, happly, -, -, hemit⟩ := exists_of_carryOut hcarry
  obtain ⟨f, hf, houtcome, -, htables⟩ := exists_outcome_of_applyAll hsurvey hkeyed hdistinct
    hplanned hp hclean hdirs hheld hexport happly
  have hlast : ∀ q, (∀ a ∈ p.outputPlaces, a.Apart q) → w'.files.at? q = w₃.files.at? q :=
    emitPending_answers hp hemit
  refine ⟨f, w₃, hf, houtcome, fun q hq => hlast q fun a ha => hp.records a ha q hq,
    fun hown habsent x hx => ?_⟩
  -- no table was made, and the data is not among the tables
  have hnone : w₂ = w₁ := by
    rw [habsent] at hexport
    exact (answers_pure_iff.1 hexport).2
  have hread : w'.files.read? x.1.path = w₃.files.read? x.1.path := by
    refine FileTree.read?_congr (hlast _ ?_)
    rw [hsurvey.path_eq hx]
    exact hown.generated _ (hsurvey.mem_typeNames (hsurvey.mem_values hx))
  rw [hread, ← hnone]
  exact htables hown x hx

omit hdistinct in
/-- The records of a table are known by the references to its rows. -/
theorem guid?_of_settled (houtcome : p.IsOutcome s f) {x : TableWork × Plan} (hx : x ∈ s.planned)
    {r : Record} (hr : r ∈ f x.1.records.recordType) :
    (referencesOf s.catalog s.planned).guid? x.1.records.recordType r.identifier = some r.guid := by
  obtain ⟨⟨t, hsettles, -⟩, -⟩ := hplanned x hx
  obtain ⟨hlength, hall⟩ := houtcome.settled x hx
  obtain ⟨i, hi⟩ := List.getElem?_of_mem hr
  obtain ⟨row, hrow⟩ : ∃ row, x.1.sheet.rows[i]? = some row :=
    ⟨_, List.getElem?_eq_getElem (hlength ▸ (List.getElem?_eq_some_iff.1 hi).1)⟩
  have hsettled := hall i row r hrow hi
  refine References.guid?_ofEntries_append_of_mem (List.mem_flatMap.2 ⟨x, hx,
    mem_referenceEntries.2 ⟨hsettles.recordType.symm, i, row, hrow, hsettled.guid,
      hsettled.identifier.symm⟩⟩) fun guid hguid => ?_
  -- no other row is called so
  obtain ⟨y, hy, hentry⟩ := List.mem_flatMap.1 hguid
  obtain ⟨htype, j, row', hrow', hguid', hidentifier⟩ := mem_referenceEntries.1 hentry
  obtain ⟨⟨t', hsettles', -⟩, -⟩ := hplanned y hy
  have hnodup := (List.nodup_append.1 (nodup_types_of_isSurvey hsurvey hkeyed)).1
  obtain rfl : y = x :=
    List.inj_on_of_nodup_map hnodup hy hx (hsettles'.recordType.symm.trans htype.symm)
  obtain rfl : j = i := index_eq_of_identifier hsettles.identifiers_nodup hrow' hrow
    (hidentifier.trans hsettled.identifier)
  exact Option.some.inj (Option.some.inj (hguid'.symm.trans hsettled.guid))

omit hsurvey in
/-- The records of other types are known as before. -/
theorem guid?_of_kept (houtcome : p.IsOutcome s f) {recordType : String}
    (hother : recordType ∉ s.planned.map (·.1.records.recordType)) {r : Record}
    (hr : r ∈ f recordType) :
    (referencesOf s.catalog s.planned).guid? recordType r.identifier = some r.guid := by
  have hmem := (houtcome.others recordType hother).subset (List.mem_map_of_mem hr)
  obtain ⟨old, hold, heq⟩ := List.mem_map.1 hmem
  obtain ⟨hguid, hidentifier, -⟩ := Record.same_of_unstamped heq
  have hset := Catalog.mem_values_of_mem_records hold
  have htype := hkeyed.recordType_setOf recordType
  unfold referencesOf
  dsimp only
  rw [References.guid?_ofEntries_append_of_notMem fun guid hguid => ?_]
  -- the records of the catalog stand in front, and there the last one counts
  · rw [← List.nil_append (List.flatMap _ _), ← hguid]
    refine References.guid?_ofEntries_append_of_mem (List.mem_flatMap.2 ⟨_, hset,
      List.mem_map.2 ⟨old, hold, ?_⟩⟩) fun guid hentry => ?_
    · rw [htype, hidentifier]
    · obtain ⟨set, hset', hentry⟩ := List.mem_flatMap.1 hentry
      obtain ⟨other, hother, hentry⟩ := List.mem_map.1 hentry
      obtain ⟨htype', hidentifier', rfl⟩ := ReferenceEntry.mk.inj hentry
      have hsame := hkeyed.setOf_of_mem hset'
      rw [htype'] at hsame
      rw [← hsame] at hother
      rw [List.inj_on_of_nodup_map (hdistinct.identifiers recordType) hother hold
        (hidentifier'.trans hidentifier.symm)]
  -- no row is of this type
  · obtain ⟨y, hy, hentry⟩ := List.mem_flatMap.1 hguid
    obtain ⟨htype', -⟩ := mem_referenceEntries.1 hentry
    obtain ⟨⟨t', hsettles', -⟩, -⟩ := hplanned y hy
    exact hother (List.mem_map.2 ⟨y, hy, hsettles'.recordType.symm.trans htype'.symm⟩)

/-- No two records of a type have one GUID after a synchronization. -/
theorem nodup_guids_of_isOutcome (houtcome : p.IsOutcome s f) (name : String) :
    ((f name).map (·.guid)).Nodup := by
  by_cases hmem : name ∈ s.planned.map (·.1.records.recordType)
  · obtain ⟨x, hx, rfl⟩ := List.mem_map.1 hmem
    obtain ⟨⟨t, hsettles, -⟩, -⟩ := hplanned x hx
    obtain ⟨hlength, hall⟩ := houtcome.settled x hx
    have hguids := hdistinct.guids x.1.records.recordType
    rw [setOf_planned hsurvey hkeyed hx] at hguids
    have hrowGuid {i : Nat} {r : Record} (hr : (f x.1.records.recordType)[i]? = some r) :
        (x.2.rowGuids x.1.sheet.rows)[i]? = some (some r.guid) :=
      (hall i _ r (List.getElem?_eq_getElem (hlength ▸ (List.getElem?_eq_some_iff.1 hr).1)) hr).guid
    refine List.nodup_iff_getElem?_ne_getElem?.2 fun i j hlt hj heq => Nat.ne_of_lt hlt ?_
    rw [List.length_map] at hj
    rw [List.getElem?_map, List.getElem?_map, List.getElem?_eq_getElem hj] at heq
    obtain ⟨r, hr, hguid⟩ := Option.map_eq_some_iff.1 heq
    exact hsettles.index_eq_of_guid hguids (hrowGuid hr)
      (hguid ▸ hrowGuid (List.getElem?_eq_getElem hj))
  · have hperm := (houtcome.others name hmem).map (·.guid)
    rw [Record.map_guid_unstamped, Record.map_guid_unstamped] at hperm
    exact hperm.nodup_iff.2 (hdistinct.guids name)

section References

variable (houtcome : p.IsOutcome s f)
  (hc : ∀ name ∈ p.typeNames,
    ((c'.setOf name).records.map Record.quieted).Perm ((f name).map Record.quieted))
  (hnone : ∀ name, name ∉ p.typeNames → c'.setOf name = .empty name)

include houtcome hc hnone

/-- The records after a synchronization are known by the references of its survey. -/
theorem guid?_of_isOutcome {recordType : String} {r : Record}
    (hr : r ∈ (c'.setOf recordType).records) :
    (referencesOf s.catalog s.planned).guid? recordType r.identifier = some r.guid := by
  have htype : recordType ∈ p.typeNames := by
    by_contra hother
    rw [hnone recordType hother] at hr
    cases hr
  obtain ⟨old, hold, heq⟩ := List.mem_map.1 ((hc _ htype).subset (List.mem_map_of_mem hr))
  obtain ⟨hguid, hidentifier, -⟩ := Record.same_of_quieted heq
  rw [← hguid, ← hidentifier]
  by_cases hmem : recordType ∈ s.planned.map (·.1.records.recordType)
  · obtain ⟨x, hx, rfl⟩ := List.mem_map.1 hmem
    exact guid?_of_settled hsurvey hkeyed hplanned houtcome hx hold
  · exact guid?_of_kept hkeyed hdistinct hplanned houtcome hmem hold

/-- **What identifiers name after a synchronization**, they name with the references of its survey.
-/
theorem within_of_isOutcome : c'.references.Within (referencesOf s.catalog s.planned) := by
  intro recordType identifier guid h
  obtain ⟨r, hr, rfl, rfl⟩ := Catalog.exists_of_guid? h
  exact guid?_of_isOutcome hsurvey hkeyed hdistinct hplanned houtcome hc hnone hr

/-- An identifier of a record that is called as before names that record before and after. -/
theorem guid?_of_stillNames {target identifier : String}
    (h : s.catalog.StillNames c' target identifier) :
    c'.references.guid? target identifier = s.catalog.references.guid? target identifier := by
  obtain ⟨old, hold, new, hnew, rfl, hidentifier, hguid⟩ := h
  rw [hdistinct.guid?_of_mem hold, ← hguid, ← hidentifier]
  -- another record with the identifier would be known by the same reference
  obtain ⟨guid, hfound⟩ := Catalog.exists_guid?_of_mem hnew
  have hknown := within_of_isOutcome hsurvey hkeyed hdistinct hplanned houtcome hc hnone _ _ _ hfound
  rw [guid?_of_isOutcome hsurvey hkeyed hdistinct hplanned houtcome hc hnone hnew] at hknown
  exact hfound.trans hknown.symm

end References

end Outcome

/-- A record with the values that a row was read as is described by the row, also if there are fewer
records to name. -/
theorem describes_of_decodeRow {registry : Registry} (hsound : registry.IsSound)
    {R R' : References} (hwithin : R'.Within R) {recordType : String} {row : Row}
    {base values : NameMap Value}
    (hread : Execution.decodeRow ⟨registry, R⟩ recordType row = .ok values) {r r' : Record}
    (hvalues : r.values = base.override values) (hsame : r'.quieted = r.quieted) :
    Cell.Context.Describes ⟨registry, R'⟩ recordType row r' := by
  intro t ht q hq cell hcell
  have hnodup : (t.valueProperties.map (·.name)).Nodup :=
    (List.filter_sublist.map _).nodup (hsound.propertyNames t (List.mem_of_find?_eq_some ht))
  have ht : (Cell.Context.mk registry R).registry.type? recordType = some t := ht
  obtain ⟨v, hdecode, hfind⟩ := Execution.find?_of_decodeRow ht hnodup hread hq hcell
  rcases @Cell.Context.decode_lapses registry _ _ hwithin q cell with
    hagree | ⟨target, identifier, -, hdangling⟩
  · refine Or.inl ⟨v, ?_⟩
    have hstored : (r'.values.map Value.quieted).find? q.name =
        (r.values.map Value.quieted).find? q.name :=
      congrArg (fun x : Record => x.values.find? q.name) hsame
    rw [NameMap.find?_map, NameMap.find?_map, hvalues, NameMap.find?_override hfind] at hstored
    obtain ⟨stored, hstored, hquieted⟩ := Option.map_eq_some_iff.1 hstored
    exact ⟨stored, hagree.trans hdecode, hstored, hquieted⟩
  · exact Or.inr ⟨target, identifier, hdangling⟩

/-- **Tables and records after a synchronization.**  There is one record for each row of each table,
with the row's identifier and its hash.  Either what the cells of the row say, read with the records
that there are now, is what it holds; or it is as it was before, and then a cell that said what it
holds says it still, if no record that the cell names was renamed or deleted. -/
theorem records_of_sync {tools : Tools} {files : FileTree}
    (hload : ofFiles tools files = .ok p) (hp : p.HasOwnPlaces)
    (hnames : ∀ t ∈ p.registry.recordTypes, Path.IsName t.name)
    (htree : w.files.HasNames) (hordered : w.files.Ordered)
    {w₁ : Workspace} (hcatalog : p.loadCatalog.Answers w c w₁) (hdistinct : c.IsDistinct)
    (hfresh : ∀ set ∈ NameMap.values c, w.supply.FreshFor set)
    {work : List TableWork} {absent : List (Path × RecordSet)}
    (hsheets : p.readSheets w.files (NameMap.values c) = .ok (work, absent))
    {report : SyncReport} (hsync : p.sync.Answers w report w') :
    ∃ c' w₂, p.loadCatalog.Answers w' c' w₂ ∧ ∀ x ∈ work,
      (c'.setOf x.records.recordType).records.length = x.sheet.rows.length ∧
      ∀ row ∈ x.sheet.rows, ∃ r ∈ (c'.setOf x.records.recordType).records,
        r.identifier = row.identifier ∧ r.contentHash = some row.contentHash ∧
        ((∃ old ∈ x.records.records, r.quieted = old.quieted ∧
            Catalog.KeepsTelling p.registry c c' x.records.recordType row old r) ∨
          Cell.Context.Describes ⟨p.registry, c'.references⟩ x.records.recordType row r) := by
  have hclean := hasCleanPaths_of_ofFiles hload
  have hsound := isSound_of_ofFiles hload
  by_cases hsome : p.registry.recordTypes = []
  · refine ⟨_, _, loadCatalog_of_no_types hsome w', fun x hx => ?_⟩
    have hset := (sets_of_readSheets hsheets).subset
      (List.mem_append_left _ (List.mem_map_of_mem hx))
    obtain ⟨t, ht, -⟩ := recordType_of_loadCatalog hcatalog _ hset
    rw [hsome] at ht
    cases ht
  obtain ⟨rs, hdirs⟩ := exists_hasRecordDirectories hp hclean hnames hsome
  have hnodup : p.typeNames.Nodup := (List.filter_sublist.map _).nodup hsound.names
  rw [sync_eq] at hsync
  obtain ⟨s, w₃, hsurvey, hcarry⟩ := answers_bind.1 hsync
  have hs := isSurvey_of_answers hsurvey
  -- the survey is about this catalog and these tables
  obtain ⟨w₀, hcatalog', hstore⟩ := hs.catalog
  obtain ⟨hc, rfl⟩ := Prod.mk.inj (hcatalog.symm.trans hcatalog')
  obtain rfl : c = s.catalog := Except.ok.inj hc
  obtain ⟨work', hsheets', _, _, -, hreconciled⟩ := hs.sheets
  obtain ⟨rfl, -⟩ := Prod.mk.inj (Except.ok.inj (hsheets.symm.trans hsheets'))
  obtain ⟨hkeyed, hwell⟩ := wellFormed_of_loadCatalog hcatalog
  have hplanned := hs.isPlanned hkeyed hdistinct fun set hset => ⟨hwell set hset, hfresh set hset⟩
  have hheld :=
    holdsAll_of_loadCatalog hdirs hnodup htree hordered (fun _ => trivial) hdistinct hcatalog
  rw [← hstore] at hheld
  obtain ⟨f, w₄, hheld', houtcome, hsame, -⟩ :=
    exists_outcome hs hkeyed hdistinct hplanned hp hclean hdirs hheld hcarry
  obtain ⟨c', w₂, hcatalog'', hread⟩ := exists_loadCatalog hdirs hp hnodup hheld'
    (fun name _ => nodup_guids_of_isOutcome hs hkeyed hdistinct hplanned houtcome name) hsame
  have hnone (name : String) (hname : name ∉ p.typeNames) : c'.setOf name = .empty name :=
    setOf_of_loadCatalog hcatalog'' hname
  have hwithin := within_of_isOutcome hs hkeyed hdistinct hplanned houtcome hread hnone
  refine ⟨c', w₂, hcatalog'', fun x hx => ?_⟩
  rw [← (planned_of_reconcileAll hreconciled).1] at hx
  obtain ⟨y, hy, rfl⟩ := List.mem_map.1 hx
  have hperm := hread y.1.records.recordType (hs.mem_typeNames (hs.mem_values hy))
  obtain ⟨hlength, hall⟩ := houtcome.settled y hy
  refine ⟨?_, fun row hrow => ?_⟩
  · rw [← hlength, ← List.length_map (f := Record.quieted), hperm.length_eq, List.length_map]
  obtain ⟨i, hi⟩ := List.getElem?_of_mem hrow
  obtain ⟨r, hr⟩ : ∃ r, (f y.1.records.recordType)[i]? = some r :=
    ⟨_, List.getElem?_eq_getElem (hlength ▸ (List.getElem?_eq_some_iff.1 hi).1)⟩
  have hsettled := hall i row r hi hr
  obtain ⟨r', hr', hsame'⟩ := List.mem_map.1
    (hperm.symm.subset (List.mem_map_of_mem (List.mem_of_getElem? hr)))
  obtain ⟨-, hidentifier, -, hhash⟩ := Record.same_of_quieted hsame'
  obtain ⟨⟨_, hsettles, -⟩, -⟩ := hplanned y hy
  refine ⟨r', hr', hidentifier.trans hsettled.identifier, hhash.trans hsettled.contentHash, ?_⟩
  cases hsettled.values with
  | unchanged hold _ =>
    exact Or.inl ⟨r, hold, hsame', Catalog.keepsTelling_of_quieted hsame' fun _ _ hstill =>
      guid?_of_stillNames hs hkeyed hdistinct hplanned houtcome hread hnone hstill⟩
  | updated old _ values _ _ _ hread hvalues =>
    rw [hsettles.recordType] at hread
    exact Or.inr (describes_of_decodeRow hsound hwithin hread hvalues hsame')
  | created _ values _ hread hvalues =>
    rw [hsettles.recordType] at hread
    exact Or.inr (describes_of_decodeRow hsound hwithin hread hvalues hsame')

/-! ### Coins that are not stored yet -/

/-- The project of coins before its first synchronization, with other GUIDs to come. -/
def freshCoins : Workspace := ⟨.ofFiles coinFiles, Execution.unarySupply⟩

/-- Records are told apart if there is at most one of each type. -/
theorem isDistinct_of_length_le_one (h : ∀ set ∈ NameMap.values c, set.records.length ≤ 1) :
    c.IsDistinct := by
  have hone (name : String) : (c.setOf name).records.length ≤ 1 := by
    by_contra hlt
    obtain ⟨r, hr⟩ : ∃ r, r ∈ (c.setOf name).records :=
      List.exists_mem_of_length_pos (Nat.lt_of_succ_lt (Nat.lt_of_not_le hlt))
    exact hlt (h _ (Catalog.mem_values_of_mem_records hr))
  have hnodup {α : Type} (name : String) (g : Record → α) : ((c.setOf name).records.map g).Nodup := by
    have hlength := hone name
    generalize (c.setOf name).records = l at hlength
    match l with
    | [] => exact List.nodup_nil
    | [r] => exact List.nodup_singleton _
    | _ :: _ :: _ => exact absurd (Nat.le_of_succ_le_succ hlength) (Nat.not_succ_le_zero _)
  exact ⟨fun name => hnodup name _, fun name => hnodup name _⟩

theorem isDistinct_of_no_records (h : ∀ set ∈ NameMap.values c, set.records = []) :
    c.IsDistinct := isDistinct_of_length_le_one fun set hset => by
  rw [h set hset]
  exact Nat.zero_le 1

/-- No coin is stored yet. -/
theorem exists_loadCatalog_freshCoins :
    ∃ c w₁, coinProject.loadCatalog.Answers freshCoins c w₁ ∧
      ∀ set ∈ NameMap.values c, set.records = [] := by
  have hcatalog : (coinProject.loadCatalog.outcome freshCoins).1.toOption.map
      (fun c => (NameMap.values c).all fun set => set.records.isEmpty) = some true := by
    decide +kernel
  obtain ⟨c, hcatalog, hempty⟩ := Option.map_eq_some_iff.1 hcatalog
  exact ⟨c, _, Prod.ext (toOption_eq_some.1 hcatalog) rfl, fun set hset =>
    List.isEmpty_iff.1 (List.all_eq_true.1 hempty set hset)⟩

theorem hasNames_freshCoins : freshCoins.files.HasNames := by decide +kernel

theorem ordered_freshCoins : freshCoins.files.Ordered := by decide +kernel

theorem freshFor_freshCoins (h : ∀ set ∈ NameMap.values c, set.records = []) :
    ∀ set ∈ NameMap.values c, freshCoins.supply.FreshFor set := fun set hset =>
  Execution.freshFor_unarySupply (by rw [h set hset]; exact List.forall_mem_nil _)

/-- The first synchronization stores the coin. -/
theorem records_of_sync_coins :
    ∃ c w₁ work absent report w', ofFiles .atHand coinFiles = .ok coinProject ∧
      coinProject.HasOwnPlaces ∧
      (∀ t ∈ coinProject.registry.recordTypes, Path.IsName t.name) ∧
      freshCoins.files.HasNames ∧ freshCoins.files.Ordered ∧
      coinProject.loadCatalog.Answers freshCoins c w₁ ∧ c.IsDistinct ∧
      (∀ set ∈ NameMap.values c, freshCoins.supply.FreshFor set) ∧
      coinProject.readSheets freshCoins.files (NameMap.values c) = .ok (work, absent) ∧
      work.length = 1 ∧ coinProject.sync.Answers freshCoins report w' ∧
      ∃ c' w₂, coinProject.loadCatalog.Answers w' c' w₂ ∧ ∀ x ∈ work,
        (c'.setOf x.records.recordType).records.length = x.sheet.rows.length ∧
        ∀ row ∈ x.sheet.rows, ∃ r ∈ (c'.setOf x.records.recordType).records,
          r.identifier = row.identifier ∧ r.contentHash = some row.contentHash ∧
          ((∃ old ∈ x.records.records, r.quieted = old.quieted ∧
              Catalog.KeepsTelling coinProject.registry c c' x.records.recordType row old r) ∨
            Cell.Context.Describes ⟨coinProject.registry, c'.references⟩ x.records.recordType row
              r) := by
  have hnames : ∀ t ∈ coinProject.registry.recordTypes, Path.IsName t.name := by decide
  obtain ⟨c, w₁, hloaded, hnone⟩ := exists_loadCatalog_freshCoins
  have hsheets : ((coinProject.loadCatalog.outcome freshCoins).1.toOption.bind fun c =>
      (coinProject.readSheets freshCoins.files (NameMap.values c)).toOption).map
        (fun sheets => sheets.1.length) = some 1 := by decide +kernel
  have houtcome : coinProject.loadCatalog.outcome freshCoins = (.ok c, w₁) := hloaded
  rw [houtcome] at hsheets
  obtain ⟨⟨work, absent⟩, hsheets, hlength⟩ := Option.map_eq_some_iff.1 hsheets
  -- the model is run to see that the coin is stored
  have hsync : (coinProject.sync.outcome freshCoins).1.toOption.isSome := by decide +kernel
  obtain ⟨report, hsync⟩ := Option.isSome_iff_exists.1 hsync
  have hdistinct := isDistinct_of_no_records hnone
  have hfresh := freshFor_freshCoins hnone
  have hsynced : coinProject.sync.Answers freshCoins report _ :=
    Prod.ext (toOption_eq_some.1 hsync) rfl
  exact ⟨c, w₁, work, absent, report, _, ofFiles_coinFiles, hasOwnPlaces_coinProject, hnames,
    hasNames_freshCoins, ordered_freshCoins, hloaded, hdistinct, hfresh,
    toOption_eq_some.1 hsheets, hlength, hsynced,
    records_of_sync ofFiles_coinFiles hasOwnPlaces_coinProject hnames hasNames_freshCoins
      ordered_freshCoins hloaded hdistinct hfresh (toOption_eq_some.1 hsheets) hsynced⟩

end Project

end RecordTables
