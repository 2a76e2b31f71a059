import Mathlib.Logic.Function.Basic
import RecordTables.Proofs.Execution.Apply
import RecordTables.Proofs.Project.Names
import RecordTables.Proofs.Project.Places
import RecordTables.Proofs.Reconcile.Verdicts
import RecordTables.Proofs.Record.Set
import RecordTables.Proofs.Store.Loading

/-!
# The stored records of a project

Every record set of the catalog that a survey reads has a table, or is told to have none
(`Project.sets_of_readSheets`), and there is a plan for each table.  If records are told apart by
their GUIDs and by their identifiers, and no new GUID is that of a record, then each plan settles the
rows of its table, and all rows that it writes can be read (`Project.IsSurvey.isPlanned`).

A store in files can hold the records of several types at once (`FileStore.HoldsAll`).  What is done
with those of one type leaves the others (`FileStore.HoldsAll.set`), and so does whatever leaves the
directories of the types as they were (`FileStore.HoldsAll.transport`).

A project keeps the records of its types in directories of their own.  Writing a table leaves them
all (`Project.holdsAll_saveSheet`), making the missing tables changes no more than hashes
(`Project.holdsAll_exportAll`), and carrying out plans makes the records of each table settle its rows
and leaves the records of other types (`Project.holdsAll_applyAll`).

What a project reads as its catalog is what its store then holds of each record type
(`Project.holdsAll_of_loadCatalog`), and what a store holds of each record type is read as the catalog,
in some order and with one pattern for no number, even if there were changes beside the records
(`Project.exists_loadCatalog`).
-/

namespace RecordTables

open Step

/-! ## What a survey plans -/

section Planning

open Matcher

/-- The records of a type are told apart by their GUIDs, and by their identifiers. -/
structure Catalog.IsDistinct (c : Catalog) : Prop where
  guids : ∀ recordType, ((c.setOf recordType).records.map (·.guid)).Nodup
  identifiers : ∀ recordType, ((c.setOf recordType).records.map (·.identifier)).Nodup

namespace Project

variable {p : Project} {w w' : Workspace} {work : List TableWork}
  {planned : List (TableWork × Plan)} {ctx : Cell.Context}

/-- The plan for a table settles its rows, each with the record that it stands for, and the rows that
it writes can be read. -/
structure IsPlanned (ctx : Cell.Context) (x : TableWork × Plan) : Prop where
  settles : ∃ s : Settlement, s.Settles x.1.records x.1.sheet.rows x.2 ∧
    IsHome .standard x.1.records s.directory ∧
    ∀ l, l ∈ s.links ↔ linkOf? x.1.records x.1.sheet.rows l.index = some l
  check : Execution.check ctx x.2 x.1.sheet.rows = .ok ()

/-! ### The plans -/

/-- The plan that a reconciliation made for a table, with some of the GUIDs of a supply. -/
def IsPlanFor (supply : GuidSupply) (t : TableWork) (plan : Plan) : Prop :=
  ∃ rest rest' : GuidSupply, rest.IsRestOf supply ∧
    reconcile .standard rest t.records t.sheet.rows = (.ok plan, rest')

/-- The plan for a table carries out a settlement, whose new GUIDs are of the supply. -/
theorem IsPlanFor.exists_accounts {supply : GuidSupply} {t : TableWork} {plan : Plan}
    (h : IsPlanFor supply t plan) (hwell : t.records.WellFormed) (hfresh : supply.FreshFor t.records) :
    ∃ s : Settlement, (∀ l, l ∈ s.links ↔ linkOf? t.records t.sheet.rows l.index = some l) ∧
      s.Accounts t.records t.sheet.rows plan ∧
      ((t.records.records.map (·.identifier)).Nodup → s.Settles t.records t.sheet.rows plan) ∧
      IsHome .standard t.records s.directory ∧
      ∀ e ∈ s.created, ∃ n, supply.used ≤ n ∧ e.2 = supply.next n := by
  obtain ⟨rest, rest', hrest, hplan⟩ := h
  obtain ⟨s, hlinks, haccounts, hsettles, hhome, hcreated⟩ :=
    exists_accounts_of_linkOf? hwell (hfresh.rest hrest) hplan
  refine ⟨s, hlinks, haccounts, hsettles, hhome, fun e he => ?_⟩
  obtain ⟨n, hn, hguid⟩ := hcreated e he
  exact ⟨n, hrest.used.trans hn, hrest.next ▸ hguid⟩

/-- If no fault is told, there is a plan for each table. -/
theorem planAll_spec {supply supply' : GuidSupply} {plans : List Plan}
    (h : planAll supply work = (plans, [], supply')) :
    List.Forall₂ (IsPlanFor supply) work plans := by
  induction work generalizing supply plans with
  | nil =>
    obtain ⟨rfl, -⟩ := Prod.mk.inj h
    exact List.Forall₂.nil
  | cons t work ih =>
    unfold planAll at h
    generalize hplan : reconcile .standard supply t.records t.sheet.rows = result at h
    obtain ⟨outcome, rest⟩ := result
    -- what is left of the supply is handed to the next table
    have hrest : rest.IsRestOf supply := by
      have hrest := isRestOf_of_reconcile .standard supply t.records t.sheet.rows
      rwa [hplan] at hrest
    dsimp only at h
    generalize hothers : planAll rest work = others at h
    obtain ⟨plans', faults, last⟩ := others
    cases outcome with
    | ok plan =>
      cases h
      refine List.Forall₂.cons ⟨supply, rest, GuidSupply.IsRestOf.refl supply, hplan⟩ ?_
      refine (ih hothers).imp fun t' plan' hplan' => ?_
      obtain ⟨before, after, hbefore, hreconcile⟩ := hplan'
      exact ⟨before, after, hbefore.trans hrest, hreconcile⟩
    -- a table that cannot be reconciled would leave an error
    | error errors =>
      have hnil := (List.append_eq_nil_iff.1 (congrArg (·.2.1) h)).1
      exact absurd (List.map_eq_nil_iff.1 hnil) (ne_nil_of_reconcile hplan)

/-- What is planned are the tables, each with a plan. -/
theorem planned_of_reconcileAll (h : (reconcileAll work).Answers w planned w') :
    planned.map (·.1) = work ∧ ∀ x ∈ planned, IsPlanFor w.supply x.1 x.2 := by
  unfold reconcileAll at h
  rw [answers_get_bind] at h
  generalize hplans : planAll w.supply work = result at h
  obtain ⟨plans, faults, supply⟩ := result
  obtain ⟨_, w₁, -, h⟩ := answers_bind.1 h
  split_ifs at h with hfaults
  · obtain ⟨rfl, -⟩ := answers_pure_iff.1 h
    obtain rfl := List.isEmpty_iff.1 hfaults
    have hall := planAll_spec hplans
    exact ⟨List.map_fst_zip hall.length_eq.le, fun x hx => (List.forall₂_iff_zip.1 hall).2 hx⟩
  · exact absurd h not_answers_throw

/-- If no cell is told, all rows that plans write can be read. -/
theorem check_of_unreadableCells (h : unreadableCells ctx planned = .ok []) :
    ∀ x ∈ planned, Execution.check ctx x.2 x.1.sheet.rows = .ok () := by
  induction planned with
  | nil => exact List.forall_mem_nil _
  | cons x planned ih =>
    unfold unreadableCells at h
    split at h
    · next hcheck => exact List.forall_mem_cons.2 ⟨hcheck, ih h⟩
    · next cells hcheck =>
      obtain ⟨more, -, hnil⟩ := map_eq_ok.1 h
      have hcells := (List.append_eq_nil_iff.1 hnil).1
      exact absurd (List.map_eq_nil_iff.1 hcells) (Execution.ne_nil_of_check hcheck)
    · cases h

/-! ### What a survey found -/

namespace IsSurvey

variable {s : Survey} (h : p.IsSurvey w s w')

include h

/-- The record sets of the tables and those without a table are all. -/
theorem sets_perm : (s.planned.map (·.1.records) ++ s.absent.map (·.2)).Perm
    (NameMap.values s.catalog) := by
  obtain ⟨work, hwork, w₁, w₂, -, hplanned⟩ := h.sheets
  have hsets := sets_of_readSheets hwork
  rw [← (planned_of_reconcileAll hplanned).1, List.map_map] at hsets
  exact hsets

theorem mem_values {x : TableWork × Plan} (hx : x ∈ s.planned) :
    x.1.records ∈ NameMap.values s.catalog :=
  h.sets_perm.subset (List.mem_append_left _ (List.mem_map.2 ⟨x, hx, rfl⟩))

theorem mem_typeNames {set : RecordSet} (hset : set ∈ NameMap.values s.catalog) :
    set.recordType ∈ p.typeNames := by
  obtain ⟨w₁, hcatalog, -⟩ := h.catalog
  obtain ⟨t, ht, hname⟩ := recordType_of_loadCatalog hcatalog set hset
  exact hname ▸ List.mem_map_of_mem ht

theorem path_eq {x : TableWork × Plan} (hx : x ∈ s.planned) :
    x.1.path = p.config.tablePath x.1.records.recordType := by
  obtain ⟨work, hwork, _, _, -, hplanned⟩ := h.sheets
  exact (path_of_readSheets hwork).1 _ (mem_of_reconcileAll hplanned x hx)

/-- Each plan carries out a settlement, whose new GUIDs are of the supply. -/
theorem exists_accounts
    (hsets : ∀ set ∈ NameMap.values s.catalog, set.WellFormed ∧ w.supply.FreshFor set)
    {x : TableWork × Plan} (hx : x ∈ s.planned) :
    ∃ t : Settlement,
      (∀ l, l ∈ t.links ↔ linkOf? x.1.records x.1.sheet.rows l.index = some l) ∧
      t.Accounts x.1.records x.1.sheet.rows x.2 ∧
      ((x.1.records.records.map (·.identifier)).Nodup →
        t.Settles x.1.records x.1.sheet.rows x.2) ∧
      IsHome .standard x.1.records t.directory ∧
      ∀ e ∈ t.created, ∃ n, w.supply.used ≤ n ∧ e.2 = w.supply.next n := by
  obtain ⟨work, -, w₁, w₂, hsupply, hplanned⟩ := h.sheets
  obtain ⟨hwell, hfresh⟩ := hsets _ (h.mem_values hx)
  exact (hsupply ▸ (planned_of_reconcileAll hplanned).2 x hx).exists_accounts hwell hfresh

/-- **Each plan settles the rows of its table.** -/
theorem isPlanned (hkeyed : s.catalog.Keyed) (hdistinct : s.catalog.IsDistinct)
    (hsets : ∀ set ∈ NameMap.values s.catalog, set.WellFormed ∧ w.supply.FreshFor set) :
    ∀ x ∈ s.planned, IsPlanned (s.context p) x := by
  intro x hx
  have hidentifiers := hdistinct.identifiers x.1.records.recordType
  rw [hkeyed.setOf_of_mem (h.mem_values hx)] at hidentifiers
  obtain ⟨t, hlinks, -, hsettles, hhome, -⟩ := h.exists_accounts hsets hx
  exact ⟨⟨t, hsettles hidentifiers, hhome, hlinks⟩, check_of_unreadableCells h.readable x hx⟩

end IsSurvey

end Project

end Planning

/-! ## The records of several types -/

namespace FileStore

variable {rs types : List String} {recordType : String} {Blocked : Prop}
  {f : String → List Record} {l : List Record} {s s' : FileStore}

/-- The store holds the records of each type, and has seen them.  Unless it is said that something is
`Blocked`, no directory stands in the place of a record. -/
def HoldsAll (rs types : List String) (Blocked : Prop) (f : String → List Record) (s : FileStore) :
    Prop :=
  ∀ recordType ∈ types, Holds rs recordType Blocked s (f recordType) s

/-- A directory stands in the place of a record of one of the types. -/
def IsBlocked (rs types : List String) (files : FileTree) : Prop :=
  ∃ recordType ∈ types, ∃ ps, IsRecordPlace rs recordType ps ∧ files.isDirectoryAt ps = true

theorem IsBlocked.mono {types' : List String} {files : FileTree} (h : IsBlocked rs types files)
    (hsub : types ⊆ types') : IsBlocked rs types' files :=
  let ⟨recordType, hmem, hblocked⟩ := h
  ⟨recordType, hsub hmem, hblocked⟩

/-- A set that was read is well formed. -/
theorem wellFormed_of_load {root : Path} {set : RecordSet}
    (h : (load root recordType).Answers s set s') : set.WellFormed := by
  unfold load at h
  rw [answers_get_bind] at h
  obtain ⟨found, -, hfound⟩ :=
    (loadPlaces_yields _ (RecordSet.wellFormed_empty recordType)).answers _ _ h
  exact hfound.wellFormed

variable (hrs : ∀ name ∈ rs, Path.IsName name) (htypes : ∀ name ∈ types, Path.IsName name)

include hrs htypes

/-- **The other types** are not concerned by what is done with the records of one type. -/
theorem HoldsAll.set (h : HoldsAll rs types Blocked f s) (htype : Path.IsName recordType)
    (hafter : Holds rs recordType Blocked s l s') :
    HoldsAll rs (recordType :: types) Blocked (Function.update f recordType l) s' := by
  intro other hother
  by_cases hne : other = recordType
  · subst hne
    rw [Function.update_self]
    exact hafter.self
  · rw [Function.update_of_ne hne]
    have hmem : other ∈ types := (List.mem_cons.1 hother).resolve_left hne
    exact (h other hmem).congr hrs (htypes other hmem) htype hne hafter

/-- What leaves the directories of the types leaves their records. -/
theorem HoldsAll.transport (h : HoldsAll rs types Blocked f s)
    (hnames : s.files.HasNames → s'.files.HasNames)
    (hordered : s.files.Ordered → s'.files.Ordered)
    (hsame : ∀ recordType ∈ types, s'.files.at? (.inside (rs ++ [recordType])) =
      s.files.at? (.inside (rs ++ [recordType])))
    (hseen : s'.seen = s.seen) : HoldsAll rs types Blocked f s' := by
  intro recordType hmem
  have hheld := h recordType hmem
  exact hheld.transport hrs (htypes recordType hmem) (hnames hheld.names) (hordered hheld.ordered)
    (hsame recordType hmem) fun guid => by rw [hseen]

/-- **Reading the records of another type** leaves those that were read before. -/
theorem HoldsAll.load (h : HoldsAll rs types Blocked f s) (htype : Path.IsName recordType)
    {set : RecordSet} (hload : (load (.inside rs) recordType).Answers s set s')
    (hnames : s.files.HasNames) (hordered : s.files.Ordered)
    (hfree : IsBlocked rs [recordType] s.files → Blocked)
    (hguids : (set.records.map (·.guid)).Nodup) :
    HoldsAll rs (recordType :: types) Blocked (Function.update f recordType set.records) s' := by
  have hhousing : Housing rs recordType Blocked s.files s.files :=
    ⟨hnames, hordered, fun ps hps h => hfree ⟨_, List.mem_singleton_self _, ps, hps, h⟩,
      fun _ _ => rfl⟩
  exact h.set hrs htypes htype
    (holds_of_load hrs htype hload hhousing (fun _ _ _ => rfl) hguids)

end FileStore

/-! ## A project -/

open FileStore Matcher

namespace Record

/-- The record without the hash of its row. -/
def unstamped (r : Record) : Record := { r with contentHash := none }

theorem map_guid_unstamped (l : List Record) :
    (l.map unstamped).map (·.guid) = l.map (·.guid) := by
  rw [List.map_map]
  rfl

/-- Records that differ in their hashes only are the same for the rest. -/
theorem same_of_unstamped {r r' : Record} (h : r'.unstamped = r.unstamped) : r'.guid = r.guid ∧
    r'.identifier = r.identifier ∧ r'.directory = r.directory :=
  let ⟨_, _, _, _, _⟩ := r'
  let ⟨_, _, _, _, _⟩ := r
  by
    injection h with hguid hidentifier hdirectory
    exact ⟨hguid, hidentifier, hdirectory⟩

end Record

namespace Project

variable {p : Project} {rs : List String} {Blocked : Prop} {f : String → List Record}
  {w w' : Workspace}

/-- The records are in a directory of the project, and the name of each record type is one in it. -/
structure HasRecordDirectories (p : Project) (rs : List String) : Prop where
  root : p.config.recordsDirectory = .inside rs
  names : ∀ name ∈ rs, Path.IsName name
  types : ∀ name ∈ p.typeNames, Path.IsName name

/-- A table can be written without touching records. -/
structure IsTable (p : Project) (path : Path) : Prop where
  clean : path.IsClean
  apart : ∀ q ∈ p.recordPlaces, path.Apart q ∧ (besideTable path).Apart q

/-- A table and the stock of records for it, which are of a type of the project and told apart by their
GUIDs. -/
structure IsStocked (p : Project) (path : Path) (records : RecordSet) : Prop where
  table : p.IsTable path
  recordType : records.recordType ∈ p.typeNames
  guids : (records.records.map (·.guid)).Nodup

variable (hdirs : p.HasRecordDirectories rs)

include hdirs

theorem HasRecordDirectories.records : p.records = FileStore.store (.inside rs) :=
  congrArg FileStore.store hdirs.root

theorem HasRecordDirectories.recordPlace {name : String} (hname : name ∈ p.typeNames) :
    Path.inside (rs ++ [name]) ∈ p.recordPlaces := by
  obtain ⟨t, ht, rfl⟩ := List.mem_map.1 hname
  rw [← Path.join_inside rs (hdirs.types _ hname), ← hdirs.root]
  exact List.mem_map_of_mem ht

/-- The store serves the records of each type. -/
theorem HasRecordDirectories.serves (Blocked : Prop) {recordType : String}
    (htype : recordType ∈ p.typeNames) (s : FileStore) :
    (FileStore.store (.inside rs)).Serves recordType (Holds rs recordType Blocked s)
      (HasPlace recordType Blocked) (Failure Blocked) :=
  FileStore.serves hdirs.names (hdirs.types _ htype) s

/-- The records of the types after something was done with those of one type. -/
theorem HasRecordDirectories.set {recordType : String} (htype : recordType ∈ p.typeNames)
    {s s' : FileStore} {l : List Record} (h : HoldsAll rs p.typeNames Blocked f s)
    (hafter : Holds rs recordType Blocked s l s') :
    HoldsAll rs p.typeNames Blocked (Function.update f recordType l) s' := fun other hother =>
  h.set hdirs.names hdirs.types (hdirs.types _ htype) hafter other (List.mem_cons_of_mem _ hother)

/-! ### Writing a table -/

omit hdirs in
theorem onFiles_ensures {ε α : Type} {step : Step FileTree ε α} {P : FileTree → Prop}
    {Q : α → Prop} (h : step.Ensures P Q) :
    (Workspace.onFiles step).Ensures (fun w => P w.files) Q :=
  h.within (fun _ hw => hw) fun _ _ _ ht => ht

omit hdirs in
theorem saveSheet_ensures {P : FileTree → Prop} (hP : FileTree.Hereditary P) {path : Path}
    (h : path.IsClean) (s : Sheet) :
    (saveSheet path s).Ensures (fun w => P w.files) fun _ => True := by
  have hbeside : (besideTable path).IsClean :=
    h.withName (Path.isPart_append (Path.noSlash_stem path h) (by decide) (by decide))
  refine (onFiles_ensures (ensures_change fun _ _ hmake ht => ?_)).bind fun _ _ =>
    (onFiles_ensures (ensures_change fun _ _ hwrite ht => ?_)).bind fun _ _ =>
      onFiles_ensures (ensures_change fun _ _ hmove ht => ?_)
  · exact hP.makeDirectories? h.parent ht hmake
  · exact hP.write? hbeside ht hwrite
  · exact hP.moveFile? hbeside h ht hmove

omit hdirs in
theorem onFiles_keeps_seen {ε α : Type} (step : Step FileTree ε α) :
    (Workspace.onFiles step).Keeps fun w => w.store.seen := fun _ => rfl

omit hdirs in
theorem saveSheet_keeps_seen (path : Path) (s : Sheet) :
    (saveSheet path s).Keeps fun w => w.store.seen :=
  (onFiles_keeps_seen _).bind fun _ => (onFiles_keeps_seen _).bind fun _ => onFiles_keeps_seen _

/-- **Writing a table** leaves all records. -/
theorem holdsAll_saveSheet {path : Path} (htable : p.IsTable path) {s : Sheet}
    (h : HoldsAll rs p.typeNames Blocked f w.store) (hsave : (saveSheet path s).Answers w () w') :
    HoldsAll rs p.typeNames Blocked f w'.store := by
  refine h.transport hdirs.names hdirs.types (fun hnames => ?_) (fun hordered => ?_)
    (fun recordType htype => ?_) ((saveSheet_keeps_seen path s).answers hsave)
  · exact ((saveSheet_ensures FileTree.hereditary_hasNames htable.clean s).answers hnames hsave).1
  · exact ((saveSheet_ensures FileTree.hereditary_ordered htable.clean s).answers hordered hsave).1
  · obtain ⟨hpath, hbeside⟩ := htable.apart _ (hdirs.recordPlace htype)
    exact (saveSheet_keeps hpath hbeside s).answers hsave

/-! ### Making the missing tables -/

/-- Stamping a record changes no more than its hash. -/
theorem holdsAll_update {recordType : String} (htype : recordType ∈ p.typeNames)
    {records : List Record} (hguids : (records.map (·.guid)).Nodup) {s s' : FileStore}
    (h : HoldsAll rs p.typeNames Blocked f s)
    (hsame : ((f recordType).map Record.unstamped).Perm (records.map Record.unstamped))
    {r : Record} (hr : r ∈ records) {hash : Option String}
    (hupdate : (p.records.update recordType { r with contentHash := hash }).Answers s () s') :
    ∃ l, HoldsAll rs p.typeNames Blocked (Function.update f recordType l) s' ∧
      (l.map Record.unstamped).Perm (records.map Record.unstamped) := by
  -- the record as it is stored now
  obtain ⟨stored, hstored, heq⟩ :=
    List.mem_map.1 (hsame.symm.subset (List.mem_map_of_mem (f := Record.unstamped) hr))
  obtain ⟨hguid, hidentifier, hdirectory⟩ := Record.same_of_unstamped heq
  obtain ⟨front, back, hsplit⟩ := List.append_of_mem hstored
  have hperm : (f recordType).Perm (stored :: (front ++ back)) := hsplit ▸ List.perm_middle
  have hnodup : ((stored :: (front ++ back)).map (·.guid)).Nodup := by
    refine ((hperm.map _).symm.trans ?_).nodup_iff.2 hguids
    rw [← Record.map_guid_unstamped, ← Record.map_guid_unstamped records]
    exact hsame.map _
  have hserves := hdirs.serves Blocked htype s
  have hguid' : ({ r with contentHash := hash } : Record).guid = stored.guid := hguid.symm
  rw [hdirs.records] at hupdate
  have hafter := (hserves.update ((h _ htype).perm hperm) (List.nodup_cons.1 hnodup).1 hguid'
    hdirectory.symm).answers _ _ hupdate
  refine ⟨_, hdirs.set htype h hafter, ?_⟩
  rw [hidentifier, List.map_cons]
  refine List.Perm.trans ?_ ((hperm.map Record.unstamped).symm.trans hsame)
  rw [List.map_cons, heq]
  exact List.Perm.refl _

/-- **Stamping records** changes no more than their hashes. -/
theorem holdsAll_stampRecords {set : RecordSet} {rows : List Row}
    (htype : set.recordType ∈ p.typeNames) (hguids : (set.records.map (·.guid)).Nodup)
    (h : HoldsAll rs p.typeNames Blocked f w.store)
    (hsame : ((f set.recordType).map Record.unstamped).Perm (set.records.map Record.unstamped))
    (hstamp : (p.stampRecords set rows).Answers w () w') :
    ∃ f', HoldsAll rs p.typeNames Blocked f' w'.store ∧ (∀ t, t ≠ set.recordType → f' t = f t) ∧
      ((f' set.recordType).map Record.unstamped).Perm (set.records.map Record.unstamped) := by
  induction rows generalizing w f with
  | nil =>
    obtain ⟨-, rfl⟩ := answers_pure_iff.1 hstamp
    exact ⟨f, h, fun _ _ => rfl, hsame⟩
  | cons row rows ih =>
    unfold stampRecords at hstamp
    split at hstamp
    · next r hr =>
      -- only a record whose hash is another one is stored again
      split_ifs at hstamp
      · obtain ⟨_, w₁, hupdate, hrest⟩ := answers_bind.1 hstamp
        obtain ⟨t, hstep, rfl⟩ := answers_within.1 (answers_mapError.1 hupdate)
        obtain ⟨guid, -, hfound⟩ := Option.bind_eq_some_iff.1 hr
        have hmem := List.mem_reverse.1 (List.mem_of_find?_eq_some hfound)
        obtain ⟨l, hl, hsame'⟩ := holdsAll_update hdirs htype hguids h hsame hmem hstep
        obtain ⟨f', hf', hkept, hsame'⟩ := ih hl (by rwa [Function.update_self]) hrest
        refine ⟨f', hf', fun t ht => ?_, hsame'⟩
        rw [hkept t ht, Function.update_of_ne ht]
      · exact ih h hsame hstamp
    · exact ih h hsame hstamp

/-- **Making the missing tables** changes no more than hashes, and those of no other types. -/
theorem holdsAll_exportAll {c : Catalog} {absent : List (Path × RecordSet)} {names : List String}
    (hstocked : ∀ x ∈ absent, p.IsStocked x.1 x.2)
    (h : HoldsAll rs p.typeNames Blocked f w.store)
    (hsame : ∀ x ∈ absent,
      ((f x.2.recordType).map Record.unstamped).Perm (x.2.records.map Record.unstamped))
    (hexport : (p.exportAll c absent).Answers w names w') :
    ∃ f', HoldsAll rs p.typeNames Blocked f' w'.store ∧
      (∀ t, t ∉ absent.map (·.2.recordType) → f' t = f t) ∧
      ∀ t, ((f' t).map Record.unstamped).Perm ((f t).map Record.unstamped) := by
  induction absent generalizing w f names with
  | nil =>
    obtain ⟨-, rfl⟩ := answers_pure_iff.1 hexport
    exact ⟨f, h, fun _ _ => rfl, fun _ => List.Perm.refl _⟩
  | cons x absent ih =>
    obtain ⟨hstockedOne, hstocked⟩ := List.forall_mem_cons.1 hstocked
    obtain ⟨hsameOne, hsame⟩ := List.forall_mem_cons.1 hsame
    unfold exportAll at hexport
    obtain ⟨sheet, w₁, hsheet, h₁⟩ := answers_bind.1 hexport
    obtain ⟨_, w₂, hsave, h₂⟩ := answers_bind.1 h₁
    obtain ⟨_, w₃, hstamp, h₃⟩ := answers_bind.1 h₂
    obtain ⟨names', w₄, hothers, h₄⟩ := answers_bind.1 h₃
    obtain ⟨-, rfl⟩ := answers_pure_iff.1 h₄
    obtain ⟨-, rfl⟩ := answers_ofExcept.1 hsheet
    -- saving the table leaves the records, and stamping changes no more than hashes
    have hsaved := holdsAll_saveSheet hdirs hstockedOne.table h hsave
    obtain ⟨f₁, hf₁, hkept₁, hsame₁⟩ := holdsAll_stampRecords hdirs hstockedOne.recordType
      hstockedOne.guids hsaved hsameOne hstamp
    have hperm (t : String) : ((f₁ t).map Record.unstamped).Perm ((f t).map Record.unstamped) := by
      by_cases ht : t = x.2.recordType
      · rw [ht]
        exact hsame₁.trans hsameOne.symm
      · rw [hkept₁ t ht]
    obtain ⟨f₂, hf₂, hkept₂, hperm₂⟩ :=
      ih hstocked hf₁ (fun y hy => (hperm _).trans (hsame y hy)) hothers
    refine ⟨f₂, hf₂, fun t ht => ?_, fun t => (hperm₂ t).trans (hperm t)⟩
    rw [List.map_cons, List.mem_cons, not_or] at ht
    rw [hkept₂ t ht.2, hkept₁ t ht.1]

/-! ### Carrying out plans -/

omit hdirs in
/-- New records have a place beside the others. -/
theorem hasPlace_created {recordType : String} {records : RecordSet} {rows : List Row}
    {directory : String} (htype : records.recordType = recordType)
    (hhome : IsHome .standard records directory)
    (hplaces : ∀ r ∈ records.records, HasPlace recordType Blocked r) (ctx : Cell.Context)
    {e : Nat × Guid} {row : Row} (hrow : rows[e.1]? = some row) :
    HasPlace recordType Blocked (Execution.createdRecord ctx recordType rows directory e) := by
  rw [Execution.createdRecord_of_row hrow]
  rcases hhome with rfl | hdefault | ⟨r, hr, rfl⟩
  · refine ⟨[], List.forall_mem_nil _, ?_⟩
    rw [htype]
    rfl
  · cases hdefault
  · exact hplaces r hr

/-- **The records of one plan** settle its rows when it has been carried out, unless the store fails. -/
theorem apply_yields_settled {ctx : Cell.Context} {x : TableWork × Plan} (hx : IsPlanned ctx x)
    (hstocked : p.IsStocked x.1.path x.1.records)
    (h : HoldsAll rs p.typeNames Blocked f w.store)
    (hf : f x.1.records.recordType = x.1.records.records) :
    (Execution.apply ctx p.records x.2 x.1.sheet.rows x.1.records).Yields w.store
      (fun _ t => ∃ settled, Holds rs x.1.records.recordType Blocked w.store settled t ∧
        Execution.AllSettled ctx x.1.records x.1.sheet.rows x.2 settled)
      (Execution.FailsWith (Failure Blocked)) := by
  obtain ⟨⟨s, hsettles, hhome, -⟩, hcheck⟩ := hx
  rw [hdirs.records]
  have hheld := h _ hstocked.recordType
  rw [hf] at hheld
  have hserves := hdirs.serves Blocked hstocked.recordType w.store
  rw [← hsettles.recordType] at hserves
  -- a record that is created belongs into the directory that the settlement chose
  have hfits : ∀ e ∈ s.created, HasPlace x.2.recordType Blocked
      (Execution.createdRecord ctx x.2.recordType x.1.sheet.rows s.directory e) := by
    intro e he
    obtain ⟨row, hrow⟩ := hsettles.exists_row_of_created he
    refine hasPlace_created hsettles.recordType.symm hhome (fun r hr => ?_) ctx hrow
    rw [hsettles.recordType]
    exact (hheld.housed r hr).place
  refine (Execution.apply_yields hserves hsettles hstocked.guids hcheck hfits
    (hsettles.recordType ▸ hheld)).mono fun _ t hafter => ?_
  obtain ⟨settled, hperm, hsettled⟩ := Execution.exists_allSettled hsettles hcheck
  rw [hsettles.recordType] at hafter
  exact ⟨settled, hafter.2.perm hperm, hsettled⟩

/-- Where carrying out the plan for a table writes. -/
def placesOf (p : Project) (t : TableWork) : List Path :=
  [p.config.recordsDirectory.join t.records.recordType, t.path, besideTable t.path]

/-- What is in the file of a table after its plan was carried out: the stamped sheet, or what was there
before if the plan does nothing and no row got a GUID. -/
def LeavesTable (x : TableWork × Plan) (before after : Option (List UInt8)) : Prop :=
  after = some (Text.utf8 (x.1.sheet.stamp (x.2.rowGuids x.1.sheet.rows)).text) ∨
    x.2.actions = [] ∧ x.2.backfilled = [] ∧ after = before

/-- **Carrying out one plan** makes the records of its table settle the rows, and leaves the records of
other types and all other files. -/
theorem holdsAll_applyOne {ctx : Cell.Context} {x : TableWork × Plan} (hx : IsPlanned ctx x)
    (hstocked : p.IsStocked x.1.path x.1.records)
    (h : HoldsAll rs p.typeNames Blocked f w.store)
    (hf : f x.1.records.recordType = x.1.records.records) {report : ExecutionReport}
    (happly : (p.applyOne ctx x).Answers w report w') :
    ∃ settled,
      HoldsAll rs p.typeNames Blocked (Function.update f x.1.records.recordType settled) w'.store ∧
      Execution.AllSettled ctx x.1.records x.1.sheet.rows x.2 settled ∧
      (∀ q, (∀ a ∈ p.placesOf x.1, a.Apart q) → w'.files.at? q = w.files.at? q) ∧
      ((besideTable x.1.path).Apart x.1.path →
        LeavesTable x (w.files.read? x.1.path) (w'.files.read? x.1.path)) := by
  obtain ⟨report, w₁, hrun, hrest⟩ := answers_bind.1 happly
  obtain ⟨t, hstep, rfl⟩ := answers_within.1 (answers_mapError.1 hrun)
  obtain ⟨settled, hafter, hsettled⟩ :=
    (apply_yields_settled hdirs hx hstocked h hf).answers _ _ hstep
  obtain ⟨htable, htype, -⟩ := hstocked
  have hheld := hdirs.set htype h hafter
  have hothers : ∀ q, (p.config.recordsDirectory.join x.1.records.recordType).Apart q →
      t.files.at? q = w.files.at? q := by
    intro q hq
    rw [hdirs.root, Path.join_inside rs (hdirs.types _ htype)] at hq
    exact hafter.others q hq
  refine ⟨settled, ?_⟩
  split_ifs at hrest with hwrites
  · -- the table is written
    obtain ⟨_, w₂, hsave, hpure⟩ := answers_bind.1 hrest
    obtain ⟨-, rfl⟩ := answers_pure_iff.1 hpure
    refine ⟨holdsAll_saveSheet hdirs htable hheld hsave, hsettled, fun q hq => ?_,
      fun hbeside => Or.inl (read?_of_saveSheet hbeside hsave)⟩
    simp only [placesOf, List.forall_mem_cons] at hq
    obtain ⟨hrecords, hpath, hbeside, -⟩ := hq
    exact ((saveSheet_keeps hpath hbeside _).answers hsave).trans (hothers q hrecords)
  · obtain ⟨-, rfl⟩ := answers_pure_iff.1 hrest
    refine ⟨hheld, hsettled, fun q hq => hothers q (hq _ List.mem_cons_self), fun _ => Or.inr ?_⟩
    simp only [Bool.not_eq_true', List.isEmpty_eq_false_iff, not_or, not_not] at hwrites
    obtain ⟨u, hu, hname⟩ := List.mem_map.1 htype
    have hplace : p.config.recordsDirectory.join x.1.records.recordType ∈ p.recordPlaces :=
      hname ▸ List.mem_map_of_mem hu
    refine ⟨hwrites.1, hwrites.2, FileTree.read?_congr ?_⟩
    exact hothers x.1.path (htable.apart _ hplace).1.symm

/-- **Carrying out plans** makes the records of each table settle its rows, and leaves the records of
other types and all other files. -/
theorem holdsAll_applyAll {ctx : Cell.Context} {planned : List (TableWork × Plan)}
    {reports : List ExecutionReport} (hplanned : ∀ x ∈ planned, IsPlanned ctx x)
    (hstocked : ∀ x ∈ planned, p.IsStocked x.1.path x.1.records)
    (hdistinct : (planned.map (·.1.records.recordType)).Nodup)
    (h : HoldsAll rs p.typeNames Blocked f w.store)
    (hf : ∀ x ∈ planned, f x.1.records.recordType = x.1.records.records)
    (happly : (p.applyAll ctx planned).Answers w reports w') :
    ∃ f', HoldsAll rs p.typeNames Blocked f' w'.store ∧
      (∀ t, t ∉ planned.map (·.1.records.recordType) → f' t = f t) ∧
      (∀ x ∈ planned, Execution.AllSettled ctx x.1.records x.1.sheet.rows x.2
        (f' x.1.records.recordType)) ∧
      (∀ q, (∀ x ∈ planned, ∀ a ∈ p.placesOf x.1, a.Apart q) → w'.files.at? q = w.files.at? q) ∧
      ∀ x ∈ planned, (besideTable x.1.path).Apart x.1.path →
        (∀ y ∈ planned, y.1.records.recordType ≠ x.1.records.recordType →
          ∀ a ∈ p.placesOf y.1, a.Apart x.1.path) →
        LeavesTable x (w.files.read? x.1.path) (w'.files.read? x.1.path) := by
  induction planned generalizing w f reports with
  | nil =>
    obtain ⟨-, rfl⟩ := answers_pure_iff.1 happly
    exact ⟨f, h, fun _ _ => rfl, List.forall_mem_nil _, fun _ _ => rfl, List.forall_mem_nil _⟩
  | cons x planned ih =>
    obtain ⟨hplannedOne, hplanned⟩ := List.forall_mem_cons.1 hplanned
    obtain ⟨hstockedOne, hstocked⟩ := List.forall_mem_cons.1 hstocked
    obtain ⟨hnotMem, hdistinct⟩ := List.nodup_cons.1 hdistinct
    obtain ⟨hfOne, hf⟩ := List.forall_mem_cons.1 hf
    obtain ⟨report, w₁, reports', happly, hothers, -⟩ := applyAll_cons_answers.1 happly
    obtain ⟨settled, hheld, hsettled, hsame, htable⟩ :=
      holdsAll_applyOne hdirs hplannedOne hstockedOne h hfOne happly
    have hne (y : TableWork × Plan) (hy : y ∈ planned) :
        y.1.records.recordType ≠ x.1.records.recordType := fun heq =>
      hnotMem (List.mem_map.2 ⟨y, hy, heq⟩)
    obtain ⟨f', hf', hkept, hall, hsame', htables'⟩ := ih hplanned hstocked hdistinct hheld
      (fun y hy => (Function.update_of_ne (hne y hy) _ _).trans (hf y hy)) hothers
    refine ⟨f', hf', fun t ht => ?_, List.forall_mem_cons.2 ⟨?_, hall⟩, fun q hq => ?_,
      List.forall_mem_cons.2 ⟨fun hbeside hapart => ?_, fun y hy hbeside hapart => ?_⟩⟩
    · rw [List.map_cons, List.mem_cons, not_or] at ht
      rw [hkept t ht.2, Function.update_of_ne ht.1]
    · rw [hkept _ hnotMem, Function.update_self]
      exact hsettled
    · obtain ⟨hfirst, hlater⟩ := List.forall_mem_cons.1 hq
      rw [hsame' q hlater, hsame q hfirst]
    · -- the other plans leave the first table
      have hread : w'.files.read? x.1.path = w₁.files.read? x.1.path :=
        FileTree.read?_congr (hsame' _ fun y hy =>
          hapart y (List.mem_cons_of_mem _ hy) (hne y hy))
      rw [hread]
      exact htable hbeside
    · -- the first plan leaves the other tables
      have hread : w₁.files.read? y.1.path = w.files.read? y.1.path :=
        FileTree.read?_congr (hsame _ (hapart x List.mem_cons_self (hne y hy).symm))
      rw [← hread]
      exact htables' y hy hbeside fun z hz => hapart z (List.mem_cons_of_mem _ hz)

end Project

/-! ## Reading all records -/

namespace Project

variable {p : Project} {rs types : List String} {Blocked : Prop} {f : String → List Record}
  {c c' : Catalog} {w w' : Workspace}

/-! ### The sets of a catalog -/

/-- The set of a type that is not read is as before. -/
theorem setOf_of_loadTypes (h : (p.loadTypes types c).Answers w c' w') {recordType : String}
    (hother : recordType ∉ types) : c'.setOf recordType = c.setOf recordType := by
  induction types generalizing c w with
  | nil => rw [(answers_pure_iff.1 h).1]
  | cons name types ih =>
    obtain ⟨set, w₁, hset, hrest⟩ := answers_bind.1 h
    obtain ⟨t, hload, -⟩ := answers_within.1 (answers_mapError.1 hset)
    rw [List.mem_cons, not_or] at hother
    rw [ih hrest hother.2, Catalog.setOf_insertSet, recordType_of_load hload,
      if_neg (Ne.symm hother.1)]

theorem wellFormed_of_loadTypes (h : (p.loadTypes types c).Answers w c' w') (hkeyed : c.Keyed)
    (hsets : ∀ set ∈ NameMap.values c, set.WellFormed) :
    c'.Keyed ∧ ∀ set ∈ NameMap.values c', set.WellFormed := by
  induction types generalizing c w with
  | nil =>
    obtain ⟨rfl, -⟩ := answers_pure_iff.1 h
    exact ⟨hkeyed, hsets⟩
  | cons name types ih =>
    obtain ⟨set, w₁, hset, hrest⟩ := answers_bind.1 h
    obtain ⟨t, hload, -⟩ := answers_within.1 (answers_mapError.1 hset)
    refine ih hrest (hkeyed.insertSet set) fun set' hset' => ?_
    obtain ⟨e, he, rfl⟩ := List.mem_map.1 hset'
    rcases NameMap.mem_insertEntry he with rfl | he
    · exact wellFormed_of_load hload
    · exact hsets _ (List.mem_map_of_mem he)

/-- The sets of a catalog that was read are well formed, and each stands under its type. -/
theorem wellFormed_of_loadCatalog (h : p.loadCatalog.Answers w c w') :
    c.Keyed ∧ ∀ set ∈ NameMap.values c, set.WellFormed := by
  obtain ⟨_, w₁, -, hload⟩ := answers_bind.1 h
  exact wellFormed_of_loadTypes hload Catalog.keyed_empty fun set hset => nomatch hset

theorem setOf_of_loadCatalog (h : p.loadCatalog.Answers w c w') {recordType : String}
    (hother : recordType ∉ p.typeNames) : c.setOf recordType = .empty recordType := by
  obtain ⟨_, w₁, -, hload⟩ := answers_bind.1 h
  exact setOf_of_loadTypes hload hother

/-- Without types there is nothing to read. -/
theorem loadCatalog_of_no_types (h : p.registry.recordTypes = []) (w : Workspace) :
    p.loadCatalog.Answers w NameMap.empty { w with store.seen := [] } := by
  refine Answers.bind (answers_modify.2 rfl) ?_
  rw [h]
  exact answers_pure _ _

/-- There is a set for each type that was read. -/
theorem find?_of_loadTypes (h : (p.loadTypes types c).Answers w c' w') {name : String}
    (hname : name ∈ types ∨ (NameMap.find? c name).isSome) : (NameMap.find? c' name).isSome := by
  induction types generalizing c w with
  | nil =>
    rw [(answers_pure_iff.1 h).1]
    exact hname.resolve_left List.not_mem_nil
  | cons recordType types ih =>
    obtain ⟨set, w₁, hset, hrest⟩ := answers_bind.1 h
    obtain ⟨t, hload, -⟩ := answers_within.1 (answers_mapError.1 hset)
    refine ih hrest ?_
    by_cases hmem : name ∈ types
    · exact Or.inl hmem
    · right
      rw [Catalog.insertSet, NameMap.find?_insert, recordType_of_load hload]
      split_ifs with hsame
      · rfl
      · exact hname.resolve_left (List.not_mem_cons_of_ne_of_not_mem (Ne.symm hsame) hmem)

theorem setOf_mem_of_loadCatalog (h : p.loadCatalog.Answers w c w') {name : String}
    (hname : name ∈ p.typeNames) : c.setOf name ∈ NameMap.values c := by
  obtain ⟨_, w₁, -, hload⟩ := answers_bind.1 h
  exact Catalog.setOf_mem_values (find?_of_loadTypes hload (Or.inl hname))

/-! ### What a store holds after reading -/

variable (hdirs : p.HasRecordDirectories rs)

include hdirs

theorem holdsAll_of_loadTypes {done : List String} (hdone : ∀ name ∈ done, name ∈ p.typeNames)
    (htypes : ∀ name ∈ types, name ∈ p.typeNames) (hnodup : types.Nodup)
    (hnames : w.files.HasNames) (hordered : w.files.Ordered)
    (hfree : IsBlocked rs types w.files → Blocked)
    (hguids : ∀ name, ((c'.setOf name).records.map (·.guid)).Nodup)
    (hc : HoldsAll rs done Blocked (fun name => (c.setOf name).records) w.store)
    (h : (p.loadTypes types c).Answers w c' w') :
    HoldsAll rs (types ++ done) Blocked (fun name => (c'.setOf name).records) w'.store := by
  induction types generalizing c w done with
  | nil =>
    obtain ⟨rfl, rfl⟩ := answers_pure_iff.1 h
    exact hc
  | cons name types ih =>
    obtain ⟨hnotMem, hnodup⟩ := List.nodup_cons.1 hnodup
    obtain ⟨hname, htypes⟩ := List.forall_mem_cons.1 htypes
    obtain ⟨set, w₁, hset, hrest⟩ := answers_bind.1 h
    obtain ⟨t, hload, rfl⟩ := answers_within.1 (answers_mapError.1 hset)
    rw [hdirs.records] at hload
    have hfiles : t.files = w.files := (load_keeps _ _).answers hload
    -- the set is that of its type in the end
    have hlast : c'.setOf name = set := by
      rw [setOf_of_loadTypes hrest hnotMem, Catalog.setOf_insertSet, recordType_of_load hload,
        if_pos rfl]
    have hheld := hc.load hdirs.names (fun other hother => hdirs.types other (hdone other hother))
      (hdirs.types name hname) hload hnames hordered
      (fun hblocked => hfree (hblocked.mono fun _ h => List.mem_singleton.1 h ▸ List.mem_cons_self))
      (hlast ▸ hguids name)
    have hsets : Function.update (fun name => (c.setOf name).records) name set.records =
        fun other => ((c.insertSet set).setOf other).records := by
      funext other
      rw [Catalog.setOf_insertSet, recordType_of_load hload, Function.update_apply]
      by_cases hother : other = name
      · rw [if_pos hother, if_pos hother.symm]
      · rw [if_neg hother, if_neg (Ne.symm hother)]
    rw [hsets] at hheld
    rw [← hfiles] at hnames hordered hfree
    have hall := ih (w := { w with store := t }) (List.forall_mem_cons.2 ⟨hname, hdone⟩) htypes
      hnodup hnames hordered
      (fun hblocked => hfree (hblocked.mono fun _ h => List.mem_cons_of_mem _ h)) hheld hrest
    exact fun other hother => hall other (List.perm_middle.mem_iff.2 hother)

/-- **What is read as the catalog** is what the store holds then. -/
theorem holdsAll_of_loadCatalog (hnodup : p.typeNames.Nodup) (hnames : w.files.HasNames)
    (hordered : w.files.Ordered) (hfree : IsBlocked rs p.typeNames w.files → Blocked)
    (hdistinct : c.IsDistinct) (h : p.loadCatalog.Answers w c w') :
    HoldsAll rs p.typeNames Blocked (fun name => (c.setOf name).records) w'.store := by
  obtain ⟨⟨⟩, w₁, hforget, hload⟩ := answers_bind.1 h
  obtain rfl := answers_modify.1 hforget
  have hstart : HoldsAll rs [] Blocked (fun name => (Catalog.setOf NameMap.empty name).records)
      { w.store with seen := [] } := fun _ hname => nomatch hname
  have hall := holdsAll_of_loadTypes hdirs (List.forall_mem_nil _) (fun _ h => h) hnodup
    (w := { w with store.seen := [] }) hnames hordered hfree hdistinct.guids hstart hload
  exact fun name hname => hall name (List.mem_append_left _ hname)

/-! ### What is read of what a store holds -/

theorem exists_loadTypes (hp : p.HasOwnPlaces) {s : FileStore}
    (h : HoldsAll rs p.typeNames Blocked f s)
    (hguids : ∀ name ∈ p.typeNames, ((f name).map (·.guid)).Nodup)
    (htypes : ∀ name ∈ types, name ∈ p.typeNames) (hnodup : types.Nodup)
    (hsame : ∀ q ∈ p.recordPlaces, w.files.at? q = s.files.at? q) (c : Catalog) :
    ∃ c' w', (p.loadTypes types c).Answers w c' w' ∧ ∀ name ∈ types,
      ((c'.setOf name).records.map Record.quieted).Perm ((f name).map Record.quieted) := by
  induction types generalizing c w with
  | nil => exact ⟨c, w, answers_pure w c, List.forall_mem_nil _⟩
  | cons name types ih =>
    obtain ⟨hnotMem, hnodup⟩ := List.nodup_cons.1 hnodup
    obtain ⟨hname, htypes⟩ := List.forall_mem_cons.1 htypes
    have hplace := hdirs.recordPlace hname
    obtain ⟨ps, hps, hplain⟩ := hp.recordPlace hplace
    obtain ⟨set, s', hload, -, htype, hquieted, -⟩ :=
      ((h name hname).load_yields hdirs.names (hdirs.types name hname) (hguids name hname)).exists
    obtain ⟨t, hload⟩ : ∃ t, (FileStore.load (.inside rs) name).Answers w.store set t :=
      load_congr (Path.join_inside rs (hdirs.types name hname)) (Path.inside.inj hps ▸ hplain)
        (fun d hd => (h name hname).names.descend? (by
          rwa [FileTree.at?_inside _ (Path.inside.inj hps ▸ hplain)] at hd))
        (hsame _ hplace) hload
    -- loading changes no file, so the other types are found as before
    have hfiles : t.files = w.files := (load_keeps _ _).answers hload
    obtain ⟨c', w', hrest, hall⟩ := ih htypes hnodup (w := { w with store := t })
      (fun q hq => by
        show t.files.at? q = _
        rw [hfiles]
        exact hsame q hq) (c.insertSet set)
    refine ⟨c', w', Answers.bind (answers_mapError.2 (answers_within.2 ⟨t, ?_, rfl⟩)) hrest,
      List.forall_mem_cons.2 ⟨?_, hall⟩⟩
    · rw [hdirs.records]
      exact hload
    -- the types differ, so the set stays what was loaded
    · rw [setOf_of_loadTypes hrest hnotMem, Catalog.setOf_insertSet, if_pos htype]
      exact hquieted

/-- **What a store holds** is read as the catalog, also if there were changes beside the records. -/
theorem exists_loadCatalog (hp : p.HasOwnPlaces) (hnodup : p.typeNames.Nodup)
    (h : HoldsAll rs p.typeNames Blocked f w.store)
    (hguids : ∀ name ∈ p.typeNames, ((f name).map (·.guid)).Nodup)
    (hsame : ∀ q ∈ p.recordPlaces, w'.files.at? q = w.files.at? q) :
    ∃ c' w'', p.loadCatalog.Answers w' c' w'' ∧ ∀ name ∈ p.typeNames,
      ((c'.setOf name).records.map Record.quieted).Perm ((f name).map Record.quieted) := by
  obtain ⟨c', w'', hload, hall⟩ := exists_loadTypes hdirs hp h hguids (fun _ h => h) hnodup
    (w := { w' with store.seen := [] }) hsame NameMap.empty
  exact ⟨c', w'', Answers.bind (answers_modify.2 rfl) hload, hall⟩

end Project

end RecordTables
