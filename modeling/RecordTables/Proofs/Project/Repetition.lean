import RecordTables.Proofs.Project.Correspondence
import RecordTables.Proofs.Reconcile.Mirror
import RecordTables.Proofs.Sheet.Stamping

/-!
# One synchronization after another

A synchronization brings tables and records in line, so another one right after it finds nothing to
do (`Project.sync_again`), provided that cells can hold the GUIDs of the records.

A table is in line with its records if its rows mirror them (`Project.InLine`).  If all tables are,
and the data is that of the schema, a synchronization reads everything and writes nothing
(`Project.sync_of_inLine`).  What the first synchronization leaves is in line: the records stand for
the rows (`Project.IsOutcome`), and the table is read again with the same rows, each with the GUID of
its record (`Project.restates_of_leavesTable`).  Only what reading changes matters here: the rows get
the numbers of their new lines, the records come in the order of their files.
-/

namespace RecordTables

open Step FileStore Matcher

namespace Project

variable {p : Project} {rs : List String} {f : String → List Record} {c c' : Catalog}
  {s : Survey} {w w' : Workspace} {work : List TableWork}

/-! ### Nothing to do -/

/-- A table whose rows say what its records say, and records that are told apart by their GUIDs. -/
structure InLine (t : TableWork) : Prop where
  wellFormed : t.records.WellFormed
  guids : (t.records.records.map (·.guid)).Nodup
  mirrors : Mirrors t.records t.sheet.rows

/-- The report of a table for which nothing was done. -/
def idle (t : TableWork) : ExecutionReport := ⟨t.records.recordType, 0, 0, 0, 0, .upToDate⟩

/-- A plan to do nothing. -/
def rest (t : TableWork) : TableWork × Plan := (t, .empty t.records.recordType)

/-- Tables in line need no GUIDs, and there is nothing to do for them. -/
theorem planAll_of_inLine (supply : GuidSupply) (h : ∀ t ∈ work, InLine t) :
    planAll supply work = (work.map fun t => .empty t.records.recordType, [], supply) := by
  induction work with
  | nil => rfl
  | cons t work ih =>
    obtain ⟨ht, hothers⟩ := List.forall_mem_cons.1 h
    rw [planAll, reconcile_of_mirrors ht.wellFormed ht.guids ht.mirrors (fun _ => rfl) supply]
    dsimp only
    rw [ih hothers, List.map_cons]

theorem reconcileAll_of_inLine (w : Workspace) (h : ∀ t ∈ work, InLine t) :
    (reconcileAll work).Answers w (work.map rest) w := by
  unfold reconcileAll
  rw [answers_get_bind, planAll_of_inLine w.supply h]
  refine (answers_modify.2 rfl).bind ?_
  rw [if_pos List.isEmpty_nil]
  have hzip : work.zip (work.map fun t => Plan.empty t.records.recordType) = work.map rest := by
    have hself := List.zip_map' (f := id) (g := fun t => Plan.empty t.records.recordType)
      (l := work)
    rwa [List.map_id] at hself
  rw [hzip]
  exact answers_pure w _

theorem unreadableCells_rest (ctx : Cell.Context) (work : List TableWork) :
    unreadableCells ctx (work.map rest) = .ok [] := by
  induction work with
  | nil => rfl
  | cons t work ih => exact ih

/-- **Plans to do nothing** leave everything as it was. -/
theorem applyAll_rest (ctx : Cell.Context) (work : List TableWork) (w : Workspace) :
    (p.applyAll ctx (work.map rest)).Answers w (work.map idle) w := by
  induction work with
  | nil => exact answers_pure w []
  | cons t work ih =>
    have hrun : ((Workspace.onStore (Execution.apply ctx p.records (.empty t.records.recordType)
        t.sheet.rows t.records)).mapError ProjectError.execute).Answers w (idle t) w := rfl
    exact hrun.bind (Answers.bind ih (answers_pure w _))

theorem pending_idle (work : List TableWork) : pending [] (work.map idle) false = .upToDate := by
  have hfold : (work.map idle).foldl (fun s t => RegenState.merge s t.regen) .upToDate =
      .upToDate := by
    induction work with
    | nil => rfl
    | cons t work ih => exact ih
  exact hfold

/-- **A synchronization with nothing to do.**  It reads the records and the tables, and writes
nothing. -/
theorem sync_of_inLine (hactive : p.isCancelled = false) {w₁ : Workspace}
    (hcatalog : p.loadCatalog.Answers w c w₁)
    (hsheets : p.readSheets w.files (NameMap.values c) = .ok (work, []))
    (hwork : ∀ t ∈ work, InLine t) {m : Manifest}
    (hmanifest : Manifest.load w.files p.config.outputDirectory = .ok m)
    (hdata : m.checkpoints.data = some p.registry.fingerprint) :
    p.sync.Answers w ⟨work.map idle, [], .upToDate, none⟩ w₁ := by
  have hfiles : w₁.files = w.files := (loadCatalog_keeps p).answers hcatalog
  rw [← hfiles] at hsheets hmanifest
  -- the survey finds the tables and the plans that leave all as it is
  have hsurvey : p.survey.Answers w ⟨c, [], work.map rest⟩ w₁ := by
    refine hcatalog.bind ?_
    rw [answers_get_bind]
    refine (answers_ofExcept.2 ⟨hsheets, rfl⟩).bind ?_
    refine (checkpoint_of_active hactive _ w₁).bind ((reconcileAll_of_inLine w₁ hwork).bind ?_)
    refine (checkpoint_of_active hactive _ w₁).bind ?_
    refine (answers_ofExcept.2 ⟨unreadableCells_rest _ work, rfl⟩).bind ?_
    have hnone : (work.map rest).any (fun x => !x.2.actions.isEmpty) = false := by
      simp [rest, Plan.empty]
    rw [hnone]
    exact answers_pure w₁ _
  -- the data was made of this schema
  have hstale : p.dataIsStale.Answers w₁ false w₁ := by
    have hverified : (Checkpoints.verifyData p.registry.fingerprint m.checkpoints.data).isOk =
        true := by
      rw [hdata, Checkpoints.verifyData, if_pos rfl]
      rfl
    unfold dataIsStale manifest
    refine Answers.bind (answers_get_bind.2 (answers_ofExcept.2 ⟨hmanifest, rfl⟩)) ?_
    rw [hverified]
    exact answers_pure w₁ _
  -- then there is nothing to export, to apply or to emit
  rw [sync_eq]
  refine hsurvey.bind ?_
  refine (answers_pure w₁ []).bind ((applyAll_rest _ work w₁).bind (hstale.bind ?_))
  rw [pending_idle]
  exact answers_pure w₁ _

/-! ### What is read again -/

/-- The rows say the same as other rows, and have the GUIDs that were given for these. -/
structure Restates (guids : List (Option Guid)) (rows rows' : List Row) : Prop where
  length_eq : rows'.length = rows.length
  same : ∀ (i : Nat) (row row' : Row), rows[i]? = some row → rows'[i]? = some row' →
    row'.identifier = row.identifier ∧ row'.contentHash = row.contentHash ∧
      ∀ guid, guids[i]? = some (some guid) → row'.guid = some guid

/-- A stamped sheet says the same, with the GUIDs that were put into it. -/
theorem restates_of_isStampOf {s s' : Sheet} {guids : List (Option Guid)} (h : s'.IsStampOf s guids) :
    Restates guids s.rows s'.rows := by
  rw [h.rows]
  constructor
  case length_eq => rw [List.length_map, List.length_zipIdx]
  case same =>
    intro i row row' hrow hrow'
    rw [List.getElem?_map, List.getElem?_zipIdx, hrow] at hrow'
    obtain rfl := Option.some.inj hrow'
    refine ⟨rfl, rfl, fun guid hguid => ?_⟩
    dsimp only
    rw [Nat.zero_add, List.getD_eq_getElem?_getD, hguid, Option.getD_some, Option.some_or]

/-- A plan that does nothing gives each row the GUID that it has. -/
theorem restates_of_idle {plan : Plan} (hactions : plan.actions = []) (hbackfilled : plan.backfilled = [])
    (rows : List Row) : Restates (plan.rowGuids rows) rows rows := by
  refine ⟨rfl, fun i row row' hrow hrow' => ?_⟩
  obtain rfl := Option.some.inj (hrow.symm.trans hrow')
  refine ⟨rfl, rfl, fun guid hguid => ?_⟩
  have hguids : plan.rowGuids rows = rows.map (·.guid) := by
    rw [Plan.rowGuids, Plan.created, hactions, hbackfilled]
    rfl
  rw [hguids, List.getElem?_map, hrow] at hguid
  exact Option.some.inj hguid

/-- **Rows that are settled** say what their records say, when both are read again. -/
theorem mirrors_of_settled {ctx : Cell.Context} {records records' : RecordSet} {rows rows' : List Row}
    {plan : Plan} {settled : List Record} (hsettled : Execution.AllSettled ctx records rows plan settled)
    (hnamed : ∀ row ∈ rows, Text.isBlankText row.identifier = false)
    (hdistinct : (rows.map (·.identifier)).Nodup)
    (hread : (records'.records.map Record.quieted).Perm (settled.map Record.quieted))
    (hrows : Restates (plan.rowGuids rows) rows rows') : Mirrors records' rows' := by
  obtain ⟨hlength, hall⟩ := hsettled
  have hrow (i : Nat) (row' : Row) (hi : rows'[i]? = some row') : ∃ row, rows[i]? = some row :=
    ⟨_, List.getElem?_eq_getElem (hrows.length_eq ▸ (List.getElem?_eq_some_iff.1 hi).1)⟩
  have hidentifiers : rows'.map (·.identifier) = rows.map (·.identifier) := by
    refine List.ext_getElem? fun i => ?_
    rw [List.getElem?_map, List.getElem?_map]
    cases hi : rows'[i]? with
    | none =>
      rw [List.getElem?_eq_none (hrows.length_eq ▸ List.getElem?_eq_none_iff.1 hi)]
    | some row' =>
      obtain ⟨row, hi'⟩ := hrow i row' hi
      rw [hi', Option.map_some, Option.map_some, (hrows.same i row row' hi' hi).1]
  constructor
  case length_eq =>
    rw [← List.length_map (f := Record.quieted), hread.length_eq, List.length_map, hlength,
      hrows.length_eq]
  case named =>
    intro row' hrow'
    have hmem : row'.identifier ∈ rows.map (·.identifier) :=
      hidentifiers ▸ List.mem_map_of_mem hrow'
    obtain ⟨row, hrow, heq⟩ := List.mem_map.1 hmem
    rw [← heq]
    exact hnamed row hrow
  case distinct => rwa [hidentifiers]
  case paired =>
    intro row' hrow'
    obtain ⟨i, hi⟩ := List.getElem?_of_mem hrow'
    obtain ⟨row, hi'⟩ := hrow i row' hi
    obtain ⟨r, hr⟩ : ∃ r, settled[i]? = some r :=
      ⟨_, List.getElem?_eq_getElem (hlength ▸ (List.getElem?_eq_some_iff.1 hi').1)⟩
    have hstands := hall i row r hi' hr
    -- the record as it is read
    obtain ⟨r', hr', heq⟩ := List.mem_map.1
      (hread.symm.subset (List.mem_map_of_mem (List.mem_of_getElem? hr)))
    obtain ⟨hguid, hidentifier, -, hhash⟩ := Record.same_of_quieted heq
    obtain ⟨hidentifier', hhash', hguid'⟩ := hrows.same i row row' hi' hi
    refine ⟨r', hr', ?_, ?_, ?_⟩
    · rw [hguid]
      exact hguid' r.guid hstands.guid
    · rw [hidentifier, hstands.identifier, hidentifier']
    · rw [hhash, hstands.contentHash, hhash']

/-- **What is read from a table** after its plan was carried out are its rows, with their GUIDs. -/
theorem restates_of_leavesTable {x : TableWork × Plan} {files files' : FileTree} {content : List UInt8}
    (hidentifier : p.registry.identifierProperty ≠ Sheet.guidColumn)
    (hidentifier' : p.registry.identifierProperty ≠ Sheet.hashColumn)
    (hcontent : files.read? x.1.path = some content)
    (hsheet : Sheet.ofBytes p.registry x.1.records.recordType content = .ok x.1.sheet)
    (hmark : ∀ name ∈ x.1.sheet.header, '\uFEFF' ∉ name.toList)
    (hfits : ∀ guid, some guid ∈ x.2.rowGuids x.1.sheet.rows → Sheet.FitsCell guid)
    (h : LeavesTable x (files.read? x.1.path) (files'.read? x.1.path)) :
    ∃ content' sheet', files'.read? x.1.path = some content' ∧
      Sheet.ofBytes p.registry x.1.records.recordType content' = .ok sheet' ∧
      Restates (x.2.rowGuids x.1.sheet.rows) x.1.sheet.rows sheet'.rows := by
  rcases h with hwritten | ⟨hactions, hbackfilled, hkept⟩
  · obtain ⟨t, columns, ht, hfound, htidy, hlines⟩ := Sheet.tidy_of_ofBytes hsheet
    have hread : x.1.sheet.IsRead p.registry t columns := ⟨hfound, htidy, hlines⟩
    obtain ⟨_, hfront⟩ := hread.withGuidColumn hidentifier
    refine ⟨_, _, hwritten, hread.ofBytes_stamp ht hidentifier hidentifier' hmark hfits, ?_⟩
    exact restates_of_isStampOf (Sheet.isStampOf_renumbered _ fun l hl => (hfront.lines l hl).1.width_le)
  · exact ⟨content, x.1.sheet, hkept.trans hcontent, hsheet, restates_of_idle hactions hbackfilled _⟩

/-! ### A synchronization after another -/

/-- Every type has a table, whose columns have no byte-order mark in their names. -/
def HasTables (p : Project) (files : FileTree) : Prop :=
  ∀ name ∈ p.typeNames, ∃ content, files.read? (p.config.tablePath name) = some content ∧
    ∀ s, Sheet.ofBytes p.registry name content = .ok s →
      ∀ column ∈ s.header, '\uFEFF' ∉ column.toList

/-- The GUIDs of the records, and those to come, can be read back from cells. -/
structure HasCellGuids (c : Catalog) (supply : GuidSupply) : Prop where
  stored : ∀ set ∈ NameMap.values c, ∀ r ∈ set.records, Sheet.FitsCell r.guid
  supply : ∀ n, supply.used ≤ n → Sheet.FitsCell (supply.next n)

section Survey

variable {w₁ : Workspace} (hsurvey : p.IsSurvey w s w₁)

include hsurvey

/-- If every type has a table, none is missing. -/
theorem absent_of_hasTables (h : p.HasTables w.files) : s.absent = [] := by
  obtain ⟨w₂, hcatalog, -⟩ := hsurvey.catalog
  obtain ⟨work, hwork, -⟩ := hsurvey.sheets
  rw [List.eq_nil_iff_forall_not_mem]
  intro x hx
  have hset : x.2 ∈ NameMap.values s.catalog :=
    hsurvey.sets_perm.subset (List.mem_append_right _ (List.mem_map_of_mem hx))
  obtain ⟨t, ht, hname⟩ := recordType_of_loadCatalog hcatalog _ hset
  have htype : x.2.recordType ∈ p.typeNames := List.mem_map.2 ⟨t, ht, hname⟩
  obtain ⟨content, hread, -⟩ := h _ htype
  rw [← (path_of_readSheets hwork).2 x hx, (read?_of_readSheets hwork).2 x hx] at hread
  cases hread

/-- The rows that have a plan have names. -/
theorem named_of_isSurvey {x : TableWork × Plan} (hx : x ∈ s.planned) :
    ∀ row ∈ x.1.sheet.rows, Text.isBlankText row.identifier = false := by
  obtain ⟨work, -, _, _, -, hplanned⟩ := hsurvey.sheets
  obtain ⟨rest, rest', -, hplan⟩ := (planned_of_reconcileAll hplanned).2 x hx
  obtain ⟨-, hfaults, -⟩ := reconcile_eq_ok hplan
  exact fun row hrow => isBlankText_of_tableFaults hfaults hrow

/-- **The GUIDs of the rows** are those of records or new ones, so cells can hold them. -/
theorem fitsCell_of_isSurvey
    (hsets : ∀ set ∈ NameMap.values s.catalog, set.WellFormed ∧ w.supply.FreshFor set)
    (hcells : HasCellGuids s.catalog w.supply) {x : TableWork × Plan} (hx : x ∈ s.planned) :
    ∀ guid, some guid ∈ x.2.rowGuids x.1.sheet.rows → Sheet.FitsCell guid := by
  intro guid hguid
  obtain ⟨t, -, haccounts, -, -, hcreated⟩ := hsurvey.exists_accounts hsets hx
  rcases List.mem_append.1 (haccounts.some_mem_rowGuids.1 hguid) with hlinked | hnew
  · obtain ⟨l, hl, rfl⟩ := List.mem_map.1 hlinked
    refine hcells.stored _ (hsurvey.mem_values hx) l.record ?_
    exact haccounts.records_perm.subset (List.mem_append_left _ (List.mem_map_of_mem hl))
  · obtain ⟨e, he, rfl⟩ := List.mem_map.1 hnew
    obtain ⟨n, hn, hsupply⟩ := hcreated e he
    rw [hsupply]
    exact hcells.supply n hn

end Survey

/-- **A synchronization after another** does nothing: it reports no change, generates nothing, and
leaves all files as they are. -/
theorem sync_again {tools : Tools} {files : FileTree}
    (hload : ofFiles tools files = .ok p) (hlayout : p.HasDefaultLayout)
    (hnames : ∀ t ∈ p.registry.recordTypes, Path.IsName t.name)
    (hidentifier : p.registry.identifierProperty ≠ Sheet.guidColumn)
    (hidentifier' : p.registry.identifierProperty ≠ Sheet.hashColumn)
    (htree : w.files.HasNames) (hordered : w.files.Ordered) (htables : p.HasTables w.files)
    {w₁ : Workspace} (hcatalog : p.loadCatalog.Answers w c w₁) (hdistinct : c.IsDistinct)
    (hfresh : ∀ set ∈ NameMap.values c, w.supply.FreshFor set) (hcells : HasCellGuids c w.supply)
    {report : SyncReport} (hsync : p.sync.Answers w report w') :
    ∃ report' w'', p.sync.Answers w' report' w'' ∧
      (∀ t ∈ report'.tables, t.updated = 0 ∧ t.created = 0 ∧ t.deleted = 0 ∧ t.renamed = 0) ∧
      report'.exported = [] ∧ report'.regen = .upToDate ∧ report'.data = none ∧
      w''.files = w'.files := by
  have hown := hlayout.hasOwnTables hnames
  have hp := hown.toHasOwnPlaces
  have hdirs : p.HasRecordDirectories ["records"] :=
    ⟨hlayout.records, by decide, List.forall_mem_map.2 hnames⟩
  have hnodup : p.typeNames.Nodup :=
    (List.filter_sublist.map _).nodup (isSound_of_ofFiles hload).names
  obtain ⟨m, hmanifest, hdata⟩ := manifest_of_sync hp hsync
  rw [sync_eq] at hsync
  obtain ⟨s, w₂, hsurvey, hcarry⟩ := answers_bind.1 hsync
  have hs := isSurvey_of_answers hsurvey
  -- the survey is about this catalog
  obtain ⟨w₃, hcatalog', hstore⟩ := hs.catalog
  obtain ⟨hc, rfl⟩ := Prod.mk.inj (hcatalog.symm.trans hcatalog')
  obtain rfl : c = s.catalog := Except.ok.inj hc
  obtain ⟨hkeyed, hwell⟩ := wellFormed_of_loadCatalog hcatalog
  have hsets : ∀ set ∈ NameMap.values s.catalog, set.WellFormed ∧ w.supply.FreshFor set :=
    fun set hset => ⟨hwell set hset, hfresh set hset⟩
  have hplanned := hs.isPlanned hkeyed hdistinct hsets
  have hheld :=
    holdsAll_of_loadCatalog hdirs hnodup htree hordered (fun _ => trivial) hdistinct hcatalog
  rw [← hstore] at hheld
  -- what the first one leaves
  obtain ⟨f, w₄, hheld', houtcome, hsame, hleaves⟩ := exists_outcome hs hkeyed hdistinct hplanned hp
    (hasCleanPaths_of_ofFiles hload) hdirs hheld hcarry
  have hguids (name : String) : ((f name).map (·.guid)).Nodup :=
    nodup_guids_of_isOutcome hs hkeyed hdistinct hplanned houtcome name
  have habsent := absent_of_hasTables hs htables
  have hfiles : w₂.files = w.files := (survey_keeps p).answers hsurvey
  obtain ⟨c', w₅, hcatalog'', hread⟩ :=
    exists_loadCatalog hdirs hp hnodup hheld' (fun name _ => hguids name) hsame
  obtain ⟨hkeyed', hwell'⟩ := wellFormed_of_loadCatalog hcatalog''
  -- so its tables are in line with its records
  obtain ⟨work, hsheets, hwork⟩ : ∃ work,
      p.readSheets w'.files (NameMap.values c') = .ok (work, []) ∧ ∀ t ∈ work, InLine t := by
    refine readSheets_of_tables fun set hset => ?_
    obtain ⟨t, ht, hname⟩ := recordType_of_loadCatalog hcatalog'' set hset
    have htype : set.recordType ∈ p.typeNames := hname ▸ List.mem_map_of_mem ht
    have hperm := hread _ htype
    rw [hkeyed'.setOf_of_mem hset] at hperm
    -- the plan for the table
    obtain ⟨x, hx, hsameType⟩ := exists_planned hs hkeyed habsent htype
    obtain ⟨tables, htablesRead, _, _, -, hreconciled⟩ := hs.sheets
    have hpath := (path_of_readSheets htablesRead).1 _ (mem_of_reconcileAll hreconciled x hx)
    obtain ⟨content, hcontent, hsheet⟩ :=
      (read?_of_readSheets htablesRead).1 _ (mem_of_reconcileAll hreconciled x hx)
    have hmark : ∀ column ∈ x.1.sheet.header, '\uFEFF' ∉ column.toList := by
      obtain ⟨content', hcontent', hmarks⟩ := htables _ (hsameType ▸ htype)
      rw [← hpath, hcontent] at hcontent'
      exact hmarks _ (Option.some.inj hcontent' ▸ hsheet)
    rw [← hfiles] at hcontent
    obtain ⟨content', sheet', hcontent', hsheet', hrestates⟩ :=
      restates_of_leavesTable hidentifier hidentifier' hcontent hsheet hmark
        (fitsCell_of_isSurvey hs hsets hcells hx) (hleaves hown habsent x hx)
    rw [← hsameType, ← hpath]
    refine ⟨content', sheet', hcontent', hsheet', hwell' set hset, ?_, ?_⟩
    · have hsameGuids := hperm.map (·.guid)
      rw [Record.map_guid_quieted, Record.map_guid_quieted] at hsameGuids
      exact hsameGuids.nodup_iff.2 (hguids set.recordType)
    · obtain ⟨⟨_, hsettles, -⟩, -⟩ := hplanned x hx
      exact mirrors_of_settled (houtcome.settled x hx) (named_of_isSurvey hs hx)
        hsettles.identifiers_nodup (hsameType ▸ hperm) hrestates
  have hactive := (isLoaded_of_ofFiles hload).active
  refine ⟨_, w₅, sync_of_inLine hactive hcatalog'' hsheets hwork hmanifest hdata,
    List.forall_mem_map.2 fun t _ => ⟨rfl, rfl, rfl, rfl⟩, rfl, rfl, rfl, ?_⟩
  exact (loadCatalog_keeps p).answers hcatalog''

/-! ### Coins, synchronized twice -/

/-- The GUIDs to come of the coins can be read back. -/
theorem fitsCell_unarySupply (n : Nat) : Sheet.FitsCell (Execution.unarySupply.next n) := by
  have htext : (Execution.unarySupply.next n).text.toList = List.replicate (n + 1) 'n' :=
    String.toList_ofList
  refine Sheet.fitsCell_of_not_isBlank (fun hempty => ?_) fun c hc => ?_
  · rw [hempty] at htext
    cases htext
  · rw [htext] at hc
    rw [List.eq_of_mem_replicate hc]
    decide

theorem hasDefaultLayout_coinProject : coinProject.HasDefaultLayout := ⟨rfl, rfl, rfl⟩

theorem hasTables_coins : coinProject.HasTables freshCoins.files := by
  have htable : (freshCoins.files.read? (coinProject.config.tablePath "Item")).any (fun content =>
      (Sheet.ofBytes coinProject.registry "Item" content).toOption.any fun s =>
        s.header.all fun column => !column.toList.contains '\uFEFF') = true := by decide +kernel
  obtain ⟨content, hcontent, htable⟩ := (Option.any_eq_true _ _).1 htable
  obtain ⟨sheet, hsheet, hmark⟩ := (Option.any_eq_true _ _).1 htable
  intro name hname
  obtain rfl : name = "Item" := List.mem_singleton.1 hname
  refine ⟨content, hcontent, fun s hs column hcolumn => ?_⟩
  rw [hs] at hsheet
  obtain rfl := Option.some.inj hsheet
  simpa using List.all_eq_true.1 hmark column hcolumn

/-- A second synchronization of the coins does nothing. -/
theorem sync_again_coins :
    ∃ c w₁ report w', ofFiles .atHand coinFiles = .ok coinProject ∧ coinProject.HasDefaultLayout ∧
      (∀ t ∈ coinProject.registry.recordTypes, Path.IsName t.name) ∧
      coinProject.registry.identifierProperty ≠ Sheet.guidColumn ∧
      coinProject.registry.identifierProperty ≠ Sheet.hashColumn ∧
      freshCoins.files.HasNames ∧ freshCoins.files.Ordered ∧
      coinProject.HasTables freshCoins.files ∧
      coinProject.loadCatalog.Answers freshCoins c w₁ ∧ c.IsDistinct ∧
      (∀ set ∈ NameMap.values c, freshCoins.supply.FreshFor set) ∧
      HasCellGuids c freshCoins.supply ∧ coinProject.sync.Answers freshCoins report w' ∧
      (report.tables.map (·.created) = [1]) ∧
      ∃ report' w'', coinProject.sync.Answers w' report' w'' ∧
        (∀ t ∈ report'.tables, t.updated = 0 ∧ t.created = 0 ∧ t.deleted = 0 ∧ t.renamed = 0) ∧
        report'.exported = [] ∧ report'.regen = .upToDate ∧ report'.data = none ∧
        w''.files = w'.files := by
  have hnames : ∀ t ∈ coinProject.registry.recordTypes, Path.IsName t.name := by decide
  have hidentifier : coinProject.registry.identifierProperty ≠ Sheet.guidColumn := by decide
  have hidentifier' : coinProject.registry.identifierProperty ≠ Sheet.hashColumn := by decide
  obtain ⟨c, w₁, hloaded, hnone⟩ := exists_loadCatalog_freshCoins
  -- the first synchronization stores the coin, the second has nothing to do
  have hsync : (coinProject.sync.outcome freshCoins).1.toOption.map
      (fun report => report.tables.map (·.created)) = some [1] := by decide +kernel
  obtain ⟨report, hsync, hcreated⟩ := Option.map_eq_some_iff.1 hsync
  have hdistinct := isDistinct_of_no_records hnone
  have hfresh := freshFor_freshCoins hnone
  have hcells : HasCellGuids c freshCoins.supply :=
    ⟨fun set hset r hr => absurd (hnone set hset ▸ hr) List.not_mem_nil,
      fun n _ => fitsCell_unarySupply n⟩
  have hsynced : coinProject.sync.Answers freshCoins report _ :=
    Prod.ext (toOption_eq_some.1 hsync) rfl
  exact ⟨c, w₁, report, _, ofFiles_coinFiles, hasDefaultLayout_coinProject, hnames, hidentifier,
    hidentifier', hasNames_freshCoins, ordered_freshCoins, hasTables_coins, hloaded, hdistinct,
    hfresh, hcells, hsynced, hcreated,
    sync_again ofFiles_coinFiles hasDefaultLayout_coinProject hnames hidentifier hidentifier'
      hasNames_freshCoins ordered_freshCoins hasTables_coins hloaded hdistinct hfresh hcells
      hsynced⟩

end Project

end RecordTables
