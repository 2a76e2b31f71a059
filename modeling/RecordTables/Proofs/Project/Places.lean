import RecordTables.Project.Sync
import RecordTables.Proofs.Outcome
import RecordTables.Proofs.Project.Artifacts
import RecordTables.Proofs.Project.ManifestFile
import RecordTables.Proofs.Store.Files

/-!
# The places of a project

A project has its records, its tables and its generated files at places of its configuration.  If
these are apart from each other (`Project.HasOwnPlaces`), writing a table leaves the records and the
generated files as they were (`Project.saveSheet_keeps`), and generating data leaves all but the
generated files (`Project.emitData_answers`).  What is read from the records and from the manifest
only depends on their places (`Project.loadCatalog_congr`, `Manifest.load_congr`).
-/

namespace RecordTables

open Step

namespace Project

variable {p : Project} {w w' : Workspace} {q : Path}

/-! ### Places -/

/-- The names of the record types. -/
def typeNames (p : Project) : List String := p.registry.recordTypes.map (·.name)

/-- The directories of the records, one for each record type. -/
def recordPlaces (p : Project) : List Path :=
  p.registry.recordTypes.map fun t => p.config.recordsDirectory.join t.name

/-- Where a table is written before it is moved to its path. -/
def besideTable (path : Path) : Path := path.withName (path.stem ++ ".tsv.tmp")

/-- The files that writing the tables touches. -/
def tablePlaces (p : Project) : List Path :=
  p.registry.recordTypes.flatMap fun t =>
    [p.config.tablePath t.name, besideTable (p.config.tablePath t.name)]

/-- The container. -/
def dataPath (p : Project) : Path := p.config.outputDirectory.join dataFile

/-- The manifest. -/
def manifestPath (p : Project) : Path := p.config.outputDirectory.join Manifest.fileName

/-- What generating data touches. -/
def outputPlaces (p : Project) : List Path :=
  [Artifacts.stagingFor p.config.outputDirectory, p.dataPath, p.manifestPath]

/-- The generated files are in a directory of the project, and nothing is written in the place of
something else. -/
structure HasOwnPlaces (p : Project) : Prop where
  output : ∃ ps, p.config.outputDirectory = .inside ps ∧ ".." ∉ ps
  tables : ∀ a ∈ p.tablePlaces, ∀ b ∈ p.dataPath :: p.manifestPath :: p.recordPlaces, a.Apart b
  records : ∀ a ∈ p.outputPlaces, ∀ b ∈ p.recordPlaces, a.Apart b

/-- Moreover, nothing that is written for one table, or generated, is in the place of another. -/
structure HasOwnTables (p : Project) : Prop extends p.HasOwnPlaces where
  beside : ∀ name ∈ p.typeNames,
    (besideTable (p.config.tablePath name)).Apart (p.config.tablePath name)
  others : ∀ name ∈ p.typeNames, ∀ other ∈ p.typeNames, other ≠ name →
    ∀ a ∈ [p.config.recordsDirectory.join other, p.config.tablePath other,
      besideTable (p.config.tablePath other)], a.Apart (p.config.tablePath name)
  generated : ∀ name ∈ p.typeNames, ∀ a ∈ p.outputPlaces, a.Apart (p.config.tablePath name)

theorem isFileName_dataFile : Artifacts.IsFileName dataFile := by decide

theorem isName_dataFile : Path.IsName dataFile := isFileName_dataFile.1

/-- The directories of records are below the project directory. -/
theorem HasOwnPlaces.recordPlace (hp : p.HasOwnPlaces) (hq : q ∈ p.recordPlaces) :
    ∃ ps, q = .inside ps ∧ ".." ∉ ps := by
  exact (hp.records p.dataPath (by simp [outputPlaces]) q hq).exists_inside

/-! ### The default directories -/

/-- Tables, records and generated files are in the directories that a configuration has by default.
-/
structure HasDefaultLayout (p : Project) : Prop where
  tables : p.config.tablesDirectory = .inside ["tables"]
  records : p.config.recordsDirectory = .inside ["records"]
  output : p.config.outputDirectory = .inside ["generated"]

section DefaultLayout

variable {name : String}

theorem isName_table (hname : Path.IsName name) : Path.IsName (name ++ ".tsv") :=
  Path.isName_append hname (by decide) (by decide)

theorem isName_besideTable (hname : Path.IsName name) : Path.IsName (name ++ ".tsv.tmp") :=
  Path.isName_append hname (by decide) (by decide)

/-- A table is not called like the file beside one. -/
theorem append_tmp_ne (name other : String) : name ++ ".tsv.tmp" ≠ other ++ ".tsv" := by
  intro h
  have hlast := congrArg (fun text => text.toList.getLast?) h
  rw [String.toList_append, String.toList_append] at hlast
  simp at hlast

namespace HasDefaultLayout

variable (h : p.HasDefaultLayout)

include h

theorem tablePath (hname : Path.IsName name) :
    p.config.tablePath name = .inside ["tables", name ++ ".tsv"] := by
  unfold ProjectConfig.tablePath
  rw [h.tables, Path.join_inside _ (isName_table hname)]
  rfl

theorem besideTable (hname : Path.IsName name) :
    besideTable (p.config.tablePath name) = .inside ["tables", name ++ ".tsv.tmp"] := by
  have hsplit : Path.splitName (name ++ ".tsv") = (name, some "tsv") := by
    have htext : name ++ ".tsv" = name ++ "." ++ "tsv" := by
      rw [String.append_assoc]
      rfl
    rw [htext]
    exact Path.splitName_append hname.ne_empty (by decide)
  have hstem : (p.config.tablePath name).stem = name := by
    unfold Path.stem ProjectConfig.tablePath
    rw [Path.name_join _ (isName_table hname), hsplit]
  unfold Project.besideTable
  rw [hstem, h.tablePath hname]
  rfl

theorem recordPlace (hname : Path.IsName name) :
    p.config.recordsDirectory.join name = .inside ["records", name] := by
  rw [h.records, Path.join_inside _ hname]
  rfl

theorem dataPath : p.dataPath = .inside ["generated", "params.bin"] := by
  unfold Project.dataPath
  rw [h.output]
  decide

theorem manifestPath : p.manifestPath = .inside ["generated", "manifest.ron"] := by
  unfold Project.manifestPath
  rw [h.output]
  decide

theorem outputPlaces : p.outputPlaces =
    [.inside [".generated.staging"], .inside ["generated", "params.bin"],
      .inside ["generated", "manifest.ron"]] := by
  unfold Project.outputPlaces
  rw [h.output, h.dataPath, h.manifestPath]
  decide

/-- What stands in a directory of its own is apart from a table and from the file beside it. -/
theorem table_apart (hname : Path.IsName name) {top : String} {ps : List String}
    (hplain : ".." ∉ top :: ps) (hother : top ≠ "tables") :
    (p.config.tablePath name).Apart (.inside (top :: ps)) ∧
      (Project.besideTable (p.config.tablePath name)).Apart (.inside (top :: ps)) := by
  rw [h.besideTable hname, h.tablePath hname]
  exact ⟨Path.apart_of_head_ne (Path.plain_pair (by decide) (isName_table hname)) hplain hother.symm,
    Path.apart_of_head_ne (Path.plain_pair (by decide) (isName_besideTable hname)) hplain
      hother.symm⟩

/-- The default directories are apart. -/
theorem hasOwnPlaces (hnames : ∀ t ∈ p.registry.recordTypes, Path.IsName t.name) :
    p.HasOwnPlaces := by
  have hrecords : ∀ b ∈ p.recordPlaces, ∃ name, Path.IsName name ∧ b = .inside ["records", name] := by
    intro b hb
    obtain ⟨t, ht, rfl⟩ := List.mem_map.1 hb
    exact ⟨t.name, hnames t ht, h.recordPlace (hnames t ht)⟩
  constructor
  case output => exact ⟨_, h.output, by decide⟩
  case tables =>
    intro a ha
    obtain ⟨t, ht, ha⟩ := List.mem_flatMap.1 ha
    -- the tables and what is written beside them have a directory of their own
    have hrest (top : String) (ps : List String) (hplain : ".." ∉ top :: ps)
        (hother : top ≠ "tables") : a.Apart (.inside (top :: ps)) := by
      obtain ⟨hpath, hbeside⟩ := h.table_apart (hnames t ht) hplain hother
      rcases List.mem_cons.1 ha with rfl | ha
      · exact hpath
      · rwa [List.mem_singleton.1 ha]
    rw [h.dataPath, h.manifestPath, List.forall_mem_cons, List.forall_mem_cons]
    refine ⟨hrest _ _ (by decide) (by decide), hrest _ _ (by decide) (by decide), fun b hb => ?_⟩
    obtain ⟨name, hname, rfl⟩ := hrecords b hb
    exact hrest _ _ (Path.plain_pair (by decide) hname) (by decide)
  case records =>
    intro a ha b hb
    obtain ⟨name, hname, rfl⟩ := hrecords b hb
    have hplain : ".." ∉ ["records", name] := Path.plain_pair (by decide) hname
    rw [h.outputPlaces] at ha
    simp only [List.mem_cons, List.not_mem_nil, or_false] at ha
    rcases ha with rfl | rfl | rfl
    all_goals exact Path.apart_of_head_ne (by decide) hplain (by decide)

/-- **In the default directories** everything is in a place of its own. -/
theorem hasOwnTables (hnames : ∀ t ∈ p.registry.recordTypes, Path.IsName t.name) :
    p.HasOwnTables := by
  have hname : ∀ name ∈ p.typeNames, Path.IsName name := List.forall_mem_map.2 hnames
  have htables : ".." ∉ ["tables"] := by decide
  constructor
  case toHasOwnPlaces => exact h.hasOwnPlaces hnames
  case beside =>
    intro name hmem
    rw [h.besideTable (hname name hmem), h.tablePath (hname name hmem)]
    exact Path.apart_of_ne htables (isName_besideTable (hname name hmem))
      (isName_table (hname name hmem)) (append_tmp_ne name name)
  case others =>
    intro name hmem other hmem' hne
    have hother := hname other hmem'
    have htable := isName_table (hname name hmem)
    simp only [List.forall_mem_cons, List.not_mem_nil, false_implies, implies_true, and_true]
    rw [h.recordPlace hother, h.besideTable hother, h.tablePath hother,
      h.tablePath (hname name hmem)]
    -- the record directories are elsewhere, and no two tables have one name
    refine ⟨?_, ?_, ?_⟩
    · exact Path.apart_of_head_ne (Path.plain_pair (by decide) hother)
        (Path.plain_pair (by decide) htable) (by decide)
    · exact Path.apart_of_ne htables (isName_table hother) htable fun heq =>
        hne (String.append_left_inj _ |>.1 heq)
    · exact Path.apart_of_ne htables (isName_besideTable hother) htable (append_tmp_ne other name)
  case generated =>
    intro name hmem
    have hplain : ".." ∉ ["tables", name ++ ".tsv"] :=
      Path.plain_pair (by decide) (isName_table (hname name hmem))
    rw [h.outputPlaces, h.tablePath (hname name hmem)]
    simp only [List.forall_mem_cons, List.not_mem_nil, false_implies, implies_true, and_true]
    refine ⟨?_, ?_, ?_⟩
    all_goals exact Path.apart_of_head_ne (by decide) hplain (by decide)

end HasDefaultLayout

end DefaultLayout

/-! ### What is read -/

/-- What stands at the places of the records has names. -/
def RecordsNamed (p : Project) (files : FileTree) : Prop :=
  ∀ q ∈ p.recordPlaces, ∀ d, files.at? q = some d → d.HasNames

theorem recordsNamed_of_hasNames (hp : p.HasOwnPlaces) {files : FileTree} (h : files.HasNames) :
    p.RecordsNamed files := by
  intro q hq d hd
  obtain ⟨ps, rfl, hps⟩ := hp.recordPlace hq
  rw [FileTree.at?_inside files hps] at hd
  exact h.descend? hd

theorem loadTypes_congr (hp : p.HasOwnPlaces) {types : List String} {c c' : Catalog}
    {u : Workspace} (htypes : ∀ name ∈ types, p.config.recordsDirectory.join name ∈ p.recordPlaces)
    (hnames : p.RecordsNamed w.files)
    (hsame : ∀ q ∈ p.recordPlaces, w'.files.at? q = w.files.at? q)
    (h : (p.loadTypes types c).Answers w c' u) : ∃ u', (p.loadTypes types c).Answers w' c' u' := by
  induction types generalizing c w w' with
  | nil =>
    obtain ⟨rfl, -⟩ := answers_pure_iff.1 h
    exact ⟨w', answers_pure w' c'⟩
  | cons recordType types ih =>
    obtain ⟨set, w₁, hset, hrest⟩ := answers_bind.1 h
    have hplace := htypes recordType List.mem_cons_self
    obtain ⟨ps, hdirectory, hps⟩ := hp.recordPlace hplace
    obtain ⟨t, hload, rfl⟩ := answers_within.1 (answers_mapError.1 hset)
    rw [hdirectory] at hplace
    obtain ⟨t', hload'⟩ : ∃ t', (FileStore.load _ recordType).Answers w'.store set t' :=
      FileStore.load_congr hdirectory hps (hnames _ hplace) (hsame _ hplace) hload
    have hfiles : t.files = w.files := (FileStore.load_keeps _ _).answers hload
    have hfiles' : t'.files = w'.files := (FileStore.load_keeps _ _).answers hload'
    -- loading one type leaves the files, so the other types are found as before
    have hothers : ∃ u', (p.loadTypes types (c.insertSet set)).Answers { w' with store := t' }
        c' u' := by
      refine ih (w := { w with store := t }) (fun name hname => ?_) (fun q hq => ?_)
        (fun q hq => ?_) hrest
      · exact htypes name (List.mem_cons_of_mem _ hname)
      · show ∀ d, t.files.at? q = some d → d.HasNames
        rw [hfiles]
        exact hnames q hq
      · show t'.files.at? q = t.files.at? q
        rw [hfiles, hfiles']
        exact hsame q hq
    obtain ⟨u', hu'⟩ := hothers
    exact ⟨u', (answers_mapError.2 (answers_within.2 ⟨t', hload', rfl⟩)).bind hu'⟩

/-- **The records that are read** depend on what stands at their places. -/
theorem loadCatalog_congr (hp : p.HasOwnPlaces) {c : Catalog} {u : Workspace}
    (hnames : p.RecordsNamed w.files)
    (hsame : ∀ q ∈ p.recordPlaces, w'.files.at? q = w.files.at? q)
    (h : p.loadCatalog.Answers w c u) : ∃ u', p.loadCatalog.Answers w' c u' := by
  obtain ⟨⟨⟩, w₁, hmodify, hload⟩ := answers_bind.1 h
  obtain rfl := answers_modify.1 hmodify
  have htypes : ∀ name ∈ p.registry.recordTypes.map (·.name),
      p.config.recordsDirectory.join name ∈ p.recordPlaces := by
    intro name hname
    obtain ⟨t, ht, rfl⟩ := List.mem_map.1 hname
    exact List.mem_map_of_mem ht
  obtain ⟨u', hu'⟩ : ∃ u', (p.loadTypes _ _).Answers { w' with store.seen := [] } c u' :=
    loadTypes_congr (w := { w with store.seen := [] }) hp htypes hnames hsame hload
  exact ⟨u', (answers_modify.2 rfl).bind hu'⟩

/-! ### The record types of a catalog -/

theorem recordType_of_loadTypes {types : List String} {c c' : Catalog}
    (h : (p.loadTypes types c).Answers w c' w') :
    ∀ set ∈ NameMap.values c', set ∈ NameMap.values c ∨ set.recordType ∈ types := by
  induction types generalizing c w with
  | nil =>
    obtain ⟨rfl, -⟩ := answers_pure_iff.1 h
    exact fun set hset => Or.inl hset
  | cons recordType types ih =>
    obtain ⟨set, w₁, hset, hrest⟩ := answers_bind.1 h
    obtain ⟨t, hload, -⟩ := answers_within.1 (answers_mapError.1 hset)
    intro set' hset'
    rcases ih hrest set' hset' with hold | hnew
    · obtain ⟨e, he, rfl⟩ := List.mem_map.1 hold
      rcases NameMap.mem_insertEntry he with rfl | he
      · right
        rw [FileStore.recordType_of_load hload]
        exact List.mem_cons_self
      · exact Or.inl (List.mem_map_of_mem he)
    · exact Or.inr (List.mem_cons_of_mem _ hnew)

/-- A catalog that was read holds sets of record types. -/
theorem recordType_of_loadCatalog {c : Catalog} (h : p.loadCatalog.Answers w c w') :
    ∀ set ∈ NameMap.values c, ∃ t ∈ p.registry.recordTypes, t.name = set.recordType := by
  obtain ⟨_, w₁, -, hload⟩ := answers_bind.1 h
  intro set hset
  rcases recordType_of_loadTypes hload set hset with hnone | hmem
  · cases hnone
  · obtain ⟨t, ht, hname⟩ := List.mem_map.1 hmem
    exact ⟨t, ht, hname⟩

/-- Every record set has a table, or is one without. -/
theorem sets_of_readSheets {files : FileTree} {sets : List RecordSet} {work : List TableWork}
    {absent : List (Path × RecordSet)} (h : p.readSheets files sets = .ok (work, absent)) :
    (work.map (·.records) ++ absent.map (·.2)).Perm sets := by
  induction sets generalizing work absent with
  | nil =>
    cases h
    exact List.Perm.refl _
  | cons set sets ih =>
    unfold readSheets at h
    dsimp only at h
    split at h
    · obtain ⟨sheet, -, h⟩ := bind_eq_ok.1 h
      obtain ⟨⟨others, absent'⟩, hothers, h⟩ := bind_eq_ok.1 h
      cases h
      exact (ih hothers).cons set
    · obtain ⟨⟨others, absent'⟩, hothers, h⟩ := bind_eq_ok.1 h
      cases h
      exact List.perm_middle.trans ((ih hothers).cons set)

/-- The table of a record set is at the path for its type. -/
theorem path_of_readSheets {files : FileTree} {sets : List RecordSet} {work : List TableWork}
    {absent : List (Path × RecordSet)} (h : p.readSheets files sets = .ok (work, absent)) :
    (∀ e ∈ work, e.path = p.config.tablePath e.records.recordType) ∧
      ∀ e ∈ absent, e.1 = p.config.tablePath e.2.recordType := by
  induction sets generalizing work absent with
  | nil =>
    cases h
    exact ⟨List.forall_mem_nil _, List.forall_mem_nil _⟩
  | cons set sets ih =>
    unfold readSheets at h
    dsimp only at h
    split at h
    · obtain ⟨sheet, -, h⟩ := bind_eq_ok.1 h
      obtain ⟨⟨others, absent'⟩, hothers, h⟩ := bind_eq_ok.1 h
      cases h
      exact (ih hothers).imp_left fun hwork => List.forall_mem_cons.2 ⟨rfl, hwork⟩
    · obtain ⟨⟨others, absent'⟩, hothers, h⟩ := bind_eq_ok.1 h
      cases h
      exact (ih hothers).imp_right fun habsent => List.forall_mem_cons.2 ⟨rfl, habsent⟩

/-- Each sheet is that of the file at the path of its table, and where there is no table there is no
file. -/
theorem read?_of_readSheets {files : FileTree} {sets : List RecordSet} {work : List TableWork}
    {absent : List (Path × RecordSet)} (h : p.readSheets files sets = .ok (work, absent)) :
    (∀ e ∈ work, ∃ content, files.read? e.path = some content ∧
      Sheet.ofBytes p.registry e.records.recordType content = .ok e.sheet) ∧
      ∀ e ∈ absent, files.read? e.1 = none := by
  induction sets generalizing work absent with
  | nil =>
    cases h
    exact ⟨List.forall_mem_nil _, List.forall_mem_nil _⟩
  | cons set sets ih =>
    unfold readSheets at h
    dsimp only at h
    split at h
    · next content hat =>
      obtain ⟨sheet, hsheet, h⟩ := bind_eq_ok.1 h
      obtain ⟨⟨others, absent'⟩, hothers, h⟩ := bind_eq_ok.1 h
      cases h
      refine (ih hothers).imp_left fun hwork => List.forall_mem_cons.2 ⟨⟨content, ?_, hsheet⟩, hwork⟩
      exact FileTree.read?_eq_some_iff.2 hat
    -- a table that is not there has no content
    · next hnone =>
      obtain ⟨⟨others, absent'⟩, hothers, h⟩ := bind_eq_ok.1 h
      cases h
      refine (ih hothers).imp_right fun habsent => List.forall_mem_cons.2 ⟨?_, habsent⟩
      rw [← Option.not_isSome_iff_eq_none, Option.isSome_iff_exists]
      rintro ⟨content, hread⟩
      exact hnone content (FileTree.read?_eq_some_iff.1 hread)

/-- If every record set has a table, all of them are read. -/
theorem readSheets_of_tables {files : FileTree} {sets : List RecordSet} {P : TableWork → Prop}
    (h : ∀ set ∈ sets, ∃ content sheet,
      files.read? (p.config.tablePath set.recordType) = some content ∧
      Sheet.ofBytes p.registry set.recordType content = .ok sheet ∧
      P ⟨p.config.tablePath set.recordType, sheet, set⟩) :
    ∃ work, p.readSheets files sets = .ok (work, []) ∧ ∀ t ∈ work, P t := by
  induction sets with
  | nil => exact ⟨[], rfl, List.forall_mem_nil _⟩
  | cons set sets ih =>
    obtain ⟨⟨content, sheet, hread, hsheet, hset⟩, hothers⟩ := List.forall_mem_cons.1 h
    obtain ⟨work, hwork, hall⟩ := ih hothers
    refine ⟨⟨_, sheet, set⟩ :: work, ?_, List.forall_mem_cons.2 ⟨hset, hall⟩⟩
    unfold readSheets
    dsimp only
    rw [FileTree.read?_eq_some_iff.1 hread]
    dsimp only
    rw [hsheet, hwork]
    rfl

/-- The tables that a survey is about are those of record types. -/
theorem path_of_isSurvey {s : Survey} (h : p.IsSurvey w s w') {x : TableWork × Plan}
    (hx : x ∈ s.planned) : x.1.path ∈ p.tablePlaces ∧ besideTable x.1.path ∈ p.tablePlaces := by
  obtain ⟨w₁, hcatalog, -⟩ := h.catalog
  obtain ⟨work, hwork, _, _, -, hplanned⟩ := h.sheets
  have hmem := mem_of_reconcileAll hplanned x hx
  have hset := (sets_of_readSheets hwork).subset
    (List.mem_append_left _ (List.mem_map_of_mem hmem))
  obtain ⟨t, ht, hname⟩ := recordType_of_loadCatalog hcatalog _ hset
  rw [(path_of_readSheets hwork).1 _ hmem, ← hname]
  exact ⟨List.mem_flatMap.2 ⟨t, ht, List.mem_cons_self⟩,
    List.mem_flatMap.2 ⟨t, ht, List.mem_cons_of_mem _ List.mem_cons_self⟩⟩

/-! ### What is written -/

/-- A step on files that leaves what is at a place, as a step of a workspace. -/
theorem onFiles_keeps {ε α : Type} {step : Step FileTree ε α}
    (h : step.Keeps fun files => files.at? q) :
    (Workspace.onFiles step).Keeps fun w => w.files.at? q :=
  h.within (fun _ => rfl) fun _ _ => rfl

theorem files_of_change {ε : Type} {fault : ε} {change : FileTree → Option FileTree}
    (h : (Workspace.onFiles (Step.change fault change)).Answers w () w') :
    change w.files = some w'.files := by
  obtain ⟨t, hchange, rfl⟩ := answers_within.1 h
  exact answers_change.1 hchange

/-- Writing a table leaves what is apart from it and from the file beside it. -/
theorem saveSheet_keeps {path : Path} (hpath : path.Apart q) (hbeside : (besideTable path).Apart q)
    (s : Sheet) : (saveSheet path s).Keeps fun w => w.files.at? q := by
  refine (onFiles_keeps (keeps_change fun _ _ h => ?_)).bind fun _ =>
    (onFiles_keeps (keeps_change fun _ _ h => ?_)).bind fun _ =>
      onFiles_keeps (keeps_change fun _ _ h => ?_)
  · exact FileTree.at?_of_makeParent? h hpath
  · exact FileTree.at?_of_change? h hbeside
  · exact FileTree.at?_of_moveFile?_of_apart h hbeside hpath

/-- What was written is read from the file of the table. -/
theorem read?_of_saveSheet {path : Path} (hbeside : (besideTable path).Apart path) {s : Sheet}
    (h : (saveSheet path s).Answers w () w') : w'.files.read? path = some (Text.utf8 s.text) := by
  obtain ⟨ps, hps, hplain⟩ := hbeside.exists_inside
  obtain ⟨qs, hqs, hplain'⟩ := hbeside.symm.exists_inside
  have hne : qs ≠ ps := by
    rintro rfl
    rw [hqs, hps] at hbeside
    exact hbeside.2.1 (List.prefix_refl _)
  obtain ⟨_, w₁, -, h₁⟩ := answers_bind.1 h
  obtain ⟨_, w₂, hwrite, hmove⟩ := answers_bind.1 h₁
  have hwritten : w₁.files.write? (besideTable path) (Text.utf8 s.text) = some w₂.files :=
    files_of_change hwrite
  have hmoved : w₂.files.moveFile? (besideTable path) path = some w'.files := files_of_change hmove
  rw [hqs] at hwritten hmoved
  rw [hps] at hmoved ⊢
  rw [FileTree.read?_of_moveFile? hplain' hplain hne hmoved hplain, if_pos rfl,
    FileTree.read?_of_write? hplain' hplain' hwritten, if_pos rfl]

/-- Writing the manifest leaves what is apart from it. -/
theorem saveManifest_keeps (h : p.manifestPath.Apart q) (m : Manifest) :
    (p.saveManifest m).Keeps fun w => w.files.at? q := by
  unfold saveManifest Manifest.save DataFile.save
  refine onFiles_keeps (Keeps.mapError ?_ _)
  refine Keeps.bind ?_ fun _ => (keeps_change fun _ _ hmake => ?_).bind fun _ =>
    keeps_change fun _ _ hwrite => ?_
  · cases DataFile.render (p.config.outputDirectory.join Manifest.fileName) m.node with
    | ok text => exact keeps_pure _
    | error e => exact keeps_throw _
  · exact FileTree.at?_of_makeParent? hmake h
  · exact FileTree.at?_of_change? hwrite h

/-- The manifest that was written is the one that is loaded. -/
theorem load_of_saveManifest {ps : List String} (hps : p.config.outputDirectory = .inside ps)
    (hplain : ".." ∉ ps) {m : Manifest} (h : (p.saveManifest m).Answers w () w') :
    Manifest.load w'.files p.config.outputDirectory = .ok m := by
  unfold saveManifest Workspace.onFiles at h
  obtain ⟨t, hsave, rfl⟩ := answers_within.1 h
  rw [hps] at hsave ⊢
  exact Manifest.load_of_save hplain (answers_mapError.1 hsave)

theorem dataPath_eq {ps : List String} (hps : p.config.outputDirectory = .inside ps) :
    p.dataPath = .inside (ps ++ [dataFile]) := by
  unfold dataPath
  rw [hps, Path.join_inside ps isName_dataFile]

theorem manifestPath_eq {ps : List String} (hps : p.config.outputDirectory = .inside ps) :
    p.manifestPath = .inside (ps ++ [Manifest.fileName]) := by
  unfold manifestPath
  rw [hps, Path.join_inside ps Manifest.isName_fileName]

/-- The container is put in its place by way of a staging directory. -/
theorem canMove_data {ps : List String} (hplain : ".." ∉ ps) (content : List UInt8) :
    Artifacts.CanMove ps (ps.dropLast ++ [Artifacts.stagingName ps]) [(dataFile, content)] :=
  Artifacts.canMove_staging hplain (List.forall_mem_singleton.2 isFileName_dataFile)
    (List.nodup_singleton _)

theorem fills_data {ps : List String} (hplain : ".." ∉ ps) (content : List UInt8) :
    Artifacts.Fills
      (Artifacts.write ProjectError.artifact (.inside (ps.dropLast ++ [Artifacts.stagingName ps]))
        dataFile content) (ps.dropLast ++ [Artifacts.stagingName ps]) [(dataFile, content)] :=
  Artifacts.fills_write isName_dataFile
    (Artifacts.plain_staging (canMove_data hplain content) (List.cons_ne_nil _ _))

/-- **Generating data** leaves its container in the place of the data, a manifest that tells of the
schema, and all that is apart from the generated files as it was. -/
theorem emitData_answers (hp : p.HasOwnPlaces) {emission : Emission}
    (h : p.emitData.Answers w emission w') :
    (∃ c w₁ k, p.loadCatalog.Answers w c w₁ ∧ Container.bake p.registry c = .ok k ∧
      w'.files.read? p.dataPath = some (p.tools.packing.pack k)) ∧
    (∃ m, Manifest.load w'.files p.config.outputDirectory = .ok m ∧
      m.checkpoints.data = some p.registry.fingerprint) ∧
    ∀ q, (∀ a ∈ p.outputPlaces, a.Apart q) → w'.files.at? q = w.files.at? q := by
  obtain ⟨ps, hps, hplain⟩ := hp.output
  unfold emitData at h
  obtain ⟨c, w₁, hcatalog, h₁⟩ := answers_bind.1 h
  obtain ⟨k, w₁', hcontainer, h₂⟩ := answers_bind.1 h₁
  obtain ⟨artifacts, w₂, hproduced, h₃⟩ := answers_bind.1 h₂
  obtain ⟨m, w₃, hmanifest, h₄⟩ := answers_bind.1 h₃
  obtain ⟨_, w₄, hsave, h₅⟩ := answers_bind.1 h₄
  obtain ⟨-, rfl⟩ := answers_pure_iff.1 h₅
  obtain ⟨hbake, rfl⟩ := answers_ofExcept.1 hcontainer
  -- loading the records and reading the manifest leave the files
  have hread : w₁'.files = w.files := (loadCatalog_keeps p).answers hcatalog
  have hkept : w₃ = w₂ := by
    unfold manifest at hmanifest
    rw [answers_get_bind] at hmanifest
    exact (answers_ofExcept.1 hmanifest).2
  obtain ⟨t, hproduce, rfl⟩ := answers_within.1 hproduced
  rw [hps] at hproduce
  have hmove := canMove_data hplain (p.tools.packing.pack k)
  have hne : [(dataFile, p.tools.packing.pack k)] ≠ [] := List.cons_ne_nil _ _
  have hfill := fills_data hplain (p.tools.packing.pack k)
  obtain ⟨-, hfiles, -⟩ := Artifacts.produce_installs hmove hne hfill hproduce
  have hdata := hfiles _ List.mem_cons_self
  have hdataPath := dataPath_eq hps
  rw [hkept] at hsave
  refine ⟨⟨c, w₁', k, hcatalog, hbake, ?_⟩,
    ⟨{ m with checkpoints.data := some p.registry.fingerprint, dataArtifacts := artifacts }, ?_, rfl⟩,
    fun q hq => ?_⟩
  -- the manifest is saved apart from the data
  · have hapart : p.manifestPath.Apart p.dataPath := by
      rw [hdataPath, manifestPath_eq hps]
      exact Path.apart_of_ne hplain Manifest.isName_fileName isName_dataFile (by decide)
    have hsaved : w'.files.at? p.dataPath = t.at? p.dataPath :=
      (saveManifest_keeps hapart _).answers hsave
    unfold FileTree.read?
    rw [hsaved, hdataPath]
    exact hdata
  · exact load_of_saveManifest hps hplain hsave
  -- elsewhere neither the data nor the manifest is written
  · simp only [outputPlaces, List.forall_mem_cons] at hq
    obtain ⟨hstaging, hfile, hlast, -⟩ := hq
    rw [hps] at hstaging
    rw [hdataPath] at hfile
    have hsaved : w'.files.at? q = t.at? q := (saveManifest_keeps hlast _).answers hsave
    have hothers : t.at? q = w₁'.files.at? q := by
      refine (Artifacts.produce_keeps hmove hne hfill hstaging ?_).answers hproduce
      exact List.forall_mem_singleton.2 hfile
    rw [hsaved, hothers]
    show w₁'.files.at? q = _
    rw [hread]

/-- **Generating data of records that make a container** fails only if the file system does. -/
theorem isIo_of_emitData_fails (hp : p.HasOwnPlaces) {c : Catalog} {w₁ : Workspace} {k : Container}
    (hcatalog : p.loadCatalog.Answers w c w₁) (hbake : Container.bake p.registry c = .ok k)
    {m : Manifest} (hmanifest : Manifest.load w.files p.config.outputDirectory = .ok m)
    {e : ProjectError} (h : p.emitData.Fails w e w') : e.IsIo := by
  obtain ⟨ps, hps, hplain⟩ := hp.output
  unfold emitData at h
  rcases fails_bind.1 h with hfails | ⟨c', w₂, hcatalog', h₁⟩
  · cases congrArg Prod.fst (hcatalog.symm.trans hfails)
  obtain ⟨hc, rfl⟩ := Prod.mk.inj (hcatalog.symm.trans hcatalog')
  obtain rfl := Except.ok.inj hc
  rcases fails_bind.1 h₁ with hfails | ⟨k', w₃, hcontainer, h₂⟩
  · obtain ⟨⟨fault, hfault, -⟩, -⟩ := fails_ofExcept.1 hfails
    exact nomatch hbake.symm.trans hfault
  obtain ⟨-, rfl⟩ := answers_ofExcept.1 hcontainer
  rcases fails_bind.1 h₂ with hfails | ⟨artifacts, w₄, hproduced, h₃⟩
  · refine Blames.within (Artifacts.produce_blames ?_ _ fun staging => ?_) _ _ _ hfails
    · trivial
    · exact Artifacts.write_blames trivial _ _ _
  rcases fails_bind.1 h₃ with hfails | ⟨m', w₅, -, h₄⟩
  · -- the manifest is as it was
    obtain ⟨-, fault, hfault, -⟩ := manifest_fails hfails
    obtain ⟨t, hproduce, rfl⟩ := answers_within.1 hproduced
    rw [hps] at hproduce
    have hkept : t.at? p.manifestPath = w.files.at? p.manifestPath := by
      have hne : dataFile ≠ Manifest.fileName := by decide
      rw [← (loadCatalog_keeps p).answers hcatalog, manifestPath_eq hps]
      refine (Artifacts.produce_keeps (canMove_data hplain _) (List.cons_ne_nil _ _)
        (fills_data hplain _) (Artifacts.stagingFor_apart hplain Manifest.isName_fileName (by decide))
        (List.forall_mem_singleton.2 ?_)).answers hproduce
      exact Path.apart_of_ne hplain isName_dataFile Manifest.isName_fileName hne
    exact nomatch hmanifest.symm.trans ((Manifest.load_congr hkept).symm.trans hfault)
  rcases fails_bind.1 h₄ with hfails | ⟨-, w₆, -, hfails⟩
  · exact saveManifest_blames _ _ _ _ _ hfails
  · exact absurd hfails not_fails_pure

end Project

end RecordTables
