import RecordTables.Proofs.Files.Progress
import RecordTables.Proofs.Store.Contents
import RecordTables.Proofs.Store.Files

/-!
# What a store in files reads

Reading the records of a type goes through all its record files, and remembers each of them
(`FileStore.load_yields`).  So a store holds the records that it has read (`FileStore.holds_of_load`),
and it reads the records that it holds (`FileStore.Records.load_yields`), in some order and with one
pattern for no number.
-/

namespace RecordTables.FileStore

open Step FileTree

variable {root directory : Path} {rs ps : List String} {recordType : String} {Blocked : Prop}
  {r : Record} {l l' : List Record} {s s' s₀ : FileStore} {t d : FileTree} {set set' : RecordSet}

/-! ### Going through the places -/

/-- What was found at some places is in a set now, besides what was there, and is remembered. -/
structure Found (root directory : Path) (recordType : String) (s : FileStore) (set : RecordSet)
    (found : List (List String × Record)) (set' : RecordSet) (s' : FileStore) : Prop where
  read : ∀ e ∈ found, readRecord root (e.1.foldl Path.join directory) s.files = .ok e.2
  wellFormed : set'.WellFormed
  type : set'.recordType = set.recordType
  records : set'.records.Perm (found.map (·.2) ++ set.records)
  files : s'.files = s.files
  seen : s'.seen =
    (found.map fun e => ((recordType, e.2.guid), e.1.foldl Path.join directory)).reverse ++ s.seen

/-- **Going through places** finds a record at each of them, or fails at one that cannot be read. -/
theorem loadPlaces_yields (places : List (List String)) (hset : set.WellFormed) :
    (loadPlaces root directory recordType places set).Yields s
      (fun set' s' => ∃ found, found.map (·.1) = places ∧
        Found root directory recordType s set found set' s')
      (fun e => ∃ place ∈ places,
        readRecord root (place.foldl Path.join directory) s.files = .error e) := by
  induction places generalizing set s with
  | nil =>
    refine yields_pure ⟨[], rfl, List.forall_mem_nil _, hset, rfl, List.Perm.refl _, rfl, rfl⟩
  | cons place places ih =>
    unfold loadPlaces
    refine yields_get_bind ?_
    split
    · next e hread => exact yields_throw ⟨place, List.mem_cons_self, hread⟩
    · next r hread =>
      refine (answers_modify.2 rfl).bind_yields ?_
      refine ((ih (hset.insert r)).weaken ?_).mono ?_
      · rintro e ⟨q, hq, hfault⟩
        exact ⟨q, List.mem_cons_of_mem _ hq, hfault⟩
      · rintro set' s' ⟨found, hplaces, hfound⟩
        refine ⟨(place, r) :: found, by rw [List.map_cons, hplaces], ?_⟩
        refine ⟨List.forall_mem_cons.2 ⟨hread, hfound.read⟩, hfound.wellFormed,
          hfound.type.trans (RecordSet.recordType_insert r), ?_, hfound.files, ?_⟩
        -- the record stands among those that follow, in whatever order
        · have hinsert : (set.insert r).2.records.Perm (r :: set.records) :=
            (RecordSet.entries_insert hset r).map Prod.snd
          exact hfound.records.trans ((hinsert.append_left _).trans List.perm_middle)
        · rw [hfound.seen, List.map_cons, List.reverse_cons, List.append_assoc]
          rfl

/-! ### The places of a type -/

/-- The record files below a directory. -/
theorem mem_recordPlaces (hordered : d.Ordered) {place : List String} :
    place ∈ recordPlaces d ↔
      (d.fileAt? place).isSome = true ∧ (place.getLast?.any isRecordName) = true := by
  unfold recordPlaces
  rw [List.mem_filter, List.mem_map]
  refine and_congr ⟨?_, fun h => ?_⟩ Iff.rfl
  · rintro ⟨⟨place, content⟩, hmem, rfl⟩
    unfold fileAt?
    rw [(mem_files_iff hordered).1 hmem]
    rfl
  · unfold fileAt? at h
    split at h
    · next content hcontent => exact ⟨(place, content), (mem_files_iff hordered).2 hcontent, rfl⟩
    · cases h

theorem nodup_recordPlaces (hordered : d.Ordered) : (recordPlaces d).Nodup :=
  (nodup_files d hordered).filter _

/-- What is read below a directory is read at parts. -/
theorem fileAt?_append (h : t.descend? ps = some d) (qs : List String) :
    t.fileAt? (ps ++ qs) = d.fileAt? qs := by
  unfold fileAt?
  rw [descend?_append, h]
  rfl

/-- The directory of a type, where a store looks for records. -/
def typeDirectory (rs : List String) (recordType : String) (t : FileTree) : FileTree :=
  (t.descend? (rs ++ [recordType])).getD empty

/-- A record place is one below the directory of the type. -/
theorem isRecordPlace_iff {place : List String} :
    IsRecordPlace rs recordType (rs ++ recordType :: place) ↔
      (place.getLast?.any isRecordName) = true := by
  constructor
  · rintro ⟨sub, name, heq, hname⟩
    obtain ⟨-, rfl⟩ := List.cons.inj (List.append_cancel_left heq)
    rw [List.getLast?_concat]
    exact hname
  · intro h
    rcases List.eq_nil_or_concat place with rfl | ⟨sub, name, rfl⟩
    · cases h
    · rw [List.concat_eq_append, List.getLast?_concat] at h
      exact ⟨sub, name, by rw [List.concat_eq_append], h⟩

/-- The files of the places of a type. -/
theorem mem_recordPlaces_typeDirectory (hordered : t.Ordered) {place : List String} :
    place ∈ recordPlaces (typeDirectory rs recordType t) ↔
      (t.fileAt? (rs ++ recordType :: place)).isSome = true ∧
        IsRecordPlace rs recordType (rs ++ recordType :: place) := by
  have hparts : rs ++ recordType :: place = rs ++ [recordType] ++ place := by simp
  unfold typeDirectory
  cases hd : t.descend? (rs ++ [recordType]) with
  | none =>
    refine iff_of_false (fun h => nomatch h) fun h => ?_
    have hfile := h.1
    unfold fileAt? at hfile
    rw [hparts, descend?_append, hd] at hfile
    cases hfile
  | some d =>
    rw [Option.getD_some, mem_recordPlaces (hereditary_ordered.descend? hordered hd),
      isRecordPlace_iff, hparts, fileAt?_append hd]

/-- The way to a file has names. -/
theorem names_of_fileAt? (hnames : t.HasNames) (hordered : t.Ordered)
    (h : (t.fileAt? ps).isSome = true) : ∀ name ∈ ps, Path.IsName name := by
  unfold fileAt? at h
  split at h
  · next content hcontent => exact hnames (ps, content) ((mem_files_iff hordered).2 hcontent)
  · cases h

/-- How a record is read from a file. -/
theorem of_readRecord {names : List String} {name : String} (hname : name ≠ "..")
    (h : readRecord (.inside rs) (.inside (rs ++ names ++ [name])) t = .ok r) :
    r.identifier = (Path.splitName name).1 ∧ r.directory = "/".intercalate names := by
  unfold readRecord at h
  split at h
  · cases h
  split at h
  · cases h
  · next r' _ =>
    split_ifs at h with hstem
    obtain rfl := Except.ok.inj h
    refine ⟨hstem.trans ?_, directoryOf_inside names name⟩
    unfold Path.stem
    rw [Path.name_concat hname]

/-- A record that is read from a record file is kept in this file. -/
theorem isHoused_of_readRecord (htype : Path.IsName recordType) (hnames : t.HasNames)
    (hordered : t.Ordered)
    (hfree : ∀ ps, IsRecordPlace rs recordType ps → t.isDirectoryAt ps = true → Blocked)
    (hps : IsRecordPlace rs recordType ps) (hfile : (t.fileAt? ps).isSome = true)
    (hread : readRecord (.inside rs) (.inside ps) t = .ok r) :
    IsHoused recordType Blocked r ∧ fileParts rs r = ps := by
  obtain ⟨sub, name, rfl, hname⟩ := hps
  have hplain := names_of_fileAt? hnames hordered hfile
  have hsub : ∀ part ∈ sub ++ [name], Path.IsName part := fun part hpart =>
    hplain part (List.mem_append_right _ (List.mem_cons_of_mem _ hpart))
  have hlast := hsub name (List.mem_append_right _ List.mem_cons_self)
  have hparts : rs ++ recordType :: (sub ++ [name]) = rs ++ recordType :: sub ++ [name] := by simp
  rw [hparts] at hread
  obtain ⟨hidentifier, hdirectory⟩ := of_readRecord hlast.ne_dots hread
  -- the name of a record file is that of its stem
  have hsplit : Path.splitName name = (r.identifier, some recordExtension) :=
    Prod.ext hidentifier.symm (beq_iff_eq.1 hname)
  obtain ⟨heq, hne⟩ := Path.eq_of_splitName hsplit
  have hplace : HasPlace recordType Blocked r := by
    refine ⟨sub, fun part hpart => ⟨hsub part (List.mem_append_left _ hpart), fun hrecord => ?_⟩,
      hdirectory⟩
    -- on the way to the file there are directories only
    obtain ⟨front, back, rfl⟩ := List.append_of_mem hpart
    refine hfree (rs ++ recordType :: (front ++ [part])) ⟨front, part, rfl, hrecord⟩ ?_
    have hbelow : (t.fileAt? (rs ++ recordType :: (front ++ [part]) ++ (back ++ [name]))).isSome =
        true := by simpa using hfile
    exact isDirectoryAt_of_fileAt? hbelow (by simp)
  refine ⟨⟨hplace, fun hmem => hlast.noSlash ?_, hne⟩, ?_⟩
  · rw [heq, String.toList_append, String.toList_append]
    exact List.mem_append_left _ (List.mem_append_left _ hmem)
  · unfold fileParts
    rw [hdirectory, Path.partsOf_intercalate (List.forall_mem_cons.2
      ⟨htype, fun part hpart => hsub part (List.mem_append_left _ hpart)⟩), hparts]
    unfold recordName
    rw [← heq]

/-- Below the directory of the type, a place leads to parts. -/
theorem foldl_join_place (hnames : t.HasNames) (hordered : t.Ordered) {place : List String}
    (hfile : (t.fileAt? (rs ++ recordType :: place)).isSome = true) :
    place.foldl Path.join (.inside (rs ++ [recordType])) = .inside (rs ++ recordType :: place) := by
  have hplain := names_of_fileAt? hnames hordered hfile
  rw [foldl_join_inside fun name hname =>
    hplain name (List.mem_append_right _ (List.mem_cons_of_mem _ hname)), List.append_assoc]
  rfl

/-- **What is held** is known up to the patterns for no number. -/
theorem Holds.of_quieted (h : Holds rs recordType Blocked s₀ l s)
    (hquieted : (l.map Record.quieted).Perm (l'.map Record.quieted)) :
    Holds rs recordType Blocked s₀ l' s := by
  have hsame : ∀ r' ∈ l', ∃ r ∈ l, r.quieted = r'.quieted := fun r' hr' =>
    List.mem_map.1 (hquieted.mem_iff.2 (List.mem_map_of_mem hr'))
  -- quieting leaves the identifier and the directory, so the file is the same
  have hparts {r r' : Record} (heq : r.quieted = r'.quieted) : fileParts rs r = fileParts rs r' := by
    obtain ⟨-, hidentifier, hdirectory, -⟩ := Record.same_of_quieted heq
    unfold fileParts
    rw [hidentifier, hdirectory]
  refine ⟨h.toHousing, ⟨fun r' hr' => ?_, fun r' hr' => ?_, fun ps hps hfile => ?_⟩, fun r' hr' => ?_,
    h.seenOthers⟩
  · obtain ⟨r, hr, heq⟩ := hsame r' hr'
    obtain ⟨-, hidentifier, hdirectory, -⟩ := Record.same_of_quieted heq
    have hhoused := h.housed r hr
    refine ⟨?_, hidentifier ▸ hhoused.noSlash, hidentifier ▸ hhoused.ne_empty⟩
    unfold HasPlace
    rw [← hdirectory]
    exact hhoused.place
  · obtain ⟨r, hr, heq⟩ := hsame r' hr'
    rw [← hparts heq, ← heq]
    exact h.read r hr
  · obtain ⟨r, hr, hr'⟩ := h.complete ps hps hfile
    obtain ⟨r', hmem, heq⟩ := List.mem_map.1 (hquieted.mem_iff.1 (List.mem_map_of_mem hr))
    exact ⟨r', hmem, (hparts heq).trans hr'⟩
  · obtain ⟨r, hr, heq⟩ := hsame r' hr'
    rw [← hparts heq, ← (Record.same_of_quieted heq).1]
    exact h.seen r hr

/-! ### What is remembered -/

section Lookup

variable {seen seen' : List ((String × Guid) × Path)} {key : String × Guid} {p : Path}

theorem lookup_append_of_mem (hkeys : (seen.map (·.1)).Nodup) (h : (key, p) ∈ seen) :
    (seen ++ seen').lookup key = some p := by
  obtain ⟨front, back, rfl⟩ := List.append_of_mem h
  refine List.lookup_eq_some_iff.2 ⟨front, back ++ seen', by simp, fun e he => ?_⟩
  rw [List.map_append, List.map_cons] at hkeys
  rw [bne_iff_ne]
  rintro rfl
  exact (List.nodup_middle.1 hkeys).notMem (List.mem_append_left _ (List.mem_map.2 ⟨e, he, rfl⟩))

theorem lookup_append_of_notMem (h : key ∉ seen.map (·.1)) :
    (seen ++ seen').lookup key = seen'.lookup key := by
  induction seen with
  | nil => rfl
  | cons e seen ih =>
    obtain ⟨other, q⟩ := e
    rw [List.map_cons, List.mem_cons, not_or] at h
    rw [List.cons_append, lookup_remembered, if_neg h.1, ih h.2]

end Lookup

section OfType

variable (hrs : ∀ name ∈ rs, Path.IsName name) (htype : Path.IsName recordType)

include htype

/-- **What was found** are the records in the files of the type. -/
theorem Found.holds {found : List (List String × Record)}
    (h : Found (.inside rs) (.inside (rs ++ [recordType])) recordType s (.empty recordType) found
      set s')
    (hplaces : found.map (·.1) = recordPlaces (typeDirectory rs recordType s.files))
    (hhousing : Housing rs recordType Blocked s₀.files s.files) :
    Records rs recordType Blocked set.records s.files ∧
      ∀ e ∈ found, fileParts rs e.2 = rs ++ recordType :: e.1 := by
  have hrecords : set.records.Perm (found.map (·.2)) := by
    have hperm := h.records
    rwa [show (RecordSet.empty recordType).records = [] from rfl, List.append_nil] at hperm
  -- a record that was read belongs into the file that it was read from
  have hkept : ∀ e ∈ found, readRecord (.inside rs) (.inside (rs ++ recordType :: e.1)) s.files =
      .ok e.2 ∧ IsHoused recordType Blocked e.2 ∧ fileParts rs e.2 = rs ++ recordType :: e.1 := by
    intro e he
    have hmem : e.1 ∈ recordPlaces (typeDirectory rs recordType s.files) :=
      hplaces ▸ List.mem_map_of_mem he
    obtain ⟨hfile, hplace⟩ := (mem_recordPlaces_typeDirectory hhousing.ordered).1 hmem
    have hread := h.read e he
    rw [foldl_join_place hhousing.names hhousing.ordered hfile] at hread
    exact ⟨hread, isHoused_of_readRecord htype hhousing.names hhousing.ordered hhousing.free
      hplace hfile hread⟩
  refine ⟨⟨fun r hr => ?_, fun r hr => ?_, fun ps hps hfile => ?_⟩, fun e he => (hkept e he).2.2⟩
  · obtain ⟨e, he, rfl⟩ := List.mem_map.1 (hrecords.mem_iff.1 hr)
    exact (hkept e he).2.1
  · obtain ⟨e, he, rfl⟩ := List.mem_map.1 (hrecords.mem_iff.1 hr)
    obtain ⟨hread, -, hparts⟩ := hkept e he
    exact ⟨e.2, hparts ▸ hread, rfl⟩
  -- every file of a record was read
  · obtain ⟨sub, name, rfl, hname⟩ := hps
    have hmem := (mem_recordPlaces_typeDirectory hhousing.ordered).2
      ⟨hfile, sub, name, rfl, hname⟩
    rw [← hplaces] at hmem
    obtain ⟨e, he, heq⟩ := List.mem_map.1 hmem
    refine ⟨e.2, hrecords.mem_iff.2 (List.mem_map_of_mem he), ?_⟩
    rw [(hkept e he).2.2, heq]

include hrs

theorem plain_typeParts : ".." ∉ rs ++ [recordType] :=
  Path.notMem_dots (List.forall_mem_append.2 ⟨hrs, List.forall_mem_singleton.2 htype⟩)

/-- **Reading the records of a type** goes through the record files of its directory. -/
theorem load_yields : (load (.inside rs) recordType).Yields s
    (fun set' s' => ∃ found, found.map (·.1) = recordPlaces (typeDirectory rs recordType s.files) ∧
      Found (.inside rs) (.inside (rs ++ [recordType])) recordType s (.empty recordType) found set' s')
    (fun e => ∃ place ∈ recordPlaces (typeDirectory rs recordType s.files),
      readRecord (.inside rs) (place.foldl Path.join (.inside (rs ++ [recordType]))) s.files =
        .error e) := by
  have hload : (loadPlaces (.inside rs) (.inside (rs ++ [recordType])) recordType
      (recordPlaces (typeDirectory rs recordType s.files)) (.empty recordType)).Yields s _ _ :=
    loadPlaces_yields _ (RecordSet.wellFormed_empty recordType)
  unfold load
  rw [Path.join_inside rs htype]
  refine yields_get_bind ?_
  rw [at?_inside _ (plain_typeParts hrs htype)]
  unfold typeDirectory at hload ⊢
  cases hd : s.files.descend? (rs ++ [recordType]) with
  | none =>
    rw [hd] at hload
    exact hload
  | some d =>
    rw [hd] at hload
    exact hload

/-- **A store holds what it has read.** -/
theorem holds_of_load (h : (load (.inside rs) recordType).Answers s set s')
    (hhousing : Housing rs recordType Blocked s₀.files s.files)
    (hseen : ∀ other guid, other ≠ recordType →
      s.seen.lookup (other, guid) = s₀.seen.lookup (other, guid))
    (hguids : (set.records.map (·.guid)).Nodup) :
    Holds rs recordType Blocked s₀ set.records s' := by
  obtain ⟨found, hplaces, hfound⟩ := (load_yields hrs htype).answers _ _ h
  obtain ⟨hrecords, hparts⟩ := hfound.holds htype hplaces hhousing
  have hperm : set.records.Perm (found.map (·.2)) := by
    have hperm := hfound.records
    rwa [show (RecordSet.empty recordType).records = [] from rfl, List.append_nil] at hperm
  -- the records are remembered under different keys, as their GUIDs differ
  have hkeys : ((found.map fun e => ((recordType, e.2.guid),
      e.1.foldl Path.join (.inside (rs ++ [recordType])))).map (·.1)).Nodup := by
    have hnodup := (hperm.map (·.guid)).nodup_iff.1 hguids
    rw [List.map_map] at hnodup ⊢
    exact List.Nodup.of_map Prod.snd (by rwa [List.map_map])
  refine ⟨hfound.files ▸ hhousing, hfound.files ▸ hrecords, fun r hr => ?_,
    fun other guid hother => ?_⟩
  · obtain ⟨e, he, rfl⟩ := List.mem_map.1 (hperm.mem_iff.1 hr)
    have hmem : e.1 ∈ recordPlaces (typeDirectory rs recordType s.files) :=
      hplaces ▸ List.mem_map_of_mem he
    rw [hfound.seen, hparts e he, ← foldl_join_place hhousing.names hhousing.ordered
      ((mem_recordPlaces_typeDirectory hhousing.ordered).1 hmem).1]
    refine lookup_append_of_mem ?_ (List.mem_reverse.2 (List.mem_map_of_mem he))
    rw [List.map_reverse]
    exact List.nodup_reverse.2 hkeys
  · rw [hfound.seen, lookup_append_of_notMem, hseen other guid hother]
    rw [List.map_reverse, List.mem_reverse, List.map_map]
    intro hmem
    obtain ⟨e, -, heq⟩ := List.mem_map.1 hmem
    exact hother (Prod.mk.inj heq).1.symm

/-- The record files of a type are those of its records. -/
theorem Holds.fileParts_perm (h : Holds rs recordType Blocked s₀ l s)
    (hguids : (l.map (·.guid)).Nodup) : (l.map (fileParts rs)).Perm
      ((recordPlaces (typeDirectory rs recordType s.files)).map (rs ++ recordType :: ·)) := by
  -- what is read from one file is one record
  have hinj : ∀ r ∈ l, ∀ r' ∈ l, fileParts rs r = fileParts rs r' → r = r' := by
    intro r hr r' hr' heq
    obtain ⟨x, hx, hxr⟩ := h.read r hr
    obtain ⟨y, hy, hyr⟩ := h.read r' hr'
    rw [heq, hy] at hx
    obtain rfl := Except.ok.inj hx
    exact List.inj_on_of_nodup_map hguids hr hr' (Record.same_of_quieted (hxr.symm.trans hyr)).1
  refine (List.perm_ext_iff_of_nodup (List.Nodup.map_on hinj (List.Nodup.of_map _ hguids))
    ((nodup_recordPlaces ?_).map fun a b heq => ?_)).2 fun ps => ?_
  · unfold typeDirectory
    cases hd : s.files.descend? (rs ++ [recordType]) with
    | none => exact hereditary_ordered.empty
    | some d => exact hereditary_ordered.descend? h.ordered hd
  · exact (List.cons.inj (List.append_cancel_left heq)).2
  · rw [List.mem_map, List.mem_map]
    constructor
    · rintro ⟨r, hr, rfl⟩
      obtain ⟨x, hx, -⟩ := h.read r hr
      have hhoused := h.housed r hr
      have hfile := isSome_of_readRecord (Path.notMem_dots (hhoused.names hrs htype)) hx
      obtain ⟨sub, name, hparts, hname⟩ := hhoused.isRecordPlace rs htype
      rw [hparts] at hfile ⊢
      exact ⟨_, (mem_recordPlaces_typeDirectory h.ordered).2 ⟨hfile, sub, name, rfl, hname⟩, rfl⟩
    · rintro ⟨place, hplace, rfl⟩
      obtain ⟨hfile, hrecord⟩ := (mem_recordPlaces_typeDirectory h.ordered).1 hplace
      exact h.complete _ hrecord hfile

/-- **A store reads what it holds.** -/
theorem Holds.load_yields (h : Holds rs recordType Blocked s₀ l s)
    (hguids : (l.map (·.guid)).Nodup) :
    (load (.inside rs) recordType).Yields s (fun set s' => set.WellFormed ∧
      set.recordType = recordType ∧ (set.records.map Record.quieted).Perm (l.map Record.quieted) ∧
        Holds rs recordType Blocked s₀ set.records s') (fun _ => False) := by
  refine ⟨fun set s' hload => ?_, fun e s' hfails => ?_⟩
  · obtain ⟨found, hplaces, hfound⟩ := (FileStore.load_yields hrs htype).answers _ _ hload
    obtain ⟨-, hparts⟩ := hfound.holds htype hplaces h.toHousing
    have hrecords : set.records.Perm (found.map (·.2)) := by
      have hperm := hfound.records
      rwa [show (RecordSet.empty recordType).records = [] from rfl, List.append_nil] at hperm
    -- both lists are what is read from the same files
    let reading (ps : List String) : Option Record :=
      (readRecord (.inside rs) (.inside ps) s.files).toOption.map Record.quieted
    have hheld : (l.map (fileParts rs)).map reading = (l.map Record.quieted).map some := by
      rw [List.map_map, List.map_map]
      refine List.map_congr_left fun r hr => ?_
      obtain ⟨x, hx, hxr⟩ := h.read r hr
      show (readRecord _ _ _).toOption.map Record.quieted = some r.quieted
      rw [hx, ← hxr]
      rfl
    have hread : ((recordPlaces (typeDirectory rs recordType s.files)).map
        (rs ++ recordType :: ·)).map reading = ((found.map (·.2)).map Record.quieted).map some := by
      rw [← hplaces, List.map_map, List.map_map, List.map_map, List.map_map]
      refine List.map_congr_left fun e he => ?_
      have hmem : e.1 ∈ recordPlaces (typeDirectory rs recordType s.files) :=
        hplaces ▸ List.mem_map_of_mem he
      show (readRecord (.inside rs) (.inside (rs ++ recordType :: e.1)) s.files).toOption.map
        Record.quieted = some e.2.quieted
      rw [← foldl_join_place h.names h.ordered
        ((mem_recordPlaces_typeDirectory h.ordered).1 hmem).1, hfound.read e he]
      rfl
    have hquieted : (set.records.map Record.quieted).Perm (l.map Record.quieted) := by
      refine (hrecords.map _).trans ((List.map_perm_map_iff (Option.some_injective _)).1 ?_)
      rw [← hread, ← hheld]
      exact ((h.fileParts_perm hrs htype hguids).map reading).symm
    have hguids' : (set.records.map (·.guid)).Nodup := by
      have hsame := hquieted.map (·.guid)
      rw [List.map_map, List.map_map] at hsame
      exact hsame.nodup_iff.2 hguids
    exact ⟨hfound.wellFormed, hfound.type, hquieted,
      holds_of_load hrs htype hload h.toHousing h.seenOthers hguids'⟩
  · obtain ⟨place, hplace, hfault⟩ := (FileStore.load_yields hrs htype).fails _ _ hfails
    obtain ⟨hfile, hrecord⟩ := (mem_recordPlaces_typeDirectory h.ordered).1 hplace
    obtain ⟨r, hr, hparts⟩ := h.complete _ hrecord hfile
    obtain ⟨x, hx, -⟩ := h.read r hr
    rw [foldl_join_place h.names h.ordered hfile, ← hparts, hx] at hfault
    cases hfault

/-- **A store that reads what it holds** holds it still, and has seen nothing else of the type. -/
theorem Holds.load_answers (h : Holds rs recordType Blocked s₀ l s)
    (hguids : (l.map (·.guid)).Nodup) :
    ∃ set s', (load (.inside rs) recordType).Answers s set s' ∧
      (set.records.map Record.quieted).Perm (l.map Record.quieted) ∧
      Holds rs recordType Blocked s₀ l s' ∧
      ∀ guid, guid ∉ l.map (·.guid) →
        s'.seen.lookup (recordType, guid) = s.seen.lookup (recordType, guid) := by
  obtain ⟨set, s', hload, -, -, hquieted, hheld⟩ := (h.load_yields hrs htype hguids).exists
  obtain ⟨found, -, hfound⟩ := (FileStore.load_yields hrs htype).answers _ _ hload
  refine ⟨set, s', hload, hquieted, hheld.of_quieted hquieted, fun guid hguid => ?_⟩
  have hsame := hquieted.map (·.guid)
  rw [List.map_map, List.map_map] at hsame
  have hrecords : set.records.Perm (found.map (·.2)) := by
    have hperm := hfound.records
    rwa [show (RecordSet.empty recordType).records = [] from rfl, List.append_nil] at hperm
  rw [hfound.seen, lookup_append_of_notMem]
  rw [List.map_reverse, List.mem_reverse, List.map_map]
  intro hmem
  obtain ⟨e, he, heq⟩ := List.mem_map.1 hmem
  have hread : guid ∈ set.records.map (·.guid) :=
    List.mem_map.2 ⟨e.2, hrecords.mem_iff.2 (List.mem_map_of_mem he), (Prod.mk.inj heq).2⟩
  exact hguid (hsame.mem_iff.1 hread)

end OfType

end RecordTables.FileStore
