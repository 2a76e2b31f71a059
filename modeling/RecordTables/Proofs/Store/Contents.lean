import RecordTables.Proofs.Files.Contents
import RecordTables.Proofs.Store.Files
import RecordTables.Proofs.Store.RecordFile
import RecordTables.Proofs.Store.Serves

/-!
# What a store in files holds

A store in files holds records of a type (`FileStore.Holds`) if each of them is read from the file
that its directory and its identifier name, the type has no other record files, and the store has seen
each record there.  Each step of the store is then described by the records, as for the store in
memory (`FileStore.serves`); it may only fail with the file system, for an identifier that cannot name
a file, or where a directory stands in the place of a record file (`FileStore.Failure`).

* `FileStore.readRecord_of_written`: what is written for a record is read as the record.
* `FileStore.Beside`: the records of all files but one, which every step of the store leaves alone.
* `FileStore.Holds.congr`: what is held of one type does not depend on the files of another.
-/

namespace RecordTables.FileStore

open Step FileTree

variable {rs ps : List String} {recordType : String} {Blocked : Prop} {r : Record}
  {l l' : List Record} {s s' s₀ : FileStore} {t t' t₀ : FileTree}

/-! ### The places of record files -/

/-- Whether a name is one of a record file. -/
def isRecordName (name : String) : Bool := (Path.splitName name).2 == some recordExtension

/-- The name of the file for an identifier. -/
def recordName (identifier : String) : String := identifier ++ "." ++ recordExtension

theorem splitName_recordName {identifier : String} (h : identifier ≠ "") :
    Path.splitName (recordName identifier) = (identifier, some recordExtension) :=
  Path.splitName_append h (by decide)

theorem isRecordName_recordName {identifier : String} (h : identifier ≠ "") :
    isRecordName (recordName identifier) = true := by
  unfold isRecordName
  rw [splitName_recordName h]
  exact beq_self_eq_true _

theorem recordName_inj {a b : String} (h : recordName a = recordName b) : a = b := by
  unfold recordName at h
  rw [String.append_assoc, String.append_assoc] at h
  exact (String.append_left_inj _).1 h

theorem isName_recordName {identifier : String} (h : '/' ∉ identifier.toList) :
    Path.IsName (recordName identifier) where
  toIsPart := by
    unfold recordName
    rw [String.append_assoc]
    exact Path.isPart_append h (by decide) (by decide)
  ne_dots := by
    intro hdots
    have hlength := congrArg String.length hdots
    unfold recordName at hlength
    rw [String.length_append, String.length_append] at hlength
    change _ + 1 + 3 = 2 at hlength
    omega

/-- Where the file of a record is, for a store at `rs`. -/
def fileParts (rs : List String) (r : Record) : List String :=
  rs ++ Path.partsOf r.directory ++ [recordName r.identifier]

/-- The places of the record files of a type. -/
def IsRecordPlace (rs : List String) (recordType : String) (ps : List String) : Prop :=
  ∃ sub name, ps = rs ++ recordType :: (sub ++ [name]) ∧ isRecordName name = true

/-- The record's directory is that of its type or one below it.  Unless it is said that something is
`Blocked`, none on the way has the name of a record file. -/
def HasPlace (recordType : String) (Blocked : Prop) (r : Record) : Prop :=
  ∃ sub, (∀ name ∈ sub, Path.IsName name ∧ (isRecordName name = true → Blocked)) ∧
    r.directory = "/".intercalate (recordType :: sub)

/-- The record can be kept in a file of its own. -/
structure IsHoused (recordType : String) (Blocked : Prop) (r : Record) : Prop where
  place : HasPlace recordType Blocked r
  noSlash : '/' ∉ r.identifier.toList
  ne_empty : r.identifier ≠ ""

section Places

variable (hrs : ∀ name ∈ rs, Path.IsName name) (htype : Path.IsName recordType)

include htype

variable (rs) in
theorem HasPlace.exists_sub (h : HasPlace recordType Blocked r) :
    ∃ sub, (∀ name ∈ sub, Path.IsName name ∧ (isRecordName name = true → Blocked)) ∧
      r.directory = "/".intercalate (recordType :: sub) ∧
      fileParts rs r = rs ++ recordType :: (sub ++ [recordName r.identifier]) := by
  obtain ⟨sub, hsub, hdirectory⟩ := h
  refine ⟨sub, hsub, hdirectory, ?_⟩
  unfold fileParts
  rw [hdirectory, Path.partsOf_intercalate (List.forall_mem_cons.2 ⟨htype, fun n hn => (hsub n hn).1⟩)]
  simp

variable (rs) in
/-- The file of a record is at a place of its type. -/
theorem IsHoused.isRecordPlace (h : IsHoused recordType Blocked r) :
    IsRecordPlace rs recordType (fileParts rs r) := by
  obtain ⟨sub, -, -, hparts⟩ := h.place.exists_sub rs htype
  exact ⟨sub, _, hparts, isRecordName_recordName h.ne_empty⟩

/-- A record file is not on the way to another one, unless something is blocked. -/
theorem IsHoused.blocked (h : IsHoused recordType Blocked r) (hps : IsRecordPlace rs recordType ps)
    (hbelow : ps <+: (fileParts rs r).dropLast) : Blocked := by
  obtain ⟨sub, hsub, -, hparts⟩ := h.place.exists_sub rs htype
  obtain ⟨before, name, rfl, hname⟩ := hps
  have hdrop : (fileParts rs r).dropLast = rs ++ recordType :: sub := by
    rw [hparts, ← List.cons_append, ← List.append_assoc, List.dropLast_concat]
  rw [hdrop, List.prefix_append_right_inj, List.cons_prefix_cons] at hbelow
  exact (hsub name (hbelow.2.subset (List.mem_append_right _ List.mem_cons_self))).2 hname

include hrs

theorem IsHoused.names (h : IsHoused recordType Blocked r) :
    ∀ name ∈ fileParts rs r, Path.IsName name := by
  obtain ⟨sub, hsub, -, hparts⟩ := h.place.exists_sub rs htype
  rw [hparts]
  refine List.forall_mem_append.2 ⟨hrs, List.forall_mem_cons.2 ⟨htype, ?_⟩⟩
  refine List.forall_mem_append.2 ⟨fun name hname => (hsub name hname).1, ?_⟩
  exact List.forall_mem_singleton.2 (isName_recordName h.noSlash)

/-- What is apart from the directory of a type is apart from the file of a record. -/
theorem IsHoused.apart (h : IsHoused recordType Blocked r) {q : Path}
    (hq : (Path.inside (rs ++ [recordType])).Apart q) : (Path.inside (fileParts rs r)).Apart q := by
  obtain ⟨sub, -, -, hparts⟩ := h.place.exists_sub rs htype
  have hnames := Path.notMem_dots (h.names hrs htype)
  rw [hparts, ← List.singleton_append, ← List.append_assoc] at hnames ⊢
  exact hq.append_left hnames

end Places

/-! ### Reading record files -/

/-- Reading a record depends on the file at its path. -/
theorem readRecord_of_fileAt? {root : Path} (hps : ".." ∉ ps) (h : t'.fileAt? ps = t.fileAt? ps) :
    readRecord root (.inside ps) t' = readRecord root (.inside ps) t := by
  unfold readRecord readText?
  rw [read?_inside t' hps, read?_inside t hps, h]

theorem isSome_of_readRecord {root : Path} (hps : ".." ∉ ps)
    (h : readRecord root (.inside ps) t = .ok r) : (t.fileAt? ps).isSome = true := by
  unfold readRecord readText? at h
  rw [read?_inside t hps] at h
  cases hfile : t.fileAt? ps with
  | none =>
    rw [hfile] at h
    cases h
  | some content => rfl

theorem directoryOf_inside (names : List String) (name : String) :
    directoryOf (.inside rs) (.inside (rs ++ names ++ [name])) = "/".intercalate names := by
  unfold directoryOf
  rw [Path.parent_concat]
  show (if rs.isPrefixOf (rs ++ names) = true then _ else _) = _
  rw [if_pos (List.isPrefixOf_iff_prefix.2 (List.prefix_append rs names))]
  show "/".intercalate ((rs ++ names).drop rs.length) = _
  rw [List.drop_left]

/-- **What is written for a record** is read as the record. -/
theorem readRecord_of_written (hrs : ∀ name ∈ rs, Path.IsName name)
    (htype : Path.IsName recordType) (hr : IsHoused recordType Blocked r)
    (h : t.fileAt? (fileParts rs r) = some (Text.utf8 r.node.ron)) :
    readRecord (.inside rs) (.inside (fileParts rs r)) t = .ok r.quieted := by
  obtain ⟨sub, -, hdirectory, hparts⟩ := hr.place.exists_sub rs htype
  have hstem : (Path.inside (fileParts rs r)).stem = r.identifier := by
    unfold Path.stem fileParts
    rw [Path.name_concat (isName_recordName hr.noSlash).ne_dots, splitName_recordName hr.ne_empty]
  have hplace : directoryOf (.inside rs) (.inside (fileParts rs r)) = r.directory := by
    rw [hparts, ← List.cons_append, ← List.append_assoc, directoryOf_inside, hdirectory]
  unfold readRecord readText?
  rw [read?_inside t (Path.notMem_dots (hr.names hrs htype)), h, Option.bind_some,
    Text.ofUtf8?_utf8]
  dsimp only
  rw [Record.ofText?_ron]
  dsimp only
  rw [hstem, if_pos (show r.quieted.identifier = r.identifier from rfl), hplace]
  rfl

/-! ### Records in files -/

/-- What the files below the directory of a type are like, whatever records they hold. -/
structure Housing (rs : List String) (recordType : String) (Blocked : Prop) (t₀ t : FileTree) :
    Prop where
  names : t.HasNames
  ordered : t.Ordered
  /-- Directories stand at no places of record files. -/
  free : ∀ ps, IsRecordPlace rs recordType ps → t.isDirectoryAt ps = true → Blocked
  /-- All else is as it was. -/
  others : ∀ q, (Path.inside (rs ++ [recordType])).Apart q → t.at? q = t₀.at? q

/-- The records are those in the files of their type, up to the file at one place. -/
structure Beside (rs : List String) (recordType : String) (Blocked : Prop) (ps : List String)
    (l : List Record) (t : FileTree) : Prop where
  housed : ∀ r ∈ l, IsHoused recordType Blocked r
  apart : ∀ r ∈ l, fileParts rs r ≠ ps
  read : ∀ r ∈ l, ∃ r', readRecord (.inside rs) (.inside (fileParts rs r)) t = .ok r' ∧
    r'.quieted = r.quieted
  complete : ∀ qs, IsRecordPlace rs recordType qs → qs ≠ ps → (t.fileAt? qs).isSome = true →
    ∃ r ∈ l, fileParts rs r = qs

/-- The records are those in the files of their type. -/
structure Records (rs : List String) (recordType : String) (Blocked : Prop) (l : List Record)
    (t : FileTree) : Prop where
  housed : ∀ r ∈ l, IsHoused recordType Blocked r
  read : ∀ r ∈ l, ∃ r', readRecord (.inside rs) (.inside (fileParts rs r)) t = .ok r' ∧
    r'.quieted = r.quieted
  complete : ∀ ps, IsRecordPlace rs recordType ps → (t.fileAt? ps).isSome = true →
    ∃ r ∈ l, fileParts rs r = ps

theorem Records.perm (h : Records rs recordType Blocked l t) (hperm : l.Perm l') :
    Records rs recordType Blocked l' t where
  housed := fun r hr => h.housed r (hperm.mem_iff.2 hr)
  read := fun r hr => h.read r (hperm.mem_iff.2 hr)
  complete := by
    intro ps hps hfile
    obtain ⟨r, hr, hparts⟩ := h.complete ps hps hfile
    exact ⟨r, hperm.mem_iff.1 hr, hparts⟩

/-- Records with other GUIDs are in other files. -/
theorem Records.ne_fileParts (h : Records rs recordType Blocked (r :: l) t)
    (hguid : r.guid ∉ l.map (·.guid)) : ∀ r' ∈ l, fileParts rs r' ≠ fileParts rs r := by
  intro r' hr' heq
  obtain ⟨x, hx, hxr⟩ := h.read r List.mem_cons_self
  obtain ⟨y, hy, hyr⟩ := h.read r' (List.mem_cons_of_mem _ hr')
  rw [heq, hx] at hy
  obtain rfl := Except.ok.inj hy
  exact hguid (List.mem_map.2 ⟨r', hr', (Record.same_of_quieted (hyr.symm.trans hxr)).1⟩)

/-- The records but one are those in the files but that of the one. -/
theorem Records.tail (h : Records rs recordType Blocked (r :: l) t)
    (hapart : ∀ r' ∈ l, fileParts rs r' ≠ fileParts rs r) :
    Beside rs recordType Blocked (fileParts rs r) l t where
  housed := fun r' hr' => h.housed r' (List.mem_cons_of_mem _ hr')
  apart := hapart
  read := fun r' hr' => h.read r' (List.mem_cons_of_mem _ hr')
  complete := by
    intro qs hqs hne hfile
    obtain ⟨r', hr', hparts⟩ := h.complete qs hqs hfile
    rcases List.mem_cons.1 hr' with rfl | hr'
    · exact absurd hparts.symm hne
    · exact ⟨r', hr', hparts⟩

theorem Records.beside (h : Records rs recordType Blocked l t)
    (hfree : ∀ r ∈ l, fileParts rs r ≠ ps) : Beside rs recordType Blocked ps l t where
  housed := h.housed
  apart := hfree
  read := h.read
  complete := fun qs hqs _ hfile => h.complete qs hqs hfile

/-- Without a file at the place, the records are all. -/
theorem Beside.records (h : Beside rs recordType Blocked ps l t) (hnone : t.fileAt? ps = none) :
    Records rs recordType Blocked l t where
  housed := h.housed
  read := h.read
  complete := by
    intro qs hqs hfile
    refine h.complete qs hqs (fun heq => ?_) hfile
    rw [heq, hnone] at hfile
    cases hfile

section Names

variable (hrs : ∀ name ∈ rs, Path.IsName name) (htype : Path.IsName recordType)

include hrs htype

/-- An update of the file at the place leaves the records beside it. -/
theorem Beside.update {new : Option (List UInt8)} (h : Beside rs recordType Blocked ps l t)
    (hupdate : t.IsUpdate ps new t') : Beside rs recordType Blocked ps l t' where
  housed := h.housed
  apart := h.apart
  read := by
    intro r hr
    have hplain := Path.notMem_dots ((h.housed r hr).names hrs htype)
    have hsame : readRecord (.inside rs) (.inside (fileParts rs r)) t' =
        readRecord (.inside rs) (.inside (fileParts rs r)) t :=
      readRecord_of_fileAt? hplain (by rw [hupdate.fileAt?, if_neg (h.apart r hr)])
    rw [hsame]
    exact h.read r hr
  complete := by
    intro qs hqs hne hfile
    rw [hupdate.fileAt?, if_neg hne] at hfile
    exact h.complete qs hqs hne hfile

/-- With the file of a record at the place, the records and this one are all. -/
theorem Beside.cons {w : Record} (h : Beside rs recordType Blocked (fileParts rs r) l t)
    (hr : IsHoused recordType Blocked r) (hw : w.quieted = r.quieted)
    (hwritten : t.fileAt? (fileParts rs r) = some (Text.utf8 w.node.ron)) :
    Records rs recordType Blocked (r :: l) t where
  housed := List.forall_mem_cons.2 ⟨hr, h.housed⟩
  read := by
    obtain ⟨-, hidentifier, hdirectory, -⟩ := Record.same_of_quieted hw
    have hparts : fileParts rs w = fileParts rs r := by
      unfold fileParts
      rw [hidentifier, hdirectory]
    have hhoused : IsHoused recordType Blocked w := by
      refine ⟨?_, hidentifier ▸ hr.noSlash, hidentifier ▸ hr.ne_empty⟩
      unfold HasPlace
      rw [hdirectory]
      exact hr.place
    rw [← hparts] at hwritten
    have hread := readRecord_of_written hrs htype hhoused hwritten
    rw [hparts] at hread
    exact List.forall_mem_cons.2 ⟨⟨_, hread, w.quieted_quieted.trans hw⟩, h.read⟩
  complete := by
    intro qs hqs hfile
    by_cases heq : qs = fileParts rs r
    · exact ⟨r, List.mem_cons_self, heq.symm⟩
    · obtain ⟨r', hr', hparts⟩ := h.complete qs hqs heq hfile
      exact ⟨r', List.mem_cons_of_mem _ hr', hparts⟩

/-- An update of the file of a record changes nothing else. -/
theorem Housing.update {new : Option (List UInt8)} (h : Housing rs recordType Blocked t₀ t)
    (hr : IsHoused recordType Blocked r) (hupdate : t.IsUpdate (fileParts rs r) new t') :
    Housing rs recordType Blocked t₀ t' where
  names := hupdate.names h.names
  ordered := hupdate.ordered h.ordered
  free := by
    intro ps hps hdirectory
    rcases hupdate.directory ps hdirectory with hold | hbelow
    · exact h.free ps hps hold
    · exact hr.blocked htype hps hbelow
  others := fun q hq => (hupdate.apart q (hr.apart hrs htype hq)).trans (h.others q hq)

end Names

/-! ### The steps of the store -/

/-- How a store in files may fail whatever records it holds. -/
inductive Failure (Blocked : Prop) : StoreError → Prop
  | io : Failure Blocked .io
  | unsafeIdentifier {identifier : String} (h : isUnsafe identifier = true) :
      Failure Blocked (.unsafeIdentifier identifier)
  | nameTaken {recordType identifier : String} (h : Blocked) :
      Failure Blocked (.nameTaken recordType identifier)

/-- The store holds these records of a type, has seen them, and for the rest is as `s₀` was. -/
structure Holds (rs : List String) (recordType : String) (Blocked : Prop) (s₀ : FileStore)
    (l : List Record) (s : FileStore) : Prop extends
    Housing rs recordType Blocked s₀.files s.files, Records rs recordType Blocked l s.files where
  seen : ∀ r ∈ l, s.seen.lookup (recordType, r.guid) = some (.inside (fileParts rs r))
  seenOthers : ∀ other guid, other ≠ recordType →
    s.seen.lookup (other, guid) = s₀.seen.lookup (other, guid)

theorem Holds.perm (h : Holds rs recordType Blocked s₀ l s) (hperm : l.Perm l') :
    Holds rs recordType Blocked s₀ l' s where
  toHousing := h.toHousing
  toRecords := h.toRecords.perm hperm
  seen := fun r hr => h.seen r (hperm.mem_iff.2 hr)
  seenOthers := h.seenOthers

/-- What is held now is all that counts. -/
theorem Holds.self (h : Holds rs recordType Blocked s₀ l s) :
    Holds rs recordType Blocked s l s where
  toHousing := ⟨h.names, h.ordered, h.free, fun _ _ => rfl⟩
  toRecords := h.toRecords
  seen := h.seen
  seenOthers := fun _ _ _ => rfl

/-- Below the directory of a type everything is as it was if the directory is. -/
theorem descend?_of_typeDirectory (hrs : ∀ name ∈ rs, Path.IsName name)
    (htype : Path.IsName recordType)
    (hsame : t'.at? (.inside (rs ++ [recordType])) = t.at? (.inside (rs ++ [recordType])))
    (hps : IsRecordPlace rs recordType ps) : t'.descend? ps = t.descend? ps := by
  obtain ⟨sub, name, rfl, -⟩ := hps
  have hplain : ".." ∉ rs ++ [recordType] :=
    Path.notMem_dots (List.forall_mem_append.2 ⟨hrs, List.forall_mem_singleton.2 htype⟩)
  rw [at?_inside _ hplain, at?_inside _ hplain] at hsame
  rw [← List.singleton_append, ← List.append_assoc, descend?_append (rs ++ [recordType]),
    descend?_append (rs ++ [recordType]), hsame]

/-- **The records in files** are those of the directory of their type. -/
theorem Records.transport (hrs : ∀ name ∈ rs, Path.IsName name) (htype : Path.IsName recordType)
    (h : Records rs recordType Blocked l t)
    (hsame : t'.at? (.inside (rs ++ [recordType])) = t.at? (.inside (rs ++ [recordType]))) :
    Records rs recordType Blocked l t' := by
  have hfile (ps : List String) (hps : IsRecordPlace rs recordType ps) :
      t'.fileAt? ps = t.fileAt? ps := by
    unfold fileAt?
    rw [descend?_of_typeDirectory hrs htype hsame hps]
  refine ⟨h.housed, fun r hr => ?_, fun ps hps hps' => h.complete ps hps ?_⟩
  · have hhoused := h.housed r hr
    have hread : readRecord (.inside rs) (.inside (fileParts rs r)) t' =
        readRecord (.inside rs) (.inside (fileParts rs r)) t :=
      readRecord_of_fileAt? (Path.notMem_dots (hhoused.names hrs htype))
        (hfile _ (hhoused.isRecordPlace rs htype))
    rw [hread]
    exact h.read r hr
  · rwa [hfile ps hps] at hps'

/-- **What is held of a type** depends on the directory of the type and on where its records were
seen. -/
theorem Holds.transport (hrs : ∀ name ∈ rs, Path.IsName name) (htype : Path.IsName recordType)
    (h : Holds rs recordType Blocked s₀ l s) (hnames : s'.files.HasNames)
    (hordered : s'.files.Ordered)
    (hsame : s'.files.at? (.inside (rs ++ [recordType])) =
      s.files.at? (.inside (rs ++ [recordType])))
    (hseen : ∀ guid, s'.seen.lookup (recordType, guid) = s.seen.lookup (recordType, guid)) :
    Holds rs recordType Blocked s' l s' where
  names := hnames
  ordered := hordered
  free := by
    intro ps hps hdirectory
    unfold isDirectoryAt at hdirectory
    rw [descend?_of_typeDirectory hrs htype hsame hps] at hdirectory
    exact h.free ps hps hdirectory
  others := fun _ _ => rfl
  toRecords := h.toRecords.transport hrs htype hsame
  seen := fun r hr => (hseen r.guid).trans (h.seen r hr)
  seenOthers := fun _ _ _ => rfl

/-- **The records of another type** are not concerned by what is done with those of a type. -/
theorem Holds.congr {other : String} {Blocked' : Prop} (hrs : ∀ name ∈ rs, Path.IsName name)
    (hother : Path.IsName other) (htype : Path.IsName recordType) (hne : other ≠ recordType)
    (h : Holds rs other Blocked s₀ l s) (hafter : Holds rs recordType Blocked' s l' s') :
    Holds rs other Blocked s' l s' :=
  h.transport hrs hother hafter.names hafter.ordered
    (hafter.others _ (Path.apart_of_ne (Path.notMem_dots hrs) htype hother hne.symm))
    fun guid => hafter.seenOthers other guid hne

theorem lookup_remembered {seen : List ((String × Guid) × Path)} {key key' : String × Guid}
    {p : Path} : List.lookup key' ((key, p) :: seen) =
      if key' = key then some p else seen.lookup key' := by
  rw [List.lookup_cons]
  by_cases h : key' = key
  · rw [if_pos h, beq_iff_eq.2 h]
  · rw [if_neg h, beq_eq_false_iff_ne.2 h]

theorem lookup_forgotten {seen : List ((String × Guid) × Path)} {key key' : String × Guid}
    (h : key' ≠ key) : (seen.filter fun e => e.1 != key).lookup key' = seen.lookup key' := by
  induction seen with
  | nil => rfl
  | cons e seen ih =>
    obtain ⟨other, p⟩ := e
    rw [List.filter_cons, lookup_remembered]
    split_ifs with hkeep hsame hsame
    · rw [lookup_remembered, if_pos hsame]
    · rw [lookup_remembered, if_neg hsame, ih]
    · subst hsame
      exact absurd (bne_iff_ne.2 h) hkeep
    · exact ih

theorem lookup_forgotten_self (seen : List ((String × Guid) × Path)) (key : String × Guid) :
    (seen.filter fun e => e.1 != key).lookup key = none := by
  rw [List.lookup_eq_none_iff]
  intro e he
  rw [List.mem_filter, bne_iff_ne] at he
  exact bne_iff_ne.2 he.2.symm

theorem of_not_isUnsafe {identifier : String} (h : isUnsafe identifier = false) :
    '/' ∉ identifier.toList ∧ identifier ≠ "" := by
  unfold isUnsafe at h
  dsimp only at h
  rw [Bool.or_eq_false_iff, Bool.or_eq_false_iff, Bool.or_eq_false_iff, Bool.or_eq_false_iff] at h
  obtain ⟨⟨⟨⟨hempty, hslash⟩, -⟩, -⟩, -⟩ := h
  refine ⟨fun hmem => ?_, fun hnil => ?_⟩
  · rw [List.contains_iff_mem.2 hmem] at hslash
    cases hslash
  · rw [hnil] at hempty
    cases hempty

theorem hasDots_cons (c : Char) (cs : List Char) : isUnsafe.hasDots (c :: cs) =
    (decide (c = '.' ∧ cs.head? = some '.') || isUnsafe.hasDots cs) := by
  rw [isUnsafe.hasDots.eq_def]
  split
  · next heq =>
    obtain ⟨rfl, rfl⟩ := List.cons.inj heq
    rfl
  · next c' cs' hdots heq =>
    obtain ⟨rfl, rfl⟩ := List.cons.inj heq
    have hnone : ¬(c = '.' ∧ cs.head? = some '.') := by
      rintro ⟨rfl, hhead⟩
      obtain ⟨rest, rfl⟩ := List.head?_eq_some_iff.1 hhead
      exact hdots rest rfl rfl
    rw [decide_eq_false hnone, Bool.false_or]
  · next heq => cases heq

/-- There are no two dots in a row in a text and something without dots behind it. -/
theorem hasDots_append {cs suffix : List Char} (h : isUnsafe.hasDots cs = false)
    (hsuffix : '.' ∉ suffix) : isUnsafe.hasDots (cs ++ suffix) = false := by
  induction cs with
  | nil =>
    induction suffix with
    | nil => rfl
    | cons c suffix ih =>
      rw [List.mem_cons, not_or] at hsuffix
      rw [List.nil_append, hasDots_cons, decide_eq_false fun hdots => hsuffix.1 hdots.1.symm,
        Bool.false_or]
      exact ih hsuffix.2
  | cons c cs ih =>
    rw [hasDots_cons, Bool.or_eq_false_iff, decide_eq_false_iff_not] at h
    rw [List.cons_append, hasDots_cons, ih h.2, Bool.or_false, decide_eq_false_iff_not]
    rintro ⟨rfl, hhead⟩
    rw [List.head?_append, Option.or_eq_some_iff] at hhead
    rcases hhead with hhead | ⟨-, hhead⟩
    · exact h.1 ⟨rfl, hhead⟩
    · exact hsuffix (List.mem_of_mem_head? hhead)

/-- An identifier stays safe with something behind it that has no slashes and no dots. -/
theorem isUnsafe_append {identifier longer : String} {suffix : List Char}
    (h : isUnsafe identifier = false) (hlonger : longer.toList = identifier.toList ++ suffix)
    (hsuffix : ∀ c ∈ suffix, c ≠ '/' ∧ c ≠ '\\' ∧ c ≠ '.') : isUnsafe longer = false := by
  unfold isUnsafe at h ⊢
  dsimp only at h ⊢
  simp only [Bool.or_eq_false_iff, List.isEmpty_eq_false_iff, List.contains_eq_mem,
    decide_eq_false_iff_not] at h ⊢
  obtain ⟨⟨⟨⟨hempty, hslash⟩, hback⟩, hdots⟩, hdot⟩ := h
  rw [hlonger]
  refine ⟨⟨⟨⟨?_, ?_⟩, ?_⟩, ?_⟩, ?_⟩
  · exact List.append_ne_nil_of_left_ne_nil hempty _
  · rw [List.mem_append, not_or]
    exact ⟨hslash, fun hmem => (hsuffix _ hmem).1 rfl⟩
  · rw [List.mem_append, not_or]
    exact ⟨hback, fun hmem => (hsuffix _ hmem).2.1 rfl⟩
  · exact hasDots_append hdots fun hmem => (hsuffix _ hmem).2.2 rfl
  · rintro hone
    rcases List.append_eq_singleton_iff.1 hone with ⟨hnil, -⟩ | ⟨hone, -⟩
    · exact hempty hnil
    · exact hdot hone
theorem change_yields {f : FileTree → Option FileTree} {Q : Unit → FileStore → Prop}
    (h : ∀ files, f s.files = some files → Q () { s with files }) :
    (change f).Yields s Q (Failure Blocked) := by
  refine yields_change (fun s' hs' => ?_) .io
  obtain ⟨files, hfiles, rfl⟩ := Option.map_eq_some_iff.1 hs'
  exact h files hfiles

/-- **Writing a record** updates the file of the record. -/
theorem writeRecord_yields (hps : ∀ name ∈ ps, Path.IsName name) (r : Record) :
    (writeRecord (.inside ps) r).Yields s (fun _ s' =>
      s.files.IsUpdate ps (some (Text.utf8 r.node.ron)) s'.files ∧ s'.seen = s.seen)
        (Failure Blocked) := by
  unfold writeRecord
  refine (change_yields (Q := fun _ s₁ => s.files.makeDirectories? (Path.inside ps).parent =
    some s₁.files ∧ s₁.seen = s.seen) ?_).bind fun _ s₁ h₁ => ?_
  · exact fun files hfiles => And.intro hfiles rfl
  · exact change_yields fun files hfiles => And.intro (isUpdate_of_writeDeep hps h₁.1 hfiles) h₁.2

/-- Taking a file away updates it. -/
theorem removeFile_yields (hps : ∀ name ∈ ps, Path.IsName name) :
    (change (·.removeFile? (.inside ps))).Yields s (fun _ s' =>
      s.files.IsUpdate ps none s'.files ∧ s'.seen = s.seen) (Failure Blocked) :=
  change_yields fun _ hfiles => And.intro (isUpdate_of_removeFile? hps hfiles) rfl

/-- The path for an identifier in the directory of a record. -/
theorem fileFor_inside (htype : Path.IsName recordType) {identifier : String}
    (h : HasPlace recordType Blocked r) (hsafe : isUnsafe identifier = false) :
    fileFor (.inside rs) r.directory identifier =
      .ok (.inside (fileParts rs { r with identifier := identifier })) := by
  obtain ⟨sub, hsub, hdirectory, hparts⟩ :=
    HasPlace.exists_sub rs (r := { r with identifier := identifier }) htype h
  unfold fileFor
  rw [hsafe, if_neg Bool.false_ne_true, hparts, hdirectory, Path.join_intercalate rs
    (List.forall_mem_cons.2 ⟨htype, fun name hname => (hsub name hname).1⟩)]
  have hname := isName_recordName (of_not_isUnsafe hsafe).1
  unfold recordName at hname
  rw [Path.join_inside _ hname, List.append_assoc]
  rfl

/-- A record that was written is seen, and the others still are. -/
theorem seen_cons_of_remembered {seen : List ((String × Guid) × Path)}
    (hguid : r.guid ∉ l.map (·.guid))
    (h : ∀ r' ∈ l, seen.lookup (recordType, r'.guid) = some (.inside (fileParts rs r'))) :
    ∀ r' ∈ r :: l, List.lookup (recordType, r'.guid)
      (((recordType, r.guid), .inside (fileParts rs r)) :: seen) =
        some (.inside (fileParts rs r')) := by
  refine List.forall_mem_cons.2 ⟨by rw [lookup_remembered, if_pos rfl], fun r' hr' => ?_⟩
  rw [lookup_remembered, if_neg fun heq => ?_]
  · exact h r' hr'
  · exact hguid (List.mem_map.2 ⟨r', hr', (Prod.mk.inj heq).2⟩)

/-- No record of another identifier is in the file for an identifier. -/
theorem ne_fileParts_of_identifier (hfree : r.identifier ∉ l.map (·.identifier)) :
    ∀ r' ∈ l, fileParts rs r' ≠ fileParts rs r := by
  intro r' hr' hparts
  refine hfree (List.mem_map.2 ⟨r', hr', ?_⟩)
  exact recordName_inj (List.append_inj_right' hparts rfl |> List.cons.inj |>.1)

section Steps

variable (hrs : ∀ name ∈ rs, Path.IsName name) (htype : Path.IsName recordType)

include hrs htype

/-- A record is found where it was seen. -/
theorem Holds.locate_answers (h : Holds rs recordType Blocked s₀ l s) (hr : r ∈ l) :
    (locate (.inside rs) recordType r.guid).Answers s (.inside (fileParts rs r)) s := by
  obtain ⟨r', hread, -⟩ := h.read r hr
  have hplain := Path.notMem_dots ((h.housed r hr).names hrs htype)
  have hfound : (s.seen.lookup (recordType, r.guid)).filter s.files.hasFile =
      some (.inside (fileParts rs r)) := by
    rw [h.seen r hr, Option.filter_some, hasFile_inside _ hplain,
      isSome_of_readRecord hplain hread, if_pos rfl]
  unfold locate
  refine answers_get_bind.2 ?_
  rw [hfound]
  exact answers_pure _ _

/-- In the place of the file of a record is the file. -/
theorem Holds.holds_file (h : Holds rs recordType Blocked s₀ l s) (hr : r ∈ l) :
    s.files.holds (.inside (fileParts rs r)) = true := by
  obtain ⟨r', hread, -⟩ := h.read r hr
  have hplain := Path.notMem_dots ((h.housed r hr).names hrs htype)
  rw [holds_inside _ hplain, isSome_of_readRecord hplain hread, Bool.true_or]

/-- What is in the place of the file for an identifier that no record has. -/
theorem Holds.blocked_of_holds (h : Holds rs recordType Blocked s₀ l s)
    (hr : IsHoused recordType Blocked r) (hfree : r.identifier ∉ l.map (·.identifier))
    (hholds : s.files.holds (.inside (fileParts rs r)) = true) : Blocked := by
  have hplace := hr.isRecordPlace rs htype
  rw [holds_inside _ (Path.notMem_dots (hr.names hrs htype)), Bool.or_eq_true] at hholds
  rcases hholds with hfile | hdirectory
  · obtain ⟨r', hr', hparts⟩ := h.complete _ hplace hfile
    exact absurd hparts (ne_fileParts_of_identifier hfree r' hr')
  · exact h.free _ hplace hdirectory

/-- A record whose identifier no other has is given a file, unless its identifier is no name for one or
the place is blocked. -/
theorem Holds.place_yields (record : Record) (h : Holds rs recordType Blocked s₀ l s)
    (hplace : HasPlace recordType Blocked record) (hfree : record.identifier ∉ l.map (·.identifier))
    {next : Path → Run Unit} {Q : Unit → FileStore → Prop}
    (hnext : IsHoused recordType Blocked record →
      (next (.inside (fileParts rs record))).Yields s Q (Failure Blocked)) :
    (do
      let p ← fileFor (.inside rs) record.directory record.identifier
      if (← get).files.holds p then throw (.nameTaken recordType record.identifier)
      next p : Run Unit).Yields s Q (Failure Blocked) := by
  cases hsafe : isUnsafe record.identifier with
  | true =>
    -- an identifier that cannot be a file name is refused before anything is looked at
    refine Yields.bind (Q := fun _ _ => False) (yields_lift (fun p hp => ?_) fun e he => ?_)
      fun _ _ hfalse => hfalse.elim
    · unfold fileFor at hp
      rw [hsafe, if_pos rfl] at hp
      cases hp
    · obtain ⟨-, rfl⟩ := fileFor_eq_error he
      exact .unsafeIdentifier hsafe
  | false =>
    have hhoused : IsHoused recordType Blocked record :=
      ⟨hplace, (of_not_isUnsafe hsafe).1, (of_not_isUnsafe hsafe).2⟩
    refine Answers.bind_yields (answers_lift.2 ⟨fileFor_inside htype hplace hsafe, rfl⟩) ?_
    refine yields_get_bind ?_
    split_ifs with hholds
    -- the file is there, so something stands in the way of the record
    · refine Yields.bind (Q := fun _ _ => False) (yields_throw (.nameTaken ?_))
        fun _ _ hfalse => hfalse.elim
      exact h.blocked_of_holds hrs htype hhoused hfree hholds
    · exact hnext hhoused

theorem Holds.delete_yields (h : Holds rs recordType Blocked s₀ (r :: l) s)
    (hguid : r.guid ∉ l.map (·.guid)) :
    (delete (.inside rs) recordType r.guid).Yields s
      (fun _ => Holds rs recordType Blocked s₀ l) (Failure Blocked) := by
  have hhoused := h.housed r List.mem_cons_self
  have hnames := hhoused.names hrs htype
  unfold delete
  refine (h.locate_answers hrs htype List.mem_cons_self).bind_yields ?_
  refine (removeFile_yields hnames).bind fun _ s₁ ⟨hupdate, hseen⟩ => yields_modify ?_
  have hothers : ∀ r' ∈ l, r'.guid ≠ r.guid := fun r' hr' heq =>
    hguid (List.mem_map.2 ⟨r', hr', heq⟩)
  refine ⟨h.toHousing.update hrs htype hhoused hupdate, ?_, fun r' hr' => ?_, ?_⟩
  · refine ((h.toRecords.tail (h.ne_fileParts hguid)).update hrs htype hupdate).records ?_
    rw [hupdate.fileAt?, if_pos rfl]
  · rw [lookup_forgotten fun heq => hothers r' hr' (Prod.mk.inj heq).2, hseen]
    exact h.seen r' (List.mem_cons_of_mem _ hr')
  · intro other guid hother
    rw [lookup_forgotten fun heq => hother (Prod.mk.inj heq).1, hseen]
    exact h.seenOthers other guid hother

theorem Holds.update_yields {record : Record} (h : Holds rs recordType Blocked s₀ (r :: l) s)
    (hguid : r.guid ∉ l.map (·.guid)) (hsame : record.guid = r.guid)
    (hdirectory : record.directory = r.directory) :
    (update (.inside rs) recordType record).Yields s
      (fun _ => Holds rs recordType Blocked s₀ ({ record with identifier := r.identifier } :: l))
        (Failure Blocked) := by
  have hhoused := h.housed r List.mem_cons_self
  have hnames := hhoused.names hrs htype
  obtain ⟨r', hread, hr'⟩ := h.read r List.mem_cons_self
  -- the new record is in the file of the old one
  obtain ⟨-, hidentifier, hplace, -⟩ := Record.same_of_quieted hr'
  have hparts : fileParts rs { record with identifier := r.identifier } = fileParts rs r := by
    unfold fileParts
    rw [hdirectory]
  have hnew : IsHoused recordType Blocked { record with identifier := r.identifier } := by
    refine ⟨?_, hhoused.noSlash, hhoused.ne_empty⟩
    unfold HasPlace
    rw [hdirectory]
    exact hhoused.place
  have hfound := h.locate_answers hrs htype List.mem_cons_self
  rw [← hsame] at hfound
  unfold update
  refine hfound.bind_yields (yields_get_bind ?_)
  refine Answers.bind_yields (answers_lift.2 ⟨hread, rfl⟩) ?_
  rw [hidentifier, hplace, ← hdirectory]
  refine (writeRecord_yields hnames _).mono fun _ s₁ ⟨hupdate, hseen⟩ => ?_
  refine ⟨h.toHousing.update hrs htype hhoused hupdate, ?_, ?_, ?_⟩
  · have hbeside := (h.toRecords.tail (h.ne_fileParts hguid)).update hrs htype hupdate
    rw [← hparts] at hbeside hupdate
    refine hbeside.cons hrs htype hnew rfl ?_
    rw [hupdate.fileAt?, if_pos rfl]
  · rw [hseen]
    refine List.forall_mem_cons.2 ⟨?_, fun r' hr' => h.seen r' (List.mem_cons_of_mem _ hr')⟩
    rw [hparts]
    show s.seen.lookup (recordType, record.guid) = _
    rw [hsame]
    exact h.seen r List.mem_cons_self
  · rw [hseen]
    exact h.seenOthers

theorem Holds.create_yields {record : Record} (h : Holds rs recordType Blocked s₀ l s)
    (hplace : HasPlace recordType Blocked record) (hguid : record.guid ∉ l.map (·.guid))
    (hfree : record.identifier ∉ l.map (·.identifier)) :
    (create (.inside rs) recordType record).Yields s
      (fun _ => Holds rs recordType Blocked s₀ (record :: l)) (Failure Blocked) := by
  unfold create
  refine h.place_yields hrs htype record hplace hfree fun hhoused => ?_
  refine (writeRecord_yields (hhoused.names hrs htype) record).bind
    fun _ s₁ ⟨hupdate, hseen⟩ => yields_modify ?_
  refine ⟨h.toHousing.update hrs htype hhoused hupdate, ?_, ?_, ?_⟩
  · have hbeside := h.toRecords.beside (ne_fileParts_of_identifier hfree)
    refine (hbeside.update hrs htype hupdate).cons hrs htype hhoused rfl ?_
    rw [hupdate.fileAt?, if_pos rfl]
  · exact seen_cons_of_remembered hguid (by rw [hseen]; exact h.seen)
  · intro other guid hother
    rw [lookup_remembered, if_neg fun heq => hother (Prod.mk.inj heq).1, hseen]
    exact h.seenOthers other guid hother

/-- A record is not added if one in its directory is called like it. -/
theorem Holds.create_fails_of_taken {record other : Record}
    (h : Holds rs recordType Blocked s₀ l s) (hplace : HasPlace recordType Blocked record)
    (hsafe : isUnsafe record.identifier = false) (hother : other ∈ l)
    (hidentifier : other.identifier = record.identifier)
    (hdirectory : other.directory = record.directory) :
    (create (.inside rs) recordType record).Fails s (.nameTaken recordType record.identifier) s := by
  have hparts : fileParts rs other = fileParts rs record := by
    unfold fileParts
    rw [hidentifier, hdirectory]
  have hholds := h.holds_file hrs htype hother
  rw [hparts] at hholds
  unfold create
  refine fails_bind.2 (Or.inr ⟨_, s, answers_lift.2 ⟨fileFor_inside htype hplace hsafe, rfl⟩, ?_⟩)
  rw [fails_get_bind, if_pos hholds]
  exact fails_bind.2 (Or.inl (fails_throw.2 ⟨rfl, rfl⟩))

/-- A record is not renamed if another one in its directory has the identifier. -/
theorem Holds.rename_fails_of_taken {other : Record} (h : Holds rs recordType Blocked s₀ l s)
    (hr : r ∈ l) (hother : other ∈ l) (hself : r.identifier ≠ other.identifier)
    (hsafe : isUnsafe other.identifier = false) (hdirectory : other.directory = r.directory) :
    (rename (.inside rs) recordType r.guid other.identifier).Fails s
      (.nameTaken recordType other.identifier) s := by
  obtain ⟨r', hread, hr'⟩ := h.read r hr
  obtain ⟨-, hidentifier, hplace, -⟩ := Record.same_of_quieted hr'
  have hparts : fileParts rs { r with identifier := other.identifier } = fileParts rs other := by
    unfold fileParts
    rw [hdirectory]
  have htarget : fileFor (.inside rs) r.directory other.identifier = .ok _ :=
    fileFor_inside htype (h.housed r hr).place hsafe
  unfold rename
  refine fails_bind.2 (Or.inr ⟨_, s, h.locate_answers hrs htype hr, ?_⟩)
  rw [fails_get_bind]
  refine fails_bind.2 (Or.inr ⟨r', s, answers_lift.2 ⟨hread, rfl⟩, ?_⟩)
  rw [hidentifier, if_neg hself, hplace]
  refine fails_bind.2 (Or.inr ⟨_, s, answers_lift.2 ⟨htarget, rfl⟩, ?_⟩)
  rw [fails_get_bind, hparts, if_pos (h.holds_file hrs htype hother)]
  exact fails_bind.2 (Or.inl (fails_throw.2 ⟨rfl, rfl⟩))

theorem Holds.rename_yields {identifier : String} (h : Holds rs recordType Blocked s₀ (r :: l) s)
    (hguid : r.guid ∉ l.map (·.guid)) (hfree : identifier ∉ l.map (·.identifier)) :
    (rename (.inside rs) recordType r.guid identifier).Yields s
      (fun _ => Holds rs recordType Blocked s₀ ({ r with identifier := identifier } :: l))
        (Failure Blocked) := by
  have hhoused := h.housed r List.mem_cons_self
  obtain ⟨r', hread, hr'⟩ := h.read r List.mem_cons_self
  obtain ⟨hguid', hidentifier, hplace, -⟩ := Record.same_of_quieted hr'
  unfold rename
  refine (h.locate_answers hrs htype List.mem_cons_self).bind_yields (yields_get_bind ?_)
  refine Answers.bind_yields (answers_lift.2 ⟨hread, rfl⟩) ?_
  rw [hidentifier]
  split_ifs with hsame
  · subst hsame
    exact yields_pure h
  rw [hplace]
  have hfree' : identifier ∉ (r :: l).map (·.identifier) := by
    rw [List.map_cons, List.mem_cons, not_or]
    exact ⟨Ne.symm hsame, hfree⟩
  have hapart : ∀ r' ∈ r :: l,
      fileParts rs r' ≠ fileParts rs { r with identifier := identifier } :=
    ne_fileParts_of_identifier hfree'
  refine h.place_yields hrs htype { r with identifier := identifier } hhoused.place hfree'
    fun hnew => ?_
  refine (writeRecord_yields (hnew.names hrs htype) _).bind fun _ s₁ ⟨hwrite, hseen⟩ => ?_
  refine (removeFile_yields (hhoused.names hrs htype)).bind fun _ s₂ ⟨hremove, hseen'⟩ =>
    yields_modify ?_
  -- for a moment the record is in both files
  have hboth : Records rs recordType Blocked ({ r with identifier := identifier } :: r :: l)
      s₁.files := by
    refine ((h.toRecords.beside hapart).update hrs htype hwrite).cons hrs htype hnew
      (w := { r' with identifier := identifier, directory := r.directory }) ?_ ?_
    · exact congrArg (fun x : Record =>
        { x with identifier := identifier, directory := r.directory }) hr'
    · rw [hwrite.fileAt?, if_pos rfl]
  have hbeside := (hboth.perm (List.Perm.swap _ _ _)).tail
    (List.forall_mem_cons.2 ⟨(hapart r List.mem_cons_self).symm, h.ne_fileParts hguid⟩)
  refine ⟨(h.toHousing.update hrs htype hnew hwrite).update hrs htype hhoused hremove, ?_, ?_, ?_⟩
  · refine (hbeside.update hrs htype hremove).records ?_
    rw [hremove.fileAt?, if_pos rfl]
  · refine seen_cons_of_remembered (r := { r with identifier := identifier }) hguid ?_
    rw [hseen', hseen]
    exact fun r' hr' => h.seen r' (List.mem_cons_of_mem _ hr')
  · intro other guid hother
    rw [lookup_remembered, if_neg fun heq => hother (Prod.mk.inj heq).1, hseen', hseen]
    exact h.seenOthers other guid hother

/-- **A store in files serves the records of a type.** -/
theorem serves (s₀ : FileStore) :
    (store (.inside rs)).Serves recordType (Holds rs recordType Blocked s₀)
      (HasPlace recordType Blocked) (Failure Blocked) where
  perm := fun h hperm => h.perm hperm
  rename := fun h hguid hfree => h.rename_yields hrs htype hguid hfree
  update := fun h hguid hsame hdirectory => h.update_yields hrs htype hguid hsame hdirectory
  create := fun h hplace hguid hfree => h.create_yields hrs htype hplace hguid hfree
  delete := fun h hguid => h.delete_yields hrs htype hguid

end Steps

end RecordTables.FileStore
