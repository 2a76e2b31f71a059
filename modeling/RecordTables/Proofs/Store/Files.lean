import RecordTables.Proofs.Files.Invariants
import RecordTables.Proofs.Record.Set
import RecordTables.Proofs.Step
import RecordTables.Store.Files

/-!
# What a store in files reads and refuses

A store in files refuses a step for reasons of two kinds.  The file system may fail; or the files
are not what the step needs, which is a `FileStore.Refusal`: an identifier that cannot name a file, a
file in the way of a new one, a record file that cannot be read, a record without a file.  Reading
the records of a type never changes the files (`FileStore.load_keeps`).

The records of a type are what is in the directory of the type: if two trees have the same there, a
store reads the same from both, whatever it has seen before (`FileStore.load_congr`).
-/

namespace RecordTables.FileStore

open Step

variable {root directory p : Path} {recordType : String} {guid : Guid} {s s' : FileStore}
  {e : StoreError}

/-! ### Reading -/

theorem remember_keeps (recordType : String) (guid : Guid) (p : Path) :
    (remember recordType guid p).Keeps files :=
  keeps_modify fun _ => rfl

theorem loadPlaces_keeps (places : List (List String)) (set : RecordSet) :
    (loadPlaces root directory recordType places set).Keeps files := by
  induction places generalizing set with
  | nil => exact keeps_pure set
  | cons place places ih =>
    unfold loadPlaces
    refine keeps_get.bind fun s => ?_
    split
    · exact keeps_throw _
    · exact (remember_keeps _ _ _).bind fun _ => ih _

/-- Reading the records of a type leaves the files as they were. -/
theorem load_keeps (root : Path) (recordType : String) : (load root recordType).Keeps files :=
  keeps_get.bind fun _ => loadPlaces_keeps _ _

/-- Only a record file that cannot be read keeps the records of a type from being read. -/
theorem loadPlaces_fails {places : List (List String)} {set : RecordSet}
    (h : (loadPlaces root directory recordType places set).Fails s e s') :
    ∃ p, readRecord root p s'.files = .error e := by
  induction places generalizing set s with
  | nil => exact absurd h not_fails_pure
  | cons place places ih =>
    unfold loadPlaces at h
    rw [fails_get_bind] at h
    split at h
    · next e' hread =>
      obtain ⟨rfl, rfl⟩ := fails_throw.1 h
      exact ⟨_, hread⟩
    · rcases fails_bind.1 h with h | ⟨-, t, -, h⟩
      · exact absurd h (blames_modify (P := fun _ => False) _ _ _ _)
      · exact ih h

theorem load_fails (h : (load root recordType).Fails s e s') :
    ∃ p, readRecord root p s'.files = .error e := by
  unfold load at h
  rw [fails_get_bind] at h
  exact loadPlaces_fails h

/-- Where records were read is remembered. -/
theorem seen_of_loadPlaces {places : List (List String)} {set set' : RecordSet}
    (h : (loadPlaces root directory recordType places set).Answers s set' s')
    (hset : set.WellFormed)
    (hseen : ∀ r ∈ set.records, (s.seen.lookup (recordType, r.guid)).isSome) :
    ∀ r ∈ set'.records, (s'.seen.lookup (recordType, r.guid)).isSome := by
  induction places generalizing set s with
  | nil =>
    obtain ⟨rfl, rfl⟩ := answers_pure_iff.1 h
    exact hseen
  | cons place places ih =>
    unfold loadPlaces at h
    rw [answers_get_bind] at h
    split at h
    · exact absurd h not_answers_throw
    · next r hread =>
      obtain ⟨⟨⟩, t, hremember, h⟩ := answers_bind.1 h
      obtain rfl := answers_modify.1 hremember
      refine ih h (hset.insert r) fun r' hr' => ?_
      -- the GUID of the record is remembered, and the others were so before
      have hrecords : (set.insert r).2.records.Perm (r :: set.records) :=
        (RecordSet.entries_insert hset r).map Prod.snd
      rw [List.lookup_cons]
      split
      · rfl
      · next hne =>
        rcases List.mem_cons.1 (hrecords.mem_iff.1 hr') with rfl | hr'
        · simp at hne
        · exact hseen r' hr'

theorem seen_of_load {set : RecordSet} (h : (load root recordType).Answers s set s') :
    ∀ r ∈ set.records, (s'.seen.lookup (recordType, r.guid)).isSome := by
  unfold load at h
  rw [answers_get_bind] at h
  exact seen_of_loadPlaces h (RecordSet.wellFormed_empty recordType) fun _ hr => nomatch hr

/-! ### Refusals -/

/-- Why a store does not do what it is asked to, with identifiers among `names`, though the file
system does its work. -/
inductive Refusal (root : Path) (files : FileTree) (names : List String) : StoreError → Prop
  /-- An identifier cannot be the name of a file. -/
  | unsafeIdentifier {identifier : String} (hname : identifier ∈ names)
      (h : isUnsafe identifier = true) : Refusal root files names (.unsafeIdentifier identifier)
  /-- There is something in the place of the file for an identifier. -/
  | nameTaken {recordType directory identifier : String} {p : Path} (hname : identifier ∈ names)
      (hp : fileFor root directory identifier = .ok p) (h : files.holds p = true) :
      Refusal root files names (.nameTaken recordType identifier)
  /-- A record file cannot be read. -/
  | unreadable {p : Path} {fault : StoreError} (h : readRecord root p files = .error fault) :
      Refusal root files names fault
  /-- No record file is that of a record. -/
  | unseen {recordType : String} {guid : Guid} {s s' : FileStore} {set : RecordSet}
      (hload : (load root recordType).Answers s set s') (hfiles : s'.files = files)
      (h : guid ∉ set.records.map (·.guid)) :
      Refusal root files names (.notFound recordType guid)

theorem Refusal.mono {files : FileTree} {names names' : List String} (h : Refusal root files names e)
    (hnames : ∀ name ∈ names, name ∈ names') : Refusal root files names' e := by
  cases h with
  | unsafeIdentifier hname h => exact .unsafeIdentifier (hnames _ hname) h
  | nameTaken hname hp h => exact .nameTaken (hnames _ hname) hp h
  | unreadable h => exact .unreadable h
  | unseen hload hfiles h => exact .unseen hload hfiles h

theorem locate_fails {names : List String} (h : (locate root recordType guid).Fails s e s') :
    Refusal root s'.files names e := by
  unfold locate at h
  rw [fails_get_bind] at h
  split at h
  · exact absurd h not_fails_pure
  · rcases fails_bind.1 h with h | ⟨set, t, hload, h⟩
    · obtain ⟨p, hp⟩ := load_fails h
      exact .unreadable hp
    · rw [fails_get_bind, fails_ofOption] at h
      obtain ⟨hnone, rfl, rfl⟩ := h
      refine .unseen hload rfl fun hmem => ?_
      obtain ⟨r, hr, rfl⟩ := List.mem_map.1 hmem
      have hseen := seen_of_load hload r hr
      rw [hnone] at hseen
      cases hseen

/-- A record that was not seen, before all records of its type were read or after, is not found. -/
theorem locate_fails_of_unseen {set : RecordSet} (hload : (load root recordType).Answers s set s')
    (hbefore : s.seen.lookup (recordType, guid) = none)
    (hafter : s'.seen.lookup (recordType, guid) = none) :
    (locate root recordType guid).Fails s (.notFound recordType guid) s' := by
  unfold locate
  rw [fails_get_bind, hbefore]
  refine fails_bind.2 (Or.inr ⟨set, s', hload, ?_⟩)
  rw [fails_get_bind, fails_ofOption]
  exact ⟨hafter, rfl, rfl⟩

theorem change_blames (f : FileTree → Option FileTree) : (change f).Blames (· = .io) :=
  blames_change (P := fun e => e = StoreError.io) rfl _

theorem writeRecord_blames (p : Path) (r : Record) : (writeRecord p r).Blames (· = .io) :=
  (change_blames _).bind fun _ => change_blames _

theorem fileFor_eq_error {directory identifier : String}
    (h : fileFor root directory identifier = .error e) :
    isUnsafe identifier = true ∧ e = .unsafeIdentifier identifier := by
  unfold fileFor at h
  split_ifs at h with hreserved
  exact ⟨hreserved, (Except.error.inj h).symm⟩

/-- No file is found for an identifier if it cannot be one, or something is in its place.  What is done
with the file fails only if the file system does. -/
theorem of_place_fails {directory identifier : String} {next : Path → Run Unit}
    (hnext : ∀ p, (next p).Blames (· = .io))
    (h : (do
      let p ← fileFor root directory identifier
      if (← get).files.holds p then throw (.nameTaken recordType identifier)
      next p : Run Unit).Fails s e s') :
    e = .io ∨ Refusal root s'.files [identifier] e := by
  rcases fails_bind.1 h with hfails | ⟨p, t, hp, hrest⟩
  · obtain ⟨hreserved, rfl⟩ := fileFor_eq_error (fails_lift.1 hfails).1
    exact Or.inr (.unsafeIdentifier List.mem_cons_self hreserved)
  rw [fails_get_bind] at hrest
  split_ifs at hrest with hfile
  · rcases fails_bind.1 hrest with hfails | ⟨_, u, hu, -⟩
    · obtain ⟨rfl, rfl⟩ := fails_throw.1 hfails
      exact Or.inr (.nameTaken List.mem_cons_self (answers_lift.1 hp).1 hfile)
    · exact absurd hu not_answers_throw
  · exact Or.inl (hnext p _ _ _ hrest)

/-- A record is not added if the file system fails, or its identifier cannot be a file there. -/
theorem create_fails {r : Record} (h : (create root recordType r).Fails s e s') :
    e = .io ∨ Refusal root s'.files [r.identifier] e := by
  unfold create at h
  exact of_place_fails (fun p => (writeRecord_blames p r).bind fun _ => blames_modify _) h

/-- A record is not overwritten if the file system fails, or it is not found. -/
theorem update_fails {r : Record} (h : (update root recordType r).Fails s e s') :
    e = .io ∨ Refusal root s'.files [] e := by
  unfold update at h
  rcases fails_bind.1 h with hfails | ⟨p, t, -, hrest⟩
  · exact Or.inr (locate_fails hfails)
  rw [fails_get_bind] at hrest
  rcases fails_bind.1 hrest with hfails | ⟨current, u, -, hfails⟩
  · obtain ⟨hread, rfl⟩ := fails_lift.1 hfails
    exact Or.inr (.unreadable hread)
  · exact Or.inl (writeRecord_blames _ _ _ _ _ hfails)

/-- A record keeps its identifier if the file system fails, it is not found, or the new identifier
cannot be a file there. -/
theorem rename_fails {identifier : String}
    (h : (rename root recordType guid identifier).Fails s e s') :
    e = .io ∨ Refusal root s'.files [identifier] e := by
  unfold rename at h
  rcases fails_bind.1 h with hfails | ⟨p, t, -, hrest⟩
  · exact Or.inr (locate_fails hfails)
  rw [fails_get_bind] at hrest
  rcases fails_bind.1 hrest with hfails | ⟨r, u, -, hrest⟩
  · obtain ⟨hread, rfl⟩ := fails_lift.1 hfails
    exact Or.inr (.unreadable hread)
  split_ifs at hrest with hsame
  · exact absurd hrest not_fails_pure
  exact of_place_fails (fun target => (writeRecord_blames target _).bind fun _ =>
    (change_blames _).bind fun _ => blames_modify _) hrest

/-- A record stays if the file system fails, or it is not found. -/
theorem delete_fails (h : (delete root recordType guid).Fails s e s') :
    e = .io ∨ Refusal root s'.files [] e := by
  unfold delete at h
  rcases fails_bind.1 h with hfails | ⟨p, t, -, hrest⟩
  · exact Or.inr (locate_fails hfails)
  rcases fails_bind.1 hrest with hfails | ⟨-, u, -, hfails⟩
  · exact Or.inl (change_blames _ _ _ _ hfails)
  · exact absurd hfails (blames_modify (P := fun _ => False) _ _ _ _)

/-! ### What reading depends on -/

section Reading

open FileTree

/-- Reading a record depends on what stands at its path. -/
theorem readRecord_congr {t t' : FileTree} (h : t'.at? p = t.at? p) :
    readRecord root p t' = readRecord root p t := by
  unfold readRecord readText? read?
  rw [h]

/-- The same is read at places where the same stands. -/
theorem loadPlaces_congr {places : List (List String)} {set set' : RecordSet} {u : FileStore}
    (h : (loadPlaces root directory recordType places set).Answers s set' u)
    (hsame : ∀ place ∈ places, readRecord root (place.foldl Path.join directory) s'.files =
      readRecord root (place.foldl Path.join directory) s.files) :
    ∃ u', (loadPlaces root directory recordType places set).Answers s' set' u' := by
  induction places generalizing s s' set with
  | nil =>
    obtain ⟨rfl, -⟩ := answers_pure_iff.1 h
    exact ⟨s', answers_pure s' set'⟩
  | cons place places ih =>
    unfold loadPlaces at h ⊢
    rw [answers_get_bind] at h
    split at h
    · exact absurd h not_answers_throw
    · next r hread =>
      obtain ⟨⟨⟩, t, hremember, hrest⟩ := answers_bind.1 h
      obtain rfl := answers_modify.1 hremember
      have hothers : ∃ u', (loadPlaces root directory recordType places (set.insert r).2).Answers
          { s' with seen := ((recordType, r.guid), place.foldl Path.join directory) :: s'.seen }
          set' u' :=
        ih hrest fun q hq => hsame q (List.mem_cons_of_mem _ hq)
      obtain ⟨u', hu'⟩ := hothers
      refine ⟨u', ?_⟩
      rw [answers_get_bind, hsame place List.mem_cons_self, hread]
      exact (answers_modify.2 rfl).bind hu'

/-- **Reading the records of a type** depends on what stands in its directory. -/
theorem load_congr {ps : List String} {set : RecordSet} {u : FileStore}
    (hdirectory : root.join recordType = .inside ps) (hps : ".." ∉ ps)
    (hnames : ∀ d, s.files.at? (.inside ps) = some d → d.HasNames)
    (hsame : s'.files.at? (.inside ps) = s.files.at? (.inside ps))
    (h : (load root recordType).Answers s set u) :
    ∃ u', (load root recordType).Answers s' set u' := by
  unfold load at h ⊢
  rw [answers_get_bind] at h
  simp only [answers_get_bind]
  rw [hdirectory] at h ⊢
  rw [hsame]
  refine loadPlaces_congr h fun place hplace => readRecord_congr ?_
  cases hd : s.files.at? (.inside ps) with
  | none =>
    rw [hd] at hplace
    cases hplace
  | some d =>
    rw [hd] at hplace
    obtain ⟨f, hf, rfl⟩ := List.mem_map.1 (List.mem_filter.1 hplace).1
    have hplain := hnames d hd f hf
    rw [at?_foldl_join hps hplain, at?_foldl_join hps hplain, hsame]

/-! ### The type of a set -/

theorem recordType_insert (set : RecordSet) (r : Record) :
    (set.insert r).2.recordType = set.recordType := by
  unfold RecordSet.insert
  dsimp only
  split <;> rfl

theorem recordType_of_loadPlaces {places : List (List String)} {set set' : RecordSet}
    (h : (loadPlaces root directory recordType places set).Answers s set' s') :
    set'.recordType = set.recordType := by
  induction places generalizing s set with
  | nil => rw [(answers_pure_iff.1 h).1]
  | cons place places ih =>
    unfold loadPlaces at h
    rw [answers_get_bind] at h
    split at h
    · exact absurd h not_answers_throw
    · next r hread =>
      obtain ⟨_, t, -, hrest⟩ := answers_bind.1 h
      exact (ih hrest).trans (recordType_insert set r)

/-- The records of a type are a set of the type. -/
theorem recordType_of_load {set : RecordSet} (h : (load root recordType).Answers s set s') :
    set.recordType = recordType := by
  unfold load at h
  rw [answers_get_bind] at h
  exact recordType_of_loadPlaces h

end Reading

end RecordTables.FileStore
