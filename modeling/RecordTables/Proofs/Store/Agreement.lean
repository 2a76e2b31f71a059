import RecordTables.Proofs.Store.Loading
import RecordTables.Proofs.Store.Memory

/-!
# Stores that agree

A plan is tried out on the store in memory before it is carried out on the store in files.  Here both
stores are asked for the same, one request after the other (`RecordStore.run`), starting empty.  They
give the same replies (`FileStore.run_agrees`), and no type ever has two records of one identifier,
as long as the requests are orderly and the file system does its work.

What makes a request orderly (`StoreRequest.IsOrderly`) is where the stores would part: the store in
memory compares a new identifier with all records of the type, the store in files only with those in
the directory of the record; and the store in files keeps a record that is overwritten where it is.

The two stores are kept together by `FileStore.Mirrors`: the files of each type hold the records of
the catalog, and the store in files has seen no others.  Each request leads from states that mirror
each other to such states (`FileStore.Together`), and so does a run.
-/

namespace RecordTables

open Step

/-! ### Requests -/

/-- What a store can be asked for. -/
inductive StoreRequest where
  | load (recordType : String)
  | create (recordType : String) (record : Record)
  | update (recordType : String) (record : Record)
  | rename (recordType : String) (guid : Guid) (identifier : String)
  | delete (recordType : String) (guid : Guid)

namespace RecordStore

variable {σ : Type}

/-- Does what is asked for.  Only a request for the records of a type is answered with something. -/
def answer (store : RecordStore σ) : StoreRequest → Step σ StoreError (Option RecordSet)
  | .load recordType => do return some (← store.load recordType)
  | .create recordType record => do
    store.create recordType record
    return none
  | .update recordType record => do
    store.update recordType record
    return none
  | .rename recordType guid identifier => do
    store.rename recordType guid identifier
    return none
  | .delete recordType guid => do
    store.delete recordType guid
    return none

/-- The replies to one request after the other, and the state that is left.  A request that is
refused does not keep the later ones from being answered. -/
def run (store : RecordStore σ) :
    List StoreRequest → σ → List (Except StoreError (Option RecordSet)) × σ
  | [], s => ([], s)
  | request :: rest, s =>
    let (reply, after) := (store.answer request).outcome s
    let (replies, last) := store.run rest after
    (reply :: replies, last)

end RecordStore

/-- Why a request was refused, if it was. -/
def fault? {α : Type} : Except StoreError α → Option StoreError
  | .error e => some e
  | .ok _ => none

/-- Two replies say the same: that it is done, the same records of a type, or the same fault. -/
inductive SameReply :
    Except StoreError (Option RecordSet) → Except StoreError (Option RecordSet) → Prop
  | done : SameReply (.ok none) (.ok none)
  | loaded {set set' : RecordSet}
      (h : (set.records.map Record.quieted).Perm (set'.records.map Record.quieted)) :
      SameReply (.ok (some set)) (.ok (some set'))
  | refused (fault : StoreError) : SameReply (.error fault) (.error fault)

open FileStore (HasPlace isUnsafe Holds Failure Refusal)

/-- What keeps two stores together, if these are the records that there are.  A new record has a new
GUID and a place in the directory of its type; a new identifier can be the name of a file, and a
record that has it already is in the same directory; a record is overwritten where it is. -/
def StoreRequest.IsOrderly (c : Catalog) : StoreRequest → Prop
  | .load recordType => Path.IsName recordType
  | .create recordType record =>
    Path.IsName recordType ∧ HasPlace recordType False record ∧
      isUnsafe record.identifier = false ∧
      record.guid ∉ (c.setOf recordType).records.map (·.guid) ∧
      ∀ other ∈ (c.setOf recordType).records,
        other.identifier = record.identifier → other.directory = record.directory
  | .update recordType record =>
    Path.IsName recordType ∧ ∀ old ∈ (c.setOf recordType).records,
      old.guid = record.guid → record.directory = old.directory
  | .rename recordType guid identifier =>
    Path.IsName recordType ∧ isUnsafe identifier = false ∧
      ∀ r ∈ (c.setOf recordType).records, r.guid = guid →
        ∀ other ∈ (c.setOf recordType).records,
          other.identifier = identifier → other.directory = r.directory
  | .delete recordType _ => Path.IsName recordType

/-- Each request of a run is orderly when its turn comes. -/
def Orderly : List StoreRequest → Catalog → Prop
  | [], _ => True
  | request :: rest, c =>
    request.IsOrderly c ∧ Orderly rest ((MemoryStore.store.answer request).outcome c).2

namespace FileStore

variable {rs : List String} {root : Path} {recordType identifier : String} {guid : Guid}
  {r record : Record} {l : List Record} {c c' : Catalog} {s s' : FileStore} {e : StoreError}

/-! ### What the store in files has seen -/

section Seen

variable {key : String × Guid}

theorem change_keeps_seen (f : FileTree → Option FileTree) : (change f).Keeps seen := by
  refine keeps_change fun s s' hs' => ?_
  obtain ⟨files, -, rfl⟩ := Option.map_eq_some_iff.1 hs'
  rfl

theorem writeRecord_keeps_seen (p : Path) (r : Record) : (writeRecord p r).Keeps seen :=
  (change_keeps_seen _).bind fun _ => change_keeps_seen _

/-- Remembering one record does not bear on the others. -/
theorem remember_keeps_lookup (hkey : key ≠ (recordType, guid)) (p : Path) :
    (remember recordType guid p).Keeps fun s => s.seen.lookup key :=
  keeps_modify fun _ => lookup_remembered.trans (if_neg hkey)

theorem forget_keeps_lookup (hkey : key ≠ (recordType, guid)) :
    (forget recordType guid).Keeps fun s => s.seen.lookup key :=
  keeps_modify fun _ => lookup_forgotten hkey

/-- Adding a record does not bear on where the others were seen. -/
theorem create_keeps_lookup (hkey : key ≠ (recordType, record.guid)) :
    (create root recordType record).Keeps fun s => s.seen.lookup key := by
  unfold create
  refine (keeps_lift _).bind fun p => keeps_get.bind fun s => ?_
  have hwrite : (do writeRecord p record; remember recordType record.guid p : Run Unit).Keeps
      fun s => s.seen.lookup key :=
    ((writeRecord_keeps_seen p record).comp (List.lookup key)).bind fun _ =>
      remember_keeps_lookup hkey p
  split_ifs
  · exact (keeps_throw _).bind fun _ => hwrite
  · exact hwrite

variable {p : Path} (hfound : (locate root recordType guid).Answers s p s)

include hfound

/-- Renaming a record that is found does not bear on where the others were seen. -/
theorem lookup_of_rename (hkey : key ≠ (recordType, guid))
    (h : (rename root recordType guid identifier).Answers s () s') :
    s'.seen.lookup key = s.seen.lookup key := by
  unfold rename at h
  refine Keeps.of_bind (f := fun s => s.seen.lookup key) hfound ?_ h
  refine keeps_get.bind fun _ => (keeps_lift _).bind fun r => ?_
  split_ifs
  · exact keeps_pure _
  refine (keeps_lift _).bind fun target => keeps_get.bind fun _ => ?_
  have hmove : (do writeRecord target { r with identifier }; change (·.removeFile? p)
                   remember recordType guid target : Run Unit).Keeps fun s => s.seen.lookup key :=
    ((writeRecord_keeps_seen target _).comp (List.lookup key)).bind fun _ =>
      ((change_keeps_seen _).comp (List.lookup key)).bind fun _ => remember_keeps_lookup hkey target
  split_ifs
  · exact (keeps_throw _).bind fun _ => hmove
  · exact hmove

/-- Overwriting a record that is found does not bear on where records were seen. -/
theorem seen_of_update (hguid : record.guid = guid)
    (h : (update root recordType record).Answers s () s') : s'.seen = s.seen := by
  subst hguid
  unfold update at h
  refine Keeps.of_bind hfound ?_ h
  exact keeps_get.bind fun _ => (keeps_lift _).bind fun _ => writeRecord_keeps_seen _ _

/-- A record that is taken away is forgotten, and the others are not. -/
theorem lookup_of_delete (h : (delete root recordType guid).Answers s () s') :
    s'.seen.lookup key = if key = (recordType, guid) then none else s.seen.lookup key := by
  unfold delete at h
  split_ifs with hkey
  · obtain ⟨_, t, -, h⟩ := answers_bind.1 h
    obtain ⟨_, u, -, h⟩ := answers_bind.1 h
    rw [hkey, answers_modify.1 h]
    exact lookup_forgotten_self _ _
  · refine Keeps.of_bind (f := fun s => s.seen.lookup key) hfound ?_ h
    exact ((change_keeps_seen _).comp (List.lookup key)).bind fun _ => forget_keeps_lookup hkey

end Seen

/-! ### Failures of the file system -/

theorem readRecord_eq_error {p : Path} {files : FileTree} (h : readRecord root p files = .error e) :
    e = .io ∨ e = .malformed := by
  unfold readRecord at h
  split at h
  · exact Or.inl (Except.error.inj h).symm
  split at h
  · exact Or.inr (Except.error.inj h).symm
  split_ifs at h
  exact Or.inr (Except.error.inj h).symm

/-- With identifiers that can name files, and nothing in the way, only the file system fails. -/
theorem Failure.eq_io {files : FileTree} {names : List String} (h : Failure False e)
    (hrefusal : e = .io ∨ Refusal root files names e)
    (hnames : ∀ name ∈ names, isUnsafe name = false) : e = .io := by
  rcases hrefusal with rfl | hrefusal
  · rfl
  cases h with
  | io => rfl
  | nameTaken h => exact h.elim
  | unsafeIdentifier h =>
    cases hrefusal with
    | unsafeIdentifier hname _ =>
      rw [hnames _ hname] at h
      cases h
    | unreadable hread => rcases readRecord_eq_error hread with h | h <;> cases h

/-! ### Stores that mirror each other -/

/-- Both stores have the same records: those of the catalog are in the files of their types, and no
others were seen.  Neither GUIDs nor identifiers occur twice in a type. -/
structure Mirrors (rs : List String) (c : Catalog) (s : FileStore) : Prop where
  wellFormed : ∀ recordType, (c.setOf recordType).WellFormed
  guids : ∀ recordType, ((c.setOf recordType).records.map (·.guid)).Nodup
  identifiers : ∀ recordType, ((c.setOf recordType).records.map (·.identifier)).Nodup
  held : ∀ recordType, Path.IsName recordType →
    Holds rs recordType False s (c.setOf recordType).records s
  unseen : ∀ recordType guid, guid ∉ (c.setOf recordType).records.map (·.guid) →
    s.seen.lookup (recordType, guid) = none

/-- How both stores do one thing: both do it, or both refuse it for the same reason, and they mirror
each other afterwards; or the file system fails. -/
inductive Together {α β : Type} (rs : List String) (c : Catalog) (s : FileStore)
    (memory : Step Catalog StoreError α) (files : Run β) (Same : α → β → Prop) : Prop
  | broken {s' : FileStore} (h : files.Fails s .io s')
  | done {x : α} {y : β} {c' : Catalog} {s' : FileStore} (hmemory : memory.Answers c x c')
      (hfiles : files.Answers s y s') (hsame : Same x y) (hafter : Mirrors rs c' s')
  | refused {e : StoreError} {c' : Catalog} {s' : FileStore} (hmemory : memory.Fails c e c')
      (hfiles : files.Fails s e s') (hafter : Mirrors rs c' s')

/-- What the store in memory does, and the store in files unless the file system fails. -/
theorem Together.of_yields {memory : Step Catalog StoreError Unit} {files : Run Unit}
    {names : List String} {Q : Unit → FileStore → Prop} (hmemory : memory.Answers c () c')
    (hfiles : files.Yields s Q (Failure False))
    (hfails : ∀ e s', files.Fails s e s' → e = .io ∨ Refusal root s'.files names e)
    (hnames : ∀ name ∈ names, isUnsafe name = false)
    (hafter : ∀ s', files.Answers s () s' → Q () s' → Mirrors rs c' s') :
    Together rs c s memory files fun _ _ => True := by
  rcases answers_or_fails files s with ⟨_, s', hanswers⟩ | ⟨e, s', hrefused⟩
  · exact .done hmemory hanswers trivial (hafter s' hanswers (hfiles.answers _ _ hanswers))
  · obtain rfl := (hfiles.fails _ _ hrefused).eq_io (hfails e s' hrefused) hnames
    exact .broken hrefused

section Steps

variable (hrs : ∀ name ∈ rs, Path.IsName name) (htype : Path.IsName recordType)

include hrs htype

/-- After a step on the records of one type, the stores mirror each other if they both have the same
records of this type. -/
theorem Mirrors.step (h : Mirrors rs c s) (hmemory : MemoryStore.Holds c recordType l c')
    (hfiles : Holds rs recordType False s l s') (hguids : (l.map (·.guid)).Nodup)
    (hidentifiers : (l.map (·.identifier)).Nodup)
    (hunseen : ∀ guid, guid ∉ l.map (·.guid) → s'.seen.lookup (recordType, guid) = none) :
    Mirrors rs c' s' := by
  have hrecords := hmemory.records
  refine ⟨fun other => ?_, fun other => ?_, fun other => ?_, fun other hother => ?_,
    fun other guid hguid => ?_⟩ <;> by_cases heq : other = recordType
  -- for the type of the request there is what the request left, for any other what was there
  · rw [heq]
    exact hmemory.wellFormed
  · rw [hmemory.others other heq]
    exact h.wellFormed other
  · rw [heq]
    exact (hrecords.map _).nodup_iff.2 hguids
  · rw [hmemory.others other heq]
    exact h.guids other
  · rw [heq]
    exact (hrecords.map _).nodup_iff.2 hidentifiers
  · rw [hmemory.others other heq]
    exact h.identifiers other
  · rw [heq]
    exact hfiles.self.perm hrecords.symm
  · rw [hmemory.others other heq]
    exact (h.held other hother).congr hrs hother htype heq hfiles
  · subst heq
    exact hunseen guid fun hmem => hguid ((hrecords.map _).mem_iff.2 hmem)
  · rw [hmemory.others other heq] at hguid
    exact (hfiles.seenOthers other guid heq).trans (h.unseen other guid hguid)

omit hrs in
/-- A record of the catalog, in front of the others. -/
theorem Mirrors.exists_front (h : Mirrors rs c s) (hr : r ∈ (c.setOf recordType).records) :
    ∃ l, MemoryStore.Holds c recordType (r :: l) c ∧ Holds rs recordType False s (r :: l) s ∧
      ((r :: l).map (·.guid)).Nodup ∧ ((r :: l).map (·.identifier)).Nodup := by
  obtain ⟨front, back, hsplit⟩ := List.append_of_mem hr
  have hperm : (c.setOf recordType).records.Perm (r :: (front ++ back)) := by
    rw [hsplit]
    exact List.perm_middle
  exact ⟨front ++ back, ⟨h.wellFormed recordType, hperm, fun _ _ => rfl⟩,
    (h.held recordType htype).perm hperm, (hperm.map _).nodup_iff.1 (h.guids recordType),
    (hperm.map _).nodup_iff.1 (h.identifiers recordType)⟩

/-- **Both stores give the same records of a type.** -/
theorem Mirrors.load (h : Mirrors rs c s) :
    ∃ set s', (load (.inside rs) recordType).Answers s set s' ∧ Mirrors rs c s' ∧
      ((c.setOf recordType).records.map Record.quieted).Perm (set.records.map Record.quieted) := by
  obtain ⟨set, s', hload, hquieted, hheld, hseen⟩ :=
    (h.held recordType htype).load_answers hrs htype (h.guids recordType)
  refine ⟨set, s', hload, ?_, hquieted.symm⟩
  refine h.step hrs htype ⟨h.wellFormed recordType, List.Perm.refl _, fun _ _ => rfl⟩ hheld
    (h.guids recordType) (h.identifiers recordType) fun guid hguid => ?_
  exact (hseen guid hguid).trans (h.unseen recordType guid hguid)

/-- Neither store finds a record that is not there. -/
theorem Mirrors.unknown {memory : Step Catalog StoreError Unit} {next : Path → Run Unit}
    (h : Mirrors rs c s) (hguid : guid ∉ (c.setOf recordType).records.map (·.guid))
    (hmemory : memory.Fails c (.notFound recordType guid) c) :
    Together rs c s memory (locate (.inside rs) recordType guid >>= next) fun _ _ => True := by
  obtain ⟨set, s', hload, hafter, -⟩ := h.load hrs htype
  refine .refused hmemory (fails_bind.2 (Or.inl ?_)) hafter
  exact locate_fails_of_unseen hload (h.unseen recordType guid hguid)
    (hafter.unseen recordType guid hguid)

/-- **Both stores add a record**, or refuse it. -/
theorem Mirrors.create (h : Mirrors rs c s)
    (horderly : (StoreRequest.create recordType record).IsOrderly c) :
    Together rs c s (MemoryStore.store.create recordType record)
      ((store (.inside rs)).create recordType record) fun _ _ => True := by
  obtain ⟨-, hplace, hsafe, hguid, hsame⟩ := horderly
  have hheld := h.held recordType htype
  have hmemory : MemoryStore.Holds c recordType (c.setOf recordType).records c :=
    ⟨h.wellFormed recordType, List.Perm.refl _, fun _ _ => rfl⟩
  by_cases hfree : record.identifier ∈ (c.setOf recordType).records.map (·.identifier)
  · obtain ⟨other, hother, hidentifier⟩ := List.mem_map.1 hfree
    exact .refused (MemoryStore.create_fails_of_taken hfree)
      (hheld.create_fails_of_taken hrs htype hplace hsafe hother hidentifier
        (hsame other hother hidentifier)) h
  · obtain ⟨c', hcreate, hafter⟩ := MemoryStore.create_answers hmemory record hfree
    refine .of_yields hcreate (hheld.create_yields hrs htype hplace hguid hfree)
      (fun _ _ => create_fails) (List.forall_mem_singleton.2 hsafe) fun s' hanswers hholds => ?_
    refine h.step hrs htype hafter hholds (List.nodup_cons.2 ⟨hguid, h.guids recordType⟩)
      (List.nodup_cons.2 ⟨hfree, h.identifiers recordType⟩) fun guid hnew => ?_
    rw [List.map_cons, List.mem_cons, not_or] at hnew
    have hkey : (recordType, guid) ≠ (recordType, record.guid) :=
      fun heq => hnew.1 (Prod.mk.inj heq).2
    exact ((create_keeps_lookup hkey).answers hanswers).trans (h.unseen recordType guid hnew.2)

/-- **Both stores overwrite a record**, or do not find it. -/
theorem Mirrors.update (h : Mirrors rs c s)
    (horderly : (StoreRequest.update recordType record).IsOrderly c) :
    Together rs c s (MemoryStore.store.update recordType record)
      ((store (.inside rs)).update recordType record) fun _ _ => True := by
  by_cases hguid : record.guid ∈ (c.setOf recordType).records.map (·.guid)
  · obtain ⟨r, hr, hsame⟩ := List.mem_map.1 hguid
    obtain ⟨l, hmemory, hheld, hguids, hidentifiers⟩ := h.exists_front htype hr
    have hnew := (List.nodup_cons.1 hguids).1
    obtain ⟨c', hupdate, hafter⟩ := MemoryStore.update_answers hmemory hnew record hsame.symm
    refine .of_yields hupdate
      (hheld.update_yields hrs htype hnew hsame.symm (horderly.2 r hr hsame))
      (fun _ _ => update_fails) (List.forall_mem_nil _) fun s' hanswers hholds => ?_
    have hrecords : ({ record with identifier := r.identifier } :: l).map (·.guid) =
        (r :: l).map (·.guid) := by
      rw [List.map_cons, List.map_cons, hsame]
    refine h.step hrs htype hafter hholds (hrecords ▸ hguids) hidentifiers fun guid hmem => ?_
    rw [seen_of_update (hheld.locate_answers hrs htype List.mem_cons_self) hsame.symm hanswers]
    refine h.unseen recordType guid fun hmem' => hmem ?_
    rw [hrecords]
    exact (hmemory.records.map _).mem_iff.1 hmem'
  · refine h.unknown hrs htype hguid ?_
    show (MemoryStore.update recordType record).Fails c _ c
    unfold MemoryStore.update
    exact MemoryStore.withRecord_fails hguid

/-- **Both stores rename a record**, refuse to, or do not find it. -/
theorem Mirrors.rename (h : Mirrors rs c s)
    (horderly : (StoreRequest.rename recordType guid identifier).IsOrderly c) :
    Together rs c s (MemoryStore.store.rename recordType guid identifier)
      ((store (.inside rs)).rename recordType guid identifier) fun _ _ => True := by
  obtain ⟨-, hsafe, hplace⟩ := horderly
  by_cases hguid : guid ∈ (c.setOf recordType).records.map (·.guid)
  · obtain ⟨r, hr, rfl⟩ := List.mem_map.1 hguid
    obtain ⟨l, hmemory, hheld, hguids, hidentifiers⟩ := h.exists_front htype hr
    have hnew := (List.nodup_cons.1 hguids).1
    by_cases hfree : identifier ∈ l.map (·.identifier)
    -- another record has the identifier, and both stores refuse
    · obtain ⟨other, hother, rfl⟩ := List.mem_map.1 hfree
      have hself : r.identifier ≠ other.identifier := by
        intro heq
        rw [← heq] at hfree
        exact (List.nodup_cons.1 hidentifiers).1 hfree
      have hmem : other ∈ (c.setOf recordType).records :=
        hmemory.records.mem_iff.2 (List.mem_cons_of_mem _ hother)
      exact .refused (MemoryStore.rename_fails_of_taken hmemory hnew hself hfree)
        (hheld.rename_fails_of_taken hrs htype List.mem_cons_self (List.mem_cons_of_mem _ hother)
          hself hsafe (hplace r hr rfl other hmem rfl)) h
    · obtain ⟨c', hrename, hafter⟩ := MemoryStore.rename_answers hmemory hnew hfree
      -- the identifier is free, so both rename or the files cannot be written
      refine .of_yields hrename (hheld.rename_yields hrs htype hnew hfree)
        (fun _ _ => rename_fails) (List.forall_mem_singleton.2 hsafe) fun s' hanswers hholds => ?_
      refine h.step hrs htype hafter hholds hguids
        (List.nodup_cons.2 ⟨hfree, (List.nodup_cons.1 hidentifiers).2⟩) fun guid hmem => ?_
      have hother : guid ≠ r.guid := fun heq => hmem (heq ▸ List.mem_cons_self)
      rw [lookup_of_rename (hheld.locate_answers hrs htype List.mem_cons_self)
        (fun heq => hother (Prod.mk.inj heq).2) hanswers]
      exact h.unseen recordType guid fun hmem' => hmem ((hmemory.records.map _).mem_iff.1 hmem')
  · refine h.unknown hrs htype hguid ?_
    -- no record has the GUID
    show (MemoryStore.rename recordType guid identifier).Fails c _ c
    unfold MemoryStore.rename
    exact MemoryStore.withRecord_fails hguid

/-- **Both stores take a record away**, or do not find it. -/
theorem Mirrors.delete (h : Mirrors rs c s) :
    Together rs c s (MemoryStore.store.delete recordType guid)
      ((store (.inside rs)).delete recordType guid) fun _ _ => True := by
  by_cases hguid : guid ∈ (c.setOf recordType).records.map (·.guid)
  · obtain ⟨r, hr, rfl⟩ := List.mem_map.1 hguid
    obtain ⟨l, hmemory, hheld, hguids, hidentifiers⟩ := h.exists_front htype hr
    have hnew := (List.nodup_cons.1 hguids).1
    obtain ⟨c', hdelete, hafter⟩ := MemoryStore.delete_answers hmemory hnew
    refine .of_yields hdelete (hheld.delete_yields hrs htype hnew)
      (fun _ _ => delete_fails) (List.forall_mem_nil _) fun s' hanswers hholds => ?_
    refine h.step hrs htype hafter hholds (List.nodup_cons.1 hguids).2
      (List.nodup_cons.1 hidentifiers).2 fun guid hmem => ?_
    rw [lookup_of_delete (hheld.locate_answers hrs htype List.mem_cons_self) hanswers]
    split_ifs with heq
    · rfl
    · refine h.unseen recordType guid fun hmem' => ?_
      rcases List.mem_cons.1 ((hmemory.records.map _).mem_iff.1 hmem') with rfl | hmem'
      · exact heq rfl
      · exact hmem hmem'
  · refine h.unknown hrs htype hguid ?_
    show (MemoryStore.delete recordType guid).Fails c _ c
    unfold MemoryStore.delete
    exact MemoryStore.withRecord_fails hguid

end Steps

/-! ### Runs -/

theorem Together.map {α β α' β' : Type} {memory : Step Catalog StoreError α} {files : Run β}
    {Same : α → β → Prop} {Same' : α' → β' → Prop} {f : α → α'} {g : β → β'}
    (h : Together rs c s memory files Same) (hsame : ∀ x y, Same x y → Same' (f x) (g y)) :
    Together rs c s (memory >>= fun x => pure (f x)) (files >>= fun y => pure (g y)) Same' := by
  cases h with
  | broken h => exact .broken (fails_bind.2 (Or.inl h))
  | done hmemory hfiles hxy hafter =>
    exact .done (hmemory.bind (answers_pure _ _)) (hfiles.bind (answers_pure _ _))
      (hsame _ _ hxy) hafter
  | refused hmemory hfiles hafter =>
    exact .refused (fails_bind.2 (Or.inl hmemory)) (fails_bind.2 (Or.inl hfiles)) hafter

section Runs

variable (hrs : ∀ name ∈ rs, Path.IsName name)

include hrs

/-- **Both stores answer an orderly request alike.** -/
theorem Mirrors.answer {request : StoreRequest} (h : Mirrors rs c s)
    (horderly : request.IsOrderly c) :
    Together rs c s (MemoryStore.store.answer request) ((store (.inside rs)).answer request)
      fun x y => SameReply (.ok x) (.ok y) := by
  cases request with
  | load recordType =>
    obtain ⟨set, s', hload, hafter, hrecords⟩ := h.load hrs horderly
    exact .done (answers_pure c _) (hload.bind (answers_pure _ _)) (.loaded hrecords) hafter
  | create recordType record => exact (h.create hrs horderly.1 horderly).map fun _ _ _ => .done
  | update recordType record => exact (h.update hrs horderly.1 horderly).map fun _ _ _ => .done
  | rename recordType guid identifier =>
    exact (h.rename hrs horderly.1 horderly).map fun _ _ _ => .done
  | delete recordType guid => exact (h.delete hrs horderly).map fun _ _ _ => .done

/-- Both stores give the same replies in an orderly run, and mirror each other afterwards. -/
theorem Mirrors.run {requests : List StoreRequest} (h : Mirrors rs c s)
    (horderly : Orderly requests c)
    (hio : .error .io ∉ ((store (.inside rs)).run requests s).1) :
    List.Forall₂ SameReply (MemoryStore.store.run requests c).1
        ((store (.inside rs)).run requests s).1 ∧
      Mirrors rs (MemoryStore.store.run requests c).2 ((store (.inside rs)).run requests s).2 := by
  induction requests generalizing c s with
  | nil => exact ⟨.nil, h⟩
  | cons request rest ih =>
    obtain ⟨hrequest, hrest⟩ := horderly
    unfold RecordStore.run at hio ⊢
    rw [List.mem_cons, not_or] at hio
    have hanswer := h.answer hrs hrequest
    cases hanswer with
    | broken hfails =>
      -- a reply from the operating system was excluded
      unfold Fails at hfails
      rw [hfails] at hio
      exact absurd rfl hio.1
    | done hmemory hfiles hsame hafter =>
      unfold Answers at hmemory hfiles
      rw [hmemory] at hrest ⊢
      rw [hfiles] at hio ⊢
      exact (ih hafter hrest hio.2).imp_left (.cons hsame)
    | refused hmemory hfiles hafter =>
      unfold Fails at hmemory hfiles
      rw [hmemory] at hrest ⊢
      rw [hfiles] at hio ⊢
      exact (ih hafter hrest hio.2).imp_left (.cons (.refused _))

omit hrs in
/-- Stores without records mirror each other. -/
theorem mirrors_empty {files : FileTree} (hnames : files.HasNames) (hordered : files.Ordered)
    (hempty : ∀ name, files.descend? (rs ++ [name]) = none) :
    Mirrors rs .empty (ofFiles files) := by
  -- where no directory is, there is no file of a record
  have hnone {recordType : String} {ps : List String} (hps : IsRecordPlace rs recordType ps) :
      files.descend? ps = none := by
    obtain ⟨sub, name, rfl, -⟩ := hps
    rw [← List.singleton_append, ← List.append_assoc, FileTree.descend?_append, hempty]
    rfl
  refine ⟨RecordSet.wellFormed_empty, fun _ => List.nodup_nil, fun _ => List.nodup_nil,
    fun recordType _ => ?_, fun _ _ _ => rfl⟩
  have hplaces : ∀ ps, IsRecordPlace rs recordType ps → ¬(files.isDirectoryAt ps = true) ∧
      ¬((files.fileAt? ps).isSome = true) := by
    intro ps hps
    unfold FileTree.isDirectoryAt FileTree.fileAt?
    rw [hnone hps]
    exact ⟨Bool.false_ne_true, Bool.false_ne_true⟩
  exact
  { names := hnames
    ordered := hordered
    free := fun ps hps hdirectory => (hplaces ps hps).1 hdirectory
    others := fun _ _ => rfl
    housed := fun _ hr => nomatch hr
    read := fun _ hr => nomatch hr
    complete := fun ps hps hfile => absurd hfile (hplaces ps hps).2
    seen := fun _ hr => nomatch hr
    seenOthers := fun _ _ _ => rfl }

/-- **The two stores agree.**  Starting without records, they give the same replies in every orderly
run in which the file system does its work, and afterwards the records of each type can be read and
no two of them have one identifier. -/
theorem run_agrees {files : FileTree} (hnames : files.HasNames) (hordered : files.Ordered)
    (hempty : ∀ name, files.descend? (rs ++ [name]) = none) {requests : List StoreRequest}
    (horderly : Orderly requests .empty)
    (hio : .error .io ∉ ((store (.inside rs)).run requests (ofFiles files)).1) :
    List.Forall₂ SameReply (MemoryStore.store.run requests .empty).1
        ((store (.inside rs)).run requests (ofFiles files)).1 ∧
      ∀ recordType, Path.IsName recordType → ∃ set s',
        (load (.inside rs) recordType).Answers
          ((store (.inside rs)).run requests (ofFiles files)).2 set s' ∧
          (set.records.map (·.identifier)).Nodup := by
  obtain ⟨hreplies, hafter⟩ :=
    (mirrors_empty hnames hordered hempty).run hrs horderly hio
  refine ⟨hreplies, fun recordType htype => ?_⟩
  obtain ⟨set, s', hload, -, hquieted⟩ := hafter.load hrs htype
  refine ⟨set, s', hload, ?_⟩
  have hsame := hquieted.map (·.identifier)
  rw [List.map_map, List.map_map] at hsame
  exact hsame.nodup_iff.1 (hafter.identifiers recordType)

end Runs

/-! ### An armoury -/

theorem HasPlace.below {Blocked : Prop} {name : String} (hname : Path.IsName name)
    (hfree : isRecordName name = false) (h : r.directory = "/".intercalate [recordType, name]) :
    HasPlace recordType Blocked r := by
  refine ⟨[name], List.forall_mem_singleton.2 ⟨hname, fun hrecord => ?_⟩, h⟩
  rw [hfree] at hrecord
  cases hrecord

/-- Two weapons are made and one of them is taken apart again; its name is asked for while it is
there, and its GUID when it is gone. -/
def armoury : List StoreRequest :=
  [.create "Item" ⟨⟨"g1"⟩, "Sword", "Item/a", none, .empty⟩,
    .create "Item" ⟨⟨"g2"⟩, "Axe", "Item/b", none, .empty⟩,
    .create "Item" ⟨⟨"g3"⟩, "Sword", "Item/a", none, .empty⟩,
    .rename "Item" ⟨"g2"⟩ "Blade",
    .update "Item" ⟨⟨"g1"⟩, "Sword", "Item/a", some "h", .empty⟩,
    .delete "Item" ⟨"g1"⟩,
    .rename "Item" ⟨"g1"⟩ "Knife",
    .load "Item"]

theorem orderly_armoury : Orderly armoury .empty := by
  have htype : Path.IsName "Item" := by decide
  have ha {r : Record} (h : r.directory = "Item/a") : HasPlace "Item" False r :=
    .below (by decide : Path.IsName "a") (by decide) (h.trans (by decide))
  have hb {r : Record} (h : r.directory = "Item/b") : HasPlace "Item" False r :=
    .below (by decide : Path.IsName "b") (by decide) (h.trans (by decide))
  refine ⟨⟨htype, ha rfl, ?_⟩, ⟨htype, hb rfl, ?_⟩, ⟨htype, ha rfl, ?_⟩, ⟨htype, ?_⟩, ⟨htype, ?_⟩,
    htype, ⟨htype, ?_⟩, htype, trivial⟩ <;> decide +kernel

/-- The third weapon is refused, and the one that was taken apart is not found. -/
theorem run_agrees_armoury :
    ((store (.inside ["records"])).run armoury (ofFiles .empty)).1.map fault? =
      [none, none, some (.nameTaken "Item" "Sword"), none, none, none,
        some (.notFound "Item" ⟨"g1"⟩), none] ∧
    Orderly armoury .empty ∧
    List.Forall₂ SameReply (MemoryStore.store.run armoury .empty).1
      ((store (.inside ["records"])).run armoury (ofFiles .empty)).1 ∧
    ∀ recordType, Path.IsName recordType → ∃ set s',
      (load (.inside ["records"]) recordType).Answers
        ((store (.inside ["records"])).run armoury (ofFiles .empty)).2 set s' ∧
        (set.records.map (·.identifier)).Nodup := by
  have hfaults : ((store (.inside ["records"])).run armoury (ofFiles .empty)).1.map fault? =
      [none, none, some (.nameTaken "Item" "Sword"), none, none, none,
        some (.notFound "Item" ⟨"g1"⟩), none] := by
    decide +kernel
  refine ⟨hfaults, orderly_armoury, run_agrees (by decide) (by decide)
    FileTree.hereditary_ordered.empty (fun _ => rfl) orderly_armoury fun hio => ?_⟩
  have hmem := List.mem_map_of_mem (f := fault?) hio
  rw [hfaults] at hmem
  revert hmem
  decide

end FileStore

end RecordTables
