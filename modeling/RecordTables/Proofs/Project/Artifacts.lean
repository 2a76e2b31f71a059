import RecordTables.Project.Generation
import RecordTables.Proofs.Files.Progress
import RecordTables.Proofs.Step

/-!
# Files that are generated together

A generation that stages some files and moves them into their directory either installs all of them
(`Artifacts.produce_installs`), or leaves them as they were, as long as no directory stands in the
place of a file (`Artifacts.produce_fails`).  Whichever it is, what is apart from the files and from
the staging directory stays (`Artifacts.produce_keeps`).

The staging directory is made anew (`Artifacts.at?_of_start`), so the files that are staged are all
that is in it (`Artifacts.Fills`) and all that is moved.  Moving them goes on to the end once it has
begun: the only thing that can stop it is a directory in the way (`Artifacts.moveAll_yields`).
-/

namespace RecordTables.Artifacts

open Step FileTree

variable {ε : Type} {fault e : ε} {t t' : FileTree} {ps ss : List String} {q : Path}
  {name : String} {content : List UInt8} {files : List (String × List UInt8)}

/-! ### The staging directory -/

/-- The name of the staging directory of a directory. -/
def stagingName (ps : List String) : String :=
  "." ++ (if (Path.inside ps).name = "" then "output" else (Path.inside ps).name) ++ ".staging"

theorem stagingFor_inside (ps : List String) :
    stagingFor (.inside ps) = .inside (ps.dropLast ++ [stagingName ps]) :=
  rfl

theorem head?_stagingName (ps : List String) : (stagingName ps).toList.head? = some '.' := by
  unfold stagingName
  rw [String.toList_append, String.toList_append]
  rfl

theorem length_stagingName (ps : List String) :
    (Path.inside ps).name.length + 9 ≤ (stagingName ps).length := by
  have hstem : (Path.inside ps).name.length ≤
      (if (Path.inside ps).name = "" then "output" else (Path.inside ps).name).length := by
    split_ifs with hname
    · rw [hname]
      exact Nat.zero_le _
    · exact Nat.le_refl _
  have hdot : ".".length = 1 := rfl
  have hextension : ".staging".length = 8 := rfl
  unfold stagingName
  rw [String.length_append, String.length_append]
  omega

/-- The staging directory is apart from the files of its directory, unless these have a name as a
staging directory has. -/
theorem stagingFor_apart (hps : ".." ∉ ps) (hname : Path.IsName name)
    (hhead : name.toList.head? ≠ some '.') :
    (stagingFor (.inside ps)).Apart (.inside (ps ++ [name])) := by
  have hlength := length_stagingName ps
  have hdots : stagingName ps ≠ ".." := by
    intro hsame
    rw [hsame] at hlength
    change _ + 9 ≤ 2 at hlength
    omega
  -- the staging directory begins with a dot, and the name does not
  have hother : stagingName ps ≠ name := by
    rintro rfl
    exact hhead (head?_stagingName ps)
  rw [stagingFor_inside]
  refine ⟨⟨?_, Path.plain_concat hps hname⟩, ?_⟩
  · rw [List.mem_append, List.mem_singleton, not_or]
    exact ⟨fun hmem => hps ((List.dropLast_prefix ps).subset hmem), Ne.symm hdots⟩
  -- the staging directory stands beside the directory, not below it
  rcases List.eq_nil_or_concat' ps with rfl | ⟨front, last, rfl⟩
  · constructor
    · intro hbelow
      exact hother (List.head_eq_of_cons_eq (List.prefix_iff_eq_take.1 hbelow))
    · intro hbelow
      exact hother (List.head_eq_of_cons_eq (List.prefix_iff_eq_take.1 hbelow)).symm
  · have hlast : last ≠ ".." := fun heq => hps (heq ▸ List.mem_append_right _ List.mem_cons_self)
    rw [Path.name_concat hlast] at hlength
    rw [List.dropLast_concat, List.append_assoc]
    constructor
    · intro hbelow
      rw [List.prefix_append_right_inj, List.singleton_append, List.cons_prefix_cons] at hbelow
      rw [hbelow.1] at hlength
      omega
    · intro hbelow
      rw [List.prefix_append_right_inj] at hbelow
      have hle := hbelow.length_le
      change 2 ≤ 1 at hle
      omega

/-! ### What is left as it was -/

theorem start_keeps {staging : Path} (h : staging.Apart q) :
    (start fault staging).Keeps fun t => t.at? q := by
  refine keeps_get.bind fun files => ?_
  dsimp only
  split_ifs
  · exact (keeps_change fun _ _ hremove => at?_of_change? hremove h).bind fun _ =>
      keeps_change fun _ _ hmake => at?_of_makeDirectories? hmake h
  · exact keeps_change fun _ _ hmake => at?_of_makeDirectories? hmake h

theorem write_keeps (hname : Path.IsName name) (h : (Path.inside ss).Apart q) :
    (write fault (.inside ss) name content).Keeps fun t => t.at? q := by
  unfold write
  dsimp only
  rw [Path.join_inside ss hname, Path.parent_concat]
  exact (keeps_change fun _ _ hmake => at?_of_makeDirectories? hmake h).bind fun _ =>
    keeps_change fun _ _ hwrite =>
      at?_of_change? hwrite (h.append_left (Path.plain_concat h.plain hname))

theorem discard_keeps {staging : Path} (h : staging.Apart q) :
    (discard staging : Run ε Unit).Keeps fun t => t.at? q := by
  refine keeps_modify fun t => ?_
  cases hremove : t.removeDirectory? staging with
  | none => rfl
  | some t' => exact at?_of_change? hremove h

/-- One step of moving: the file of a name is moved from the one directory into the other. -/
theorem moveAll_cons (hname : Path.IsName name) (places : List (List String)) :
    moveAll fault (.inside ps) (.inside ss) ([name] :: places) = (do
      Step.change fault (·.makeDirectories? (.inside ps))
      Step.change fault (·.moveFile? (.inside (ss ++ [name])) (.inside (ps ++ [name])))
      moveAll fault (.inside ps) (.inside ss) places) := by
  rw [moveAll, List.foldl_cons, List.foldl_nil, List.foldl_cons, List.foldl_nil,
    Path.join_inside ps hname, Path.join_inside ss hname, Path.parent_concat]

theorem moveAll_keeps (hnames : ∀ f ∈ files, Path.IsName f.1) (hstaging : (Path.inside ss).Apart q)
    (htarget : ∀ f ∈ files, (Path.inside (ps ++ [f.1])).Apart q) :
    (moveAll fault (.inside ps) (.inside ss) (files.map fun f => [f.1])).Keeps
      fun t => t.at? q := by
  induction files with
  | nil => exact keeps_pure ()
  | cons f files ih =>
    obtain ⟨hf, hothers⟩ := List.forall_mem_cons.1 hnames
    obtain ⟨hplace, hplaces⟩ := List.forall_mem_cons.1 htarget
    rw [List.map_cons, moveAll_cons hf]
    refine Keeps.bind (keeps_change fun t t' hmake => ?_) fun _ =>
      Keeps.bind (keeps_change fun t t' hmove => ?_) fun _ => ih hothers hplaces
    · rw [← Path.parent_concat ps f.1] at hmake
      exact at?_of_makeParent? hmake hplace
    · have hsource := hstaging.append_left (Path.plain_concat hstaging.plain hf)
      exact at?_of_moveFile?_of_apart hmove hsource hplace

/-! ### Moving files -/

/-- The files can be moved from one directory into another: they have different names that files can
have, and their places are apart from the directory that they are moved from. -/
structure CanMove (ps ss : List String) (files : List (String × List UInt8)) : Prop where
  isName : ∀ f ∈ files, Path.IsName f.1
  isEntry : ∀ f ∈ files, FileTree.isName f.1 = true
  nodup : (files.map Prod.fst).Nodup
  apart : ∀ f ∈ files, (Path.inside ss).Apart (.inside (ps ++ [f.1]))
  plain : ".." ∉ ps

/-- A name that a generated file can have: it leads to an entry, and no staging directory has it. -/
def IsFileName (name : String) : Prop :=
  Path.IsName name ∧ FileTree.isName name = true ∧ name.toList.head? ≠ some '.'

instance : DecidablePred IsFileName := fun _ => inferInstanceAs (Decidable (_ ∧ _ ∧ _))

/-- Generated files can be moved out of their staging directory. -/
theorem canMove_staging (hps : ".." ∉ ps) (h : ∀ f ∈ files, IsFileName f.1)
    (hnodup : (files.map Prod.fst).Nodup) : CanMove ps (ps.dropLast ++ [stagingName ps]) files where
  isName := fun f hf => (h f hf).1
  isEntry := fun f hf => (h f hf).2.1
  nodup := hnodup
  apart := fun f hf => stagingFor_apart hps (h f hf).1 (h f hf).2.2
  plain := hps

/-- A directory stands in the place of some file. -/
def Blocked (ps : List String) (files : List (String × List UInt8)) (t : FileTree) : Prop :=
  ∃ f ∈ files, t.isDirectoryAt (ps ++ [f.1]) = true

theorem CanMove.tail {f : String × List UInt8} (h : CanMove ps ss (f :: files)) :
    CanMove ps ss files where
  isName := fun g hg => h.isName g (List.mem_cons_of_mem _ hg)
  isEntry := fun g hg => h.isEntry g (List.mem_cons_of_mem _ hg)
  nodup := (List.nodup_cons.1 h.nodup).2
  apart := fun g hg => h.apart g (List.mem_cons_of_mem _ hg)
  plain := h.plain

/-- The first file has another name than the others. -/
theorem CanMove.head_ne {f g : String × List UInt8} (h : CanMove ps ss (f :: files))
    (hg : g ∈ files) : g.1 ≠ f.1 :=
  fun heq => (List.nodup_cons.1 h.nodup).1 (heq ▸ List.mem_map_of_mem hg)

/-- No file is moved to where a file is staged. -/
theorem CanMove.source_ne {f : String × List UInt8} (h : CanMove ps ss files) (hf : f ∈ files)
    (name : String) : ss ++ [name] ≠ ps ++ [f.1] := by
  intro hsame
  have hbelow := (h.apart f hf).2.1
  rw [← hsame] at hbelow
  exact hbelow (List.prefix_append ss [name])

/-- **Moving one file**: it is in its place afterwards, and the others still are where they were
staged. -/
theorem CanMove.moveFile? {f : String × List UInt8} (h : CanMove ps ss (f :: files))
    (hstaged : ∀ g ∈ f :: files, t.fileAt? (ss ++ [g.1]) = some g.2)
    (hmove : t.moveFile? (.inside (ss ++ [f.1])) (.inside (ps ++ [f.1])) = some t') :
    t'.fileAt? (ps ++ [f.1]) = some f.2 ∧ (∀ g ∈ files, t'.fileAt? (ss ++ [g.1]) = some g.2) ∧
      ∀ qs, t'.isDirectoryAt qs = t.isDirectoryAt qs := by
  have hplain : ∀ g ∈ f :: files, ".." ∉ ss ++ [g.1] := fun g hg =>
    Path.plain_concat (h.apart g hg).plain (h.isName g hg)
  have hsource := hplain f List.mem_cons_self
  have htarget : ".." ∉ ps ++ [f.1] := Path.plain_concat h.plain (h.isName f List.mem_cons_self)
  have hne : ss ++ [f.1] ≠ ps ++ [f.1] := h.source_ne List.mem_cons_self f.1
  refine ⟨?_, fun g hg => ?_, isDirectoryAt_of_moveFile? hsource htarget hmove⟩
  · rw [← read?_inside t' htarget, read?_of_moveFile? hsource htarget hne hmove htarget, if_pos rfl,
      read?_inside t hsource, hstaged f List.mem_cons_self]
  · have hg' : g ∈ f :: files := List.mem_cons_of_mem _ hg
    have hother : ss ++ [g.1] ≠ ss ++ [f.1] := fun hsame => h.head_ne hg (by simpa using hsame)
    rw [← read?_inside t' (hplain g hg'),
      read?_of_moveFile? hsource htarget hne hmove (hplain g hg'),
      if_neg (h.source_ne List.mem_cons_self g.1), if_neg hother, read?_inside t (hplain g hg'),
      hstaged g hg']

/-- **Moving files** into a directory that is there succeeds, and then each file is in its place,
unless a directory stands in the place of one. -/
theorem moveAll_yields (h : CanMove ps ss files) (hparts : ∀ part ∈ ps, FileTree.isName part = true)
    (hdirectory : t.isDirectoryAt ps = true)
    (hstaged : ∀ f ∈ files, t.fileAt? (ss ++ [f.1]) = some f.2) :
    (moveAll fault (.inside ps) (.inside ss) (files.map fun f => [f.1])).Yields t
      (fun _ t' => (∀ f ∈ files, t'.fileAt? (ps ++ [f.1]) = some f.2) ∧
        ∀ qs, t'.isDirectoryAt qs = t.isDirectoryAt qs)
      fun _ => Blocked ps files t := by
  induction files generalizing t with
  | nil => exact yields_pure ⟨List.forall_mem_nil _, fun _ => rfl⟩
  | cons f files ih =>
    have hf := h.isName f List.mem_cons_self
    have hsource : ".." ∉ ss ++ [f.1] := Path.plain_concat (h.apart f List.mem_cons_self).plain hf
    have htarget : ".." ∉ ps ++ [f.1] := Path.plain_concat h.plain hf
    obtain ⟨t₁, hmake, hfiles₁, hdirectories₁⟩ := exists_makeDirectories? h.plain hdirectory hparts
    have hstaged₁ : ∀ g ∈ f :: files, t₁.fileAt? (ss ++ [g.1]) = some g.2 := fun g hg =>
      (hfiles₁ _).trans (hstaged g hg)
    rw [List.map_cons, moveAll_cons hf]
    refine (answers_change.2 hmake).bind_yields ?_
    by_cases hfree : t.isDirectoryAt (ps ++ [f.1]) = true
    · -- the first file cannot be moved
      refine Yields.bind (Q := fun _ _ => False) ?_ fun _ _ hfalse => hfalse.elim
      refine yields_change (fun t₂ hmove => ?_) ⟨f, List.mem_cons_self, hfree⟩
      obtain ⟨hfile, -, hdirectories₂⟩ := h.moveFile? hstaged₁ hmove
      have hnone := isDirectoryAt_eq_false_of_fileAt? hfile
      rw [hdirectories₂, hdirectories₁, hfree] at hnone
      cases hnone
    obtain ⟨t₂, hmove⟩ := exists_moveFile? (t := t₁) hsource (h.isEntry f List.mem_cons_self) htarget
      (hstaged₁ f List.mem_cons_self) ((hdirectories₁ _).trans hdirectory)
      ((hdirectories₁ _).trans (Bool.eq_false_iff.2 hfree))
    obtain ⟨hfile, hothers, hdirectories₂⟩ := h.moveFile? hstaged₁ hmove
    have hdirectories (qs : List String) : t₂.isDirectoryAt qs = t.isDirectoryAt qs :=
      (hdirectories₂ qs).trans (hdirectories₁ qs)
    refine (answers_change.2 hmove).bind_yields ?_
    have hrest := ih h.tail ((hdirectories ps).trans hdirectory) hothers
    -- the other files are moved elsewhere
    have hkeeps : (moveAll fault (.inside ps) (.inside ss) (files.map fun f => [f.1])).Keeps
        fun t => t.at? (.inside (ps ++ [f.1])) :=
      moveAll_keeps h.tail.isName (h.apart f List.mem_cons_self) fun g hg =>
        Path.apart_of_ne h.plain (h.tail.isName g hg) hf (h.head_ne hg)
    refine ⟨fun x t' hanswers => ?_, fun e t' hfails => ?_⟩
    · obtain ⟨hmoved, hdirectories₃⟩ := hrest.answers x t' hanswers
      have hfile' : t'.fileAt? (ps ++ [f.1]) = some f.2 :=
        (fileAt?_congr htarget (hkeeps.answers hanswers)).trans hfile
      exact ⟨List.forall_mem_cons.2 ⟨hfile', hmoved⟩,
        fun qs => (hdirectories₃ qs).trans (hdirectories qs)⟩
    · obtain ⟨g, hg, hblocked⟩ := hrest.fails e t' hfails
      exact ⟨g, List.mem_cons_of_mem _ hg, (hdirectories _).symm.trans hblocked⟩

/-! ### Staged files -/

/-- A directory with some files and nothing else. -/
def flat (files : List (String × List UInt8)) : FileTree :=
  directory (files.map fun f => (f.1, .file f.2))

theorem files_flat (files : List (String × List UInt8)) :
    (flat files).files = files.map fun f => ([f.1], f.2) := by
  show filesOf (files.map fun f => (f.1, FileTree.file f.2)) = _
  induction files with
  | nil => rfl
  | cons f files ih =>
    rw [List.map_cons, List.map_cons, filesOf, ih]
    rfl

theorem staged_flat {staging : Path} (h : t.at? staging = some (flat files)) :
    staged staging t = files.map fun f => [f.1] := by
  unfold staged
  rw [h]
  dsimp only
  rw [files_flat, List.map_map]
  rfl

theorem lookup_flat {f : String × List UInt8} (hnodup : (files.map Prod.fst).Nodup)
    (hf : f ∈ files) : (files.map fun f => (f.1, FileTree.file f.2)).lookup f.1 = some (.file f.2) := by
  induction files with
  | nil => cases hf
  | cons g files ih =>
    rw [List.map_cons, lookup_cons]
    obtain ⟨hfirst, hothers⟩ := List.nodup_cons.1 hnodup
    rcases List.mem_cons.1 hf with rfl | hf
    · rw [if_pos rfl]
    · have hne : f.1 ≠ g.1 := fun heq => hfirst (heq ▸ List.mem_map_of_mem hf)
      rw [if_neg hne, ih hothers hf]

/-- A staged file is at its place in the staging directory. -/
theorem fileAt?_flat (hplain : ".." ∉ ss) (h : t.at? (.inside ss) = some (flat files))
    (hnodup : (files.map Prod.fst).Nodup) {f : String × List UInt8} (hf : f ∈ files) :
    t.fileAt? (ss ++ [f.1]) = some f.2 := by
  rw [at?_inside t hplain] at h
  unfold fileAt?
  rw [descend?_append, h, Option.bind_some, flat, descend?_cons, lookup_flat hnodup hf]
  rfl

/-- A file that is staged is one more entry of the staging directory. -/
theorem write_adds {entries : List (String × FileTree)} (hname : Path.IsName name)
    (h : (write fault (.inside ss) name content).Answers t () t') (hplain : ".." ∉ ss)
    (hstaging : t.at? (.inside ss) = some (directory entries)) :
    t'.at? (.inside ss) =
      some (directory (NameMap.insertEntry name (.file content) entries)) := by
  unfold write at h
  rw [Path.join_inside ss hname] at h
  obtain ⟨_, t₁, hmake, hwrite⟩ := answers_bind.1 h
  have hmake := answers_change.1 hmake
  have hwrite := answers_change.1 hwrite
  rw [Path.parent_concat] at hmake
  have hmade : t₁.at? (.inside ss) = some (directory entries) := by
    rw [at?_of_makeDirectories?_self hmake hplain, hstaging]
    rfl
  exact at?_of_write?_directory hwrite (Path.plain_concat hplain hname) hmade

/-- The staging directory is empty when it was made. -/
theorem at?_of_start (h : (start fault (.inside ss)).Answers t () t') (hplain : ".." ∉ ss) :
    t'.at? (.inside ss) = some empty := by
  unfold start at h
  rw [answers_get_bind] at h
  dsimp only at h
  split_ifs at h with hholds
  · obtain ⟨_, t₁, hremove, hmake⟩ := answers_bind.1 h
    have hremove := answers_change.1 hremove
    have hmake := answers_change.1 hmake
    rw [at?_of_makeDirectories?_self hmake hplain, at?_of_removeDirectory? hremove hplain]
    rfl
  · have hmake := answers_change.1 h
    have hnone : t.at? (.inside ss) = none := by
      unfold holds at hholds
      simpa using hholds
    rw [at?_of_makeDirectories?_self hmake hplain, hnone]
    rfl

/-- A staging directory has a name that an entry can have, if it could be made. -/
theorem isName_of_start (h : (start fault (.inside ss)).Answers t () t') (hplain : ".." ∉ ss) :
    ∀ part ∈ ss, FileTree.isName part = true := by
  have hmade {t : FileTree} (hmake : t.makeDirectories? (.inside ss) = some t') :
      ∀ part ∈ ss, FileTree.isName part = true := by
    unfold makeDirectories? at hmake
    rw [place?_inside t hplain] at hmake
    exact isName_of_makeAt? hmake
  unfold start at h
  rw [answers_get_bind] at h
  dsimp only at h
  split_ifs at h
  · obtain ⟨_, t₁, -, hmake⟩ := answers_bind.1 h
    exact hmade (answers_change.1 hmake)
  · exact hmade (answers_change.1 h)

/-! ### Installing staged files -/

/-- What is caught here is thrown again. -/
theorem not_answers_discard {staging : Path} {x : Unit} :
    ¬Answers (do discard staging; throw e : Run ε Unit) t x t' := by
  intro h
  obtain ⟨_, t₁, -, hthrow⟩ := answers_bind.1 h
  exact not_answers_throw hthrow

/-- Moves the files at some places into the target and takes the staging directory away. -/
def install (fault : ε) (target staging : Path) (places : List (List String)) : Run ε Unit := do
  Step.change fault (·.makeDirectories? target)
  moveAll fault target staging places
  Step.change fault (·.removeDirectory? staging)

theorem commit_eq (fault : ε) (target staging : Path) :
    commit fault target staging = (do
      let places := staged staging (← get)
      tryCatch (install fault target staging places) fun e => do
        discard staging
        throw e
      return places.map fun place => "/".intercalate place) :=
  rfl

theorem install_keeps (hmove : CanMove ps ss files) (hstaging : (Path.inside ss).Apart q)
    (htarget : ∀ f ∈ files, (Path.inside (ps ++ [f.1])).Apart q) (hne : files ≠ []) :
    (install fault (.inside ps) (.inside ss) (files.map fun f => [f.1])).Keeps
      fun t => t.at? q := by
  refine Keeps.bind (keeps_change fun t t' hmake => ?_) fun _ =>
    (moveAll_keeps hmove.isName hstaging htarget).bind fun _ =>
      keeps_change fun t t' hremove => at?_of_change? hremove hstaging
  obtain ⟨f, hf⟩ := List.exists_mem_of_ne_nil files hne
  rw [← Path.parent_concat ps f.1] at hmake
  exact at?_of_makeParent? hmake (htarget f hf)

section Install

variable {front : List String} {last : String} (hmove : CanMove ps (front ++ [last]) files)
  (hplain : ".." ∉ front ++ [last])
  (hstaged : t.at? (.inside (front ++ [last])) = some (flat files))

include hmove hplain hstaged

/-- What is known when the directory of the files has been made. -/
theorem install_start {t₁ : FileTree} (hmake : t.makeDirectories? (.inside ps) = some t₁) :
    (∀ part ∈ ps, FileTree.isName part = true) ∧ t₁.isDirectoryAt ps = true ∧
      (∀ f ∈ files, t₁.fileAt? (front ++ [last] ++ [f.1]) = some f.2) ∧
      t₁.isDirectoryAt (front ++ [last]) = true ∧ (Blocked ps files t₁ → Blocked ps files t) := by
  unfold makeDirectories? at hmake
  rw [place?_inside t hmove.plain] at hmake
  have hmake : t.makeAt? ps = some t₁ := hmake
  refine ⟨isName_of_makeAt? hmake, (isDirectoryAt_makeAt? hmake).2 (Or.inr List.prefix_rfl),
    fun f hf => ?_, (isDirectoryAt_makeAt? hmake).2 (Or.inl ?_), ?_⟩
  · rw [fileAt?_of_makeAt? hmake, fileAt?_flat hplain hstaged hmove.nodup hf]
  · rw [at?_inside t hplain] at hstaged
    unfold isDirectoryAt
    rw [hstaged]
    rfl
  · rintro ⟨f, hf, hblocked⟩
    refine ⟨f, hf, ((isDirectoryAt_makeAt? hmake).1 hblocked).resolve_right fun hbelow => ?_⟩
    have hle := hbelow.length_le
    rw [List.length_append, List.length_singleton] at hle
    exact absurd hle (Nat.not_succ_le_self _)

/-- When staged files have been installed, each is in its place. -/
theorem install_answers (h : (install fault (.inside ps) (.inside (front ++ [last]))
      (files.map fun f => [f.1])).Answers t () t') :
    (∀ f ∈ files, t'.read? (.inside (ps ++ [f.1])) = some f.2) ∧
      ∀ part ∈ ps, FileTree.isName part = true := by
  obtain ⟨_, t₁, hmake, h⟩ := answers_bind.1 h
  obtain ⟨_, t₂, hall, hremove⟩ := answers_bind.1 h
  have hremove := answers_change.1 hremove
  obtain ⟨hparts, hdirectory, hfiles, -, -⟩ :=
    install_start hmove hplain hstaged (answers_change.1 hmake)
  obtain ⟨hmoved, -⟩ := (moveAll_yields hmove hparts hdirectory hfiles).answers _ _ hall
  refine ⟨fun f hf => ?_, hparts⟩
  have htarget := Path.plain_concat hmove.plain (hmove.isName f hf)
  rw [read?_inside t' htarget, fileAt?_congr htarget (at?_of_change? hremove (hmove.apart f hf)),
    hmoved f hf]

/-- If no directory is in the way, installing fails before anything is changed. -/
theorem install_fails (hlast : FileTree.isName last = true) (hfree : ¬Blocked ps files t)
    (h : (install fault (.inside ps) (.inside (front ++ [last]))
      (files.map fun f => [f.1])).Fails t e t') : t' = t := by
  rcases fails_bind.1 h with hmake | ⟨_, t₁, hmake, h⟩
  · exact (fails_change.1 hmake).2.2
  obtain ⟨hparts, hdirectory, hfiles, hstaging, hblocked⟩ :=
    install_start hmove hplain hstaged (answers_change.1 hmake)
  rcases fails_bind.1 h with hfails | ⟨_, t₂, hanswers, hremove⟩
  · exact absurd (hblocked ((moveAll_yields hmove hparts hdirectory hfiles).fails _ _ hfails)) hfree
  · -- the staging directory is still there, so it can be taken away
    obtain ⟨-, hdirectories⟩ :=
      (moveAll_yields hmove hparts hdirectory hfiles).answers _ _ hanswers
    obtain ⟨t₃, ht₃⟩ := exists_removeDirectory? (t := t₂) hplain hlast
      ((hdirectories _).trans hstaging)
    rw [(fails_change.1 hremove).1] at ht₃
    cases ht₃

end Install

/-! ### Generating files -/

/-- A step that stages files: in an empty staging directory it leaves just these files, and it
changes nothing that is apart from the staging directory. -/
structure Fills (fill : Run ε Unit) (ss : List String) (files : List (String × List UInt8)) :
    Prop where
  keeps : ∀ q, (Path.inside ss).Apart q → fill.Keeps fun t => t.at? q
  flat : ∀ t t', t.at? (.inside ss) = some empty → fill.Answers t () t' →
    t'.at? (.inside ss) = some (flat files)

/-- A single file that is staged. -/
theorem fills_write (hname : Path.IsName name) (hplain : ".." ∉ ss) :
    Fills (write fault (.inside ss) name content) ss [(name, content)] :=
  ⟨fun _ hq => write_keeps hname hq, fun _ _ hempty h => write_adds hname h hplain hempty⟩

/-- Makes the staging directory and fills it. -/
def stage (fault : ε) (staging : Path) (fill : Run ε Unit) : Run ε Unit := do
  start fault staging
  tryCatch fill fun e => do
    discard staging
    throw e

theorem produce_eq (fault : ε) (target : Path) (fill : (staging : Path) → Run ε Unit) :
    produce fault target fill = (do
      stage fault (stagingFor target) (fill (stagingFor target))
      commit fault target (stagingFor target)) := by
  unfold produce stage
  rw [bind_assoc]

theorem stage_keeps {fill : Run ε Unit} (hfill : Fills fill ss files)
    (h : (Path.inside ss).Apart q) :
    (stage fault (.inside ss) fill).Keeps fun t => t.at? q :=
  (start_keeps h).bind fun _ =>
    (hfill.keeps q h).tryCatch fun _ => (discard_keeps h).bind fun _ => keeps_throw _

theorem stage_answers {fill : Run ε Unit} (hfill : Fills fill ss files) (hplain : ".." ∉ ss)
    (h : (stage fault (.inside ss) fill).Answers t () t') :
    t'.at? (.inside ss) = some (flat files) ∧ ∀ part ∈ ss, FileTree.isName part = true := by
  obtain ⟨_, t₁, hstart, hrest⟩ := answers_bind.1 h
  rw [answers_tryCatch fun e u => not_answers_discard] at hrest
  exact ⟨hfill.flat t₁ t' (at?_of_start hstart hplain) hrest, isName_of_start hstart hplain⟩

section Produce

variable {fill : (staging : Path) → Run ε Unit}
  (hmove : CanMove ps (ps.dropLast ++ [stagingName ps]) files) (hne : files ≠ [])
  (hfill : Fills (fill (.inside (ps.dropLast ++ [stagingName ps])))
    (ps.dropLast ++ [stagingName ps]) files)

include hmove hne

theorem plain_staging : ".." ∉ ps.dropLast ++ [stagingName ps] := by
  obtain ⟨f, hf⟩ := List.exists_mem_of_ne_nil files hne
  exact (hmove.apart f hf).plain

include hfill

/-- **What is apart** from the files and from the staging directory stays, whether the generation
succeeds or not. -/
theorem produce_keeps (hstaging : (stagingFor (.inside ps)).Apart q)
    (htarget : ∀ f ∈ files, (Path.inside (ps ++ [f.1])).Apart q) :
    (produce fault (.inside ps) fill).Keeps fun t => t.at? q := by
  rw [stagingFor_inside] at hstaging
  rw [produce_eq, stagingFor_inside]
  intro t
  rw [outcome_bind]
  -- staging touches only what is below the staging directory
  have hkept : (stage fault (.inside (ps.dropLast ++ [stagingName ps]))
      (fill (.inside (ps.dropLast ++ [stagingName ps])))).Keeps fun t => t.at? q :=
    stage_keeps hfill hstaging
  replace hkept := hkept t
  match hstage : (stage fault (.inside (ps.dropLast ++ [stagingName ps]))
      (fill (.inside (ps.dropLast ++ [stagingName ps])))).outcome t with
  | (.error e, t₁) =>
    rw [hstage] at hkept
    exact hkept
  | (.ok (), t₁) =>
    rw [hstage] at hkept
    obtain ⟨hflat, -⟩ := stage_answers hfill (plain_staging hmove hne) hstage
    -- moving the files and clearing up touch that and the targets
    have hcommit : (do
        tryCatch (install fault (.inside ps) (.inside (ps.dropLast ++ [stagingName ps]))
          (staged (.inside (ps.dropLast ++ [stagingName ps])) t₁)) fun e => do
            discard (.inside (ps.dropLast ++ [stagingName ps]))
            throw e
        return (staged (.inside (ps.dropLast ++ [stagingName ps])) t₁).map
          fun place => "/".intercalate place : Run ε (List String)).Keeps fun t => t.at? q := by
      rw [staged_flat hflat]
      refine Keeps.bind (Keeps.tryCatch ?_ fun _ => ?_) fun _ => keeps_pure _
      · exact install_keeps hmove hstaging htarget hne
      · exact (discard_keeps hstaging).bind fun _ => keeps_throw _
    exact (hcommit t₁).trans hkept

/-- **A generation that succeeds** has put every file in its place, and tells their names. -/
theorem produce_installs {installed : List String}
    (h : (produce fault (.inside ps) fill).Answers t installed t') :
    installed = files.map Prod.fst ∧ (∀ f ∈ files, t'.read? (.inside (ps ++ [f.1])) = some f.2) ∧
      ∀ part ∈ ps, FileTree.isName part = true := by
  rw [produce_eq, stagingFor_inside] at h
  obtain ⟨_, t₁, hstage, hcommit⟩ := answers_bind.1 h
  obtain ⟨hflat, -⟩ := stage_answers hfill (plain_staging hmove hne) hstage
  rw [commit_eq, answers_get_bind, staged_flat hflat] at hcommit
  obtain ⟨_, t₂, hinstall, hpure⟩ := answers_bind.1 hcommit
  obtain ⟨hinstalled, rfl⟩ := answers_pure_iff.1 hpure
  rw [answers_tryCatch fun e u => not_answers_discard] at hinstall
  refine ⟨?_, install_answers hmove (plain_staging hmove hne) hflat hinstall⟩
  rw [hinstalled, List.map_map]
  rfl

/-- **A generation that fails** leaves the files as they were, unless a directory stands in the place
of one. -/
theorem produce_fails (h : (produce fault (.inside ps) fill).Fails t e t')
    (hfree : ¬Blocked ps files t) :
    ∀ f ∈ files, t'.at? (.inside (ps ++ [f.1])) = t.at? (.inside (ps ++ [f.1])) := by
  have hplain := plain_staging hmove hne
  have hkept : ∀ f ∈ files, (stage fault (.inside (ps.dropLast ++ [stagingName ps]))
      (fill (.inside (ps.dropLast ++ [stagingName ps])))).Keeps
        fun t => t.at? (.inside (ps ++ [f.1])) :=
    fun f hf => stage_keeps hfill (hmove.apart f hf)
  rw [produce_eq, stagingFor_inside] at h
  intro f hf
  rcases fails_bind.1 h with hstage | ⟨_, t₁, hstage, hcommit⟩
  · exact (hkept f hf).fails hstage
  -- all files are staged, so the failure is in moving them
  obtain ⟨hflat, hparts⟩ := stage_answers hfill hplain hstage
  rw [commit_eq, fails_get_bind, staged_flat hflat] at hcommit
  have hfree₁ : ¬Blocked ps files t₁ := by
    rintro ⟨g, hg, hblocked⟩
    refine hfree ⟨g, hg, ?_⟩
    rw [← isDirectoryAt_congr (Path.plain_concat hmove.plain (hmove.isName g hg))
      ((hkept g hg).answers hstage), hblocked]
  rcases fails_bind.1 hcommit with hinstall | ⟨_, _, -, hpure⟩
  · unfold Fails at hinstall
    rw [outcome_tryCatch] at hinstall
    match hrun : (install fault (.inside ps) (.inside (ps.dropLast ++ [stagingName ps]))
        (files.map fun f => [f.1])).outcome t₁ with
    | (.ok (), t₂) =>
      rw [hrun] at hinstall
      cases (Prod.mk.inj hinstall).1
    | (.error e', t₂) =>
      rw [hrun] at hinstall
      -- the first file could not be moved, and nothing was moved before
      obtain rfl := install_fails hmove hplain hflat (hparts _ (List.mem_append_right _
        List.mem_cons_self)) hfree₁ hrun
      have hdiscard := ((discard_keeps (hmove.apart f hf)).bind fun _ => keeps_throw e').fails
        hinstall
      exact hdiscard.trans ((hkept f hf).answers hstage)
  · exact absurd hpure not_fails_pure

end Produce

end RecordTables.Artifacts
