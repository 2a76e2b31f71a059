import RecordTables.Proofs.Files.Invariants

/-!
# What the files of a tree hold

A change of one file changes what is read at its place and at no other: writing a file
(`FileTree.read?_of_write?`), taking it away (`FileTree.read?_of_removeFile?`) and moving it
(`FileTree.read?_of_moveFile?`).  Making directories changes no file at all
(`FileTree.fileAt?_of_makeAt?`).  Unlike what stands at a place (`FileTree.at?`), what is read there is
not concerned by changes above and below.  All that is known of writing one file or taking it away,
directories included, is put together in `FileTree.IsUpdate`.
-/

namespace RecordTables.FileTree

variable {t t' : FileTree} {ps qs : List String} {change : Option FileTree → Option (Option FileTree)}
  {content : List UInt8}

/-- The bytes at some parts, if a file stands there. -/
def fileAt? (t : FileTree) (ps : List String) : Option (List UInt8) :=
  match t.descend? ps with
  | some (file content) => some content
  | _ => none

/-- What is read depends on what stands at the place. -/
theorem read?_congr {p : Path} (h : t'.at? p = t.at? p) : t'.read? p = t.read? p := by
  unfold read?
  rw [h]

theorem read?_eq_some_iff {p : Path} {content : List UInt8} :
    t.read? p = some content ↔ t.at? p = some (file content) := by
  unfold read?
  split
  · next found hat =>
    rw [hat, Option.some.injEq, Option.some.injEq, file.injEq]
  · next hnone =>
    constructor
    · exact (nomatch ·)
    · exact fun hat => absurd hat (hnone content)

theorem read?_inside (t : FileTree) (hps : ".." ∉ ps) : t.read? (.inside ps) = t.fileAt? ps := by
  unfold read? fileAt?
  exact at?_inside t hps ▸ rfl

/-! ### At parts -/

theorem fileAt?_cons (name : String) (ps : List String) (entries : List (String × FileTree)) :
    (directory entries).fileAt? (name :: ps) = (entries.lookup name).bind (·.fileAt? ps) := by
  unfold fileAt?
  rw [descend?_cons]
  cases entries.lookup name <;> rfl

/-- There is nothing below a file. -/
theorem fileAt?_file (content : List UInt8) (hps : ps ≠ []) : (file content).fileAt? ps = none := by
  obtain ⟨name, ps, rfl⟩ := List.exists_cons_of_ne_nil hps
  rfl

theorem fileAt?_empty (ps : List String) : empty.fileAt? ps = none := by
  cases ps <;> rfl

/-- A change that is about files only. -/
def IsFileChange (change : Option FileTree → Option (Option FileTree)) : Prop :=
  ∀ old new, change old = some new →
    (∀ t, old = some t → t.isDirectory = false) ∧ ∀ t, new = some t → t.isDirectory = false

/-- A change of a file changes no other file. -/
theorem fileAt?_of_changeAt? (hchange : IsFileChange change) (h : t.changeAt? change ps = some t')
    (hne : qs ≠ ps) : t'.fileAt? qs = t.fileAt? qs := by
  induction ps generalizing t t' qs with
  | nil =>
    rw [changeAt?_nil] at h
    cases h
  | cons name ps ih =>
    cases t with
    | file content =>
      rw [changeAt?_file] at h
      cases h
    | directory entries =>
      obtain ⟨child, rfl, hchild⟩ := changeAt?_eq_some h
      cases qs with
      | nil => rfl
      | cons other qs =>
        rw [fileAt?_cons, fileAt?_cons, lookup_setEntry]
        split_ifs with hother
        · subst hother
          have hne' : qs ≠ ps := fun heq => hne (by rw [heq])
          rcases hchild with ⟨rfl, hfiles⟩ | ⟨-, old, new, hold, rfl, hrest⟩
          · -- below a file, before and after, there is nothing
            have hbelow (t? : Option FileTree) (ht : ∀ t, t? = some t → t.isDirectory = false) :
                t?.bind (·.fileAt? qs) = none := by
              match t?, ht with
              | none, _ => rfl
              | some (file content), _ => exact fileAt?_file content hne'
              | some (directory entries), ht => cases ht _ rfl
            obtain ⟨hold, hnew⟩ := hchange _ _ hfiles
            rw [hbelow _ hold, hbelow _ hnew]
          · rw [hold]
            exact ih hrest hne'
        · rfl

/-- Making directories changes no file. -/
theorem fileAt?_of_makeAt? (h : t.makeAt? ps = some t') (qs : List String) :
    t'.fileAt? qs = t.fileAt? qs := by
  induction ps generalizing t t' qs with
  | nil =>
    cases t with
    | file content => cases h
    | directory entries => rw [← Option.some.inj h]
  | cons name ps ih =>
    cases t with
    | file content => cases h
    | directory entries =>
      unfold makeAt? at h
      split_ifs at h
      obtain ⟨child, hchild, rfl⟩ := Option.map_eq_some_iff.1 h
      cases qs with
      | nil => rfl
      | cons other qs =>
        rw [fileAt?_cons, fileAt?_cons, lookup_setEntry]
        split_ifs with hother
        · rw [hother, Option.bind_some, ih hchild]
          cases entries.lookup name with
          | none => exact fileAt?_empty qs
          | some old => rfl
        · rfl

/-! ### Directories -/

/-- Whether a directory stands at some parts. -/
def isDirectoryAt (t : FileTree) (ps : List String) : Bool := (t.descend? ps).any isDirectory

/-- What is read at a place depends on what stands there. -/
theorem fileAt?_congr (hps : ".." ∉ ps) (h : t'.at? (.inside ps) = t.at? (.inside ps)) :
    t'.fileAt? ps = t.fileAt? ps := by
  rw [at?_inside t' hps, at?_inside t hps] at h
  unfold fileAt?
  rw [h]

theorem isDirectoryAt_congr (hps : ".." ∉ ps) (h : t'.at? (.inside ps) = t.at? (.inside ps)) :
    t'.isDirectoryAt ps = t.isDirectoryAt ps := by
  rw [at?_inside t' hps, at?_inside t hps] at h
  unfold isDirectoryAt
  rw [h]

theorem isDirectoryAt_cons (name : String) (ps : List String) (entries : List (String × FileTree)) :
    (directory entries).isDirectoryAt (name :: ps) = (entries.lookup name).any (·.isDirectoryAt ps) := by
  unfold isDirectoryAt
  rw [descend?_cons]
  cases entries.lookup name <;> rfl

theorem isDirectoryAt_of_not_isDirectory (h : t.isDirectory = false) (ps : List String) :
    t.isDirectoryAt ps = false := by
  cases t with
  | file content => cases ps <;> rfl
  | directory entries => cases h

/-- A change of a file makes no directory. -/
theorem isDirectoryAt_of_changeAt? (hchange : IsFileChange change)
    (h : t.changeAt? change ps = some t') (qs : List String) :
    t'.isDirectoryAt qs = t.isDirectoryAt qs := by
  induction ps generalizing t t' qs with
  | nil =>
    rw [changeAt?_nil] at h
    cases h
  | cons name ps ih =>
    cases t with
    | file content =>
      rw [changeAt?_file] at h
      cases h
    | directory entries =>
      obtain ⟨child, rfl, hchild⟩ := changeAt?_eq_some h
      cases qs with
      | nil => rfl
      | cons other qs =>
        rw [isDirectoryAt_cons, isDirectoryAt_cons, lookup_setEntry]
        split_ifs with hother
        · subst hother
          rcases hchild with ⟨rfl, hfiles⟩ | ⟨-, old, new, hold, rfl, hrest⟩
          · -- neither what was there nor what is there now is a directory
            have hnone (t? : Option FileTree) (ht : ∀ t, t? = some t → t.isDirectory = false) :
                t?.any (·.isDirectoryAt qs) = false := by
              cases t? with
              | none => rfl
              | some t => exact isDirectoryAt_of_not_isDirectory (ht t rfl) qs
            obtain ⟨hold, hnew⟩ := hchange _ _ hfiles
            rw [hnone _ hold, hnone _ hnew]
          · rw [hold]
            exact ih hrest qs
        · rfl

/-- The directories that are made are those on the way. -/
theorem isDirectoryAt_of_makeAt? (h : t.makeAt? ps = some t') (hqs : t'.isDirectoryAt qs = true) :
    t.isDirectoryAt qs = true ∨ qs <+: ps := by
  induction ps generalizing t t' qs with
  | nil =>
    cases t with
    | file content => cases h
    | directory entries => exact Or.inl (Option.some.inj h ▸ hqs)
  | cons name ps ih =>
    cases t with
    | file content => cases h
    | directory entries =>
      unfold makeAt? at h
      split_ifs at h
      obtain ⟨child, hchild, rfl⟩ := Option.map_eq_some_iff.1 h
      cases qs with
      | nil => exact Or.inr List.nil_prefix
      | cons other qs =>
        rw [isDirectoryAt_cons, lookup_setEntry] at hqs
        rw [isDirectoryAt_cons]
        split_ifs at hqs with hother
        · subst hother
          rw [List.cons_prefix_cons]
          -- below the first part: the directory was there, or it is one of those made
          rcases ih hchild hqs with hold | hbelow
          · cases hentry : entries.lookup other with
            | none =>
              rw [hentry] at hold
              cases qs with
              | nil => exact Or.inr ⟨rfl, List.nil_prefix⟩
              | cons next qs => cases hold
            | some old =>
              rw [hentry] at hold
              exact Or.inl hold
          · exact Or.inr ⟨rfl, hbelow⟩
        · exact Or.inl hqs

/-! ### At paths -/

theorem hasFile_inside (t : FileTree) (hps : ".." ∉ ps) :
    t.hasFile (.inside ps) = (t.fileAt? ps).isSome := by
  unfold hasFile fileAt?
  rw [at?_inside t hps]
  cases t.descend? ps with
  | none => rfl
  | some d => cases d <;> rfl

theorem holds_inside (t : FileTree) (hps : ".." ∉ ps) :
    t.holds (.inside ps) = ((t.fileAt? ps).isSome || t.isDirectoryAt ps) := by
  unfold holds fileAt? isDirectoryAt
  rw [at?_inside t hps]
  cases t.descend? ps with
  | none => rfl
  | some d => cases d <;> rfl

/-- A change of a file at a path, seen everywhere. -/
theorem contents_of_change? (hps : ".." ∉ ps) (hchange : IsFileChange change)
    (h : t.change? (.inside ps) change = some t') :
    (∀ qs, t'.fileAt? qs = if qs = ps then t'.fileAt? ps else t.fileAt? qs) ∧
      ∀ qs, t'.isDirectoryAt qs = t.isDirectoryAt qs := by
  unfold change? at h
  rw [place?_inside t hps] at h
  refine ⟨fun qs => ?_, fun qs => isDirectoryAt_of_changeAt? hchange h qs⟩
  split_ifs with heq
  · rw [heq]
  · exact fileAt?_of_changeAt? hchange h heq

/-- Writing a file makes no directory and no other file. -/
theorem contents_of_write? (hps : ".." ∉ ps) (h : t.write? (.inside ps) content = some t') :
    (∀ qs, t'.fileAt? qs = if qs = ps then some content else t.fileAt? qs) ∧
      ∀ qs, t'.isDirectoryAt qs = t.isDirectoryAt qs := by
  have hself : t'.fileAt? ps = some content := by
    rw [← read?_inside t' hps]
    unfold read?
    rw [at?_of_write? h hps]
  rw [← hself]
  refine contents_of_change? hps (fun old new hnew => ?_) h
  split at hnew
  · cases hnew
  · next hold =>
    rw [← Option.some.inj hnew]
    refine ⟨fun t ht => ?_, fun t ht => by rw [← Option.some.inj ht]; rfl⟩
    cases t with
    | file content => rfl
    | directory entries => exact absurd ht (hold entries)

/-- Taking a file away changes no directory and no other file. -/
theorem contents_of_removeFile? (hps : ".." ∉ ps) (h : t.removeFile? (.inside ps) = some t') :
    (∀ qs, t'.fileAt? qs = if qs = ps then none else t.fileAt? qs) ∧
      ∀ qs, t'.isDirectoryAt qs = t.isDirectoryAt qs := by
  have hself : t'.fileAt? ps = none := by
    have hchange := change_at?_of_change? h hps
    rw [← read?_inside t' hps]
    split at hchange
    · unfold read?
      rw [← Option.some.inj hchange]
    · cases hchange
  rw [← hself]
  refine contents_of_change? hps (fun old new hnew => ?_) h
  split at hnew
  · rw [← Option.some.inj hnew]
    exact ⟨fun t ht => by rw [← Option.some.inj ht]; rfl, fun t ht => nomatch ht⟩
  · cases hnew

section Plain

variable (hqs : ".." ∉ qs)

include hqs

/-- **Writing a file** changes what is read at its place only. -/
theorem read?_of_write? (hps : ".." ∉ ps) (h : t.write? (.inside ps) content = some t') :
    t'.read? (.inside qs) = if qs = ps then some content else t.read? (.inside qs) := by
  rw [read?_inside t' hqs, read?_inside t hqs, (contents_of_write? hps h).1]

/-- **Taking a file away** changes what is read at its place only. -/
theorem read?_of_removeFile? (hps : ".." ∉ ps) (h : t.removeFile? (.inside ps) = some t') :
    t'.read? (.inside qs) = if qs = ps then none else t.read? (.inside qs) := by
  rw [read?_inside t' hqs, read?_inside t hqs, (contents_of_removeFile? hps h).1]

end Plain

/-- **Moving a file** changes what is read at the two places only. -/
theorem read?_of_moveFile? (hps : ".." ∉ ps) (hqs : ".." ∉ qs) (hne : ps ≠ qs)
    (h : t.moveFile? (.inside ps) (.inside qs) = some t') {rs : List String} (hrs : ".." ∉ rs) :
    t'.read? (.inside rs) =
      if rs = qs then t.read? (.inside ps)
      else if rs = ps then none else t.read? (.inside rs) := by
  obtain ⟨content, hread, h⟩ := Option.bind_eq_some_iff.1 h
  rw [place?_inside t hps, place?_inside t hqs, if_neg fun heq => hne (Option.some.inj heq)] at h
  obtain ⟨t₁, hremove, hwrite⟩ := Option.bind_eq_some_iff.1 h
  rw [read?_of_write? hrs hqs hwrite, read?_of_removeFile? hrs hps hremove, hread]

/-! ### Updates of one file -/

/-- One file is written, or taken away, and the directories on its way may have been made. -/
structure IsUpdate (t : FileTree) (ps : List String) (new : Option (List UInt8)) (t' : FileTree) :
    Prop where
  names : t.HasNames → t'.HasNames
  ordered : t.Ordered → t'.Ordered
  fileAt? : ∀ qs, t'.fileAt? qs = if qs = ps then new else t.fileAt? qs
  directory : ∀ qs, t'.isDirectoryAt qs = true → t.isDirectoryAt qs = true ∨ qs <+: ps.dropLast
  apart : ∀ q, (Path.inside ps).Apart q → t'.at? q = t.at? q

section Update

variable (hps : ∀ name ∈ ps, Path.IsName name)

include hps

theorem isUpdate_of_write? (h : t.write? (.inside ps) content = some t') :
    IsUpdate t ps (some content) t' := by
  have hclean : (Path.inside ps).IsClean := fun name hname => (hps name hname).toIsPart
  obtain ⟨hfiles, hdirectories⟩ := contents_of_write? (Path.notMem_dots hps) h
  exact ⟨fun ht => hereditary_hasNames.write? hclean ht h,
    fun ht => hereditary_ordered.write? hclean ht h, hfiles,
    fun qs hqs => Or.inl (hdirectories qs ▸ hqs), fun q hq => at?_of_change? h hq⟩

theorem isUpdate_of_removeFile? (h : t.removeFile? (.inside ps) = some t') :
    IsUpdate t ps none t' := by
  have hclean : (Path.inside ps).IsClean := fun name hname => (hps name hname).toIsPart
  obtain ⟨hfiles, hdirectories⟩ := contents_of_removeFile? (Path.notMem_dots hps) h
  exact ⟨fun ht => hereditary_hasNames.removeFile? hclean ht h,
    fun ht => hereditary_ordered.removeFile? hclean ht h, hfiles,
    fun qs hqs => Or.inl (hdirectories qs ▸ hqs), fun q hq => at?_of_change? h hq⟩

/-- A file is written after the directories on its way were made. -/
theorem isUpdate_of_writeDeep {t₁ : FileTree}
    (hmake : t.makeDirectories? (Path.inside ps).parent = some t₁)
    (h : t₁.write? (.inside ps) content = some t') : IsUpdate t ps (some content) t' := by
  have hplain : ".." ∉ ps := Path.notMem_dots hps
  have hclean : (Path.inside ps).IsClean := fun name hname => (hps name hname).toIsPart
  have hmade : t.makeAt? ps.dropLast = some t₁ := by
    unfold makeDirectories? Path.parent at hmake
    rwa [place?_inside t fun hmem => hplain ((List.dropLast_prefix ps).subset hmem)] at hmake
  have hwrite := isUpdate_of_write? hps h
  refine ⟨fun ht => hwrite.names (hereditary_hasNames.makeDirectories? hclean.parent ht hmake),
    fun ht => hwrite.ordered (hereditary_ordered.makeDirectories? hclean.parent ht hmake),
    fun qs => ?_, fun qs hqs => ?_, fun q hq => ?_⟩
  · rw [hwrite.fileAt?, fileAt?_of_makeAt? hmade]
  · rcases hwrite.directory qs hqs with hqs | hqs
    · exact isDirectoryAt_of_makeAt? hmade hqs
    · exact Or.inr hqs
  · rw [hwrite.apart q hq, at?_of_makeParent? hmake hq]

end Update

end RecordTables.FileTree
