import RecordTables.Proofs.Files.Contents

/-!
# Changes that succeed

A file system refuses a change only for a reason: below a directory, a name that an entry can have
may be written unless a directory stands there (`FileTree.exists_write?`), a file may be moved there
(`FileTree.exists_moveFile?`), and a directory may be taken away (`FileTree.exists_removeDirectory?`).
Where a directory could be made once, it can be made again (`FileTree.exists_makeDirectories?`).
-/

namespace RecordTables.FileTree

variable {t t' d : FileTree} {ps qs : List String} {name : String} {content : List UInt8}
  {change : Option FileTree → Option (Option FileTree)}

/-! ### Directories on the way -/

/-- What something stands below is a directory. -/
theorem isDirectoryAt_of_descend? (h : t.descend? (ps ++ qs) = some d) (hqs : qs ≠ []) :
    t.isDirectoryAt ps = true := by
  obtain ⟨name, qs, rfl⟩ := List.exists_cons_of_ne_nil hqs
  rw [descend?_append] at h
  obtain ⟨parent, hparent, hchild⟩ := Option.bind_eq_some_iff.1 h
  unfold isDirectoryAt
  rw [hparent]
  cases parent with
  | file content => cases hchild
  | directory entries => rfl

/-- On the way to a file there are directories. -/
theorem isDirectoryAt_of_fileAt? (h : (t.fileAt? (ps ++ qs)).isSome = true) (hqs : qs ≠ []) :
    t.isDirectoryAt ps = true := by
  unfold fileAt? at h
  split at h
  · next hfile => exact isDirectoryAt_of_descend? hfile hqs
  · cases h

/-- No file stands where a directory does. -/
theorem isDirectoryAt_eq_false_of_fileAt? (h : t.fileAt? ps = some content) :
    t.isDirectoryAt ps = false := by
  unfold fileAt? at h
  unfold isDirectoryAt
  split at h
  · next hfile =>
    rw [hfile]
    rfl
  · cases h

/-- What is above a directory is one. -/
theorem isDirectoryAt_of_below (h : t.isDirectoryAt ps = true) (hbelow : qs <+: ps) :
    t.isDirectoryAt qs = true := by
  obtain ⟨rest, rfl⟩ := hbelow
  by_cases hrest : rest = []
  · rwa [hrest, List.append_nil] at h
  · obtain ⟨d, hd, -⟩ := (Option.any_eq_true _ _).1 h
    exact isDirectoryAt_of_descend? hd hrest

/-! ### Making directories -/

/-- Directories are made under names that entries can have. -/
theorem isName_of_makeAt? (h : t.makeAt? ps = some t') : ∀ part ∈ ps, isName part = true := by
  induction ps generalizing t t' with
  | nil => exact List.forall_mem_nil _
  | cons part ps ih =>
    cases t with
    | file content => cases h
    | directory entries =>
      unfold makeAt? at h
      split_ifs at h with hpart
      obtain ⟨child, hchild, -⟩ := Option.map_eq_some_iff.1 h
      exact List.forall_mem_cons.2 ⟨hpart, ih hchild⟩

/-- Where directories are made, the directories afterwards are those before and those on the way. -/
theorem isDirectoryAt_makeAt? (h : t.makeAt? ps = some t') :
    t'.isDirectoryAt qs = true ↔ t.isDirectoryAt qs = true ∨ qs <+: ps := by
  refine ⟨isDirectoryAt_of_makeAt? h, ?_⟩
  induction ps generalizing t t' qs with
  | nil =>
    cases t with
    | file content => cases h
    | directory entries =>
      rw [← Option.some.inj h]
      rintro (hold | hbelow)
      · exact hold
      · rw [List.prefix_nil.1 hbelow]
        rfl
  | cons part ps ih =>
    cases t with
    | file content => cases h
    | directory entries =>
      unfold makeAt? at h
      split_ifs at h
      obtain ⟨child, hchild, rfl⟩ := Option.map_eq_some_iff.1 h
      cases qs with
      | nil => exact fun _ => rfl
      | cons other qs =>
        rw [isDirectoryAt_cons, isDirectoryAt_cons, lookup_setEntry, List.cons_prefix_cons]
        split_ifs with hother
        -- what is below the first part was there before, or it is made
        · subst hother
          intro hqs
          refine ih hchild (hqs.imp (fun hold => ?_) And.right)
          obtain ⟨old, hentry, hold⟩ := (Option.any_eq_true _ _).1 hold
          rw [hentry]
          exact hold
        · rintro (hold | ⟨hsame, -⟩)
          · exact hold
          · exact absurd hsame hother

/-- A directory that is there can be made again. -/
theorem exists_makeAt? (hdirectory : t.isDirectoryAt ps = true)
    (hnames : ∀ part ∈ ps, isName part = true) : ∃ t', t.makeAt? ps = some t' := by
  induction ps generalizing t with
  | nil =>
    cases t with
    | file content => cases hdirectory
    | directory entries => exact ⟨_, rfl⟩
  | cons part ps ih =>
    obtain ⟨hpart, hothers⟩ := List.forall_mem_cons.1 hnames
    cases t with
    | file content => cases hdirectory
    | directory entries =>
      rw [isDirectoryAt_cons] at hdirectory
      obtain ⟨child, hentry, hchild⟩ := (Option.any_eq_true _ _).1 hdirectory
      obtain ⟨child', hmake⟩ := ih hchild hothers
      unfold makeAt?
      rw [if_pos hpart, hentry, Option.getD_some, hmake]
      exact ⟨_, rfl⟩

/-! ### Changing one entry -/

/-- A change that can be made of what stands under a name of a directory can be made there. -/
theorem exists_changeAt? {child : Option FileTree} (hdirectory : t.isDirectoryAt ps = true)
    (hname : isName name = true) (hchange : change (t.descend? (ps ++ [name])) = some child) :
    ∃ t', t.changeAt? change (ps ++ [name]) = some t' := by
  induction ps generalizing t with
  | nil =>
    cases t with
    | file content => cases hdirectory
    | directory entries =>
      have hentry : (directory entries).descend? [name] = entries.lookup name := by
        rw [descend?_cons, show descend? [] = some from rfl, Option.bind_fun_some]
      rw [List.nil_append, hentry] at hchange
      rw [List.nil_append, changeAt?, if_pos hname, hchange]
      exact ⟨_, rfl⟩
  | cons part ps ih =>
    cases t with
    | file content => cases hdirectory
    | directory entries =>
      rw [isDirectoryAt_cons] at hdirectory
      -- the entry on the way is a directory, so the change goes on in it
      obtain ⟨old, hentry, hold⟩ := (Option.any_eq_true _ _).1 hdirectory
      rw [List.cons_append, descend?_cons, hentry] at hchange
      obtain ⟨new, hnew⟩ := ih hold hchange
      obtain ⟨next, rest, hcons⟩ := List.exists_cons_of_ne_nil
        (List.append_ne_nil_of_right_ne_nil ps (List.cons_ne_nil name []))
      rw [hcons] at hnew
      rw [List.cons_append, hcons, changeAt?, hentry]
      · dsimp only
        rw [hnew]
        exact ⟨_, rfl⟩
      · exact List.cons_ne_nil next rest

/-! ### At paths -/

section Plain

variable (hplain : ".." ∉ ps ++ [name]) (hname : isName name = true)

include hplain hname

theorem exists_change? {child : Option FileTree} (hdirectory : t.isDirectoryAt ps = true)
    (hchange : change (t.descend? (ps ++ [name])) = some child) :
    ∃ t', t.change? (.inside (ps ++ [name])) change = some t' := by
  unfold change?
  rw [place?_inside t hplain]
  exact exists_changeAt? hdirectory hname hchange

/-- A file can be written in a directory, unless a directory stands in its place. -/
theorem exists_write? (hdirectory : t.isDirectoryAt ps = true)
    (hfree : t.isDirectoryAt (ps ++ [name]) = false) (content : List UInt8) :
    ∃ t', t.write? (.inside (ps ++ [name])) content = some t' := by
  unfold isDirectoryAt at hfree
  cases hplace : t.descend? (ps ++ [name]) with
  | none => exact exists_change? hplain hname hdirectory (by rw [hplace])
  | some d =>
    rw [hplace] at hfree
    cases d with
    | file old => exact exists_change? hplain hname hdirectory (by rw [hplace])
    | directory entries => cases hfree

/-- A directory can be taken away. -/
theorem exists_removeDirectory? (h : t.isDirectoryAt (ps ++ [name]) = true) :
    ∃ t', t.removeDirectory? (.inside (ps ++ [name])) = some t' := by
  obtain ⟨d, hd, hdirectory⟩ := (Option.any_eq_true _ _).1 h
  cases d with
  | file content => cases hdirectory
  | directory entries =>
    have hparent : t.isDirectoryAt ps = true := isDirectoryAt_of_descend? hd (List.cons_ne_nil _ _)
    exact exists_change? hplain hname hparent (by rw [hd])

/-- A file can be taken away. -/
theorem exists_removeFile? (h : t.fileAt? (ps ++ [name]) = some content) :
    ∃ t', t.removeFile? (.inside (ps ++ [name])) = some t' := by
  unfold fileAt? at h
  split at h
  · next hfile =>
    have hparent : t.isDirectoryAt ps = true :=
      isDirectoryAt_of_descend? hfile (List.cons_ne_nil _ _)
    exact exists_change? hplain hname hparent (by rw [hfile])
  · cases h

/-- A file can be moved into a directory, unless a directory stands in its place. -/
theorem exists_moveFile? (hqs : ".." ∉ qs ++ [name])
    (hsource : t.fileAt? (ps ++ [name]) = some content) (hdirectory : t.isDirectoryAt qs = true)
    (hfree : t.isDirectoryAt (qs ++ [name]) = false) :
    ∃ t', t.moveFile? (.inside (ps ++ [name])) (.inside (qs ++ [name])) = some t' := by
  have hread : t.read? (.inside (ps ++ [name])) = some content := by
    rw [read?_inside t hplain, hsource]
  obtain ⟨t₁, hremove⟩ := exists_removeFile? hplain hname hsource
  have hkept := (contents_of_removeFile? hplain hremove).2
  have hdirectory₁ : t₁.isDirectoryAt qs = true := (hkept qs).trans hdirectory
  have hfree₁ : t₁.isDirectoryAt (qs ++ [name]) = false := (hkept _).trans hfree
  obtain ⟨t₂, hwrite⟩ := exists_write? hqs hname hdirectory₁ hfree₁ content
  unfold moveFile?
  rw [hread]
  by_cases hsame : t.place? (.inside (ps ++ [name])) = t.place? (.inside (qs ++ [name]))
  · exact ⟨t, if_pos hsame⟩
  · refine ⟨t₂, (if_neg hsame).trans ?_⟩
    rw [hremove]
    exact hwrite

end Plain

/-- Moving a file makes no directory and takes none away. -/
theorem isDirectoryAt_of_moveFile? (hps : ".." ∉ ps) (hqs : ".." ∉ qs)
    (h : t.moveFile? (.inside ps) (.inside qs) = some t') (rs : List String) :
    t'.isDirectoryAt rs = t.isDirectoryAt rs := by
  obtain ⟨content, -, h⟩ := Option.bind_eq_some_iff.1 h
  split_ifs at h
  · rw [← Option.some.inj h]
  · obtain ⟨t₁, hremove, hwrite⟩ := Option.bind_eq_some_iff.1 h
    rw [(contents_of_write? hqs hwrite).2, (contents_of_removeFile? hps hremove).2]

/-- A directory that is there can be made again, which changes nothing that is read. -/
theorem exists_makeDirectories? (hps : ".." ∉ ps) (hdirectory : t.isDirectoryAt ps = true)
    (hnames : ∀ part ∈ ps, isName part = true) :
    ∃ t', t.makeDirectories? (.inside ps) = some t' ∧ (∀ qs, t'.fileAt? qs = t.fileAt? qs) ∧
      ∀ qs, t'.isDirectoryAt qs = t.isDirectoryAt qs := by
  obtain ⟨t', hmake⟩ := exists_makeAt? hdirectory hnames
  refine ⟨t', ?_, fileAt?_of_makeAt? hmake, fun qs => ?_⟩
  · unfold makeDirectories?
    rw [place?_inside t hps]
    exact hmake
  · rw [Bool.eq_iff_iff, isDirectoryAt_makeAt? hmake]
    exact or_iff_left_of_imp (isDirectoryAt_of_below hdirectory)

end RecordTables.FileTree
