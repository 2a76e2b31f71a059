import Mathlib.Data.List.Basic
import RecordTables.Files.Tree

/-!
# What a change of files leaves as it was

A change at one place of a tree does not concern a place that is neither above nor below it
(`FileTree.descend?_changeAt?`), and directories that are made only concern the places above them
(`FileTree.descend?_makeAt?`).  For paths without steps back this is `Path.Apart`: what stands at a
path stays when something is written, moved or taken away apart from it.
-/

namespace RecordTables

/-! ### Paths apart -/

namespace Path

/-- Neither path leads through the other, and none leads back. -/
def Apart : Path → Path → Prop
  | inside ps, inside qs => (".." ∉ ps ∧ ".." ∉ qs) ∧ ¬ps <+: qs ∧ ¬qs <+: ps
  | _, _ => False

instance : DecidableRel Apart
  | inside _, inside _ => inferInstanceAs (Decidable (_ ∧ _))
  | inside _, outside _ | outside _, inside _ | outside _, outside _ =>
    inferInstanceAs (Decidable False)

theorem Apart.symm {p q : Path} (h : p.Apart q) : q.Apart p := by
  cases p <;> cases q
  · exact ⟨⟨h.1.2, h.1.1⟩, h.2.2, h.2.1⟩
  all_goals exact h

theorem Apart.exists_inside {p q : Path} (h : p.Apart q) : ∃ qs, q = inside qs ∧ ".." ∉ qs := by
  match p, q, h with
  | inside _, inside qs, h => exact ⟨qs, rfl, h.1.2⟩

theorem Apart.plain {ps : List String} {q : Path} (h : (inside ps).Apart q) : ".." ∉ ps := by
  obtain ⟨qs, hqs, hplain⟩ := h.symm.exists_inside
  rw [inside.inj hqs]
  exact hplain

/-- What is apart from a directory is apart from all that is in it. -/
theorem Apart.append_left {ps qs : List String} {q : Path} (h : (inside ps).Apart q)
    (hqs : ".." ∉ ps ++ qs) : (inside (ps ++ qs)).Apart q := by
  match q, h with
  | inside rs, ⟨⟨hps, hrs⟩, hpr, hrp⟩ =>
    refine ⟨⟨hqs, hrs⟩, fun hbelow => hpr ((List.prefix_append ps qs).trans hbelow), ?_⟩
    intro hbelow
    rcases List.prefix_or_prefix_of_prefix hbelow (List.prefix_append ps qs) with hle | hle
    · exact hrp hle
    · exact hpr hle

/-- Paths whose first parts differ are apart. -/
theorem apart_of_head_ne {a b : String} {ps qs : List String} (hp : ".." ∉ a :: ps)
    (hq : ".." ∉ b :: qs) (hne : a ≠ b) : (inside (a :: ps)).Apart (inside (b :: qs)) :=
  ⟨⟨hp, hq⟩, fun h => hne (List.cons_prefix_cons.1 h).1,
    fun h => hne (List.cons_prefix_cons.1 h).1.symm⟩

end Path

namespace FileTree

variable {t t' : FileTree} {ps qs : List String} {change : Option FileTree → Option (Option FileTree)}

/-! ### Entries -/

theorem lookup_cons (key other : String) (x : FileTree) (entries : List (String × FileTree)) :
    List.lookup other ((key, x) :: entries) =
      if other = key then some x else entries.lookup other := by
  rw [List.lookup_cons]
  by_cases h : other = key
  · rw [if_pos h, beq_iff_eq.2 h]
  · rw [if_neg h, beq_eq_false_iff_ne.2 h]

theorem lookup_insertEntry (name other : String) (x : FileTree) (entries : List (String × FileTree)) :
    (NameMap.insertEntry name x entries).lookup other =
      if other = name then some x else entries.lookup other := by
  induction entries with
  | nil => rw [NameMap.insertEntry, lookup_cons]
  | cons e entries ih =>
    obtain ⟨key, y⟩ := e
    unfold NameMap.insertEntry
    split_ifs <;> simp only [lookup_cons] <;> grind

theorem lookup_filter_ne (name other : String) (entries : List (String × FileTree)) :
    (entries.filter fun e => e.1 != name).lookup other =
      if other = name then none else entries.lookup other := by
  induction entries with
  | nil => rw [List.filter_nil, List.lookup_nil, ite_self]
  | cons e entries ih =>
    obtain ⟨key, y⟩ := e
    rw [List.filter_cons, lookup_cons]
    by_cases h : key = name
    · rw [if_neg (by simp [h]), ih]
      grind
    · rw [if_pos (by simp [h]), lookup_cons, ih]
      grind

theorem lookup_setEntry (name other : String) (child : Option FileTree)
    (entries : List (String × FileTree)) :
    (setEntry name child entries).lookup other =
      if other = name then child else entries.lookup other := by
  cases child with
  | none => exact lookup_filter_ne name other entries
  | some x => exact lookup_insertEntry name other x entries

/-! ### Descending -/

theorem descend?_cons (name : String) (ps : List String) (entries : List (String × FileTree)) :
    (directory entries).descend? (name :: ps) = (entries.lookup name).bind (descend? ps) :=
  rfl

theorem descend?_append (ps qs : List String) (t : FileTree) :
    t.descend? (ps ++ qs) = (t.descend? ps).bind (descend? qs) := by
  induction ps generalizing t with
  | nil => rfl
  | cons name ps ih =>
    show (t.entries.lookup name).bind (descend? (ps ++ qs)) =
      ((t.entries.lookup name).bind (descend? ps)).bind (descend? qs)
    cases t.entries.lookup name with
    | none => rfl
    | some child => exact ih child

theorem descend?_empty (h : ps ≠ []) : empty.descend? ps = none := by
  cases ps with
  | nil => exact absurd rfl h
  | cons name ps => rfl

/-! ### Changing -/

/-- How a change goes through a directory. -/
theorem changeAt?_eq_some {name : String} {entries : List (String × FileTree)}
    (h : (directory entries).changeAt? change (name :: ps) = some t') :
    ∃ child, t' = directory (setEntry name child entries) ∧
      ((ps = [] ∧ change (entries.lookup name) = some child) ∨
        ps ≠ [] ∧ ∃ old new, entries.lookup name = some old ∧ child = some new ∧
          old.changeAt? change ps = some new) := by
  cases ps with
  | nil =>
    unfold changeAt? at h
    split_ifs at h with hname
    obtain ⟨child, hchild, rfl⟩ := Option.map_eq_some_iff.1 h
    exact ⟨child, rfl, Or.inl ⟨rfl, hchild⟩⟩
  | cons next ps =>
    unfold changeAt? at h
    split at h
    · next old hold =>
      obtain ⟨new, hnew, rfl⟩ := Option.map_eq_some_iff.1 h
      exact ⟨some new, rfl, Or.inr ⟨List.cons_ne_nil _ _, old, new, hold, rfl, hnew⟩⟩
    · cases h

theorem changeAt?_file (content : List UInt8) : (file content).changeAt? change ps = none := by
  cases ps with
  | nil => rfl
  | cons name ps => cases ps <;> rfl

theorem changeAt?_nil (t : FileTree) : t.changeAt? change [] = none := by
  cases t <;> rfl

/-- **Changes elsewhere.**  A change does not concern a place that is neither above nor below. -/
theorem descend?_changeAt? (h : t.changeAt? change ps = some t') (hps : ¬ps <+: qs)
    (hqs : ¬qs <+: ps) : t'.descend? qs = t.descend? qs := by
  induction ps generalizing t t' qs with
  | nil => exact absurd List.nil_prefix hps
  | cons name ps ih =>
    cases t with
    | file content =>
      rw [changeAt?_file] at h
      cases h
    | directory entries =>
      obtain ⟨child, rfl, hchild⟩ := changeAt?_eq_some h
      cases qs with
      | nil => exact absurd List.nil_prefix hqs
      | cons other qs =>
        rw [descend?_cons, descend?_cons, lookup_setEntry]
        by_cases hname : other = name
        · subst hname
          rw [List.cons_prefix_cons, not_and] at hps hqs
          rw [if_pos rfl]
          rcases hchild with ⟨rfl, -⟩ | ⟨-, old, new, hold, rfl, hnew⟩
          · exact absurd List.nil_prefix (hps rfl)
          · rw [hold]
            exact ih hnew (hps rfl) (hqs rfl)
        · rw [if_neg hname]

/-- What stands at the place of a change afterwards is what the change makes of it. -/
theorem exists_of_changeAt? (h : t.changeAt? change ps = some t') :
    change (t.descend? ps) = some (t'.descend? ps) := by
  induction ps generalizing t t' with
  | nil =>
    rw [changeAt?_nil] at h
    cases h
  | cons name ps ih =>
    cases t with
    | file content =>
      rw [changeAt?_file] at h
      cases h
    | directory entries =>
      obtain ⟨child, rfl, hchild⟩ := changeAt?_eq_some h
      rw [descend?_cons, descend?_cons, lookup_setEntry, if_pos rfl]
      rcases hchild with ⟨rfl, hchange⟩ | ⟨-, old, new, hold, rfl, hnew⟩
      · rw [show descend? [] = some from rfl, Option.bind_fun_some, Option.bind_fun_some]
        exact hchange
      · rw [hold]
        exact ih hnew

/-- Seen from a directory above its place, a change is a change of the directory. -/
theorem descend?_changeAt?_append (h : t.changeAt? change (ps ++ qs) = some t') (hqs : qs ≠ []) :
    ∃ d d', t.descend? ps = some d ∧ d.changeAt? change qs = some d' ∧
      t'.descend? ps = some d' := by
  induction ps generalizing t t' with
  | nil => exact ⟨t, t', rfl, h, rfl⟩
  | cons name ps ih =>
    cases t with
    | file content =>
      rw [changeAt?_file] at h
      cases h
    | directory entries =>
      obtain ⟨child, rfl, ⟨hnil, -⟩ | ⟨-, old, new, hold, rfl, hnew⟩⟩ := changeAt?_eq_some h
      · exact absurd (List.append_eq_nil_iff.1 hnil).2 hqs
      · obtain ⟨d, d', hd, hchange, hd'⟩ := ih hnew
        refine ⟨d, d', ?_, hchange, ?_⟩
        · rw [descend?_cons, hold, Option.bind_some, hd]
        · rw [descend?_cons, lookup_setEntry, if_pos rfl, Option.bind_some, hd']

/-! ### Making directories -/

/-- Making directories does not concern a place that is not above them. -/
theorem descend?_makeAt? (h : t.makeAt? ps = some t') (hqs : ¬qs <+: ps) :
    t'.descend? qs = t.descend? qs := by
  induction ps generalizing t t' qs with
  | nil =>
    cases t with
    | file content => cases h
    | directory entries => rw [← Option.some.inj h]
  | cons name ps ih =>
    cases t with
    | file content => cases h
    | directory entries =>
      unfold makeAt? at h
      split_ifs at h with hname
      obtain ⟨child, hchild, rfl⟩ := Option.map_eq_some_iff.1 h
      cases qs with
      | nil => exact absurd List.nil_prefix hqs
      | cons other qs =>
        rw [descend?_cons, descend?_cons, lookup_setEntry]
        split_ifs with hother
        · subst hother
          rw [List.cons_prefix_cons, not_and] at hqs
          -- the place is beside the way, so it is not the directory that is made
          have hne : qs ≠ [] := by
            rintro rfl
            exact hqs rfl List.nil_prefix
          have hsame := ih hchild (hqs rfl)
          rw [Option.bind_some, hsame]
          cases entries.lookup other with
          | none => exact descend?_empty hne
          | some old => rfl
        · rfl

/-- What stands where a directory was made: what there was, or an empty directory. -/
theorem descend?_makeAt?_self (h : t.makeAt? ps = some t') :
    t'.descend? ps = some ((t.descend? ps).getD empty) := by
  induction ps generalizing t t' with
  | nil =>
    cases t with
    | file content => cases h
    | directory entries => rw [← Option.some.inj h]; rfl
  | cons name ps ih =>
    cases t with
    | file content => cases h
    | directory entries =>
      unfold makeAt? at h
      split_ifs at h with hname
      obtain ⟨child, hchild, rfl⟩ := Option.map_eq_some_iff.1 h
      rw [descend?_cons, descend?_cons, lookup_setEntry, if_pos rfl, Option.bind_some, ih hchild]
      cases entries.lookup name with
      | none =>
        rw [Option.getD_none, Option.bind_none, Option.getD_none]
        cases ps with
        | nil => rfl
        | cons next ps => rfl
      | some old => rfl

/-! ### At paths -/

theorem settle?_of_plain (t : FileTree) (done : List String) (h : ".." ∉ ps) :
    t.settle? done ps = some (done ++ ps) := by
  induction ps generalizing done with
  | nil => rw [settle?, List.append_nil]
  | cons name ps ih =>
    rw [List.mem_cons, not_or] at h
    rw [settle?, if_neg (Ne.symm h.1), ih _ h.2, List.append_assoc]
    rfl

theorem place?_inside (t : FileTree) (h : ".." ∉ ps) : t.place? (.inside ps) = some ps :=
  settle?_of_plain t [] h

theorem at?_inside (t : FileTree) (h : ".." ∉ ps) : t.at? (.inside ps) = t.descend? ps := by
  unfold at?
  rw [place?_inside t h]
  rfl

variable {p q : Path}

/-- A change at a path leaves what is apart from it. -/
theorem at?_of_change? (h : t.change? p change = some t') (hpq : p.Apart q) : t'.at? q = t.at? q := by
  match p, q, hpq with
  | .inside ps, .inside qs, ⟨⟨hps, hqs⟩, hpq, hqp⟩ =>
    unfold change? at h
    rw [place?_inside t hps] at h
    rw [at?_inside t' hqs, at?_inside t hqs]
    exact descend?_changeAt? h hpq hqp

theorem change_at?_of_change? (h : t.change? (.inside ps) change = some t') (hps : ".." ∉ ps) :
    change (t.at? (.inside ps)) = some (t'.at? (.inside ps)) := by
  unfold change? at h
  rw [place?_inside t hps] at h
  rw [at?_inside t' hps, at?_inside t hps]
  exact exists_of_changeAt? h

/-- Making the directory of a path leaves what is apart from the path. -/
theorem at?_of_makeParent? (h : t.makeDirectories? p.parent = some t') (hpq : p.Apart q) :
    t'.at? q = t.at? q := by
  match p, q, hpq with
  | .inside ps, .inside qs, ⟨⟨hps, hqs⟩, hpq, hqp⟩ =>
    have hparent : ".." ∉ ps.dropLast := fun hmem =>
      hps ((List.dropLast_prefix ps).subset hmem)
    unfold makeDirectories? Path.parent at h
    rw [place?_inside t hparent] at h
    rw [at?_inside t' hqs, at?_inside t hqs]
    exact descend?_makeAt? h fun hbelow => hqp (hbelow.trans (List.dropLast_prefix ps))

/-- Making a directory leaves what is apart from it. -/
theorem at?_of_makeDirectories? (h : t.makeDirectories? p = some t') (hpq : p.Apart q) :
    t'.at? q = t.at? q := by
  match p, q, hpq with
  | .inside ps, .inside qs, ⟨⟨hps, hqs⟩, hpq, hqp⟩ =>
    unfold makeDirectories? at h
    rw [place?_inside t hps] at h
    rw [at?_inside t' hqs, at?_inside t hqs]
    exact descend?_makeAt? h hqp

theorem at?_of_makeDirectories?_self (h : t.makeDirectories? (.inside ps) = some t')
    (hps : ".." ∉ ps) : t'.at? (.inside ps) = some ((t.at? (.inside ps)).getD empty) := by
  unfold makeDirectories? at h
  rw [place?_inside t hps] at h
  rw [at?_inside t' hps, at?_inside t hps]
  exact descend?_makeAt?_self h

/-- What was written can be read. -/
theorem at?_of_write? {content : List UInt8} (h : t.write? (.inside ps) content = some t')
    (hps : ".." ∉ ps) : t'.at? (.inside ps) = some (file content) := by
  have hchange := change_at?_of_change? h hps
  split at hchange
  · cases hchange
  · exact (Option.some.inj hchange).symm

/-- A file that is written in a directory is one more entry. -/
theorem at?_of_write?_directory {name : String} {content : List UInt8}
    {entries : List (String × FileTree)}
    (h : t.write? (.inside (ps ++ [name])) content = some t') (hplain : ".." ∉ ps ++ [name])
    (hdirectory : t.at? (.inside ps) = some (directory entries)) :
    t'.at? (.inside ps) = some (directory (NameMap.insertEntry name (file content) entries)) := by
  have hps : ".." ∉ ps := fun hmem => hplain (List.mem_append_left _ hmem)
  rw [at?_inside t hps] at hdirectory
  rw [at?_inside t' hps]
  unfold write? change? at h
  rw [place?_inside t hplain] at h
  obtain ⟨d, d', hd, hchange, hd'⟩ := descend?_changeAt?_append h (List.cons_ne_nil _ _)
  obtain rfl : d = directory entries := Option.some.inj (hd.symm.trans hdirectory)
  obtain ⟨child, rfl, ⟨-, hfile⟩ | ⟨hne, -⟩⟩ := changeAt?_eq_some hchange
  · split at hfile
    · cases hfile
    · obtain rfl := Option.some.inj hfile
      exact hd'
  · exact absurd rfl hne

theorem at?_of_removeDirectory? (h : t.removeDirectory? (.inside ps) = some t')
    (hps : ".." ∉ ps) : t'.at? (.inside ps) = none := by
  have hchange := change_at?_of_change? h hps
  split at hchange
  · exact (Option.some.inj hchange).symm
  · cases hchange

/-- Moving a file leaves what is apart from its source and its target. -/
theorem at?_of_moveFile?_of_apart {source target : Path} (h : t.moveFile? source target = some t')
    (hsource : source.Apart q) (htarget : target.Apart q) : t'.at? q = t.at? q := by
  obtain ⟨content, -, h⟩ := Option.bind_eq_some_iff.1 h
  split_ifs at h
  · rw [← Option.some.inj h]
  · obtain ⟨t₁, hremove, hwrite⟩ := Option.bind_eq_some_iff.1 h
    exact (at?_of_change? hwrite htarget).trans (at?_of_change? hremove hsource)

end FileTree

end RecordTables
