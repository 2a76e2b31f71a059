import Mathlib.Data.List.Nodup
import RecordTables.Proofs.Files.Paths
import RecordTables.Proofs.Files.Trees
import RecordTables.Proofs.Outcome

/-!
# What every change of files keeps

Changes at clean paths put entries under names.  A property of trees that an empty directory has,
and that passes from a directory to its entries and back, is kept by all of them
(`FileTree.Hereditary`).

In a tree of a file system every file lies below entries with names that a path can lead to
(`FileTree.HasNames`), which is such a property.  In such a tree a file below a directory is where the
path says that joins the names, so what is read below a directory only depends on the directory
(`FileTree.at?_foldl_join`).

Another such property is that the entries of a directory stand in the order of their names, and no
name is there twice (`FileTree.Ordered`).  The list of all files then says of every place once what
stands there (`FileTree.mem_files_iff`, `FileTree.nodup_files`).
-/

namespace RecordTables

namespace FileTree

variable {P : FileTree → Prop} {t t' : FileTree} {ps : List String}
  {change : Option FileTree → Option (Option FileTree)}

/-- The place of a clean path is one of names. -/
theorem isName_of_settle? {done place : List String} (hdone : ∀ name ∈ done, Path.IsName name)
    (hps : ∀ part ∈ ps, Path.IsPart part) (h : t.settle? done ps = some place) :
    ∀ name ∈ place, Path.IsName name := by
  induction ps generalizing done with
  | nil =>
    rw [← Option.some.inj h]
    exact hdone
  | cons part ps ih =>
    have hothers : ∀ part ∈ ps, Path.IsPart part := fun q hq => hps q (List.mem_cons_of_mem _ hq)
    rw [settle?] at h
    split_ifs at h with hdots hback
    · refine ih (fun name hname => ?_) hothers h
      exact hdone name ((List.dropLast_prefix done).subset hname)
    · refine ih (fun name hname => ?_) hothers h
      rcases List.mem_append.1 hname with hname | hname
      · exact hdone name hname
      · rw [List.mem_singleton.1 hname]
        exact ⟨hps part List.mem_cons_self, hdots⟩

theorem isName_of_place? {p : Path} (hp : p.IsClean) {place : List String}
    (h : t.place? p = some place) : ∀ name ∈ place, Path.IsName name := by
  cases p with
  | inside parts => exact isName_of_settle? (List.forall_mem_nil _) hp h
  | outside text => cases h

/-- A property of trees that comes from the entries of their directories. -/
structure Hereditary (P : FileTree → Prop) : Prop where
  file : ∀ content, P (file content)
  empty : P empty
  lookup : ∀ {entries : List (String × FileTree)} {name : String} {child : FileTree},
    P (directory entries) → entries.lookup name = some child → P child
  setEntry : ∀ {entries : List (String × FileTree)} {name : String} {child : Option FileTree},
    P (directory entries) → Path.IsName name → (∀ c, child = some c → P c) →
      P (directory (setEntry name child entries))

namespace Hereditary

variable (hP : Hereditary P)

include hP

/-- A change at a place of names keeps the property, if what it puts there has it. -/
theorem changeAt? (h : P t) (hps : ∀ name ∈ ps, Path.IsName name)
    (hnew : ∀ old new, change old = some (some new) → (∀ d, old = some d → P d) → P new)
    (hchange : t.changeAt? change ps = some t') : P t' := by
  induction ps generalizing t t' with
  | nil =>
    rw [changeAt?_nil] at hchange
    cases hchange
  | cons name ps ih =>
    cases t with
    | file content =>
      rw [changeAt?_file] at hchange
      cases hchange
    | directory entries =>
      obtain ⟨child, rfl, hchild⟩ := changeAt?_eq_some hchange
      refine hP.setEntry h (hps name List.mem_cons_self) fun c hc => ?_
      rcases hchild with ⟨-, hnone⟩ | ⟨-, old, new, hold, rfl, hrest⟩
      · rw [hc] at hnone
        exact hnew _ c hnone fun d hd => hP.lookup h hd
      · rw [← Option.some.inj hc]
        exact ih (hP.lookup h hold) (fun n hn => hps n (List.mem_cons_of_mem _ hn)) hrest

theorem makeAt? (h : P t) (hps : ∀ name ∈ ps, Path.IsName name)
    (hmake : t.makeAt? ps = some t') : P t' := by
  induction ps generalizing t t' with
  | nil =>
    cases t with
    | file content => cases hmake
    | directory entries =>
      rw [← Option.some.inj hmake]
      exact h
  | cons name ps ih =>
    cases t with
    | file content => cases hmake
    | directory entries =>
      unfold FileTree.makeAt? at hmake
      split_ifs at hmake
      obtain ⟨child, hchild, rfl⟩ := Option.map_eq_some_iff.1 hmake
      refine hP.setEntry h (hps name List.mem_cons_self) fun c hc => ?_
      rw [← Option.some.inj hc]
      refine ih ?_ (fun n hn => hps n (List.mem_cons_of_mem _ hn)) hchild
      cases hold : entries.lookup name with
      | none => exact hP.empty
      | some old => exact hP.lookup h hold

theorem descend? (h : P t) {d : FileTree} (hd : t.descend? ps = some d) : P d := by
  induction ps generalizing t with
  | nil =>
    rw [← Option.some.inj hd]
    exact h
  | cons name ps ih =>
    cases t with
    | file content => cases hd
    | directory entries =>
      rw [descend?_cons] at hd
      obtain ⟨child, hchild, hd⟩ := Option.bind_eq_some_iff.1 hd
      exact ih (hP.lookup h hchild) hd

section Clean

variable {p : Path} (hp : p.IsClean)

include hp

theorem change? (h : P t)
    (hnew : ∀ old new, change old = some (some new) → (∀ d, old = some d → P d) → P new)
    (hchange : t.change? p change = some t') : P t' := by
  obtain ⟨place, hplace, hchange⟩ := Option.bind_eq_some_iff.1 hchange
  exact hP.changeAt? h (isName_of_place? hp hplace) hnew hchange

theorem write? (h : P t) {content : List UInt8} (hwrite : t.write? p content = some t') :
    P t' := by
  refine hP.change? hp h (fun old new hnew _ => ?_) hwrite
  split at hnew
  · cases hnew
  · rw [← Option.some.inj (Option.some.inj hnew)]
    exact hP.file content

theorem makeDirectories? (h : P t) (hmake : t.makeDirectories? p = some t') : P t' := by
  obtain ⟨place, hplace, hmake⟩ := Option.bind_eq_some_iff.1 hmake
  exact hP.makeAt? h (isName_of_place? hp hplace) hmake

theorem removeFile? (h : P t) (hremove : t.removeFile? p = some t') : P t' := by
  refine hP.change? hp h (fun old new hnew _ => ?_) hremove
  split at hnew
  · cases hnew
  · cases hnew

theorem removeDirectory? (h : P t) (hremove : t.removeDirectory? p = some t') : P t' := by
  refine hP.change? hp h (fun old new hnew _ => ?_) hremove
  split at hnew
  · cases hnew
  · cases hnew

theorem moveFile? {target : Path} (htarget : target.IsClean) (h : P t)
    (hmove : t.moveFile? p target = some t') : P t' := by
  obtain ⟨content, -, hmove⟩ := Option.bind_eq_some_iff.1 hmove
  split_ifs at hmove
  · rw [← Option.some.inj hmove]
    exact h
  · obtain ⟨t₁, hremove, hwrite⟩ := Option.bind_eq_some_iff.1 hmove
    exact hP.write? htarget (hP.removeFile? hp h hremove) hwrite

end Clean

end Hereditary

end FileTree

/-! ### Trees whose files have names -/

/-- Two names in one directory are apart. -/
theorem Path.apart_of_ne {ps : List String} (hps : ".." ∉ ps) {a b : String} (ha : IsName a)
    (hb : IsName b) (hne : a ≠ b) : (inside (ps ++ [a])).Apart (inside (ps ++ [b])) := by
  refine ⟨⟨Path.plain_concat hps ha, Path.plain_concat hps hb⟩, fun h => ?_, fun h => ?_⟩
  · rw [List.prefix_append_right_inj, List.cons_prefix_cons] at h
    exact hne h.1
  · rw [List.prefix_append_right_inj, List.cons_prefix_cons] at h
    exact hne h.1.symm

namespace FileTree

variable {t t' d : FileTree} {ps : List String} {entries : List (String × FileTree)}

/-- The names on the way to a file are names that a path can lead to. -/
def HasNames (t : FileTree) : Prop := ∀ f ∈ t.files, ∀ name ∈ f.1, Path.IsName name

instance (t : FileTree) : Decidable t.HasNames :=
  inferInstanceAs (Decidable (∀ f ∈ t.files, ∀ name ∈ f.1, Path.IsName name))

theorem hasNames_file (content : List UInt8) : (file content).HasNames := by
  intro f hf name hname
  rw [List.mem_singleton.1 hf] at hname
  cases hname

theorem mem_files_directory {f : List String × List UInt8} :
    f ∈ (directory entries).files ↔ ∃ e ∈ entries, ∃ g ∈ e.2.files, f = (e.1 :: g.1, g.2) := by
  show f ∈ filesOf entries ↔ _
  induction entries with
  | nil => exact iff_of_false List.not_mem_nil fun ⟨_, he, _⟩ => nomatch he
  | cons e entries ih =>
    rw [filesOf, List.mem_append, ih, List.mem_map, List.exists_mem_cons_iff]
    simp only [eq_comm]

/-! ### Files below a directory -/

theorem foldl_join_inside {place : List String} (h : ∀ name ∈ place, Path.IsName name) :
    place.foldl Path.join (.inside ps) = .inside (ps ++ place) := by
  induction place generalizing ps with
  | nil => rw [List.foldl_nil, List.append_nil]
  | cons name place ih =>
    rw [List.foldl_cons, Path.join_inside ps (h name List.mem_cons_self),
      ih fun n hn => h n (List.mem_cons_of_mem _ hn), List.append_assoc, List.singleton_append]

/-- What stands at a place below a directory, if names lead there. -/
theorem at?_foldl_join {place : List String} (hps : ".." ∉ ps)
    (h : ∀ name ∈ place, Path.IsName name) (t : FileTree) :
    t.at? (place.foldl Path.join (.inside ps)) =
      (t.at? (.inside ps)).bind (FileTree.descend? place) := by
  have hplace : ".." ∉ ps ++ place := by
    rw [List.mem_append, not_or]
    exact ⟨hps, fun hmem => (h _ hmem).ne_dots rfl⟩
  rw [foldl_join_inside h, at?_inside t hplace, at?_inside t hps, descend?_append]

/-! ### Changes -/

theorem hasNames_directory : (directory entries).HasNames ↔
    ∀ e ∈ entries, ∀ g ∈ e.2.files, Path.IsName e.1 ∧ ∀ name ∈ g.1, Path.IsName name := by
  constructor
  · intro h e he g hg
    have hnames := h (e.1 :: g.1, g.2) (mem_files_directory.2 ⟨e, he, g, hg, rfl⟩)
    exact List.forall_mem_cons.1 hnames
  · intro h f hf
    obtain ⟨e, he, g, hg, rfl⟩ := mem_files_directory.1 hf
    exact List.forall_mem_cons.2 (h e he g hg)

theorem hasNames_empty : empty.HasNames := hasNames_directory.2 fun _ h => nomatch h

/-- Setting an entry of a name leaves a directory whose files have names. -/
theorem HasNames.setEntry {name : String} {child : Option FileTree}
    (h : (directory entries).HasNames) (hname : Path.IsName name)
    (hchild : ∀ c, child = some c → c.HasNames) :
    (directory (setEntry name child entries)).HasNames := by
  rw [hasNames_directory] at h ⊢
  intro e he
  cases child with
  | none => exact h e (List.mem_filter.1 he).1
  | some c =>
    rcases NameMap.mem_insertEntry he with rfl | he
    · exact fun g hg => ⟨hname, hchild c rfl g hg⟩
    · exact h e he

theorem HasNames.lookup {name : String} {child : FileTree} (h : (directory entries).HasNames)
    (hchild : entries.lookup name = some child) : child.HasNames := by
  exact fun g hg part hpart =>
    h (name :: g.1, g.2) (mem_files_directory.2 ⟨_, mem_of_lookup hchild, g, hg, rfl⟩) part
      (List.mem_cons_of_mem _ hpart)

theorem hereditary_hasNames : Hereditary HasNames where
  file := hasNames_file
  empty := hasNames_empty
  lookup := fun h hchild => h.lookup hchild
  setEntry := fun h hname hchild => h.setEntry hname hchild

/-- The files below a directory have names. -/
theorem HasNames.descend? (h : t.HasNames) (hd : t.descend? ps = some d) : d.HasNames :=
  hereditary_hasNames.descend? h hd

/-! ### Trees in order -/

variable {name : String}

mutual

/-- The entries of all directories stand in the order of their names. -/
def Ordered : FileTree → Prop
  | file _ => True
  | directory entries => entries.Pairwise (fun a b => a.1 < b.1) ∧ AllOrdered entries

/-- All entries are in order. -/
def AllOrdered : List (String × FileTree) → Prop
  | [] => True
  | e :: rest => e.2.Ordered ∧ AllOrdered rest

end

mutual

instance decidableOrdered : (t : FileTree) → Decidable t.Ordered
  | file _ => inferInstanceAs (Decidable True)
  | directory entries =>
    let _ := decidableAllOrdered entries
    inferInstanceAs (Decidable (_ ∧ _))

instance decidableAllOrdered : (entries : List (String × FileTree)) → Decidable (AllOrdered entries)
  | [] => inferInstanceAs (Decidable True)
  | e :: rest =>
    let _ := decidableOrdered e.2
    let _ := decidableAllOrdered rest
    inferInstanceAs (Decidable (_ ∧ _))

end

theorem allOrdered_iff : AllOrdered entries ↔ ∀ e ∈ entries, e.2.Ordered := by
  induction entries with
  | nil => exact iff_of_true trivial (List.forall_mem_nil _)
  | cons e entries ih => rw [AllOrdered, ih, List.forall_mem_cons]

/-! ### Entries -/

/-- In order, an entry is found under its name. -/
theorem lookup_eq_some_iff_mem (h : entries.Pairwise fun a b => a.1 < b.1) :
    entries.lookup name = some t ↔ (name, t) ∈ entries := by
  induction entries with
  | nil => exact iff_of_false (fun h => nomatch h) List.not_mem_nil
  | cons e entries ih =>
    obtain ⟨hfirst, hrest⟩ := List.pairwise_cons.1 h
    rw [lookup_cons, List.mem_cons]
    split_ifs with hname
    · have hnone : (name, t) ∉ entries := fun hmem =>
        absurd hname.symm (Std.ne_of_lt (hfirst _ hmem))
      rw [Option.some.injEq, or_iff_left hnone]
      exact ⟨fun ht => Prod.ext hname ht.symm, fun ht => (congrArg Prod.snd ht).symm⟩
    · rw [ih hrest, or_iff_right fun ht => hname (congrArg Prod.fst ht)]

theorem hereditary_ordered : Hereditary Ordered where
  file := fun _ => trivial
  empty := ⟨List.Pairwise.nil, trivial⟩
  lookup := by
    intro entries name child h hchild
    exact allOrdered_iff.1 h.2 _ ((lookup_eq_some_iff_mem h.1).1 hchild)
  setEntry := by
    intro entries name child h _ hchild
    cases child with
    | none =>
      exact ⟨h.1.filter _, allOrdered_iff.2 fun e he =>
        allOrdered_iff.1 h.2 e (List.mem_filter.1 he).1⟩
    | some c =>
      refine ⟨NameMap.sorted_insertEntry name c h.1, allOrdered_iff.2 fun e he => ?_⟩
      rcases NameMap.mem_insertEntry he with rfl | he
      · exact hchild c rfl
      · exact allOrdered_iff.1 h.2 e he

/-! ### All files -/

/-- The files of a tree are what stands at their places. -/
theorem mem_files_iff (h : t.Ordered) {place : List String} {content : List UInt8} :
    (place, content) ∈ t.files ↔ t.descend? place = some (file content) := by
  induction place generalizing t with
  | nil =>
    cases t with
    | file content' =>
      rw [files, List.mem_singleton, Prod.mk.injEq, and_iff_right rfl]
      exact ⟨fun heq => congrArg _ (congrArg _ heq.symm), fun heq => by cases heq; rfl⟩
    | directory entries =>
      refine iff_of_false (fun hmem => ?_) fun heq => nomatch heq
      obtain ⟨e, -, g, -, heq⟩ := mem_files_directory.1 hmem
      cases heq
  | cons name place ih =>
    cases t with
    | file content' =>
      refine iff_of_false (fun hmem => ?_) fun heq => nomatch heq
      cases List.mem_singleton.1 hmem
    | directory entries =>
      rw [mem_files_directory, descend?_cons, Option.bind_eq_some_iff]
      -- a file of the directory is one of an entry, and entries are told apart by name
      constructor
      · rintro ⟨e, he, g, hg, heq⟩
        cases heq
        exact ⟨e.2, (lookup_eq_some_iff_mem h.1).2 he, (ih (allOrdered_iff.1 h.2 e he)).1 hg⟩
      · rintro ⟨child, hchild, hplace⟩
        have hmem := (lookup_eq_some_iff_mem h.1).1 hchild
        exact ⟨(name, child), hmem, (place, content),
          (ih (allOrdered_iff.1 h.2 _ hmem)).2 hplace, rfl⟩

mutual

/-- No place is there twice. -/
theorem nodup_files : (t : FileTree) → t.Ordered → (t.files.map (·.1)).Nodup
  | file _, _ => List.nodup_cons.2 ⟨List.not_mem_nil, List.nodup_nil⟩
  | directory entries, h => nodup_filesOf entries h.1 h.2

theorem nodup_filesOf : (entries : List (String × FileTree)) →
    entries.Pairwise (fun a b => a.1 < b.1) → AllOrdered entries →
      ((filesOf entries).map (·.1)).Nodup
  | [], _, _ => List.nodup_nil
  | e :: rest, hsorted, h => by
    obtain ⟨hfirst, hothers⟩ := List.pairwise_cons.1 hsorted
    rw [filesOf, List.map_append, List.map_map]
    refine List.nodup_append.2 ⟨?_, nodup_filesOf rest hothers h.2, ?_⟩
    · have hnodup := List.Nodup.map (List.cons_injective (a := e.1)) (nodup_files e.2 h.1)
      rw [List.map_map] at hnodup
      exact hnodup
    · -- the first names differ
      rintro place hplace other hother rfl
      obtain ⟨f, -, rfl⟩ := List.mem_map.1 hplace
      obtain ⟨g, hg, hname⟩ := List.mem_map.1 hother
      obtain ⟨e', he', g', -, rfl⟩ := mem_files_directory.1 (show g ∈ (directory rest).files from hg)
      exact absurd (List.cons.inj hname).1.symm (Std.ne_of_lt (hfirst e' he'))

end

end FileTree

end RecordTables
