import Mathlib.Data.List.Basic
import RecordTables.Proofs.Files.Invariants

/-!
# Conflicts between the data files of a directory

Two data files of a directory conflict if they have one stem.  `DataFile.list` takes the files in the
order of their names and compares neighbours, so it tells a conflict if and only if there is one
between files that have no data file between them (`DataFile.list_exact`).

Files of one stem need not be neighbours: in `a.json`, `a.k.json`, `a.ron` another file stands between
the two of the stem `a`.  But whatever stands between two files of one stem has that stem, or a longer
one that goes on with a dot (`DataFile.stem_of_between`).  So where no data file has such a longer
stem, no conflict is missed.
-/

namespace RecordTables

/-! ### Names below a directory -/

namespace FileTree

variable {t : FileTree} {entries : List (String × FileTree)} {directory : Path} {name : String}

theorem settle?_concat (t : FileTree) (done ps : List String) (hname : name ≠ "..") :
    t.settle? done (ps ++ [name]) = (t.settle? done ps).map (· ++ [name]) := by
  induction ps generalizing done with
  | nil =>
    rw [List.nil_append, settle?, settle?, if_neg hname, settle?]
    rfl
  | cons part ps ih =>
    rw [List.cons_append, settle?, settle?]
    split_ifs
    · rfl
    · exact ih _
    · exact ih _

/-- What stands under a name in a directory, wherever the directory is. -/
theorem at?_join (h : t.at? directory = some (.directory entries)) (hname : Path.IsName name) :
    t.at? (directory.join name) = entries.lookup name := by
  cases directory with
  | outside text => cases h
  | inside ps =>
    obtain ⟨place, hplace, hentries⟩ := Option.bind_eq_some_iff.1 h
    unfold at?
    rw [Path.join_inside ps hname, place?, settle?_concat t [] ps hname.ne_dots,
      show t.settle? [] ps = some place from hplace, Option.map_some, Option.bind_some,
      descend?_append, hentries, Option.bind_some, descend?_cons]
    exact Option.bind_fun_some _

end FileTree

namespace DataFile

variable {files : FileTree} {entries : List (String × FileTree)} {directory : Path}
  {a b c : String} {names front back : List String} {paths : List Path}

/-! ### The data files of a directory -/

/-- The stem of a name. -/
def stemOf (name : String) : String := (Path.splitName name).1

/-- Whether an entry of a directory is a data file: a file with the extension of a notation. -/
def isDataFile (entry : String × FileTree) : Bool :=
  !entry.2.isDirectory && ((Path.splitName entry.1).2.bind DataNotation.ofExtension?).isSome

/-- The names of the data files of a directory, in the order of the entries. -/
def dataNames (entries : List (String × FileTree)) : List String :=
  (entries.filter isDataFile).map (·.1)

/-- Two data files have one stem. -/
structure Conflicts (entries : List (String × FileTree)) (a b : String) : Prop where
  left : a ∈ dataNames entries
  right : b ∈ dataNames entries
  lt : a < b
  stem : stemOf a = stemOf b

theorem sorted_dataNames (h : entries.Pairwise fun a b => a.1 < b.1) :
    (dataNames entries).Pairwise (· < ·) :=
  List.pairwise_map.2 (h.filter _)

theorem isName_of_mem_dataNames (h : ∀ e ∈ entries, Path.IsName e.1) (ha : a ∈ dataNames entries) :
    Path.IsName a := by
  obtain ⟨e, he, rfl⟩ := List.mem_map.1 ha
  exact h e (List.mem_filter.1 he).1

/-- The name of a data file is its stem and the extension of a notation. -/
theorem exists_of_mem_dataNames (ha : a ∈ dataNames entries) :
    ∃ n : DataNotation, a = stemOf a ++ "." ++ n.extension := by
  obtain ⟨e, he, rfl⟩ := List.mem_map.1 ha
  obtain ⟨-, hdata⟩ := List.mem_filter.1 he
  obtain ⟨-, hsome⟩ := Bool.and_eq_true_iff.1 hdata
  obtain ⟨n, hn⟩ := Option.isSome_iff_exists.1 hsome
  obtain ⟨extension, hextension, hn⟩ := Option.bind_eq_some_iff.1 hn
  have hname := (Path.eq_of_splitName (Prod.ext rfl hextension)).1
  refine ⟨n, ?_⟩
  have hsame : extension = n.extension := by
    unfold DataNotation.ofExtension? at hn
    split at hn <;> cases hn <;> rfl
  rw [← hsame]
  exact hname

theorem stem_join (h : ∀ e ∈ entries, Path.IsName e.1) (ha : a ∈ dataNames entries) :
    (directory.join a).stem = stemOf a := by
  unfold Path.stem
  rw [Path.name_join directory (isName_of_mem_dataNames h ha)]
  rfl

/-- What is listed are the data files. -/
theorem found_eq (hdir : files.at? directory = some (.directory entries))
    (hsorted : entries.Pairwise fun a b => a.1 < b.1) (hnames : ∀ e ∈ entries, Path.IsName e.1) :
    ((entries.map (·.1)).map directory.join).filter
        (fun p => files.hasFile p && (DataNotation.ofPath p).toOption.isSome) =
      (dataNames entries).map directory.join := by
  unfold dataNames
  rw [List.map_map, List.map_map, List.filter_map]
  refine congrArg _ (List.filter_congr fun e he => ?_)
  have hname := hnames e he
  have hentry := (FileTree.lookup_eq_some_iff_mem hsorted).2 he
  have hnotation : (DataNotation.ofPath (directory.join e.1)).toOption.isSome =
      ((Path.splitName e.1).2.bind DataNotation.ofExtension?).isSome := by
    unfold DataNotation.ofPath Path.extension?
    rw [Path.name_join directory hname]
    cases (Path.splitName e.1).2.bind DataNotation.ofExtension? <;> rfl
  have hfile : files.hasFile (directory.join e.1) = !e.2.isDirectory := by
    unfold FileTree.hasFile
    rw [FileTree.at?_join hdir hname, hentry]
    rfl
  show (files.hasFile (directory.join e.1) &&
    (DataNotation.ofPath (directory.join e.1)).toOption.isSome) = isDataFile e
  rw [hfile, hnotation]
  rfl

/-! ### Neighbours -/

/-- A conflict that is found is one of neighbours. -/
theorem exists_of_firstConflict? {p q : Path} (h : firstConflict? paths = some (p, q)) :
    ∃ front back, paths = front ++ p :: q :: back ∧ p.stem = q.stem := by
  fun_induction firstConflict? paths with
  | case1 p' q' rest hstem =>
    cases h
    exact ⟨[], rest, rfl, hstem⟩
  | case2 p' q' rest _ ih =>
    obtain ⟨front, back, hpaths, hstem⟩ := ih h
    exact ⟨p' :: front, back, congrArg (p' :: ·) hpaths, hstem⟩
  | case3 => cases h

/-- Neighbours of one stem do not go unnoticed. -/
theorem firstConflict?_ne_none {p q : Path} (hstem : p.stem = q.stem) (front back : List Path) :
    firstConflict? (front ++ p :: q :: back) ≠ none := by
  induction front with
  | nil =>
    rw [List.nil_append, firstConflict?, if_pos hstem]
    exact Option.some_ne_none _
  | cons first front ih =>
    intro hnone
    cases front with
    | nil =>
      rw [List.cons_append, List.nil_append, firstConflict?] at hnone
      split_ifs at hnone
      exact ih hnone
    | cons second front =>
      rw [List.cons_append, List.cons_append, firstConflict?] at hnone
      split_ifs at hnone
      exact ih hnone

/-- In order, what stands behind each other has nothing in between. -/
theorem not_between (hsorted : names.Pairwise (· < ·)) (hnames : names = front ++ a :: b :: back) :
    a < b ∧ ∀ c ∈ names, ¬(a < c ∧ c < b) := by
  rw [hnames, List.pairwise_append, List.pairwise_cons, List.pairwise_cons] at hsorted
  obtain ⟨-, ⟨hafter, hlast, -⟩, hbefore⟩ := hsorted
  refine ⟨hafter b List.mem_cons_self, fun c hc ⟨hac, hcb⟩ => ?_⟩
  rw [hnames, List.mem_append, List.mem_cons, List.mem_cons] at hc
  rcases hc with hc | rfl | rfl | hc
  · exact String.lt_asymm hac (hbefore c hc a List.mem_cons_self)
  · exact String.lt_irrefl _ hac
  · exact String.lt_irrefl _ hcb
  · exact String.lt_asymm hcb (hlast c hc)

/-- In order, something stands behind a name that is not the last. -/
theorem exists_next (hsorted : names.Pairwise (· < ·)) (ha : a ∈ names) (hb : b ∈ names)
    (hab : a < b) : ∃ front next back, names = front ++ a :: next :: back ∧ (next = b ∨ next < b) := by
  obtain ⟨front, rest, rfl⟩ := List.append_of_mem ha
  obtain ⟨-, hafter, hbefore⟩ := List.pairwise_append.1 hsorted
  have hrest : b ∈ rest := by
    rcases List.mem_append.1 hb with hb | hb
    · exact absurd hab (String.lt_asymm (hbefore b hb a List.mem_cons_self))
    · refine (List.mem_cons.1 hb).resolve_left ?_
      rintro rfl
      exact String.lt_irrefl _ hab
  cases rest with
  | nil => cases hrest
  | cons next back =>
    refine ⟨front, next, back, rfl, ?_⟩
    rcases List.mem_cons.1 hrest with rfl | hback
    · exact Or.inl rfl
    · exact Or.inr ((List.pairwise_cons.1 (List.pairwise_cons.1 hafter).2).1 b hback)

/-! ### Between files of one stem -/

/-- What is between two lists of one beginning begins like them. -/
theorem prefix_of_between {s xs ys zs : List Char} (hxs : s <+: xs) (hzs : s <+: zs) (hxy : xs < ys)
    (hyz : ys < zs) : s <+: ys := by
  induction s generalizing xs ys zs with
  | nil => exact List.nil_prefix
  | cons x s ih =>
    obtain ⟨xs, rfl⟩ := hxs
    obtain ⟨zs, rfl⟩ := hzs
    cases ys with
    | nil => exact absurd hxy (List.not_lt_nil _)
    | cons y ys =>
      rw [List.cons_append, List.cons_lt_cons_iff] at hxy hyz
      have hfirst : x = y := by
        rcases hxy with hxy | ⟨heq, -⟩
        · rcases hyz with hyz | ⟨heq, -⟩
          · exact absurd hyz (Std.not_lt.2 (Std.le_of_lt hxy))
          · exact heq.symm
        · exact heq
      subst hfirst
      have hxy' : s ++ xs < ys := (hxy.resolve_left Std.lt_irrefl).2
      have hyz' : ys < s ++ zs := (hyz.resolve_left Std.lt_irrefl).2
      rw [List.cons_prefix_cons]
      exact ⟨rfl, ih (List.prefix_append _ _) (List.prefix_append _ _) hxy' hyz'⟩

theorem prefix_append (s t : String) : s.toList <+: (s ++ t).toList := by
  rw [String.toList_append]
  exact List.prefix_append _ _

theorem noDot_extension (n : DataNotation) : '.' ∉ n.extension.toList := by
  cases n <;> decide

/-- **Between two files of one stem** there are files of that stem, and of longer ones that go on with
a dot. -/
theorem stem_of_between (h : Conflicts entries a b) (hc : c ∈ dataNames entries) (hac : a < c)
    (hcb : c < b) : stemOf c = stemOf a ∨ (stemOf a ++ ".").toList <+: (stemOf c).toList := by
  obtain ⟨n, ha⟩ := exists_of_mem_dataNames h.left
  obtain ⟨n', hb⟩ := exists_of_mem_dataNames h.right
  obtain ⟨n'', hc⟩ := exists_of_mem_dataNames hc
  have hbegin : (stemOf a ++ ".").toList <+: c.toList := by
    have hleft : (stemOf a ++ ".").toList <+: a.toList := by
      rw [congrArg String.toList ha]
      exact prefix_append _ _
    have hright : (stemOf a ++ ".").toList <+: b.toList := by
      rw [congrArg String.toList hb, ← h.stem]
      exact prefix_append _ _
    exact prefix_of_between hleft hright (String.lt_iff.1 hac) (String.lt_iff.1 hcb)
  obtain ⟨rest, hrest⟩ := hbegin
  have hdot : ".".toList = ['.'] := rfl
  have hsplit : (stemOf a).toList ++ '.' :: rest = (stemOf c).toList ++ '.' :: n''.extension.toList := by
    have hlist := hrest.trans (congrArg String.toList hc)
    simpa [String.toList_append, hdot] using hlist
  rcases List.append_eq_append_iff.1 hsplit with ⟨more, hstem, hmore⟩ | ⟨more, hstem, hmore⟩
  · -- the stem of the file between is the longer one
    cases more with
    | nil =>
      rw [List.append_nil] at hstem
      exact Or.inl (String.toList_inj.1 hstem)
    | cons x more =>
      obtain ⟨rfl, -⟩ := List.cons.inj hmore
      right
      rw [hstem, String.toList_append, hdot]
      exact ⟨more, by simp⟩
  · cases more with
    | nil =>
      rw [List.append_nil] at hstem
      exact Or.inl (String.toList_inj.1 hstem.symm)
    | cons x more =>
      -- otherwise the extension of the file between would have a dot
      obtain ⟨-, hextension⟩ := List.cons.inj hmore
      refine absurd ?_ (noDot_extension n'')
      rw [hextension]
      exact List.mem_append_right _ List.mem_cons_self

/-! ### What is listed -/

section Listed

variable (hdir : files.at? directory = some (.directory entries))
  (hsorted : entries.Pairwise fun a b => a.1 < b.1) (hnames : ∀ e ∈ entries, Path.IsName e.1)

include hdir hsorted hnames

theorem list_eq : list files directory =
    match firstConflict? ((dataNames entries).map directory.join) with
    | some (p, q) => .error (.conflicting p q)
    | none => .ok ((dataNames entries).map directory.join) := by
  have hfound := found_eq hdir hsorted hnames
  unfold list FileTree.names?
  rw [hdir]
  dsimp only
  exact hfound ▸ rfl

/-- A conflict that is told is one of data files. -/
theorem conflicts_of_list {p q : Path} (h : list files directory = .error (.conflicting p q)) :
    ∃ a b, p = directory.join a ∧ q = directory.join b ∧ Conflicts entries a b ∧
      ∀ c ∈ dataNames entries, ¬(a < c ∧ c < b) := by
  rw [list_eq hdir hsorted hnames] at h
  split at h
  · next p' q' hfirst =>
    cases h
    obtain ⟨front, back, hpaths, hstem⟩ := exists_of_firstConflict? hfirst
    obtain ⟨front', rest, hsplit, -, hrest⟩ := List.map_eq_append_iff.1 hpaths
    obtain ⟨a, rest', rfl, rfl, hrest'⟩ := List.map_eq_cons_iff.1 hrest
    obtain ⟨b, back', rfl, rfl, -⟩ := List.map_eq_cons_iff.1 hrest'
    have ha : a ∈ dataNames entries := by
      rw [hsplit]
      exact List.mem_append_right _ List.mem_cons_self
    have hb : b ∈ dataNames entries := by
      rw [hsplit]
      exact List.mem_append_right _ (List.mem_cons_of_mem _ List.mem_cons_self)
    obtain ⟨hlt, hbetween⟩ := not_between (sorted_dataNames hsorted) hsplit
    rw [stem_join hnames ha, stem_join hnames hb] at hstem
    exact ⟨a, b, rfl, rfl, ⟨ha, hb, hlt, hstem⟩, hbetween⟩
  · cases h

/-- A conflict is told, or another one is, if all files between the two have their stem. -/
theorem exists_of_conflicts (hab : Conflicts entries a b)
    (hbetween : ∀ c ∈ dataNames entries, a < c → c < b → stemOf c = stemOf a) :
    ∃ p q, list files directory = .error (.conflicting p q) := by
  have hdata := sorted_dataNames hsorted
  -- the file behind the first of the two already has its stem
  obtain ⟨front, next, back, hsplit, hnext⟩ := exists_next hdata hab.left hab.right hab.lt
  have hmem : next ∈ dataNames entries := by
    rw [hsplit]
    exact List.mem_append_right _ (List.mem_cons_of_mem _ List.mem_cons_self)
  have hstem : stemOf a = stemOf next := by
    rcases hnext with rfl | hnext
    · exact hab.stem
    · exact (hbetween next hmem (not_between hdata hsplit).1 hnext).symm
  have hpaths : (directory.join a).stem = (directory.join next).stem := by
    rw [stem_join hnames hab.left, stem_join hnames hmem, hstem]
  have hsome := firstConflict?_ne_none hpaths (front.map directory.join) (back.map directory.join)
  rw [← List.map_cons, ← List.map_cons, ← List.map_append, ← hsplit] at hsome
  rw [list_eq hdir hsorted hnames]
  obtain ⟨⟨p, q⟩, hpq⟩ := Option.ne_none_iff_exists'.1 hsome
  rw [hpq]
  exact ⟨p, q, rfl⟩

/-- **The data files of a directory.**  They are listed in the order of their names, unless two of them
conflict that have no other data file between them; then two such are told.  A conflict is only missed
where another data file has the stem of the two, followed by a dot and more. -/
theorem list_exact :
    (∀ p q, list files directory = .error (.conflicting p q) →
      ∃ a b, p = directory.join a ∧ q = directory.join b ∧ Conflicts entries a b) ∧
    ((∃ p q, list files directory = .error (.conflicting p q)) ↔
      ∃ a b, Conflicts entries a b ∧ ∀ c ∈ dataNames entries, ¬(a < c ∧ c < b)) ∧
    ((¬∃ p q, list files directory = .error (.conflicting p q)) →
      list files directory = .ok ((dataNames entries).map directory.join) ∧
        (dataNames entries).Pairwise (· < ·)) ∧
    ((∃ a b, Conflicts entries a b ∧ ∀ c ∈ dataNames entries,
        ¬(stemOf a ++ ".").toList <+: (stemOf c).toList) →
      ∃ p q, list files directory = .error (.conflicting p q)) := by
  have hdata := sorted_dataNames hsorted
  refine ⟨fun p q h => ?_, ⟨?_, ?_⟩, fun hnone => ⟨?_, hdata⟩, ?_⟩
  · obtain ⟨a, b, hp, hq, hab, -⟩ := conflicts_of_list hdir hsorted hnames h
    exact ⟨a, b, hp, hq, hab⟩
  -- a conflict is found where two names of one stem are neighbours
  · rintro ⟨p, q, h⟩
    obtain ⟨a, b, -, -, hab, hbetween⟩ := conflicts_of_list hdir hsorted hnames h
    exact ⟨a, b, hab, hbetween⟩
  · rintro ⟨a, b, hab, hbetween⟩
    exact exists_of_conflicts hdir hsorted hnames hab fun c hc hac hcb =>
      absurd ⟨hac, hcb⟩ (hbetween c hc)
  · rw [list_eq hdir hsorted hnames] at hnone ⊢
    split at hnone
    · next p q hfirst => exact absurd ⟨p, q, rfl⟩ hnone
    · rfl
  -- if no name has the stem and a dot in front, nothing stands between the two
  · rintro ⟨a, b, hab, hlonger⟩
    refine exists_of_conflicts hdir hsorted hnames hab fun c hc hac hcb => ?_
    exact (stem_of_between hab hc hac hcb).resolve_right (hlonger c hc)

end Listed

/-- A directory in which a file stands between two of one stem. -/
def parted : List (String × FileTree) :=
  [("a.json", .file []), ("a.k.json", .file []), ("a.ron", .file []), ("notes.txt", .file []),
    ("z.ron", .directory [])]

/-- The conflict of `a.json` and `a.ron` is missed. -/
theorem list_exact_parted :
    (FileTree.directory parted).at? .root = some (.directory parted) ∧
      (parted.Pairwise fun a b => a.1 < b.1) ∧ (∀ e ∈ parted, Path.IsName e.1) ∧
      Conflicts parted "a.json" "a.ron" ∧
      list (.directory parted) .root =
        .ok [.inside ["a.json"], .inside ["a.k.json"], .inside ["a.ron"]] ∧
      ¬∃ a b, Conflicts parted a b ∧ ∀ c ∈ dataNames parted, ¬(a < c ∧ c < b) := by
  have hsorted : parted.Pairwise fun a b => a.1 < b.1 := by decide
  have hnames : ∀ e ∈ parted, Path.IsName e.1 := by decide
  have hlist : list (.directory parted) .root =
      .ok [.inside ["a.json"], .inside ["a.k.json"], .inside ["a.ron"]] := by decide +kernel
  have hconflicts : Conflicts parted "a.json" "a.ron" :=
    ⟨by decide +kernel, by decide +kernel, by decide, by decide +kernel⟩
  have hat : (FileTree.directory parted).at? .root = some (.directory parted) := rfl
  obtain ⟨-, htold, -, -⟩ := list_exact hat hsorted hnames
  refine ⟨rfl, hsorted, hnames, hconflicts, hlist, fun hneighbours => ?_⟩
  obtain ⟨p, q, herror⟩ := htold.2 hneighbours
  rw [hlist] at herror
  cases herror

end DataFile

end RecordTables
