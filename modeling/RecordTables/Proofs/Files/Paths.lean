import Mathlib.Data.List.Basic
import RecordTables.DataFile

/-!
# Names at the end of paths

A path that is joined with a plain name ends with that name (`Path.name_join`), so the notation of a
data file does not depend on the directory it is in (`DataNotation.ofPath_join`).
-/

namespace RecordTables

open Text

namespace Path

/-- A text between two slashes that says something. -/
structure IsPart (part : String) : Prop where
  noSlash : '/' ∉ part.toList
  ne_empty : part ≠ ""
  ne_dot : part ≠ "."

/-- A part that does not lead back. -/
structure IsName (name : String) : Prop extends IsPart name where
  ne_dots : name ≠ ".."

instance (part : String) : Decidable (IsPart part) :=
  decidable_of_iff ('/' ∉ part.toList ∧ part ≠ "" ∧ part ≠ ".")
    ⟨fun h => ⟨h.1, h.2.1, h.2.2⟩, fun h => ⟨h.noSlash, h.ne_empty, h.ne_dot⟩⟩

instance (name : String) : Decidable (IsName name) :=
  decidable_of_iff (IsPart name ∧ name ≠ "..")
    ⟨fun h => ⟨h.1, h.2⟩, fun h => ⟨h.toIsPart, h.ne_dots⟩⟩

theorem splitOn_append {α : Type} [DecidableEq α] (sep : α) (xs ys : List α) :
    splitOn sep (xs ++ sep :: ys) = splitOn sep xs ++ splitOn sep ys := by
  induction xs with
  | nil => simp [splitOn]
  | cons c xs ih =>
    rw [List.cons_append, splitOn, splitOn, ih]
    split_ifs with h
    · rfl
    · cases hxs : splitOn sep xs with
      | nil => exact absurd hxs (splitOn_ne_nil sep xs)
      | cons part parts => rfl

/-- Names do not lead back. -/
theorem notMem_dots {names : List String} (h : ∀ name ∈ names, IsName name) : ".." ∉ names :=
  fun hmem => (h _ hmem).ne_dots rfl

theorem plain_concat {ps : List String} {name : String} (hps : ".." ∉ ps)
    (hname : IsName name) : ".." ∉ ps ++ [name] := by
  rw [List.mem_append, List.mem_singleton, not_or]
  exact ⟨hps, Ne.symm hname.ne_dots⟩

theorem plain_pair {a b : String} (ha : IsName a) (hb : IsName b) : ".." ∉ [a, b] :=
  notMem_dots (List.forall_mem_cons.2 ⟨ha, List.forall_mem_singleton.2 hb⟩)

variable {name : String}

theorem partsOf_of_isName (h : IsName name) : partsOf name = [name] := by
  unfold partsOf
  rw [splitOn_of_notMem h.noSlash]
  simp [h.ne_empty, h.ne_dot]

theorem isAbsolute_of_isName (h : IsName name) : isAbsolute name = false := by
  unfold isAbsolute
  rw [decide_eq_false_iff_not]
  intro hhead
  exact h.noSlash (List.mem_of_mem_head? hhead)

theorem join_inside (parts : List String) (h : IsName name) :
    (inside parts).join name = inside (parts ++ [name]) := by
  unfold join
  rw [isAbsolute_of_isName h, partsOf_of_isName h]
  rfl

theorem parent_concat (parts : List String) (name : String) :
    (inside (parts ++ [name])).parent = inside parts :=
  congrArg inside List.dropLast_concat

theorem name_concat {parts : List String} (h : name ≠ "..") :
    (inside (parts ++ [name])).name = name := by
  unfold Path.name Path.parts
  rw [List.getLast?_append_cons, List.getLast?_singleton]
  exact if_neg h

/-- A path ends with the name that it is joined with. -/
theorem name_join (p : Path) (h : IsName name) : (p.join name).name = name := by
  cases p with
  | inside front =>
    rw [join_inside front h, name_concat h.ne_dots]
  | outside stem =>
    have htext : ("/".intercalate [stem, name]).toList = stem.toList ++ '/' :: name.toList := by
      rw [String.toList_intercalate]
      simp
    have hparts : partsOf ("/".intercalate [stem, name]) = partsOf stem ++ partsOf name := by
      unfold partsOf
      rw [htext, splitOn_append, List.map_append, List.filter_append]
    unfold join
    rw [isAbsolute_of_isName h, partsOf_of_isName h]
    unfold Path.name
    simp only [Bool.false_eq_true, if_false, parts]
    rw [hparts, partsOf_of_isName h]
    simp [h.ne_dots]

/-! ### Names between slashes -/

theorem toList_intercalate_cons (name next : String) (names : List String) :
    ("/".intercalate (name :: next :: names)).toList =
      name.toList ++ '/' :: ("/".intercalate (next :: names)).toList := by
  rw [String.toList_intercalate, String.toList_intercalate]
  simp

/-- Names between slashes are told apart again. -/
theorem partsOf_intercalate {names : List String} (h : ∀ name ∈ names, IsName name) :
    partsOf ("/".intercalate names) = names := by
  induction names with
  | nil => rfl
  | cons name names ih =>
    obtain ⟨hname, hnames⟩ := List.forall_mem_cons.1 h
    cases names with
    | nil =>
      rw [String.intercalate_singleton]
      exact partsOf_of_isName hname
    | cons next names =>
      have hparts : partsOf ("/".intercalate (name :: next :: names)) =
          partsOf name ++ partsOf ("/".intercalate (next :: names)) := by
        unfold partsOf
        rw [toList_intercalate_cons, splitOn_append, List.map_append, List.filter_append]
      rw [hparts, partsOf_of_isName hname, ih hnames]
      rfl

/-- A path that is joined with names between slashes. -/
theorem join_intercalate (parts : List String) {name : String} {names : List String}
    (h : ∀ part ∈ name :: names, IsName part) :
    (inside parts).join ("/".intercalate (name :: names)) = inside (parts ++ name :: names) := by
  have hname := h name List.mem_cons_self
  have habsolute : isAbsolute ("/".intercalate (name :: names)) = false := by
    have hhead := isAbsolute_of_isName hname
    cases names with
    | nil => rwa [String.intercalate_singleton]
    | cons next names =>
      have hne : name.toList ≠ [] := fun hnil => hname.ne_empty (String.toList_eq_nil_iff.1 hnil)
      unfold isAbsolute at hhead ⊢
      rwa [toList_intercalate_cons, List.head?_append_of_ne_nil _ hne]
  unfold join
  rw [habsolute, partsOf_intercalate h]
  rfl

/-! ### Extensions -/

/-- A stem and an extension are told apart at the dot between them. -/
theorem splitName_append {stem extension : String} (hstem : stem ≠ "")
    (hextension : '.' ∉ extension.toList) :
    splitName (stem ++ "." ++ extension) = (stem, some extension) := by
  have htext : (stem ++ "." ++ extension).toList.reverse =
      extension.toList.reverse ++ '.' :: stem.toList.reverse := by
    rw [String.toList_append, String.toList_append]
    simp
  have hall : ∀ c ∈ extension.toList.reverse, decide (c ≠ '.') = true := by
    intro c hc
    refine decide_eq_true ?_
    rintro rfl
    exact hextension (List.mem_reverse.1 hc)
  have hne : stem.toList.reverse.isEmpty = false := by
    rw [List.isEmpty_eq_false_iff, ne_eq, List.reverse_eq_nil_iff]
    exact fun hnil => hstem (String.toList_eq_nil_iff.1 hnil)
  unfold splitName
  rw [htext, List.takeWhile_append_of_pos hall, List.dropWhile_append_of_pos hall,
    List.takeWhile_cons_of_neg (by decide), List.dropWhile_cons_of_neg (by decide)]
  dsimp only
  rw [hne, if_neg Bool.false_ne_true, List.append_nil, List.reverse_reverse, List.reverse_reverse,
    String.ofList_toList, String.ofList_toList]

/-- A name with an extension is its stem and the extension. -/
theorem eq_of_splitName {stem extension : String} (h : splitName name = (stem, some extension)) :
    name = stem ++ "." ++ extension ∧ stem ≠ "" := by
  have hsplit := List.takeWhile_append_dropWhile (p := fun c => decide (c ≠ '.'))
    (l := name.toList.reverse)
  unfold splitName at h
  dsimp only at h
  split at h
  · next c front hfront =>
    -- what was left out of the extension begins with the dot
    have hdot : c = '.' := by
      have hhead := List.head?_dropWhile_not (fun c => decide (c ≠ '.')) name.toList.reverse
      rw [hfront] at hhead
      simpa using hhead
    split_ifs at h with hempty
    · cases h
    · obtain ⟨rfl, hextension⟩ := Prod.mk.inj h
      obtain rfl := Option.some.inj hextension
      rw [hfront, hdot] at hsplit
      have hname := congrArg List.reverse hsplit
      rw [List.reverse_reverse] at hname
      refine ⟨String.toList_inj.1 ?_, fun hnil => hempty ?_⟩
      · refine hname.symm.trans ?_
        simp
      · have hlist := congrArg String.toList hnil
        rw [String.toList_ofList] at hlist
        simpa using hlist
  · cases h

/-! ### Clean paths -/

/-- Every part of the path says something. -/
def IsClean : Path → Prop
  | inside parts => ∀ part ∈ parts, IsPart part
  | outside _ => True

theorem notMem_of_mem_splitOn {α : Type} [DecidableEq α] {sep : α} {cs part : List α}
    (h : part ∈ splitOn sep cs) : sep ∉ part := by
  induction cs generalizing part with
  | nil =>
    rw [List.mem_singleton.1 h]
    exact List.not_mem_nil
  | cons c cs ih =>
    rw [splitOn] at h
    split_ifs at h with hsep
    · rcases List.mem_cons.1 h with rfl | h
      · exact List.not_mem_nil
      · exact ih h
    · cases hcs : splitOn sep cs with
      | nil => exact absurd hcs (splitOn_ne_nil sep cs)
      | cons first others =>
        rw [hcs] at h ih
        rcases List.mem_cons.1 h with rfl | h
        · rw [List.mem_cons, not_or]
          exact ⟨Ne.symm hsep, ih List.mem_cons_self⟩
        · exact ih (List.mem_cons_of_mem _ h)

theorem isPart_of_mem_partsOf {text part : String} (h : part ∈ partsOf text) : IsPart part := by
  obtain ⟨hmem, hsays⟩ := List.mem_filter.1 h
  obtain ⟨cs, hcs, rfl⟩ := List.mem_map.1 hmem
  obtain ⟨hempty, hdot⟩ := of_decide_eq_true hsays
  refine ⟨?_, hempty, hdot⟩
  rw [String.toList_ofList]
  exact notMem_of_mem_splitOn hcs

variable {p : Path}

theorem IsClean.join (h : p.IsClean) (text : String) : (p.join text).IsClean := by
  unfold Path.join
  split_ifs
  · trivial
  · cases p with
    | inside parts =>
      intro part hpart
      rcases List.mem_append.1 hpart with hpart | hpart
      · exact h part hpart
      · exact isPart_of_mem_partsOf hpart
    | outside stem => trivial

theorem isClean_ofText (text : String) : (ofText text).IsClean :=
  IsClean.join (p := root) (fun _ h => nomatch h) text

theorem IsClean.foldl_join (h : p.IsClean) (place : List String) :
    (place.foldl Path.join p).IsClean := by
  induction place generalizing p with
  | nil => exact h
  | cons name place ih => exact ih (h.join name)

theorem IsClean.parent (h : p.IsClean) : p.parent.IsClean := by
  cases p with
  | inside parts => exact fun part hpart => h part ((List.dropLast_prefix parts).subset hpart)
  | outside text => trivial

theorem IsClean.withName (h : p.IsClean) (hname : IsPart name) : (p.withName name).IsClean := by
  cases p with
  | inside parts =>
    intro part hpart
    rcases List.mem_append.1 hpart with hpart | hpart
    · exact h part ((List.dropLast_prefix parts).subset hpart)
    · rw [List.mem_singleton.1 hpart]
      exact hname
  | outside text => trivial

/-- The last part of a clean path has no slash, and no path has one in its name. -/
theorem noSlash_name (p : Path) (h : p.IsClean) : '/' ∉ p.name.toList := by
  have hparts : ∀ part ∈ p.parts, IsPart part := by
    cases p with
    | inside parts => exact h
    | outside text => exact fun part hpart => isPart_of_mem_partsOf hpart
  unfold Path.name
  cases hlast : p.parts.getLast? with
  | none => exact List.not_mem_nil
  | some name =>
    dsimp only
    split_ifs
    · exact List.not_mem_nil
    · exact (hparts name (List.mem_of_getLast? hlast)).noSlash

theorem noSlash_stem (p : Path) (h : p.IsClean) : '/' ∉ p.stem.toList := by
  have hname := noSlash_name p h
  unfold stem splitName
  dsimp only
  split
  · next c front hfront =>
    split_ifs
    · exact hname
    · rw [String.toList_ofList, List.mem_reverse]
      intro hmem
      have hrest : '/' ∈ p.name.toList.reverse.dropWhile (· ≠ '.') := by
        rw [hfront]
        exact List.mem_cons_of_mem _ hmem
      exact hname (List.mem_reverse.1 ((List.dropWhile_sublist _).subset hrest))
  · exact hname

/-- What is set between a text without a slash and a text that says something is a part. -/
theorem isPart_append {front back : String} (hfront : '/' ∉ front.toList) (hback : '/' ∉ back.toList)
    (hlength : 2 ≤ back.length) : IsPart (front ++ back) := by
  have hsum : (front ++ back).length = front.length + back.length := String.length_append _ _
  refine ⟨?_, ?_, ?_⟩
  · rw [String.toList_append, List.mem_append, not_or]
    exact ⟨hfront, hback⟩
  · intro hempty
    rw [hempty] at hsum
    change 0 = _ at hsum
    omega
  · intro hdot
    rw [hdot] at hsum
    change 1 = _ at hsum
    omega

theorem isName_append {extension : String} (h : IsName name) (hextension : '/' ∉ extension.toList)
    (hlength : 3 ≤ extension.length) : IsName (name ++ extension) := by
  refine ⟨isPart_append h.noSlash hextension (by omega), fun hdots => ?_⟩
  have hsum : (name ++ extension).length = name.length + extension.length := String.length_append _ _
  rw [hdots] at hsum
  change 2 = _ at hsum
  omega

end Path

/-- A data file is in the notation of its name. -/
theorem DataNotation.ofPath_join {name : String} {n : DataNotation} (p : Path)
    (hname : Path.IsName name) (h : (Path.splitName name).2 = some n.extension) :
    ofPath (p.join name) = .ok n := by
  unfold ofPath Path.extension?
  rw [Path.name_join p hname, h, Option.bind_some, ofExtension?_extension]

end RecordTables
