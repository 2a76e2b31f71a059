import Mathlib.Data.List.Induction
import RecordTables.NameMap

/-!
# Entries of maps from names

Inserting puts one entry beside those of other names (`NameMap.entries_insert_perm`), and the entries
of a map are the one of a name and those of other names (`NameMap.entries_perm`).  A map is determined
by what is found in it (`NameMap.ext_find?`), and in a map that was put over another one its own
entries are found (`NameMap.find?_override`).
-/

namespace RecordTables.NameMap

variable {α : Type} {m : NameMap α} {name : String} {x : α}

/-- What is found under a name is an entry. -/
theorem mem_entries_of_find? (h : m.find? name = some x) : (name, x) ∈ m.entries := by
  unfold find? at h
  obtain ⟨e, he, rfl⟩ := Option.map_eq_some_iff.1 h
  have hname := List.find?_some he
  rw [beq_iff_eq] at hname
  rw [← hname]
  exact List.mem_of_find?_eq_some he

theorem insertEntry_perm (name : String) (x : α) {l : List (String × α)}
    (hsorted : l.Pairwise (fun a b => a.1 < b.1)) :
    (insertEntry name x l).Perm ((name, x) :: l.filter (fun e => e.1 != name)) := by
  induction l with
  | nil => exact List.Perm.refl _
  | cons e l ih =>
    obtain ⟨hlt, hsorted⟩ := List.pairwise_cons.1 hsorted
    -- the names that follow are greater, so the filter leaves them
    have hlater {n : String} (hn : n ≤ e.1) : l.filter (fun e => e.1 != n) = l := by
      refine List.filter_eq_self.2 fun f hf => bne_iff_ne.2 fun heq => ?_
      have hle : n < f.1 := Std.lt_of_le_of_lt hn (hlt f hf)
      rw [heq] at hle
      exact String.lt_irrefl n hle
    unfold insertEntry
    split
    · next hfirst =>
      have hne : (e.1 != name) = true := bne_iff_ne.2 fun heq => by
        rw [heq] at hfirst
        exact String.lt_irrefl name hfirst
      rw [List.filter_cons, if_pos hne, hlater (Std.le_of_lt hfirst)]
    · split
      · next hsame =>
        have hsame' : ¬(e.1 != name) = true := by
          rw [hsame, bne_self_eq_false]
          exact Bool.false_ne_true
        rw [List.filter_cons, if_neg hsame', hsame, hlater (Std.le_refl _)]
      · next hother =>
        rw [List.filter_cons, if_pos (bne_iff_ne.2 (Ne.symm hother))]
        exact ((ih hsorted).cons e).trans (List.Perm.swap _ _ _)

/-- **Inserting** leaves the entries of other names. -/
theorem entries_insert_perm (m : NameMap α) (name : String) (x : α) :
    (m.insert name x).entries.Perm ((name, x) :: (m.erase name).entries) :=
  insertEntry_perm name x m.sorted

theorem entries_erase_of_find? (h : m.find? name = none) : (m.erase name).entries = m.entries := by
  refine List.filter_eq_self.2 fun e he => bne_iff_ne.2 fun heq => ?_
  have hnone := List.find?_eq_none.1 (Option.map_eq_none_iff.1 h) e he
  exact hnone (beq_iff_eq.2 heq)

theorem insertEntry_of_mem {l : List (String × α)} (hsorted : l.Pairwise (fun a b => a.1 < b.1))
    (h : (name, x) ∈ l) : insertEntry name x l = l := by
  induction l with
  | nil => cases h
  | cons e l ih =>
    obtain ⟨hlt, hsorted⟩ := List.pairwise_cons.1 hsorted
    unfold insertEntry
    rcases List.mem_cons.1 h with rfl | h
    · rw [if_neg (String.lt_irrefl name), if_pos rfl]
    · have hlater : e.1 < name := hlt _ h
      rw [if_neg (fun h => String.lt_asymm h hlater), if_neg (Ne.symm (Std.ne_of_lt hlater)),
        ih hsorted h]

/-- An entry is found under its name. -/
theorem find?_of_mem_entries (h : (name, x) ∈ m.entries) : m.find? name = some x := by
  have hinsert : m.insert name x = m := by
    unfold insert
    simp only [insertEntry_of_mem m.sorted h]
  rw [← hinsert, find?_insert, if_pos rfl]

/-- **Two maps are equal** if the same is found under every name. -/
theorem ext_find? {m m' : NameMap α} (h : ∀ name, m.find? name = m'.find? name) : m = m' := by
  have hsub {m m' : NameMap α} (h : ∀ name, m.find? name = m'.find? name) :
      ∀ e ∈ m.entries, e ∈ m'.entries := fun e he =>
    mem_entries_of_find? ((h e.1).symm.trans (find?_of_mem_entries he))
  have hnodup (m : NameMap α) : m.entries.Nodup :=
    List.Pairwise.imp (fun {a b} hlt => fun (heq : a = b) =>
      String.lt_irrefl b.1 (heq ▸ hlt)) m.sorted
  have hperm : m.entries.Perm m'.entries :=
    (List.perm_ext_iff_of_nodup (hnodup m) (hnodup m')).2 fun e =>
      ⟨hsub h e, hsub (fun name => (h name).symm) e⟩
  have heq : m.entries = m'.entries :=
    hperm.eq_of_pairwise (fun a b _ _ hab hba =>
      absurd (String.lt_trans hab hba) (String.lt_irrefl a.1)) m.sorted m'.sorted
  cases m
  cases m'
  obtain rfl := heq
  rfl

/-- An entry whose name comes after all others is put at the end. -/
theorem insertEntry_of_lt {l : List (String × α)} (h : ∀ e ∈ l, e.1 < name) :
    insertEntry name x l = l ++ [(name, x)] := by
  induction l with
  | nil => rfl
  | cons e l ih =>
    have hlt := h e List.mem_cons_self
    unfold insertEntry
    rw [if_neg (String.lt_asymm hlt), if_neg fun heq => String.lt_irrefl name (by rwa [← heq] at hlt),
      ih fun e' he' => h e' (List.mem_cons_of_mem _ he'), List.cons_append]

theorem ofList_append_singleton (l : List (String × α)) (e : String × α) :
    ofList (l ++ [e]) = (ofList l).insert e.1 e.2 :=
  List.foldl_append

/-- A map is that of its entries. -/
theorem ofList_entries (m : NameMap α) : ofList m.entries = m := by
  have hentries (l : List (String × α)) (hsorted : l.Pairwise fun a b => a.1 < b.1) :
      (ofList l).entries = l := by
    induction l using List.reverseRecOn with
    | nil => rfl
    | append_singleton l e ih =>
      obtain ⟨hsorted, -, hlast⟩ := List.pairwise_append.1 hsorted
      rw [ofList_append_singleton, insert]
      simp only [ih hsorted]
      exact insertEntry_of_lt fun e' he' => hlast e' he' e List.mem_cons_self
  have heq := hentries m.entries m.sorted
  cases hm : ofList m.entries with
  | mk entries sorted =>
    rw [hm] at heq
    cases m
    cases heq
    rfl

/-- What is found in the map of a list whose contents follow from their names. -/
theorem find?_ofList_map {β : Type} (nameOf : β → String) (content : String → α) {xs : List β}
    (h : name ∈ xs.map nameOf) :
    (ofList (xs.map fun x => (nameOf x, content (nameOf x)))).find? name = some (content name) := by
  induction xs using List.reverseRecOn with
  | nil => cases h
  | append_singleton xs x ih =>
    have hlast : (ofList ((xs ++ [x]).map fun x => (nameOf x, content (nameOf x)))) =
        (ofList (xs.map fun x => (nameOf x, content (nameOf x)))).insert (nameOf x)
          (content (nameOf x)) := by
      rw [List.map_append]
      exact ofList_append_singleton _ _
    rw [hlast, find?_insert]
    by_cases hname : nameOf x = name
    · rw [if_pos hname, hname]
    · rw [if_neg hname]
      rw [List.map_append, List.mem_append] at h
      exact ih (h.resolve_right fun hmem => hname (List.mem_singleton.1 hmem).symm)

/-- A map is the entry of a name, if there is one, and those of other names. -/
theorem entries_perm (m : NameMap α) (name : String) :
    m.entries.Perm ((m.find? name).toList.map (name, ·) ++ (m.erase name).entries) := by
  cases hfind : m.find? name with
  | none =>
    rw [entries_erase_of_find? hfind]
    exact List.Perm.refl _
  | some x =>
    have hinsert : (m.insert name x).entries = m.entries :=
      insertEntry_of_mem m.sorted (mem_entries_of_find? hfind)
    rw [← hinsert]
    exact entries_insert_perm m name x

/-! ### Maps over each other -/

theorem find?_foldl_insert_of_notMem {l : List (String × α)} (h : name ∉ l.map (·.1)) :
    (l.foldl (fun m e => m.insert e.1 e.2) m).find? name = m.find? name := by
  induction l generalizing m with
  | nil => rfl
  | cons e l ih =>
    obtain ⟨hne, hnotMem⟩ := List.ne_and_not_mem_of_not_mem_cons h
    rw [List.foldl_cons, ih hnotMem, find?_insert, if_neg (Ne.symm hne)]

/-- What is found in the map on top is found. -/
theorem find?_override {other : NameMap α} (h : other.find? name = some x) :
    (m.override other).find? name = some x := by
  obtain ⟨front, back, hentries⟩ := List.append_of_mem (mem_entries_of_find? h)
  have hlater : name ∉ back.map (·.1) := by
    intro hmem
    obtain ⟨e, he, hname⟩ := List.mem_map.1 hmem
    have hsorted := other.sorted
    rw [hentries] at hsorted
    have hlt := (List.pairwise_cons.1 (List.pairwise_append.1 hsorted).2.1).1 e he
    exact String.lt_irrefl name (hname ▸ hlt)
  unfold override
  rw [hentries, List.foldl_append, List.foldl_cons, find?_foldl_insert_of_notMem hlater, find?_insert,
    if_pos rfl]

/-- What is not in the map on top is found in the other one. -/
theorem find?_override_of_none {other : NameMap α} (h : other.find? name = none) :
    (m.override other).find? name = m.find? name := by
  refine find?_foldl_insert_of_notMem fun hmem => ?_
  obtain ⟨e, he, rfl⟩ := List.mem_map.1 hmem
  rw [find?_of_mem_entries (m := other) he] at h
  cases h

/-- What is found in the map of a list is in the list. -/
theorem mem_of_find?_ofList {l : List (String × α)} (h : (ofList l).find? name = some x) :
    (name, x) ∈ l := by
  induction l using List.reverseRecOn with
  | nil => cases h
  | append_singleton l e ih =>
    rw [ofList_append_singleton, find?_insert] at h
    split_ifs at h with hname
    · obtain rfl := Option.some.inj h
      exact List.mem_append_right _ (hname ▸ List.mem_singleton_self e)
    · exact List.mem_append_left _ (ih h)

/-- What is found in a map whose contents were changed. -/
theorem find?_map {β : Type} (f : α → β) (m : NameMap α) (name : String) :
    (m.map f).find? name = (m.find? name).map f := by
  unfold find? map
  rw [List.find?_map, Option.map_map, Option.map_map]
  rfl

end RecordTables.NameMap
