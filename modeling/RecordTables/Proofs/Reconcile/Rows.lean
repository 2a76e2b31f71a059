import Mathlib.Data.List.DropRight
import Mathlib.Data.List.Nodup
import Mathlib.Data.List.Perm.Subperm
import RecordTables.Proofs.NameMap
import RecordTables.Reconcile.Matcher

/-!
# What is known of checked rows

`Matcher.tableFaults` finds nothing if and only if the identifiers of the rows are distinct and not
blank, and every GUID is that of a record; `nodup_of_tableFaults` and `keyOfGuid?_of_tableFaults` are
the parts that a matching relies on.

`Matcher.Pass.freshName_notMem` says that a temporary identifier is none of those taken: the
candidates are distinct, and there is one more of them than there are identifiers taken.  Which one
it is depends on the candidates of its own name only (`freshName_congr`), and candidates of different
names differ (`name_eq_of_temporaryName`).
-/

namespace RecordTables.Matcher

/-! ### Faults of rows -/

/-- The lines that are noted for an identifier. -/
def linesOf (m : NameMap (List Nat)) (identifier : String) : List Nat :=
  (m.find? identifier).getD []

theorem linesOf_foldl (rows : List Row) (m : NameMap (List Nat)) (identifier : String) :
    linesOf (rows.foldl
      (fun m r => m.insert r.identifier ((m.find? r.identifier).getD [] ++ [r.line])) m)
      identifier =
      linesOf m identifier ++ (rows.filter (·.identifier == identifier)).map (·.line) := by
  induction rows generalizing m with
  | nil => rw [List.foldl_nil, List.filter_nil, List.map_nil, List.append_nil]
  | cons row rows ih =>
    rw [List.foldl_cons, ih]
    unfold linesOf
    rw [NameMap.find?_insert]
    by_cases h : row.identifier = identifier
    · rw [if_pos h, List.filter_cons_of_pos (by simpa using h), h, Option.getD_some, List.map_cons,
        List.append_assoc, List.singleton_append]
    · rw [if_neg h, List.filter_cons_of_neg (by simpa using h)]

variable {records : RecordSet} {rows : List Row}

/-- Rows without faults have identifiers that are not blank. -/
theorem isBlankText_of_tableFaults (h : tableFaults records rows = []) {row : Row}
    (hrow : row ∈ rows) : Text.isBlankText row.identifier = false := by
  have hfaults := List.flatMap_eq_nil_iff.1 (List.append_eq_nil_iff.1 h).1 row hrow
  unfold rowFaults at hfaults
  by_contra hblank
  rw [if_pos (by simpa using hblank)] at hfaults
  cases hfaults

/-- The GUID of a row without faults is that of a record. -/
theorem keyOfGuid?_of_tableFaults (h : tableFaults records rows = []) {row : Row}
    (hrow : row ∈ rows) {guid : Guid} (hguid : row.guid = some guid) :
    ∃ key, records.keyOfGuid? guid = some key := by
  have hfaults := List.flatMap_eq_nil_iff.1 (List.append_eq_nil_iff.1 h).1 row hrow
  unfold rowFaults at hfaults
  rw [hguid] at hfaults
  have hfault := (List.append_eq_nil_iff.1 hfaults).2
  dsimp only at hfault
  cases hkey : records.keyOfGuid? guid with
  | none =>
    rw [hkey] at hfault
    cases hfault
  | some key => exact ⟨key, rfl⟩

/-- **Rows without faults have distinct identifiers.** -/
theorem nodup_of_tableFaults (h : tableFaults records rows = []) :
    (rows.map (·.identifier)).Nodup := by
  have hfilter : rows.filter (fun r => !Text.isBlankText r.identifier) = rows :=
    List.filter_eq_self.2 fun row hrow => by rw [isBlankText_of_tableFaults h hrow, Bool.not_false]
  have hlines := List.map_eq_nil_iff.1 (List.append_eq_nil_iff.1 h).2
  rw [List.nodup_iff_count_le_one]
  intro identifier
  have hcount : (linesOf (linesByIdentifier rows) identifier).length =
      (rows.map (·.identifier)).count identifier := by
    unfold linesByIdentifier
    rw [hfilter, linesOf_foldl, List.length_append, List.length_map, List.count,
      List.countP_map, List.countP_eq_length_filter]
    exact Nat.zero_add _
  rw [← hcount]
  unfold linesOf
  cases hfind : (linesByIdentifier rows).find? identifier with
  | none => exact Nat.zero_le 1
  | some lines =>
    have hmem := NameMap.mem_entries_of_find? hfind
    have hlength := List.filter_eq_nil_iff.1 hlines _ hmem
    simpa using hlength

/-- Distinct identifiers tell rows apart. -/
theorem index_eq_of_identifier (h : (rows.map (·.identifier)).Nodup) {i j : Nat} {row row' : Row}
    (hi : rows[i]? = some row) (hj : rows[j]? = some row')
    (hidentifier : row.identifier = row'.identifier) : i = j := by
  have hlt := (List.getElem?_eq_some_iff.1 hi).1
  have hget : (rows.map (·.identifier))[i]? = (rows.map (·.identifier))[j]? := by
    rw [List.getElem?_map, List.getElem?_map, hi, hj, Option.map_some, Option.map_some, hidentifier]
  exact (List.getElem?_inj (by rwa [List.length_map]) h).1 hget

/-! ### Temporary identifiers -/

namespace Pass

theorem toList_temporaryName (name : String) (n : Nat) :
    (temporaryName name n).toList =
      (name ++ "_new").toList ++ if n = 0 then [] else Nat.toDigits 10 (n + 1) := by
  unfold temporaryName
  split_ifs
  · rw [List.append_nil]
  · rw [String.toList_append, Nat.toString_eq_ofList_toDigits, String.toList_ofList]

theorem temporaryName_injective (name : String) {m n : Nat}
    (h : temporaryName name m = temporaryName name n) : m = n := by
  have hdigits := congrArg String.toList h
  rw [toList_temporaryName, toList_temporaryName] at hdigits
  have hsuffix := List.append_cancel_left hdigits
  split_ifs at hsuffix with hm hn hn
  · rw [hm, hn]
  · exact absurd hsuffix.symm Nat.toDigits_ne_nil
  · exact absurd hsuffix Nat.toDigits_ne_nil
  · have hnumber := congrArg (fun cs => Nat.ofDigitChars 10 cs 0) hsuffix
    simp only [Nat.ofDigitChars_ten_toDigits] at hnumber
    exact Nat.succ.inj hnumber

/-- There is one candidate more than there are identifiers taken. -/
theorem exists_temporaryName_notMem (taken : List String) (name : String) :
    ∃ n < taken.length + 1, temporaryName name n ∉ taken := by
  have hnodup : ((List.range (taken.length + 1)).map (temporaryName name)).Nodup :=
    List.nodup_range.map_on fun m _ n _ h => temporaryName_injective name h
  by_contra hall
  have hsub : (List.range (taken.length + 1)).map (temporaryName name) ⊆ taken := by
    intro candidate hmem
    obtain ⟨n, hn, rfl⟩ := List.mem_map.1 hmem
    exact by_contra fun h => hall ⟨n, List.mem_range.1 hn, h⟩
  have hle := (List.subperm_of_subset hnodup hsub).length_le
  rw [List.length_map, List.length_range] at hle
  omega

/-- A temporary identifier is the first candidate that is not taken. -/
theorem exists_freshName (taken : List String) (name : String) :
    ∃ n, freshName taken name = temporaryName name n ∧ temporaryName name n ∉ taken ∧
      ∀ m < n, temporaryName name m ∈ taken := by
  obtain ⟨n, hn, hfree⟩ := exists_temporaryName_notMem taken name
  unfold freshName
  rw [List.find?_map]
  cases hfind : (List.range (taken.length + 1)).find?
    ((fun candidate => !taken.contains candidate) ∘ temporaryName name) with
  | none =>
    have hnone := List.find?_eq_none.1 hfind n (List.mem_range.2 hn)
    simp [hfree] at hnone
  | some k =>
    obtain ⟨hk, -, hfirst⟩ := List.find?_range_eq_some.1 hfind
    exact ⟨k, rfl, by simpa using hk, fun m hm => by simpa using hfirst m hm⟩

/-- **A temporary identifier is none of those taken.** -/
theorem freshName_notMem (taken : List String) (name : String) : freshName taken name ∉ taken := by
  obtain ⟨n, heq, hfree, -⟩ := exists_freshName taken name
  rwa [heq]

/-- **A temporary identifier depends on the candidates of its name only.** -/
theorem freshName_congr {taken taken' : List String} {name : String}
    (h : ∀ n, temporaryName name n ∈ taken ↔ temporaryName name n ∈ taken') :
    freshName taken name = freshName taken' name := by
  obtain ⟨m, hm, hmfree, hmfirst⟩ := exists_freshName taken name
  obtain ⟨n, hn, hnfree, hnfirst⟩ := exists_freshName taken' name
  have hmn : m = n := by
    rcases Nat.lt_trichotomy m n with hlt | heq | hlt
    · exact absurd ((h m).2 (hnfirst m hlt)) hmfree
    · exact heq
    · exact absurd ((h n).1 (hmfirst n hlt)) hnfree
  rw [hm, hn, hmn]

/-- What tells the candidates of a name apart are digits. -/
theorem isDigit_of_mem_number {n : Nat} :
    ∀ c ∈ (if n = 0 then [] else Nat.toDigits 10 (n + 1)), c.isDigit = true := by
  intro c hc
  split_ifs at hc
  · cases hc
  · exact Nat.isDigit_of_mem_toDigits (by decide) (by decide) hc

theorem rdropWhile_temporaryName (name : String) (n : Nat) :
    (temporaryName name n).toList.rdropWhile Char.isDigit = (name ++ "_new").toList := by
  have hsuffix : "_new".toList.reverse = ['w', 'e', 'n', '_'] := by decide
  rw [toList_temporaryName, List.rdropWhile, List.reverse_append,
    List.dropWhile_append_of_pos fun c hc => isDigit_of_mem_number c (List.mem_reverse.1 hc),
    String.toList_append, List.reverse_append, hsuffix, List.cons_append,
    List.dropWhile_cons_of_neg (by decide), ← List.cons_append, ← hsuffix, ← List.reverse_append,
    List.reverse_reverse]

/-- Candidates of different names differ: the digits at the end are all of the number. -/
theorem name_eq_of_temporaryName {name name' : String} {m n : Nat}
    (h : temporaryName name m = temporaryName name' n) : name = name' := by
  have hnames := congrArg (List.rdropWhile Char.isDigit) (congrArg String.toList h)
  rw [rdropWhile_temporaryName, rdropWhile_temporaryName, String.toList_append,
    String.toList_append] at hnames
  exact String.toList_inj.1 (List.append_cancel_right hnames)

end Pass

end RecordTables.Matcher
