import Mathlib
import RecordTables.Fingerprint
import RecordTables.Text.Blank

/-!
# Blanks and hexadecimal digits

`trim` takes off blanks and nothing else: what is left has no blank at either end
(`Text.trim_trim`), and a text without blanks is left as it is (`Text.trim_of_forall`).  A text is all
blank exactly when nothing is left (`Text.trim_eq_nil_iff`).

The digits of a number in hexadecimal denote the number, as far as the width goes
(`Text.readDigits_hexDigits`).  Sixteen digits hold every fingerprint, so each is read back from its
text (`Fingerprint.ofText_text`).
-/

namespace RecordTables

namespace Text

/-! ### Blanks -/

variable {cs ds : List Char}

theorem trimStart_of_head {c : Char} (h : isBlank c = false) (cs : List Char) :
    trimStart (c :: cs) = c :: cs :=
  List.dropWhile_cons_of_neg (by rw [h]; exact Bool.false_ne_true)

theorem trimEnd_of_last {c : Char} (h : isBlank c = false) (cs : List Char) :
    trimEnd (cs ++ [c]) = cs ++ [c] := by
  unfold trimEnd
  rw [List.reverse_append, List.reverse_singleton, List.singleton_append,
    List.dropWhile_cons_of_neg (by rw [h]; exact Bool.false_ne_true), List.reverse_cons,
    List.reverse_reverse]

/-- A text of which neither end is blank is left as it is. -/
theorem trim_of_ends (hhead : ∀ c, cs.head? = some c → isBlank c = false)
    (hlast : ∀ c, cs.getLast? = some c → isBlank c = false) : trim cs = cs := by
  unfold trim
  cases cs with
  | nil => rfl
  | cons c rest =>
    rw [trimStart_of_head (hhead c rfl)]
    obtain ⟨front, last, heq⟩ : ∃ front last, c :: rest = front ++ [last] :=
      ⟨_, _, (List.dropLast_append_getLast (List.cons_ne_nil c rest)).symm⟩
    rw [heq] at hlast ⊢
    exact trimEnd_of_last (hlast last (by simp)) front

/-- A text without blanks is left as it is. -/
theorem trim_of_forall (h : ∀ c ∈ cs, isBlank c = false) : trim cs = cs :=
  trim_of_ends (fun c hc => h c (List.mem_of_head? hc)) (fun c hc => h c (List.mem_of_getLast? hc))

theorem trimEnd_isPrefix_of (cs : List Char) : trimEnd cs <+: cs := by
  unfold trimEnd
  rw [← List.reverse_suffix, List.reverse_reverse]
  exact List.dropWhile_suffix isBlank

/-- Nothing is added by trimming. -/
theorem trim_sublist : (trim cs).Sublist cs :=
  (trimEnd_isPrefix_of _).sublist.trans (List.dropWhile_sublist isBlank)

/-- Only blanks are taken off. -/
theorem mem_trim {c : Char} (h : c ∈ cs) (hc : isBlank c = false) : c ∈ trim cs := by
  have hdrop {ds : List Char} (h : c ∈ ds) : c ∈ ds.dropWhile isBlank := by
    rw [← List.takeWhile_append_dropWhile (p := isBlank) (l := ds), List.mem_append] at h
    rcases h with h | h
    · rw [List.mem_takeWhile_imp h] at hc
      cases hc
    · exact h
  exact List.mem_reverse.2 (hdrop (List.mem_reverse.2 (hdrop h)))

theorem not_isBlank_of_head?_trim (c : Char) (h : (trim cs).head? = some c) : isBlank c = false := by
  obtain ⟨rest, hrest⟩ := trimEnd_isPrefix_of (trimStart cs)
  have hhead : (trimStart cs).head? = some c := by
    rw [← hrest, List.head?_append]
    unfold trim at h
    rw [h]
    rfl
  have hnot := List.head?_dropWhile_not isBlank cs
  unfold trimStart at hhead
  rw [hhead] at hnot
  simpa using hnot

theorem not_isBlank_of_getLast?_trimEnd (c : Char) (h : (trimEnd cs).getLast? = some c) :
    isBlank c = false := by
  unfold trimEnd at h
  rw [List.getLast?_reverse] at h
  have hnot := List.head?_dropWhile_not isBlank cs.reverse
  rw [h] at hnot
  simpa using hnot

/-- **Trimming twice is trimming once.** -/
@[simp] theorem trim_trim (cs : List Char) : trim (trim cs) = trim cs :=
  trim_of_ends not_isBlank_of_head?_trim not_isBlank_of_getLast?_trimEnd

@[simp] theorem trimmed_trimmed (s : String) : trimmed (trimmed s) = trimmed s := by
  unfold trimmed
  rw [String.toList_ofList, trim_trim]

theorem toList_trimmed (s : String) : (trimmed s).toList = trim s.toList := by
  unfold trimmed
  rw [String.toList_ofList]

/-- A text is trimmed when its characters are. -/
theorem trimmed_eq_self_iff {s : String} : trimmed s = s ↔ trim s.toList = s.toList := by
  rw [← String.toList_inj, toList_trimmed]

/-- Nothing is left of a text exactly when all of it is blank. -/
theorem trim_eq_nil_iff : trim cs = [] ↔ cs.all isBlank = true := by
  have hend (ds : List Char) : trimEnd ds = [] ↔ ∀ c ∈ ds, isBlank c = true := by
    unfold trimEnd
    rw [List.reverse_eq_nil_iff, List.dropWhile_eq_nil_iff]
    simp
  rw [List.all_eq_true]
  unfold trim
  rw [hend]
  constructor
  · intro h c hc
    rw [← List.takeWhile_append_dropWhile (p := isBlank) (l := cs)] at hc
    rcases List.mem_append.1 hc with hc | hc
    · exact List.mem_takeWhile_imp hc
    · exact h c hc
  · exact fun h c hc => h c ((List.dropWhile_sublist _).subset hc)

theorem trim_isEmpty (cs : List Char) : (trim cs).isEmpty = cs.all isBlank := by
  rw [Bool.eq_iff_iff, List.isEmpty_iff, trim_eq_nil_iff]

/-! ### Texts without blanks -/

/-- A text without blanks. -/
def HasNoBlank (s : String) : Prop := ∀ c ∈ s.toList, isBlank c = false

instance (s : String) : Decidable (HasNoBlank s) :=
  List.decidableBAll (fun c => isBlank c = false) s.toList

theorem HasNoBlank.append {s t : String} (hs : HasNoBlank s) (ht : HasNoBlank t) :
    HasNoBlank (s ++ t) := by
  intro c hc
  rw [String.toList_append] at hc
  rcases List.mem_append.1 hc with hc | hc
  · exact hs c hc
  · exact ht c hc

theorem HasNoBlank.trim {s : String} (h : HasNoBlank s) : Text.trim s.toList = s.toList :=
  trim_of_forall h

/-! ### Hexadecimal digits -/

open Number

theorem exists_hexDigit_of_mem {width n : Nat} {c : Char} (h : c ∈ hexDigits width n) :
    ∃ k < 16, c = hexDigit k := by
  induction width generalizing n with
  | zero => cases h
  | succ width ih =>
    rw [hexDigits] at h
    rcases List.mem_append.1 h with h | h
    · exact ih h
    · exact ⟨n % 16, Nat.mod_lt n (by decide), List.mem_singleton.1 h⟩

theorem not_isBlank_hexDigit {n : Nat} (h : n < 16) : isBlank (hexDigit n) = false := by
  interval_cases n <;> rfl

theorem digit?_hexDigit {n : Nat} (h : n < 16) : digit? 16 (hexDigit n) = some n := by
  interval_cases n <;> rfl

/-- One more digit at the end. -/
theorem readDigits_concat {radix limit : Nat} {beyond : NumeralFault} {cs : List Char} {c : Char}
    {n m d : Nat} (hcs : readDigits radix limit beyond n cs = .ok m) (hc : digit? radix c = some d)
    (hlimit : m * radix + d ≤ limit) :
    readDigits radix limit beyond n (cs ++ [c]) = .ok (m * radix + d) := by
  induction cs generalizing n with
  | nil =>
    obtain rfl := Except.ok.inj hcs
    rw [List.nil_append, readDigits, hc]
    dsimp only
    rw [if_pos hlimit, readDigits]
  | cons c' cs ih =>
    rw [List.cons_append]
    unfold readDigits at hcs ⊢
    split at hcs
    · cases hcs
    · split_ifs at hcs with hle
      rw [if_pos hle]
      exact ih hcs

/-- The digits of a number denote what the width holds of it. -/
theorem readDigits_hexDigits {limit : Nat} {beyond : NumeralFault} {width n : Nat}
    (hlimit : n % 16 ^ width ≤ limit) :
    readDigits 16 limit beyond 0 (hexDigits width n) = .ok (n % 16 ^ width) := by
  induction width generalizing n with
  | zero => simp [hexDigits, readDigits, Nat.mod_one]
  | succ width ih =>
    have hsplit : n % 16 ^ (width + 1) = n / 16 % 16 ^ width * 16 + n % 16 := by
      rw [pow_succ', Nat.mod_mul]
      ring
    rw [hsplit] at hlimit ⊢
    rw [hexDigits]
    have hdigit : n % 16 < 16 := Nat.mod_lt n (by decide)
    exact readDigits_concat (ih (by omega)) (digit?_hexDigit hdigit) hlimit

/-- A number that fits the width is read back. -/
theorem readNat_hexDigits {limit width n : Nat} (hwidth : 0 < width) (hn : n < 16 ^ width)
    (hlimit : n ≤ limit) : readNat 16 limit (hexDigits width n) = .ok n := by
  have hread : readDigits 16 limit .tooLarge 0 (hexDigits width n) = .ok n := by
    have hmod : n % 16 ^ width = n := Nat.mod_eq_of_lt hn
    rw [readDigits_hexDigits (by rw [hmod]; exact hlimit), hmod]
  cases hcs : hexDigits width n with
  | nil =>
    have hlength := length_hexDigits width n
    rw [hcs, List.length_nil] at hlength
    omega
  | cons c cs =>
    obtain ⟨k, hk, rfl⟩ := exists_hexDigit_of_mem (hcs ▸ List.mem_cons_self)
    rw [hcs] at hread
    have hsign : hexDigit k ≠ '+' := by
      intro hplus
      have hdigit := digit?_hexDigit hk
      rw [hplus] at hdigit
      cases hdigit
    unfold readNat
    split
    · next heq => cases heq
    · next heq => exact absurd (List.cons.inj heq).1 hsign
    · next heq => exact absurd (List.cons.inj heq).1 hsign
    · exact hread

end Text

/-- **A fingerprint** is read back from its text. -/
theorem Fingerprint.ofText_text (f : Fingerprint) : ofText f.text = .ok f := by
  have hvalue : f.value.toNat < 16 ^ 16 := f.value.toNat_lt
  have htrim : Text.trim (Text.hexDigits 16 f.value.toNat) = Text.hexDigits 16 f.value.toNat := by
    refine Text.trim_of_forall fun c hc => ?_
    obtain ⟨k, hk, rfl⟩ := Text.exists_hexDigit_of_mem hc
    exact Text.not_isBlank_hexDigit hk
  unfold ofText text Text.hex
  rw [String.toList_ofList, htrim, Text.readNat_hexDigits (by decide) hvalue (by omega)]
  show Except.ok (⟨UInt64.ofNat f.value.toNat⟩ : Fingerprint) = _
  rw [UInt64.ofNat_toNat]

end RecordTables
