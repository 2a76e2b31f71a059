import Mathlib
import RecordTables.Scalar.Text

/-!
# Written numerals

The text of a fixed-width value consists of letters, digits, minus signs and points
(`Scalar.isNumeric_text`).  So no character that structures a cell occurs in it.

The decimal digits of a number, with or without zeros in front, denote the number
(`Number.natOfDigits?_padded`), and a numeral is read back by the reader of every range that its number
lies in (`Number.readNat_natText`, `Number.readInt_intText`).  What a run of digits denotes is
`Nat.ofDigitChars 10`.
-/

namespace RecordTables

/-- The characters of written numbers and truth values. -/
def IsNumeral (c : Char) : Prop := c.isAlphanum = true ∨ c = '-' ∨ c = '.'

instance (c : Char) : Decidable (IsNumeral c) := inferInstanceAs (Decidable (_ ∨ _))

/-- A text of such characters. -/
def IsNumeric (s : String) : Prop := ∀ c ∈ s.toList, IsNumeral c

instance (s : String) : Decidable (IsNumeric s) := List.decidableBAll IsNumeral s.toList

theorem IsNumeric.append {s t : String} (hs : IsNumeric s) (ht : IsNumeric t) :
    IsNumeric (s ++ t) := by
  intro c hc
  rw [String.toList_append] at hc
  rcases List.mem_append.1 hc with hc | hc
  · exact hs c hc
  · exact ht c hc

theorem isNumeral_of_isDigit {c : Char} (h : c.isDigit = true) : IsNumeral c :=
  Or.inl (by rw [Char.isAlphanum, h, Bool.or_true])

/-! ### Whole numbers -/

theorem isNumeral_of_mem_toDigits {n : Nat} {c : Char} (h : c ∈ Nat.toDigits 10 n) : IsNumeral c :=
  isNumeral_of_isDigit (Nat.isDigit_of_mem_toDigits (by decide) (by decide) h)

theorem toList_natText (n : Nat) : (toString n).toList = Nat.toDigits 10 n := by
  rw [Nat.toString_eq_ofList_toDigits, String.toList_ofList]

theorem isNumeric_natText (n : Nat) : IsNumeric (toString n) := by
  intro c hc
  rw [toList_natText] at hc
  exact isNumeral_of_mem_toDigits hc

theorem isNumeric_minus : IsNumeric "-" := by decide

theorem isNumeric_intText (n : Int) : IsNumeric (toString n) := by
  cases n with
  | ofNat n => exact isNumeric_natText n
  | negSucc n => exact isNumeric_minus.append (isNumeric_natText (n + 1))

/-! ### Numbers with a fraction -/

namespace Number.Binary32

theorem isDigit_of_mem_fractionDigits {places n : Nat} {c : Char}
    (h : c ∈ fractionDigits places n) : c.isDigit = true := by
  unfold fractionDigits padded at h
  rw [List.mem_reverse, String.toList_ofList] at h
  -- the digits that are left after the zeros at the end are among the padded ones
  have hmem := List.mem_reverse.1 ((List.dropWhile_sublist _).mem h)
  rcases List.mem_append.1 hmem with hzero | hdigit
  · rw [List.eq_of_mem_replicate hzero]; decide
  · exact Nat.isDigit_of_mem_toDigits (by decide) (by decide) hdigit

theorem isNumeric_positional (d : Nat) (g : Int) : IsNumeric (positional d g) := by
  unfold positional
  split
  · exact isNumeric_natText _
  · refine (isNumeric_natText _).append ?_
    split
    · decide
    · refine IsNumeric.append (by decide) fun c hc => ?_
      rw [String.toList_ofList] at hc
      exact isNumeral_of_isDigit (isDigit_of_mem_fractionDigits hc)

theorem isNumeric_text (x : Binary32) : IsNumeric x.text := by
  have hsign : IsNumeric (if x.isNegative then "-" else "") := by
    split <;> decide
  unfold text
  split
  · decide
  · generalize (if x.isNegative then "-" else "") = sign at hsign ⊢
    dsimp only
    split_ifs
    · exact hsign.append (by decide)
    · exact hsign.append (by decide)
    · exact hsign.append (isNumeric_positional _ _)

end Number.Binary32

/-! ### All kinds -/

namespace Scalar

/-- **The characters of a fixed-width value.** -/
theorem isNumeric_text (s : Scalar) : IsNumeric s.text := by
  cases s with
  | bool v => cases v <;> decide
  | i8 | i16 | i32 | i64 => exact isNumeric_intText _
  | u8 | u16 | u32 | u64 => exact isNumeric_natText _
  | f32 v => exact v.isNumeric_text

end Scalar

/-! ### Numerals read back -/

namespace Number

/-! ### Digits -/

theorem isDigit_iff {c : Char} : c.isDigit = true ↔ '0' ≤ c ∧ c ≤ '9' := by
  rw [Char.isDigit, Bool.and_eq_true, decide_eq_true_eq, decide_eq_true_eq]
  exact Iff.rfl

theorem digit?_of_isDigit {c : Char} (h : c.isDigit = true) : digit? 10 c = some (c.toNat - 48) := by
  have hbound : c.toNat - 48 < 10 := by
    have h9 : c.toNat ≤ 57 := (isDigit_iff.1 h).2
    omega
  unfold digit?
  rw [if_pos (isDigit_iff.1 h), Option.filter_some, if_pos (decide_eq_true hbound)]

/-- Digits never make the number in front of them smaller. -/
theorem le_ofDigitChars (cs : List Char) (n : Nat) : n ≤ Nat.ofDigitChars 10 cs n := by
  induction cs generalizing n with
  | nil => rfl
  | cons c cs ih =>
    rw [Nat.ofDigitChars_cons]
    calc n ≤ 10 * n + (c.toNat - '0'.toNat) := by omega
      _ ≤ _ := ih _

theorem isDigit_of_mem_toDigits {n : Nat} : ∀ c ∈ Nat.toDigits 10 n, c.isDigit = true :=
  fun _ hc => Nat.isDigit_of_mem_toDigits (by decide) (by decide) hc

/-! ### Runs of digits -/

/-- What a run of digits denotes. -/
theorem natOfDigits?_eq_some {cs : List Char} (hne : cs ≠ []) (h : ∀ c ∈ cs, c.isDigit = true) :
    natOfDigits? cs = some (Nat.ofDigitChars 10 cs 0) := by
  have hempty : cs.isEmpty = false := List.isEmpty_eq_false_iff.2 hne
  have hstep : (fun (n : Nat) (c : Char) => n * 10 + (c.toNat - 0x30)) =
      fun n c => 10 * n + (c.toNat - '0'.toNat) := by
    funext n c
    rw [Nat.mul_comm]
    rfl
  unfold natOfDigits?
  rw [hempty, List.all_eq_true.2 h, hstep]
  exact if_neg Bool.false_ne_true

theorem natOfDigits?_toDigits (n : Nat) : natOfDigits? (Nat.toDigits 10 n) = some n := by
  rw [natOfDigits?_eq_some Nat.toDigits_ne_nil isDigit_of_mem_toDigits,
    Nat.ofDigitChars_ten_toDigits]

theorem toList_padded (width n : Nat) : (padded width n).toList =
    List.replicate (width - (Nat.toDigits 10 n).length) '0' ++ Nat.toDigits 10 n := by
  unfold padded
  rw [String.toList_ofList]

theorem isDigit_of_mem_padded {width n : Nat} : ∀ c ∈ (padded width n).toList, c.isDigit = true := by
  intro c hc
  rw [toList_padded] at hc
  rcases List.mem_append.1 hc with hzero | hdigit
  · rw [List.eq_of_mem_replicate hzero]
    rfl
  · exact isDigit_of_mem_toDigits c hdigit

theorem padded_ne_nil (width n : Nat) : (padded width n).toList ≠ [] := by
  rw [toList_padded]
  exact List.append_ne_nil_of_right_ne_nil _ Nat.toDigits_ne_nil

/-- Zeros in front of the digits of a number do not count. -/
theorem ofDigitChars_padded (width n : Nat) :
    Nat.ofDigitChars 10 (padded width n).toList 0 = n := by
  rw [toList_padded, Nat.ofDigitChars_append, Nat.ofDigitChars_replicate_zero, Nat.mul_zero,
    Nat.ofDigitChars_ten_toDigits]

theorem natOfDigits?_padded (width n : Nat) : natOfDigits? (padded width n).toList = some n := by
  rw [natOfDigits?_eq_some (padded_ne_nil width n) isDigit_of_mem_padded, ofDigitChars_padded]

/-- A number that has no more digits than the width is written in exactly the width. -/
theorem length_padded {width n : Nat} (hwidth : 0 < width) (h : n < 10 ^ width) :
    (padded width n).toList.length = width := by
  have hdigits := (Nat.length_toDigits_le_iff (by decide) hwidth).2 h
  rw [toList_padded, List.length_append, List.length_replicate]
  omega

/-! ### Numerals of a range -/

theorem readDigits_eq_ok {limit : Nat} {beyond : NumeralFault} {cs : List Char} {n : Nat}
    (h : ∀ c ∈ cs, c.isDigit = true) (hlimit : Nat.ofDigitChars 10 cs n ≤ limit) :
    readDigits 10 limit beyond n cs = .ok (Nat.ofDigitChars 10 cs n) := by
  induction cs generalizing n with
  | nil => rfl
  | cons c cs ih =>
    have hstep : n * 10 + (c.toNat - 48) = 10 * n + (c.toNat - '0'.toNat) := by
      rw [Nat.mul_comm]
      rfl
    rw [Nat.ofDigitChars_cons, ← hstep] at hlimit ⊢
    rw [readDigits, digit?_of_isDigit (h c List.mem_cons_self)]
    dsimp only
    rw [if_pos (le_trans (le_ofDigitChars _ _) hlimit),
      ih (fun c hc => h c (List.mem_cons_of_mem _ hc)) hlimit]

theorem readDigits_toDigits {limit n : Nat} (h : n ≤ limit) (beyond : NumeralFault) :
    readDigits 10 limit beyond 0 (Nat.toDigits 10 n) = .ok n := by
  rw [readDigits_eq_ok isDigit_of_mem_toDigits (by rw [Nat.ofDigitChars_ten_toDigits]; exact h),
    Nat.ofDigitChars_ten_toDigits]

/-- A number is written with a digit in front. -/
theorem exists_toDigits_cons (n : Nat) :
    ∃ c cs, Nat.toDigits 10 n = c :: cs ∧ c.isDigit = true := by
  obtain ⟨c, cs, h⟩ := List.exists_cons_of_ne_nil (Nat.toDigits_ne_nil (n := n) (b := 10))
  exact ⟨c, cs, h, isDigit_of_mem_toDigits c (by rw [h]; exact List.mem_cons_self)⟩

/-- **An unsigned number** is read back. -/
theorem readNat_natText (limit : Nat) {n : Nat} (h : n ≤ limit) :
    readNat 10 limit (toString n).toList = .ok n := by
  obtain ⟨c, cs, hcons, hdigit⟩ := exists_toDigits_cons n
  have hplus : c ≠ '+' := by
    rintro rfl
    exact absurd hdigit (by decide)
  rw [toList_natText, ← readDigits_toDigits h .tooLarge, hcons]
  unfold readNat
  split
  · next heq => cases heq
  · next heq => exact absurd (List.cons.inj heq).1 hplus
  · next heq => exact absurd (List.cons.inj heq).1 hplus
  · rfl

/-- **A signed number** is read back. -/
theorem readInt_intText (below above : Nat) {n : Int} (hbelow : -(below : Int) ≤ n)
    (habove : n ≤ above) : readInt below above (toString n).toList = .ok n := by
  cases n with
  | ofNat n =>
    obtain ⟨c, cs, hcons, hdigit⟩ := exists_toDigits_cons n
    -- a digit is no sign
    have hplus : c ≠ '+' := by
      rintro rfl
      exact absurd hdigit (by decide)
    have hminus : c ≠ '-' := by
      rintro rfl
      exact absurd hdigit (by decide)
    have hread := readDigits_toDigits (show n ≤ above by simpa using habove) .tooLarge
    show readInt below above (toString n).toList = _
    rw [toList_natText]
    rw [hcons] at hread ⊢
    unfold readInt
    split
    · next heq => cases heq
    · next heq => exact absurd (List.cons.inj heq).1 hplus
    · next heq => exact absurd (List.cons.inj heq).1 hminus
    · next heq => exact absurd (List.cons.inj heq).1 hplus
    · next heq => exact absurd (List.cons.inj heq).1 hminus
    · rw [hread]
      rfl
  | negSucc n =>
    have hread := readDigits_toDigits
      (show n + 1 ≤ below by rw [Int.negSucc_eq] at hbelow; omega) .tooSmall
    obtain ⟨c, cs, hcons, -⟩ := exists_toDigits_cons (n + 1)
    have htext : (toString (Int.negSucc n)).toList = '-' :: Nat.toDigits 10 (n + 1) := by
      show ("-" ++ toString (n + 1)).toList = '-' :: Nat.toDigits 10 (n + 1)
      rw [String.toList_append, toList_natText]
      rfl
    rw [htext, Int.negSucc_eq]
    rw [hcons] at hread ⊢
    unfold readInt
    split
    · next heq => cases heq
    · next heq => cases heq
    · next heq => cases heq
    · next heq => exact absurd (List.cons.inj heq).1 (by decide)
    · next heq =>
      rw [← (List.cons.inj heq).2, hread]
      rfl
    · next hminus => exact absurd rfl (hminus _)

end Number

end RecordTables
