import Mathlib
import RecordTables.Proofs.Number.Numeral
import RecordTables.Proofs.Number.Rounding

/-!
# The decimal text of a number reads back

`Binary32.shortest` looks for the decimal with the fewest digits in the interval of a number, on
grids of up to nine digits.  Nine digits always suffice (`roundsTo_nine`): the spacing of that grid is
less than a quarter of a unit in the last place.  So the search ends in a decimal that rounds to the
number (`roundsTo_shortest`), and since reading depends only on the value of a decimal, the text of
every number is read back (`ofText?_text`), all patterns that stand for no number as one.
-/

namespace RecordTables.Number.Binary32

/-! ### Sign and magnitude -/

theorem ofMagnitude_magnitude (x : Binary32) : ofMagnitude x.isNegative x.magnitude = x := by
  have hlt := x.bits.toNat_lt
  have hbits : x.magnitude + (if x.isNegative then 0x80000000 else 0) = x.bits.toNat := by
    unfold isNegative magnitude
    by_cases h : x.bits.toNat ≥ 0x80000000
    · rw [if_pos (decide_eq_true h)]
      omega
    · rw [if_neg (by simpa using h)]
      omega
  unfold ofMagnitude
  rw [hbits, UInt32.ofNat_toNat]

/-- A number is finite if its magnitude is below that of infinity. -/
theorem magnitude_lt_iff {x : Binary32} :
    x.magnitude < infiniteMagnitude ↔ x.isNaN = false ∧ x.isInfinite = false := by
  unfold isNaN isInfinite
  rw [decide_eq_false_iff_not, beq_eq_false_iff_ne]
  omega

/-- The number itself, or the one pattern by which a text stands for no number. -/
def quieted (x : Binary32) : Binary32 := if x.isNaN then nan else x

theorem quieted_quieted (x : Binary32) : x.quieted.quieted = x.quieted := by
  unfold quieted
  split_ifs with h hnan
  · rfl
  · rfl
  · rfl

/-- Up to the infinite magnitude, a pattern stands for a number. -/
theorem quieted_ofMagnitude (negative : Bool) {magnitude : Nat} (h : magnitude ≤ infiniteMagnitude) :
    (ofMagnitude negative magnitude).quieted = ofMagnitude negative magnitude := by
  have hnumber : (ofMagnitude negative magnitude).isNaN = false := by
    unfold infiniteMagnitude at h
    unfold isNaN Binary32.magnitude ofMagnitude infiniteMagnitude
    rw [decide_eq_false_iff_not, UInt32.toNat_ofNat']
    split_ifs <;> omega
  unfold quieted
  rw [hnumber, if_neg Bool.false_ne_true]

theorem magnitudeOfRatio_le (num den : Nat) : magnitudeOfRatio num den ≤ infiniteMagnitude := by
  unfold magnitudeOfRatio
  split_ifs
  · exact Nat.zero_le _
  · exact Nat.min_le_right _ _

theorem quieted_ofDecimal (negative : Bool) (m : Nat) (e : Int) (length : Nat) :
    (ofDecimal negative m e length).quieted = ofDecimal negative m e length := by
  unfold ofDecimal
  split_ifs
  · exact quieted_ofMagnitude negative (Nat.zero_le _)
  · exact quieted_ofMagnitude negative (Nat.le_refl _)
  · exact quieted_ofMagnitude negative (Nat.zero_le _)
  · exact quieted_ofMagnitude negative (magnitudeOfRatio_le _ _)

/-- A text stands for a number, or for none by the one pattern. -/
theorem quieted_of_ofText? {cs : List Char} {x : Binary32} (h : ofText? cs = some x) :
    x.quieted = x := by
  have hunsigned : ∀ negative body, readUnsigned? negative body = some x → x.quieted = x := by
    intro negative body hx
    unfold readUnsigned? at hx
    dsimp only at hx
    split at hx
    · obtain rfl := Option.some.inj hx
      exact quieted_ofDecimal _ _ _ _
    · cases hx
  have hnonFinite : ∀ negative body, readNonFinite? negative body = some x → x.quieted = x := by
    intro negative body hx
    unfold readNonFinite? at hx
    dsimp only at hx
    split_ifs at hx
    · obtain rfl := Option.some.inj hx
      rfl
    · obtain rfl := Option.some.inj hx
      exact quieted_ofMagnitude negative (Nat.le_refl _)
  unfold ofText? at h
  dsimp only at h
  rcases Option.or_eq_some_iff.1 h with hx | ⟨-, hx⟩
  · exact hunsigned _ _ hx
  · exact hnonFinite _ _ hx

/-! ### Decimals -/

/-- The value of a decimal. -/
theorem decimal_value (d : Nat) (g : Int) :
    ((d * Nat.pow 10 g.toNat : Nat) : ℚ) / (Nat.pow 10 (-g).toNat : Nat) = d * (10 : ℚ) ^ g := by
  have h := div_scaled (b := 10) (by decide) d 1 (-g)
  rwa [neg_neg, Nat.one_mul, Nat.cast_one, div_one, Nat.cast_ofNat] at h

theorem pow_ten_pos (k : Nat) : 0 < Nat.pow 10 k := Nat.pow_pos (by decide)

/-- The numerator and the denominator of the magnitude of a finite number. -/
theorem ratio_eq (x : Binary32) :
    ((x.significand * Nat.pow 2 x.exponent.toNat : Nat) : ℚ) /
      (Nat.pow 2 (-x.exponent).toNat : Nat) = x.ratio := by
  have h := div_scaled (b := 2) (by decide) x.significand 1 (-x.exponent)
  rwa [neg_neg, Nat.one_mul, Nat.cast_one, div_one, Nat.cast_ofNat] at h

/-! ### The place of the point -/

/-- The search for the power of ten above a quotient ends, if it starts low enough and is long
enough. -/
theorem decimalPoint_spec {num den : Nat} (hden : 0 < den) (fuel : Nat) (p : Int)
    (hlow : (10 : ℚ) ^ (p - 1) ≤ num / den) (hhigh : (num : ℚ) / den < (10 : ℚ) ^ (p + fuel)) :
    (10 : ℚ) ^ (decimalPoint num den fuel p - 1) ≤ num / den ∧
      (num : ℚ) / den < (10 : ℚ) ^ decimalPoint num den fuel p := by
  induction fuel generalizing p with
  | zero => exact ⟨hlow, by simpa [decimalPoint] using hhigh⟩
  | succ fuel ih =>
    have hcompare := scaled_lt_iff (b := 10) (by decide) hden num p
    rw [decimalPoint]
    split_ifs with h
    · exact ⟨hlow, by exact_mod_cast hcompare.1 h⟩
    · refine ih (p + 1) ?_ ?_
      · rw [add_sub_cancel_right]
        exact le_of_not_gt fun hlt => h (hcompare.2 (by exact_mod_cast hlt))
      · rw [show p + 1 + (fuel : Int) = p + (fuel + 1 : Nat) by push_cast; ring]
        exact hhigh

theorem ratio_bounds {x : Binary32} (hpos : 0 < x.magnitude)
    (hfinite : x.magnitude < infiniteMagnitude) :
    (10 : ℚ) ^ (-46 : Int) ≤ x.ratio ∧ x.ratio < (10 : ℚ) ^ (45 : Int) := by
  have hsignificand : (1 : ℚ) ≤ x.significand := by exact_mod_cast significand_pos hpos
  have hsignificandLt : (x.significand : ℚ) < 0x1000000 := by exact_mod_cast x.significand_lt
  have hexponent : x.exponent ≤ 104 := by
    by_contra h
    have hnormal := significand_ge (x := x) (by omega)
    have := x.magnitude_eq
    unfold infiniteMagnitude at hfinite
    omega
  unfold ratio
  constructor
  · calc (10 : ℚ) ^ (-46 : Int) ≤ 1 * (2 : ℚ) ^ (-149 : Int) := by norm_num
      _ ≤ x.significand * (2 : ℚ) ^ x.exponent :=
        mul_le_mul hsignificand (zpow_le_zpow_right₀ (by norm_num) x.exponent_ge)
          (zpow_nonneg (by norm_num) _) (by linarith)
  · calc (x.significand : ℚ) * (2 : ℚ) ^ x.exponent
        ≤ 0x1000000 * (2 : ℚ) ^ (104 : Int) :=
          mul_le_mul hsignificandLt.le (zpow_le_zpow_right₀ (by norm_num) hexponent)
            (zpow_nonneg (by norm_num) _) (by norm_num)
      _ < (10 : ℚ) ^ (45 : Int) := by norm_num

/-! ### The search for the shortest decimal -/

variable {x : Binary32} {num den : Nat}

/-- What the search finds rounds to the number. -/
theorem roundsTo_of_neighbour? {g : Int} {d : Nat} (h : x.neighbour? num den g = some d) :
    x.roundsTo (d * Nat.pow 10 g.toNat) (Nat.pow 10 (-g).toNat) = true := by
  unfold neighbour? at h
  dsimp only at h
  split at h
  · next hlow hhigh =>
    split_ifs at h
    · rwa [← Option.some.inj h]
    · rwa [← Option.some.inj h]
  · next hlow _ => rwa [← Option.some.inj h]
  · next _ hhigh => rwa [← Option.some.inj h]
  · cases h

/-- The search finds something where the lower of the two neighbours rounds to the number. -/
theorem exists_neighbour?_eq_some {g : Int}
    (h : x.roundsTo (num * Nat.pow 10 (-g).toNat / (den * Nat.pow 10 g.toNat) *
      Nat.pow 10 g.toNat) (Nat.pow 10 (-g).toNat) = true) :
    ∃ d, x.neighbour? num den g = some d := by
  unfold neighbour?
  dsimp only
  rw [h]
  split
  · exact ⟨_, (apply_ite some _ _ _).symm⟩
  · exact ⟨_, rfl⟩
  · next hfalse _ => cases hfalse
  · next hfalse _ => cases hfalse

/-- The search over finer and finer grids ends in a decimal that rounds to the number, if one of the
grids has one. -/
theorem roundsTo_shortestFrom {fuel : Nat} {g : Int}
    (h : ∃ k < fuel, ∃ d, x.neighbour? num den (g - k) = some d) :
    x.roundsTo ((x.shortestFrom num den fuel g).1 *
      Nat.pow 10 (x.shortestFrom num den fuel g).2.toNat)
      (Nat.pow 10 (-(x.shortestFrom num den fuel g).2).toNat) = true := by
  induction fuel generalizing g with
  | zero =>
    obtain ⟨k, hk, -⟩ := h
    exact absurd hk (Nat.not_lt_zero k)
  | succ fuel ih =>
    rw [shortestFrom]
    cases hnext : x.neighbour? num den g with
    | some d => exact roundsTo_of_neighbour? hnext
    -- nothing with that many digits is near enough, so the search goes on with one more
    | none =>
      refine ih ?_
      obtain ⟨k, hk, d, hd⟩ := h
      cases k with
      | zero =>
        rw [Nat.cast_zero, sub_zero, hnext] at hd
        cases hd
      | succ k =>
        refine ⟨k, by omega, d, ?_⟩
        rw [← hd]
        congr 1
        push_cast
        ring

/-- **Nine digits suffice**: the decimal of nine digits below a finite number rounds to it. -/
theorem roundsTo_nine (hpos : 0 < x.magnitude) (hden : 0 < den) (hratio : (num : ℚ) / den = x.ratio)
    {p : Int} (hp : (10 : ℚ) ^ (p - 1) ≤ x.ratio) :
    x.roundsTo (num * Nat.pow 10 (-(p - 9)).toNat / (den * Nat.pow 10 (p - 9).toNat) *
      Nat.pow 10 (p - 9).toNat) (Nat.pow 10 (-(p - 9)).toNat) = true := by
  generalize hg : p - 9 = g
  generalize hnum : num * Nat.pow 10 (-g).toNat = num'
  generalize hden' : den * Nat.pow 10 g.toNat = den'
  have hunit : (0 : ℚ) < (10 : ℚ) ^ g := zpow_pos (by norm_num) g
  have hscale : (0 : ℚ) < (2 : ℚ) ^ (-x.exponent) := zpow_pos (by norm_num) _
  -- the number on the grid is less than one step below `x`
  have hquotient : (num' : ℚ) / den' = x.ratio / (10 : ℚ) ^ g := by
    rw [← hnum, ← hden', div_scaled (by decide), hratio, zpow_neg, div_eq_mul_inv]
    rfl
  have hden'pos : 0 < den' := hden' ▸ pos_scaled (by decide) hden g
  have hfloor : ((num' / den' : Nat) : ℚ) ≤ x.ratio / (10 : ℚ) ^ g :=
    hquotient ▸ Nat.cast_div_le
  have hceil : x.ratio / (10 : ℚ) ^ g < (num' / den' : Nat) + 1 := by
    rw [← hquotient, div_lt_iff₀ (Nat.cast_pos.2 hden'pos)]
    rw [mul_comm]
    exact_mod_cast Nat.lt_mul_div_succ num' hden'pos
  rw [le_div_iff₀ hunit] at hfloor
  rw [div_lt_iff₀ hunit] at hceil
  -- and a step is a small part of a unit in the last place
  have hlast : x.ratio * (2 : ℚ) ^ (-x.exponent) = x.significand := by
    rw [ratio, mul_assoc, ← zpow_add₀ (by norm_num), add_neg_cancel, zpow_zero, mul_one]
  have hstep : (10 : ℚ) ^ g * (2 : ℚ) ^ (-x.exponent) < 1 / 4 := by
    have hsignificand : (x.significand : ℚ) < 0x1000000 := by exact_mod_cast x.significand_lt
    have hgrid : (10 : ℚ) ^ g * 100000000 ≤ x.ratio := by
      calc (10 : ℚ) ^ g * 100000000 = (10 : ℚ) ^ (p - 1) := by
            rw [show p - 1 = g + 8 by omega, zpow_add₀ (by norm_num)]
            norm_num
        _ ≤ x.ratio := hp
    have := mul_le_mul_of_nonneg_right hgrid hscale.le
    rw [hlast] at this
    linarith
  have hbelow : ((num' / den' : Nat) : ℚ) * (10 : ℚ) ^ g * (2 : ℚ) ^ (-x.exponent) ≤
      x.significand := by
    rw [← hlast]
    exact mul_le_mul_of_nonneg_right hfloor hscale.le
  have habove : (x.significand : ℚ) - 1 / 4 <
      ((num' / den' : Nat) : ℚ) * (10 : ℚ) ^ g * (2 : ℚ) ^ (-x.exponent) := by
    have := mul_lt_mul_of_pos_right hceil hscale
    rw [hlast, add_mul, add_mul, one_mul] at this
    linarith
  have hlower : (x.lowerBound : ℚ) / 4 ≤ x.significand - 1 / 4 := by
    have hsignificand := significand_pos hpos
    have : x.lowerBound + 1 ≤ 4 * x.significand := by
      rw [lowerBound_eq]
      split_ifs <;> omega
    have : (x.lowerBound : ℚ) + 1 ≤ 4 * x.significand := by exact_mod_cast this
    linarith
  rw [roundsTo_iff (pow_ten_pos _), decimal_value]
  split_ifs
  · exact ⟨by linarith, by linarith⟩
  · exact ⟨by linarith, by linarith⟩

/-- **The shortest decimal** of a finite number rounds to it. -/
theorem roundsTo_shortest (hpos : 0 < x.magnitude) (hfinite : x.magnitude < infiniteMagnitude) :
    x.roundsTo (x.shortest.1 * Nat.pow 10 x.shortest.2.toNat)
      (Nat.pow 10 (-x.shortest.2).toNat) = true := by
  have hden : 0 < Nat.pow 2 (-x.exponent).toNat := Nat.pow_pos (by decide)
  have hbounds := ratio_bounds hpos hfinite
  rw [← ratio_eq] at hbounds
  have hpoint := (decimalPoint_spec hden 90 (-45) hbounds.1 hbounds.2).1
  rw [ratio_eq] at hpoint
  unfold shortest
  dsimp only
  refine roundsTo_shortestFrom ⟨8, by decide, exists_neighbour?_eq_some ?_⟩
  rw [show ∀ p : Int, p - 1 - (8 : Nat) = p - 9 by intro p; omega]
  exact roundsTo_nine hpos hden x.ratio_eq hpoint

/-! ### Positional notation -/

/-- The digits after the point, with the zeros at the end that are not written. -/
theorem fractionDigits_spec {places n : Nat} (hn : n < 10 ^ places) (hplaces : 0 < places) :
    (fractionDigits places n).length ≤ places ∧
      Nat.ofDigitChars 10 (fractionDigits places n) 0 *
        10 ^ (places - (fractionDigits places n).length) = n := by
  obtain ⟨zeros, hzeros, hsplit⟩ : ∃ zeros, (∀ c ∈ zeros, c = '0') ∧
      (padded places n).toList = fractionDigits places n ++ zeros := by
    refine ⟨((padded places n).toList.reverse.takeWhile (· = '0')).reverse, fun c hc => ?_, ?_⟩
    · have hzero := List.mem_takeWhile_imp (List.mem_reverse.1 hc)
      exact of_decide_eq_true hzero
    · unfold fractionDigits
      rw [← List.reverse_append, List.takeWhile_append_dropWhile, List.reverse_reverse]
  have hlength := length_padded hplaces hn
  have hvalue := ofDigitChars_padded places n
  rw [hsplit, List.length_append] at hlength
  rw [hsplit, Nat.ofDigitChars_append, List.eq_replicate_of_mem hzeros,
    Nat.ofDigitChars_replicate_zero, Nat.mul_comm] at hvalue
  refine ⟨by omega, ?_⟩
  rw [show places - (fractionDigits places n).length = zeros.length by omega]
  exact hvalue

/-- The text of a decimal consists of digits, with a point among them if there is a fraction, and
denotes its value. -/
theorem exists_positional_value (d : Nat) (g : Int) : ∃ n fraction,
    (positional d g).toList = Nat.toDigits 10 n ++ (if fraction = [] then [] else '.' :: fraction) ∧
      (∀ c ∈ fraction, c.isDigit = true) ∧
      ((Nat.ofDigitChars 10 (Nat.toDigits 10 n ++ fraction) 0 : Nat) : ℚ) /
        (Nat.pow 10 fraction.length : Nat) = d * (10 : ℚ) ^ g := by
  unfold positional
  split_ifs with hg
  · refine ⟨d * Nat.pow 10 g.toNat, [], ?_, by simp, ?_⟩
    · rw [toList_natText, if_pos rfl, List.append_nil]
    · have hneg : (-g).toNat = 0 := by omega
      rw [List.append_nil, Nat.ofDigitChars_ten_toDigits, ← decimal_value, hneg]
      rfl
  · dsimp only
    have hplaces : 0 < (-g).toNat := by omega
    have hpower : (10 : ℚ) ^ g = 1 / (10 : ℚ) ^ (-g).toNat := by
      rw [one_div, ← zpow_natCast, ← zpow_neg, Int.toNat_of_nonneg (by omega), neg_neg]
    rw [hpower]
    generalize (-g).toNat = places at hplaces ⊢
    obtain ⟨hlength, hvalue⟩ :=
      fractionDigits_spec (Nat.mod_lt d (pow_ten_pos places)) hplaces
    have hdigits : ∀ c ∈ fractionDigits places (d % Nat.pow 10 places), c.isDigit = true :=
      fun _ => isDigit_of_mem_fractionDigits
    generalize fractionDigits places (d % Nat.pow 10 places) = fraction at hlength hvalue hdigits ⊢
    refine ⟨d / Nat.pow 10 places, fraction, ?_, hdigits, ?_⟩
    · rw [String.toList_append, toList_natText]
      by_cases hempty : fraction = []
      · rw [if_pos (List.isEmpty_iff.2 hempty), if_pos hempty]
        rfl
      · rw [if_neg (mt List.isEmpty_iff.1 hempty), if_neg hempty]
        simp
    · -- the digits without the zeros at the end denote a part of `d`
      have htotal : Nat.ofDigitChars 10 (Nat.toDigits 10 (d / Nat.pow 10 places) ++ fraction) 0 *
          10 ^ (places - fraction.length) = d := by
        have hsplit : 10 ^ fraction.length * 10 ^ (places - fraction.length) = 10 ^ places := by
          rw [← pow_add, Nat.add_sub_cancel' hlength]
        rw [Nat.ofDigitChars_append, Nat.ofDigitChars_ten_toDigits,
          Nat.ofDigitChars_eq_ofDigitChars_zero, Nat.add_mul, Nat.mul_right_comm, hsplit, hvalue]
        exact Nat.div_add_mod d (10 ^ places)
      generalize Nat.ofDigitChars 10 (Nat.toDigits 10 (d / Nat.pow 10 places) ++ fraction) 0 = m
        at htotal ⊢
      have hsplit : (10 : ℚ) ^ places = 10 ^ fraction.length * 10 ^ (places - fraction.length) := by
        rw [← pow_add, Nat.add_sub_cancel' hlength]
      have hne : (10 : ℚ) ^ (places - fraction.length) ≠ 0 := by positivity
      rw [← htotal, hsplit, Nat.pow_eq]
      push_cast
      field_simp

/-! ### Reading -/

/-- A decimal in the interval of a finite number is read as it; the guards of the range are not
met. -/
theorem ofDecimal_of_roundsTo (hpos : 0 < x.magnitude) (hfinite : x.magnitude < infiniteMagnitude)
    (negative : Bool) {m places length : Nat} (hlength : places ≤ length)
    (h : x.roundsTo m (Nat.pow 10 places) = true) :
    ofDecimal negative m (-(places : Int)) length = ofMagnitude negative x.magnitude := by
  have hm := pos_of_roundsTo hpos (pow_ten_pos places) h
  have htoNat : (-(places : Int)).toNat = 0 := by omega
  have hscaled : m * Nat.pow 10 0 = m := Nat.mul_one m
  unfold ofDecimal
  rw [if_neg hm.ne', if_neg (by omega), if_neg (by omega), neg_neg, Int.toNat_natCast, htoNat,
    hscaled, ofRatio, magnitudeOfRatio_of_roundsTo hpos hfinite (pow_ten_pos places) h]

/-- Digits, with a point among them if there is a fraction, are read as the decimal that they
denote. -/
theorem readUnsigned?_digits (negative : Bool) {whole fraction : List Char} (hne : whole ≠ [])
    (hwhole : ∀ c ∈ whole, c.isDigit = true) (hfraction : ∀ c ∈ fraction, c.isDigit = true) :
    readUnsigned? negative (whole ++ if fraction = [] then [] else '.' :: fraction) =
      some (ofDecimal negative (Nat.ofDigitChars 10 (whole ++ fraction) 0)
        (-(fraction.length : Int)) (whole.length + fraction.length)) := by
  have hvalue : natOfDigits? (whole ++ fraction) =
      some (Nat.ofDigitChars 10 (whole ++ fraction) 0) :=
    natOfDigits?_eq_some (List.append_ne_nil_of_left_ne_nil hne fraction)
      (List.forall_mem_append.2 ⟨hwhole, hfraction⟩)
  unfold readUnsigned?
  by_cases hempty : fraction = []
  · subst hempty
    rw [if_pos rfl, List.append_nil] at *
    rw [List.takeWhile_eq_self_iff.2 hwhole, List.dropWhile_eq_nil_iff.2 hwhole]
    dsimp only
    rw [List.append_nil, hvalue, readExponent?]
    rfl
  · rw [if_neg hempty, List.takeWhile_append_of_pos hwhole, List.dropWhile_append_of_pos hwhole,
      List.takeWhile_cons_of_neg (by decide), List.dropWhile_cons_of_neg (by decide),
      List.append_nil]
    simp only [List.takeWhile_eq_self_iff.2 hfraction, List.dropWhile_eq_nil_iff.2 hfraction,
      hvalue, readExponent?, zero_sub]

/-- The sign in front of a text that starts with a digit or a letter. -/
theorem ofText?_signed (negative : Bool) (c : Char) (cs : List Char) (hplus : c ≠ '+')
    (hminus : c ≠ '-') : ofText? ((if negative then ['-'] else []) ++ c :: cs) =
      (readUnsigned? negative (c :: cs)).or (readNonFinite? negative (c :: cs)) := by
  unfold ofText?
  cases negative with
  | true => rfl
  | false =>
    rw [if_neg Bool.false_ne_true, List.nil_append]
    split
    next negative body heq =>
    split at heq
    · next h => exact absurd (List.cons.inj h).1 hminus
    · next h => exact absurd (List.cons.inj h).1 hplus
    · obtain ⟨rfl, rfl⟩ := Prod.mk.inj heq
      rfl

theorem toList_sign (negative : Bool) :
    (if negative then "-" else "").toList = if negative then ['-'] else [] := by
  cases negative <;> rfl

/-! ### The text of a number -/

/-- The digits before and after the point are those of a decimal that is read as the magnitude of a
finite number. -/
def Denotes (x : Binary32) (whole fraction : List Char) : Prop :=
  if x.magnitude = 0 then Nat.ofDigitChars 10 (whole ++ fraction) 0 = 0
  else x.roundsTo (Nat.ofDigitChars 10 (whole ++ fraction) 0) (Nat.pow 10 fraction.length) = true

variable {whole fraction : List Char}

/-- A whole number may be followed by a point and a zero. -/
theorem Denotes.point_zero (h : x.Denotes whole []) : x.Denotes whole ['0'] := by
  have hvalue : Nat.ofDigitChars 10 (whole ++ ['0']) 0 = 10 * Nat.ofDigitChars 10 whole 0 := by
    rw [Nat.ofDigitChars_append, Nat.ofDigitChars_cons]
    rfl
  unfold Denotes at h ⊢
  rw [List.append_nil] at h
  rw [hvalue]
  split_ifs at h ⊢
  · rw [h]
  · refine roundsTo_congr (pow_ten_pos _) (pow_ten_pos _) ?_ h
    show ((Nat.ofDigitChars 10 whole 0 : Nat) : ℚ) / (1 : Nat) =
      ((10 * Nat.ofDigitChars 10 whole 0 : Nat) : ℚ) / (10 : Nat)
    push_cast
    field_simp

/-- A decimal that denotes a number is read as it. -/
theorem ofText?_of_denotes (hfinite : x.magnitude < infiniteMagnitude) (hne : whole ≠ [])
    (hwhole : ∀ c ∈ whole, c.isDigit = true) (hfraction : ∀ c ∈ fraction, c.isDigit = true)
    (h : x.Denotes whole fraction) :
    ofText? ((if x.isNegative then ['-'] else []) ++
      (whole ++ if fraction = [] then [] else '.' :: fraction)) = some x := by
  have hread := readUnsigned?_digits x.isNegative hne hwhole hfraction
  have hvalue : ofDecimal x.isNegative (Nat.ofDigitChars 10 (whole ++ fraction) 0)
      (-(fraction.length : Int)) (whole.length + fraction.length) = x := by
    unfold Denotes at h
    split_ifs at h with hzero
    · rw [ofDecimal, if_pos h, ← hzero, ofMagnitude_magnitude]
    · rw [ofDecimal_of_roundsTo (Nat.pos_of_ne_zero hzero) hfinite _ (Nat.le_add_left _ _) h,
        ofMagnitude_magnitude]
  obtain ⟨c, cs, rfl⟩ := List.exists_cons_of_ne_nil hne
  have hdigit := hwhole c List.mem_cons_self
  rw [hvalue] at hread
  rw [List.cons_append] at hread ⊢
  rw [ofText?_signed _ _ _ (by rintro rfl; exact absurd hdigit (by decide))
    (by rintro rfl; exact absurd hdigit (by decide)), hread]
  rfl

/-- The text of a finite number is its sign and a decimal that denotes it. -/
theorem exists_text_denotes (hfinite : x.magnitude < infiniteMagnitude) : ∃ n fraction,
    x.text.toList = (if x.isNegative then ['-'] else []) ++
        (Nat.toDigits 10 n ++ if fraction = [] then [] else '.' :: fraction) ∧
      (∀ c ∈ fraction, c.isDigit = true) ∧ x.Denotes (Nat.toDigits 10 n) fraction := by
  obtain ⟨hnan, hinfinite⟩ := magnitude_lt_iff.1 hfinite
  unfold text Denotes
  rw [hnan, hinfinite, if_neg Bool.false_ne_true]
  dsimp only
  rw [if_neg Bool.false_ne_true]
  by_cases hzero : x.magnitude = 0
  · refine ⟨0, [], ?_, by simp, ?_⟩
    · rw [if_pos hzero, String.toList_append, toList_sign]
      rfl
    · rw [if_pos hzero]
      rfl
  · obtain ⟨n, fraction, htext, hfraction, hvalue⟩ :=
      exists_positional_value x.shortest.1 x.shortest.2
    refine ⟨n, fraction, ?_, hfraction, ?_⟩
    · rw [if_neg hzero, String.toList_append, toList_sign, htext]
    · -- the decimal that is written has the value of the shortest one
      rw [← decimal_value] at hvalue
      rw [if_neg hzero]
      exact roundsTo_congr (pow_ten_pos _) (pow_ten_pos _) hvalue.symm
        (roundsTo_shortest (Nat.pos_of_ne_zero hzero) hfinite)

/-- **The text of a number is read back.** -/
theorem ofText?_text (x : Binary32) : ofText? x.text.toList = some x.quieted := by
  unfold quieted
  by_cases hnan : x.isNaN = true
  · have htext : x.text = "NaN" := by rw [text, if_pos hnan]
    rw [htext, if_pos hnan]
    decide
  rw [if_neg hnan]
  by_cases hinfinite : x.isInfinite = true
  · -- an infinity is written by its name
    have htext : x.text = (if x.isNegative then "-" else "") ++ "inf" := by
      rw [text, if_neg hnan, if_pos hinfinite]
    have hmagnitude : x.magnitude = infiniteMagnitude := by simpa [isInfinite] using hinfinite
    have hunsigned : readUnsigned? x.isNegative ['i', 'n', 'f'] = none := rfl
    have hname : readNonFinite? x.isNegative ['i', 'n', 'f'] =
        some (ofMagnitude x.isNegative infiniteMagnitude) := rfl
    rw [htext, String.toList_append, toList_sign]
    refine (ofText?_signed x.isNegative 'i' ['n', 'f'] (by decide) (by decide)).trans ?_
    rw [hunsigned, hname, ← hmagnitude, ofMagnitude_magnitude]
    rfl
  · have hfinite : x.magnitude < infiniteMagnitude :=
      magnitude_lt_iff.2 ⟨Bool.eq_false_iff.2 hnan, Bool.eq_false_iff.2 hinfinite⟩
    obtain ⟨n, fraction, htext, hfraction, hdenotes⟩ := exists_text_denotes hfinite
    rw [htext]
    exact ofText?_of_denotes hfinite Nat.toDigits_ne_nil isDigit_of_mem_toDigits hfraction hdenotes

end RecordTables.Number.Binary32
