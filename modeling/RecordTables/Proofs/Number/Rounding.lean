import Mathlib
import RecordTables.Number.Decimal32

/-!
# Rounding to the nearest number

`Binary32.roundsTo` is a test of whether a quotient lies in the interval of a finite number, and
`Binary32.magnitudeOfRatio` computes the number in whose interval a quotient lies.  The two agree
(`magnitudeOfRatio_of_roundsTo`): the interval of a number is exactly where rounding ends in it.

Both scale with powers of two on either side of the quotient, so the proofs go over to rational
numbers first: `num / den` times an integer power (`div_scaled`).
-/

namespace RecordTables.Number.Binary32

/-! ### Quotients times powers -/

/-- A power on the side where its exponent is positive multiplies the quotient. -/
theorem div_scaled {b : Nat} (hb : 0 < b) (num den : Nat) (q : Int) :
    ((num * Nat.pow b (-q).toNat : Nat) : ℚ) / (den * Nat.pow b q.toNat : Nat) =
      num / den * (b : ℚ) ^ (-q) := by
  have hb0 : (b : ℚ) ≠ 0 := by positivity
  obtain ⟨k, rfl | rfl⟩ := q.eq_nat_or_neg
  · have hneg : (-(k : Int)).toNat = 0 := by omega
    rw [hneg, Int.toNat_natCast, zpow_neg, zpow_natCast, ← div_eq_mul_inv, div_div]
    push_cast [Nat.pow_eq]
    rw [pow_zero, mul_one]
  · have hneg : (-(k : Int)).toNat = 0 := by omega
    rw [neg_neg, hneg, Int.toNat_natCast, zpow_natCast]
    push_cast [Nat.pow_eq]
    rw [pow_zero, mul_one, mul_div_right_comm]

theorem pos_scaled {b den : Nat} (hb : 0 < b) (hden : 0 < den) (q : Int) :
    0 < den * Nat.pow b q.toNat := Nat.mul_pos hden (Nat.pow_pos hb)

/-- Comparing a quotient with a power, in natural numbers. -/
theorem scaled_lt_iff {b den : Nat} (hb : 0 < b) (hden : 0 < den) (num : Nat) (q : Int) :
    num * Nat.pow b (-q).toNat < den * Nat.pow b q.toNat ↔ (num : ℚ) / den < (b : ℚ) ^ q := by
  have hpos : (0 : ℚ) < (den * Nat.pow b q.toNat : Nat) :=
    Nat.cast_pos.2 (pos_scaled hb hden q)
  have hpower : (0 : ℚ) < (b : ℚ) ^ q := zpow_pos (Nat.cast_pos.2 hb) q
  rw [← Nat.cast_lt (α := ℚ), ← div_lt_one hpos, div_scaled hb, zpow_neg, ← div_eq_mul_inv,
    div_lt_one hpower]

/-! ### The nearest whole number -/

/-- Rounding gives the whole number that is at most one half away; from an odd one the distance must
be less, since a tie goes to the even one. -/
theorem roundDiv_eq {num den m : Nat} (hden : 0 < den) (hlow : (m : ℚ) - 1 / 2 ≤ num / den)
    (hhigh : (num : ℚ) / den ≤ m + 1 / 2)
    (hodd : m % 2 = 1 → (m : ℚ) - 1 / 2 < num / den ∧ (num : ℚ) / den < m + 1 / 2) :
    roundDiv num den = m := by
  have hd : (0 : ℚ) < den := Nat.cast_pos.2 hden
  -- the bounds without fractions
  have hlow' : 2 * (m * den) ≤ 2 * num + den := by
    rw [le_div_iff₀ hd] at hlow
    exact_mod_cast (by linarith : (2 * (m * den) : ℚ) ≤ 2 * num + den)
  have hhigh' : 2 * num ≤ 2 * (m * den) + den := by
    rw [div_le_iff₀ hd] at hhigh
    exact_mod_cast (by linarith : (2 * num : ℚ) ≤ 2 * (m * den) + den)
  have hodd' : m % 2 = 1 → 2 * (m * den) < 2 * num + den ∧ 2 * num < 2 * (m * den) + den := by
    intro h
    obtain ⟨h1, h2⟩ := hodd h
    rw [lt_div_iff₀ hd] at h1
    rw [div_lt_iff₀ hd] at h2
    exact ⟨by exact_mod_cast (by linarith : (2 * (m * den) : ℚ) < 2 * num + den),
      by exact_mod_cast (by linarith : (2 * num : ℚ) < 2 * (m * den) + den)⟩
  have hdiv := Nat.div_add_mod num den
  have hmod := Nat.mod_lt num hden
  unfold roundDiv
  dsimp only
  generalize num / den = low at hdiv ⊢
  generalize num % den = rest at hdiv hmod ⊢
  -- `m` is the whole part or the number above it
  have hle : low ≤ m := by
    by_contra h
    have : den * (m + 1) ≤ den * low := Nat.mul_le_mul_left den (by omega)
    have hm : den * (m + 1) = m * den + den := by ring
    omega
  have hle' : m ≤ low + 1 := by
    by_contra h
    have : den * (low + 2) ≤ den * m := Nat.mul_le_mul_left den (by omega)
    have hm : den * (low + 2) = den * low + 2 * den := by ring
    have hm' : den * m = m * den := Nat.mul_comm den m
    omega
  rcases (by omega : m = low ∨ m = low + 1) with rfl | rfl
  · have hm : m * den = den * m := Nat.mul_comm m den
    split_ifs <;> omega
  · have hm : (low + 1) * den = den * low + den := by ring
    split_ifs <;> omega

/-! ### The binary logarithm -/

/-- The power of two below a positive quotient. -/
theorem floorLog2_spec {num den : Nat} (hnum : 0 < num) (hden : 0 < den) :
    (2 : ℚ) ^ floorLog2 num den ≤ num / den ∧
      (num : ℚ) / den < (2 : ℚ) ^ (floorLog2 num den + 1) := by
  have hd : (0 : ℚ) < den := Nat.cast_pos.2 hden
  -- the logarithms of numerator and denominator determine the one of the quotient up to one
  have hnumLow : (2 : ℚ) ^ (num.log2 : Int) ≤ num := by
    rw [zpow_natCast]
    exact_mod_cast Nat.log2_self_le hnum.ne'
  have hnumHigh : (num : ℚ) < (2 : ℚ) ^ ((num.log2 : Int) + 1) := by
    rw [← Int.natCast_succ, zpow_natCast]
    exact_mod_cast Nat.lt_log2_self
  have hdenLow : (2 : ℚ) ^ (den.log2 : Int) ≤ den := by
    rw [zpow_natCast]
    exact_mod_cast Nat.log2_self_le hden.ne'
  have hdenHigh : (den : ℚ) < (2 : ℚ) ^ ((den.log2 : Int) + 1) := by
    rw [← Int.natCast_succ, zpow_natCast]
    exact_mod_cast Nat.lt_log2_self
  have hlow : (2 : ℚ) ^ ((num.log2 : Int) - den.log2 - 1) ≤ num / den := by
    rw [le_div_iff₀ hd]
    calc (2 : ℚ) ^ ((num.log2 : Int) - den.log2 - 1) * den
        ≤ (2 : ℚ) ^ ((num.log2 : Int) - den.log2 - 1) * (2 : ℚ) ^ ((den.log2 : Int) + 1) :=
          mul_le_mul_of_nonneg_left hdenHigh.le (zpow_nonneg (by norm_num) _)
      _ = (2 : ℚ) ^ (num.log2 : Int) := by
          rw [← zpow_add₀ (by norm_num)]
          congr 1
          ring
      _ ≤ num := hnumLow
  have hhigh : (num : ℚ) / den < (2 : ℚ) ^ ((num.log2 : Int) - den.log2 + 1) := by
    rw [div_lt_iff₀ hd]
    calc (num : ℚ) < (2 : ℚ) ^ ((num.log2 : Int) + 1) := hnumHigh
      _ = (2 : ℚ) ^ ((num.log2 : Int) - den.log2 + 1) * (2 : ℚ) ^ (den.log2 : Int) := by
          rw [← zpow_add₀ (by norm_num)]
          congr 1
          ring
      _ ≤ (2 : ℚ) ^ ((num.log2 : Int) - den.log2 + 1) * den :=
          mul_le_mul_of_nonneg_left hdenLow (zpow_nonneg (by norm_num) _)
  unfold floorLog2
  dsimp only
  generalize (num.log2 : Int) - den.log2 = k at hlow hhigh ⊢
  have hcompare := scaled_lt_iff (b := 2) (by decide) hden num k
  split_ifs with h
  · rw [sub_add_cancel]
    exact ⟨hlow, by exact_mod_cast hcompare.1 h⟩
  · exact ⟨le_of_not_gt fun hlt => h (hcompare.2 (by exact_mod_cast hlt)), hhigh⟩

/-! ### The parts of a finite number -/

theorem exponent_ge (x : Binary32) : -149 ≤ x.exponent := by
  unfold exponent
  dsimp only
  split_ifs <;> omega

theorem significand_lt (x : Binary32) : x.significand < 0x1000000 := by
  unfold significand
  dsimp only
  split_ifs <;> omega

/-- The leading digit is one where the exponent is not the least. -/
theorem significand_ge {x : Binary32} (h : -149 < x.exponent) : 0x800000 ≤ x.significand := by
  unfold exponent at h
  unfold significand
  dsimp only at h ⊢
  split_ifs at h ⊢ <;> omega

theorem magnitude_eq (x : Binary32) :
    x.magnitude = (x.exponent + 149).toNat * 0x800000 + x.significand := by
  unfold exponent significand
  dsimp only
  by_cases h : x.magnitude / 0x800000 = 0
  · rw [if_pos h, if_pos h]
    omega
  · rw [if_neg h, if_neg h]
    omega

/-- The numbers below a power of two lie twice as dense. -/
theorem lowerBound_eq (x : Binary32) : x.lowerBound =
    if x.significand = 0x800000 ∧ -149 < x.exponent then 4 * x.significand - 1
    else 4 * x.significand - 2 := by
  have hiff : (x.magnitude % 0x800000 = 0 ∧ 1 < x.magnitude / 0x800000) ↔
      (x.significand = 0x800000 ∧ -149 < x.exponent) := by
    unfold significand exponent
    dsimp only
    split_ifs <;> omega
  unfold lowerBound
  exact if_congr hiff rfl rfl

theorem significand_pos {x : Binary32} (h : 0 < x.magnitude) : 0 < x.significand := by
  by_contra hzero
  have hexponent : ¬ -149 < x.exponent := fun h => absurd (significand_ge h) (by omega)
  have := x.magnitude_eq
  omega

/-- The value of the magnitude of a finite number. -/
def ratio (x : Binary32) : ℚ := x.significand * (2 : ℚ) ^ x.exponent

/-! ### The interval of a number -/

/-- The interval of a number, in units of its last place. -/
theorem roundsTo_iff {x : Binary32} {num den : Nat} (hden : 0 < den) :
    x.roundsTo num den = true ↔
      if x.significand % 2 = 0 then
        (x.lowerBound : ℚ) / 4 ≤ num / den * (2 : ℚ) ^ (-x.exponent) ∧
          num / den * (2 : ℚ) ^ (-x.exponent) ≤ x.significand + 1 / 2
      else
        (x.lowerBound : ℚ) / 4 < num / den * (2 : ℚ) ^ (-x.exponent) ∧
          num / den * (2 : ℚ) ^ (-x.exponent) < x.significand + 1 / 2 := by
  have hunit : (0 : ℚ) < (den * Nat.pow 2 x.exponent.toNat : Nat) :=
    Nat.cast_pos.2 (pos_scaled (by decide) hden _)
  have hscaled := div_scaled (b := 2) (by decide) (4 * num) den x.exponent
  -- both bounds are compared with the quotient, scaled by the power of two
  have hquotient : ((4 * num * Nat.pow 2 (-x.exponent).toNat : Nat) : ℚ) /
      (den * Nat.pow 2 x.exponent.toNat : Nat) = 4 * (num / den * (2 : ℚ) ^ (-x.exponent)) := by
    rw [hscaled]
    push_cast
    ring
  have hle (n : Nat) : n * (den * Nat.pow 2 x.exponent.toNat) ≤
      4 * num * Nat.pow 2 (-x.exponent).toNat ↔
        (n : ℚ) / 4 ≤ num / den * (2 : ℚ) ^ (-x.exponent) := by
    rw [← Nat.cast_le (α := ℚ), Nat.cast_mul, ← le_div_iff₀ hunit, hquotient,
      div_le_iff₀ (by norm_num : (0 : ℚ) < 4), mul_comm (4 : ℚ)]
  have hge (n : Nat) : 4 * num * Nat.pow 2 (-x.exponent).toNat ≤
      n * (den * Nat.pow 2 x.exponent.toNat) ↔
        num / den * (2 : ℚ) ^ (-x.exponent) ≤ (n : ℚ) / 4 := by
    rw [← Nat.cast_le (α := ℚ), Nat.cast_mul n, ← div_le_iff₀ hunit, hquotient,
      le_div_iff₀ (by norm_num : (0 : ℚ) < 4), mul_comm (4 : ℚ)]
  have hhigh : ((4 * x.significand + 2 : Nat) : ℚ) / 4 = x.significand + 1 / 2 := by
    push_cast
    ring
  unfold roundsTo
  dsimp only
  -- an even significand takes the bounds themselves as well, an odd one does not
  split_ifs
  · rw [Bool.and_eq_true, decide_eq_true_eq, decide_eq_true_eq, hle, hge, hhigh]
  · rw [Bool.and_eq_true, decide_eq_true_eq, decide_eq_true_eq, ← not_le, ← not_le, hge, hle,
      not_le, not_le, hhigh]

/-- The bounds of the interval without regard to its ends. -/
theorem bounds_of_roundsTo {x : Binary32} {num den : Nat} (hden : 0 < den)
    (h : x.roundsTo num den = true) :
    (x.lowerBound : ℚ) / 4 ≤ num / den * (2 : ℚ) ^ (-x.exponent) ∧
      num / den * (2 : ℚ) ^ (-x.exponent) ≤ x.significand + 1 / 2 := by
  rw [roundsTo_iff hden] at h
  split_ifs at h
  · exact h
  · exact ⟨h.1.le, h.2.le⟩

/-- Whether a quotient lies in the interval of a number depends on its value alone. -/
theorem roundsTo_congr {x : Binary32} {num den num' den' : Nat} (hden : 0 < den) (hden' : 0 < den')
    (h : (num : ℚ) / den = num' / den') (hrounds : x.roundsTo num den = true) :
    x.roundsTo num' den' = true := by
  rw [roundsTo_iff hden'] at *
  rwa [roundsTo_iff hden, h] at hrounds

/-- A quotient in the interval of a number other than zero is positive. -/
theorem pos_of_roundsTo {x : Binary32} (hpos : 0 < x.magnitude) {num den : Nat} (hden : 0 < den)
    (h : x.roundsTo num den = true) : 0 < num := by
  have hsignificand := significand_pos hpos
  by_contra hzero
  obtain rfl : num = 0 := by omega
  rw [roundsTo_iff hden] at h
  simp only [Nat.cast_zero, zero_div, zero_mul] at h
  have hbound : 4 * x.significand - 2 ≤ x.lowerBound := by
    rw [lowerBound_eq]
    split_ifs <;> omega
  have hlower : (0 : ℚ) < (x.lowerBound : ℚ) / 4 := by
    have : 0 < x.lowerBound := by omega
    positivity
  split_ifs at h
  · exact absurd h.1 (not_le.2 hlower)
  · exact absurd h.1 (not_lt.2 hlower.le)

/-! ### Rounding ends in the interval -/

theorem zpow_two_lt_iff {a b : Int} : (2 : ℚ) ^ a < (2 : ℚ) ^ b ↔ a < b :=
  zpow_lt_zpow_iff_right₀ (by norm_num)

/-- **A quotient in the interval of a finite number is rounded to it.** -/
theorem magnitudeOfRatio_of_roundsTo {x : Binary32} (hpos : 0 < x.magnitude)
    (hfinite : x.magnitude < infiniteMagnitude) {num den : Nat} (hden : 0 < den)
    (h : x.roundsTo num den = true) : magnitudeOfRatio num den = x.magnitude := by
  have hnum := pos_of_roundsTo hpos hden h
  obtain ⟨hlow, hhigh⟩ := bounds_of_roundsTo hden h
  obtain ⟨hlogLow, hlogHigh⟩ := floorLog2_spec hnum hden
  have hsignificand := x.significand_lt
  have hexponent := x.exponent_ge
  have hmagnitude := x.magnitude_eq
  -- the binary logarithm of the quotient in units of the last place of `x`
  have hlogLow' : (2 : ℚ) ^ (floorLog2 num den - x.exponent) ≤
      num / den * (2 : ℚ) ^ (-x.exponent) := by
    rw [sub_eq_add_neg, zpow_add₀ (by norm_num)]
    exact mul_le_mul_of_nonneg_right hlogLow (zpow_nonneg (by norm_num) _)
  have hlogHigh' : num / den * (2 : ℚ) ^ (-x.exponent) <
      (2 : ℚ) ^ (floorLog2 num den - x.exponent + 1) := by
    rw [show floorLog2 num den - x.exponent + 1 = floorLog2 num den + 1 + -x.exponent by ring,
      zpow_add₀ (by norm_num)]
    exact mul_lt_mul_of_pos_right hlogHigh (zpow_pos (by norm_num) _)
  have hexponentLe : floorLog2 num den - 23 ≤ x.exponent := by
    have hlt : (2 : ℚ) ^ (floorLog2 num den - x.exponent) < (2 : ℚ) ^ (24 : Int) := by
      have hcast : (x.significand : ℚ) + 1 ≤ 0x1000000 := by exact_mod_cast hsignificand
      norm_num at hcast ⊢
      linarith
    have := zpow_two_lt_iff.1 hlt
    omega
  unfold magnitudeOfRatio
  rw [if_neg hnum.ne']
  dsimp only
  by_cases hsame : max (floorLog2 num den - 23) (-149) = x.exponent
  · -- rounding in the binade of `x`
    rw [hsame]
    have hbound : (x.significand : ℚ) - 1 / 2 ≤ (x.lowerBound : ℚ) / 4 := by
      have : 4 * x.significand ≤ x.lowerBound + 2 := by
        rw [lowerBound_eq]
        split_ifs <;> omega
      have : (4 * x.significand : ℚ) ≤ x.lowerBound + 2 := by exact_mod_cast this
      linarith
    have hround : roundDiv (num * Nat.pow 2 (-x.exponent).toNat)
        (den * Nat.pow 2 x.exponent.toNat) = x.significand := by
      have hdiv := div_scaled (b := 2) (by decide) num den x.exponent
      rw [Nat.cast_ofNat] at hdiv
      refine roundDiv_eq (pos_scaled (by decide) hden _) ?_ ?_ fun hodd => ?_
      · rw [hdiv]
        exact hbound.trans hlow
      · rw [hdiv]
        exact hhigh
      · rw [roundsTo_iff hden, if_neg (by omega)] at h
        rw [hdiv]
        exact ⟨hbound.trans_lt h.1, h.2⟩
    rw [hround, ← hmagnitude]
    exact min_eq_left hfinite.le
  · -- the quotient lies just below a power of two, where the numbers are twice as dense
    have hleast : -149 < x.exponent := by omega
    have hnormal := significand_ge hleast
    have hbelow : num / den * (2 : ℚ) ^ (-x.exponent) < (0x800000 : ℚ) := by
      calc num / den * (2 : ℚ) ^ (-x.exponent)
          < (2 : ℚ) ^ (floorLog2 num den - x.exponent + 1) := hlogHigh'
        _ ≤ (2 : ℚ) ^ (23 : Int) := zpow_le_zpow_right₀ (by norm_num) (by omega)
        _ = 0x800000 := by norm_num
    have hpower : x.significand = 0x800000 := by
      by_contra hne
      have hlower : x.lowerBound = 4 * x.significand - 2 := by
        rw [lowerBound_eq, if_neg fun h => hne h.1]
      have hge : 4 * 0x800000 + 2 ≤ x.lowerBound := by omega
      have hcast : (4 * 0x800000 + 2 : ℚ) ≤ x.lowerBound := by exact_mod_cast hge
      linarith
    have hlower : (x.lowerBound : ℚ) = 4 * 0x800000 - 1 := by
      rw [lowerBound_eq, if_pos ⟨hpower, hleast⟩, hpower]
      norm_num
    rw [hlower] at hlow
    have hlog : floorLog2 num den = x.exponent + 22 := by
      have hlt : (2 : ℚ) ^ (22 : Int) < (2 : ℚ) ^ (floorLog2 num den - x.exponent + 1) := by
        refine lt_of_lt_of_le ?_ hlogHigh'.le
        norm_num at hlow ⊢
        linarith
      have := zpow_two_lt_iff.1 hlt
      omega
    have hq : max (floorLog2 num den - 23) (-149) = x.exponent - 1 := by omega
    rw [hq]
    have htwice : (num : ℚ) / den * (2 : ℚ) ^ (-(x.exponent - 1)) =
        2 * (num / den * (2 : ℚ) ^ (-x.exponent)) := by
      rw [neg_sub, sub_eq_add_neg, zpow_add₀ (by norm_num), zpow_one]
      ring
    have hround : roundDiv (num * Nat.pow 2 (-(x.exponent - 1)).toNat)
        (den * Nat.pow 2 (x.exponent - 1).toNat) = 0x1000000 := by
      have hdiv := div_scaled (b := 2) (by decide) num den (x.exponent - 1)
      rw [Nat.cast_ofNat, htwice] at hdiv
      refine roundDiv_eq (pos_scaled (by decide) hden _) ?_ ?_ fun hodd => absurd hodd (by decide)
      · rw [hdiv]
        push_cast
        linarith
      · rw [hdiv]
        push_cast
        linarith
    have hcarry : (x.exponent - 1 + 149).toNat * 0x800000 + 0x1000000 = x.magnitude := by
      rw [hmagnitude, hpower]
      omega
    rw [hround, hcarry]
    exact min_eq_left hfinite.le

end RecordTables.Number.Binary32
