import Mathlib
import RecordTables.Proofs.Outcome
import RecordTables.Proofs.Time.Spelling

/-!
# Spans of time in machine words

`Duration.ofText?` counts in numbers of any size and looks at the range in the end.  `wordOfText`
takes the same way in signed 64-bit words, where a result out of range is refused only at some of the
steps: when digits are read and when the parts are added up.  The other steps (the digits of a
fraction, the hours, minutes and seconds in milliseconds, the sign) would lose what does not fit.
They never do, and the two ways lead to the same (`wordOfText_eq`).
-/

namespace RecordTables.Duration

open Number

/-! ### Words -/

/-- Why a computation in words has no result. -/
inductive WordFault where
  /-- The text spells no span, or a step that looks at its result finds it out of range. -/
  | refused
  /-- A step that does not look at its result takes it out of range. -/
  | overflow
  deriving DecidableEq, Repr

/-- A number as a word, in a step that ends with `fault` where it does not fit. -/
def word (fault : WordFault) (n : Int) : Except WordFault Int64 :=
  if Int64.minValue.toInt ≤ n ∧ n ≤ Int64.maxValue.toInt then .ok (Int64.ofInt n)
  else .error fault

/-- The number that a run of digits stands for. -/
def digitsWord (run : List Char) : Except WordFault Int64 :=
  match natOfDigits? run with
  | some n => word .refused n
  | none => .error .refused

/-- Puts one more digit behind the digits of a fraction. -/
def pushDigit (millis : Int64) (c : Char) : Except WordFault Int64 := do
  let shifted ← word .overflow (millis.toInt * 10)
  word .overflow (shifted.toInt + (c.toNat - '0'.toNat : Nat))

/-- The milliseconds of the digits behind the point of the seconds. -/
def fractionWord (run : List Char) : Except WordFault Int64 :=
  if run.isEmpty || !run.all Char.isDigit then .error .refused
  else ((run ++ ['0', '0']).take 3).foldlM pushDigit 0

/-- The parts of a span in words. -/
structure WordFields where
  days : Int64
  hours : Int64
  minutes : Int64
  seconds : Int64
  millis : Int64

/-- Adds so many units to a total. -/
def plusTimes (total count : Int64) (unit : Nat) : Except WordFault Int64 := do
  let part ← word .overflow (count.toInt * unit)
  word .refused (total.toInt + part.toInt)

/-- The parts added up, in milliseconds. -/
def WordFields.total (f : WordFields) : Except WordFault Int64 := do
  let total ← word .refused (f.days.toInt * day)
  let total ← plusTimes total f.hours hour
  let total ← plusTimes total f.minutes minute
  let total ← plusTimes total f.seconds second
  word .refused (total.toInt + f.millis.toInt)

/-- Seconds and milliseconds in words. -/
def SpelledSeconds.words (s : SpelledSeconds) : Except WordFault (Int64 × Int64) := do
  let seconds ← digitsWord s.whole
  let millis ← s.fraction.elim (pure 0) fractionWord
  pure (seconds, millis)

/-- The parts of a spelling in words. -/
def Spelling.wordFields (w : Spelling) : Except WordFault WordFields := do
  let days ← w.days.elim (pure 0) digitsWord
  let hours ← digitsWord w.hours
  let minutes ← digitsWord w.minutes
  let (seconds, millis) ← w.seconds.elim (pure (0, 0)) SpelledSeconds.words
  pure { days, hours, minutes, seconds, millis }

/-- The seconds, cut at their point. -/
def SpelledSeconds.of (cs : List Char) : SpelledSeconds :=
  match cutAtPoint? cs with
  | some (whole, fraction) => ⟨whole, some fraction⟩
  | none => ⟨cs, none⟩

/-- The parts of a span, its days and hours cut at their point. -/
def Spelling.ofParts (negative : Bool) (front minutes : List Char)
    (seconds : Option SpelledSeconds) : Spelling :=
  match cutAtPoint? front with
  | some (days, hours) => { negative, days := some days, hours, minutes, seconds }
  | none => { negative, days := none, hours := front, minutes, seconds }

/-- A span without its sign, cut into its parts, be they proper or not. -/
def Spelling.ofBody? (negative : Bool) (body : List Char) : Option Spelling :=
  match Text.splitOn ':' body with
  | [front, minutes] => some (.ofParts negative front minutes none)
  | [front, minutes, s] => some (.ofParts negative front minutes (some (.of s)))
  | _ => none

/-- A span cut into its parts, be they proper or not. -/
def Spelling.of? (cs : List Char) : Option Spelling :=
  match cs with
  | '-' :: rest => Spelling.ofBody? true rest
  | _ => Spelling.ofBody? false cs

/-- Reads a span in words. -/
def wordOfText (cs : List Char) : Except WordFault Int64 :=
  match Spelling.of? cs with
  | none => .error .refused
  | some w => do
    let f ← w.wordFields
    if 24 ≤ f.hours ∨ 60 ≤ f.minutes ∨ 60 ≤ f.seconds then .error .refused
    else do
      let total ← f.total
      if w.negative then word .overflow (-total.toInt) else pure total

/-! ### Steps -/

theorem word_eq_ok {fault : WordFault} {n : Int} {a : Int64} :
    word fault n = .ok a ↔ a.toInt = n := by
  have hmin := Int64.toInt_minValue
  have hmax := Int64.toInt_maxValue
  unfold word
  constructor
  · intro h
    split_ifs at h with hrange
    rw [← Except.ok.inj h]
    exact Int64.toInt_ofInt_of_le (by omega) (by omega)
  · rintro rfl
    have hle := a.le_toInt
    have hlt := a.toInt_lt
    rw [if_pos (by omega), Int64.ofInt_toInt]

theorem avoids_word_refused (n : Int) : Avoids (· = .overflow) (word .refused n) := by
  unfold word
  split_ifs
  · exact avoids_ok _
  · exact avoids_error (by decide)

theorem avoids_word {fault : WordFault} {n : Int}
    (h : Int64.minValue.toInt ≤ n ∧ n ≤ Int64.maxValue.toInt) :
    Avoids (· = .overflow) (word fault n) := by
  unfold word
  rw [if_pos h]
  exact avoids_ok _

theorem exists_word {n : Nat} (h : (n : Int) ≤ Int64.maxValue.toInt) : ∃ a : Int64, a.toInt = n := by
  have hmax := Int64.toInt_maxValue
  exact ⟨Int64.ofInt n, Int64.toInt_ofInt_of_le (by omega) (by omega)⟩

theorem digitsWord_eq_ok {run : List Char} {a : Int64} :
    digitsWord run = .ok a ↔ IsRun run ∧ a.toInt = valueOf run := by
  unfold digitsWord
  by_cases hrun : IsRun run
  · rw [natOfDigits?_eq_some_iff.2 ⟨hrun, rfl⟩]
    exact word_eq_ok.trans (and_iff_right hrun).symm
  · cases hread : natOfDigits? run with
    | none => exact iff_of_false (fun h => nomatch h) fun h => hrun h.1
    | some n => exact absurd (natOfDigits?_eq_some_iff.1 hread).1 hrun

theorem avoids_digitsWord (run : List Char) : Avoids (· = .overflow) (digitsWord run) := by
  unfold digitsWord
  cases natOfDigits? run with
  | none => exact avoids_error (by decide)
  | some n => exact avoids_word_refused n

/-- As long as the number fits, digit after digit is taken in. -/
theorem foldlM_pushDigit {run : List Char} (hrun : ∀ c ∈ run, c.isDigit = true) {millis : Int64}
    {n : Nat} (hmillis : millis.toInt = n) (hfits : (n + 1) * 10 ^ run.length < 2 ^ 63) :
    ∃ a, run.foldlM pushDigit millis = .ok a ∧ a.toInt = Nat.ofDigitChars 10 run n := by
  induction run generalizing millis n with
  | nil => exact ⟨millis, rfl, hmillis⟩
  | cons c run ih =>
    have hc := hrun c List.mem_cons_self
    have hdigit : c.toNat - '0'.toNat < 10 := by
      have h9 : c.toNat ≤ 57 := (isDigit_iff.1 hc).2
      have h0 : '0'.toNat = 48 := rfl
      omega
    have hnext : (10 * n + (c.toNat - '0'.toNat) + 1) * 10 ^ run.length < 2 ^ 63 := by
      refine lt_of_le_of_lt ?_ hfits
      rw [List.length_cons, Nat.pow_succ', ← Nat.mul_assoc]
      exact Nat.mul_le_mul_right _ (by omega)
    -- the digits that follow make the number no smaller, so it fits by now
    have hbound : 10 * n + (c.toNat - '0'.toNat) + 1 < 2 ^ 63 :=
      lt_of_le_of_lt (Nat.le_mul_of_pos_right _ (Nat.pow_pos (by decide))) hnext
    have hmax := Int64.toInt_maxValue
    obtain ⟨shifted, hshifted⟩ := exists_word (n := 10 * n) (by omega)
    obtain ⟨next, hnextword⟩ := exists_word (n := 10 * n + (c.toNat - '0'.toNat)) (by omega)
    obtain ⟨a, ha, hvalue⟩ := ih (fun d hd => hrun d (List.mem_cons_of_mem _ hd)) hnextword hnext
    refine ⟨a, ?_, ?_⟩
    · rw [List.foldlM_cons]
      refine bind_eq_ok.2 ⟨next, bind_eq_ok.2 ⟨shifted, word_eq_ok.2 ?_, word_eq_ok.2 ?_⟩, ha⟩
      · omega
      · omega
    · rw [hvalue, Nat.ofDigitChars_cons]

/-- The three digits of a fraction fit. -/
theorem exists_fractionWord {run : List Char} (hrun : IsRun run) :
    ∃ a, fractionWord run = .ok a ∧ a.toInt = thousandths run := by
  have hlength : ((run ++ ['0', '0']).take 3).length ≤ 3 := List.length_take_le _ _
  have hfits : (0 + 1) * 10 ^ ((run ++ ['0', '0']).take 3).length < 2 ^ 63 := by
    have hle := Nat.pow_le_pow_right (n := 10) (by decide) hlength
    omega
  have hzero : (0 : Int64).toInt = (0 : Nat) := rfl
  obtain ⟨a, ha, hvalue⟩ := foldlM_pushDigit (isRun_take_append_zeros hrun).2 hzero hfits
  refine ⟨a, ?_, hvalue.trans (congrArg _ (valueOf_take_append_zeros hrun))⟩
  unfold fractionWord
  rw [isRun_iff.2 hrun, if_neg Bool.false_ne_true]
  exact ha

theorem fractionWord_of_not_isRun {run : List Char} (h : ¬IsRun run) :
    fractionWord run = .error .refused := by
  unfold fractionWord
  rw [if_pos (Bool.of_not_eq_false (mt isRun_iff.1 h))]

theorem fractionWord_eq_ok {run : List Char} {a : Int64} :
    fractionWord run = .ok a ↔ IsRun run ∧ a.toInt = thousandths run := by
  by_cases hrun : IsRun run
  · obtain ⟨b, hb, hvalue⟩ := exists_fractionWord hrun
    rw [hb, Except.ok.injEq, ← Int64.toInt_inj, hvalue, and_iff_right hrun]
    exact eq_comm
  · rw [fractionWord_of_not_isRun hrun]
    exact iff_of_false (fun h => nomatch h) fun h => hrun h.1

theorem avoids_fractionWord (run : List Char) : Avoids (· = .overflow) (fractionWord run) := by
  by_cases hrun : IsRun run
  · obtain ⟨a, ha, -⟩ := exists_fractionWord hrun
    rw [ha]
    exact avoids_ok a
  · rw [fractionWord_of_not_isRun hrun]
    exact avoids_error (by decide)

/-! ### The parts -/

/-- All parts of the spelling are runs of digits; they may be too large. -/
structure Spelling.HasRuns (w : Spelling) : Prop where
  days : ∀ d ∈ w.days, IsRun d
  hours : IsRun w.hours
  minutes : IsRun w.minutes
  seconds : ∀ s ∈ w.seconds, IsRun s.whole ∧ ∀ f ∈ s.fraction, IsRun f

/-- The words hold the numbers that stand in the spelling. -/
structure WordFields.Holds (f : WordFields) (w : Spelling) : Prop where
  days : f.days.toInt = (w.days.elim 0 valueOf : Nat)
  hours : f.hours.toInt = valueOf w.hours
  minutes : f.minutes.toInt = valueOf w.minutes
  seconds : f.seconds.toInt = (w.seconds.elim 0 fun s => valueOf s.whole : Nat)
  millis : f.millis.toInt = (w.seconds.elim 0 fun s => s.fraction.elim 0 thousandths : Nat)

/-- What is read from a run of digits, if there is one. -/
theorem elim_eq_ok {read : List Char → Except WordFault Int64} {value : List Char → Nat}
    (hread : ∀ {run a}, read run = .ok a ↔ IsRun run ∧ a.toInt = value run)
    {o : Option (List Char)} {a : Int64} :
    o.elim (pure 0) read = .ok a ↔ (∀ run ∈ o, IsRun run) ∧ a.toInt = (o.elim 0 value : Nat) := by
  cases o with
  | none =>
    rw [Option.elim_none, Option.elim_none]
    refine (Except.ok.injEq _ _).to_iff.trans ⟨?_, fun h => Int64.toInt_inj.1 h.2.symm⟩
    rintro rfl
    exact ⟨fun _ h => (nomatch h), rfl⟩
  | some run =>
    rw [Option.elim_some, Option.elim_some, hread]
    exact and_congr_left' ⟨fun h _ hrun => Option.some.inj hrun ▸ h, fun h => h run rfl⟩

theorem SpelledSeconds.words_eq_ok {s : SpelledSeconds} {a b : Int64} :
    s.words = .ok (a, b) ↔ (IsRun s.whole ∧ ∀ f ∈ s.fraction, IsRun f) ∧
      a.toInt = valueOf s.whole ∧ b.toInt = (s.fraction.elim 0 thousandths : Nat) := by
  unfold SpelledSeconds.words
  constructor
  · intro h
    obtain ⟨seconds, hseconds, h⟩ := bind_eq_ok.1 h
    obtain ⟨millis, hmillis, h⟩ := bind_eq_ok.1 h
    obtain ⟨rfl, rfl⟩ := Prod.mk.inj (Except.ok.inj h)
    obtain ⟨hwhole, ha⟩ := digitsWord_eq_ok.1 hseconds
    obtain ⟨hfraction, hb⟩ := (elim_eq_ok fractionWord_eq_ok).1 hmillis
    exact ⟨⟨hwhole, hfraction⟩, ha, hb⟩
  · rintro ⟨⟨hwhole, hfraction⟩, ha, hb⟩
    exact bind_eq_ok.2 ⟨a, digitsWord_eq_ok.2 ⟨hwhole, ha⟩,
      bind_eq_ok.2 ⟨b, (elim_eq_ok fractionWord_eq_ok).2 ⟨hfraction, hb⟩, rfl⟩⟩

/-- The parts of a spelling are read exactly if they are runs of digits, as what they stand for. -/
theorem Spelling.wordFields_eq_ok {w : Spelling} {f : WordFields} :
    w.wordFields = .ok f ↔ w.HasRuns ∧ f.Holds w := by
  unfold Spelling.wordFields
  constructor
  · intro h
    obtain ⟨days, hdays, h⟩ := bind_eq_ok.1 h
    obtain ⟨hours, hhours, h⟩ := bind_eq_ok.1 h
    obtain ⟨minutes, hminutes, h⟩ := bind_eq_ok.1 h
    obtain ⟨⟨seconds, millis⟩, hseconds, h⟩ := bind_eq_ok.1 h
    obtain rfl := Except.ok.inj h
    -- each field of the spelling is a run of digits, and its word holds the number
    obtain ⟨hdays, hd⟩ := (elim_eq_ok digitsWord_eq_ok).1 hdays
    obtain ⟨hhours, hh⟩ := digitsWord_eq_ok.1 hhours
    obtain ⟨hminutes, hm⟩ := digitsWord_eq_ok.1 hminutes
    cases hw : w.seconds with
    | none =>
      rw [hw, Option.elim_none] at hseconds
      obtain ⟨rfl, rfl⟩ := Prod.mk.inj (Except.ok.inj hseconds)
      exact ⟨⟨hdays, hhours, hminutes, by simp [hw]⟩, ⟨hd, hh, hm, by simp [hw], by simp [hw]⟩⟩
    | some s =>
      rw [hw, Option.elim_some] at hseconds
      obtain ⟨hruns, hs, hf⟩ := SpelledSeconds.words_eq_ok.1 hseconds
      exact ⟨⟨hdays, hhours, hminutes, by simpa [hw] using hruns⟩,
        ⟨hd, hh, hm, by simpa [hw] using hs, by simpa [hw] using hf⟩⟩
  · rintro ⟨hruns, hholds⟩
    refine bind_eq_ok.2 ⟨f.days, (elim_eq_ok digitsWord_eq_ok).2 ⟨hruns.days, hholds.days⟩,
      bind_eq_ok.2 ⟨f.hours, digitsWord_eq_ok.2 ⟨hruns.hours, hholds.hours⟩,
      bind_eq_ok.2 ⟨f.minutes, digitsWord_eq_ok.2 ⟨hruns.minutes, hholds.minutes⟩,
      bind_eq_ok.2 ⟨(f.seconds, f.millis), ?_, rfl⟩⟩⟩⟩
    have hseconds := hholds.seconds
    have hmillis := hholds.millis
    cases hw : w.seconds with
    | none =>
      rw [hw, Option.elim_none] at hseconds hmillis
      rw [Option.elim_none, ← show (0 : Int64) = f.seconds from Int64.toInt_inj.1 hseconds.symm,
        ← show (0 : Int64) = f.millis from Int64.toInt_inj.1 hmillis.symm]
      rfl
    | some s =>
      rw [hw, Option.elim_some] at hseconds hmillis
      exact SpelledSeconds.words_eq_ok.2 ⟨hruns.seconds s hw, hseconds, hmillis⟩

theorem avoids_wordFields (w : Spelling) : Avoids (· = .overflow) w.wordFields := by
  have helim {read : List Char → Except WordFault Int64}
      (hread : ∀ run, Avoids (· = .overflow) (read run)) (o : Option (List Char)) :
      Avoids (· = .overflow) (o.elim (pure 0) read) := by
    cases o with
    | none => exact avoids_ok _
    | some run => exact hread run
  unfold Spelling.wordFields
  refine (helim avoids_digitsWord w.days).bind fun days _ => ?_
  refine (avoids_digitsWord w.hours).bind fun hours _ => ?_
  refine (avoids_digitsWord w.minutes).bind fun minutes _ => ?_
  refine Avoids.bind ?_ fun _ _ => avoids_ok _
  cases w.seconds with
  | none => exact avoids_ok _
  | some s =>
    exact (avoids_digitsWord s.whole).bind fun seconds _ =>
      (helim avoids_fractionWord s.fraction).bind fun _ _ => avoids_ok _

/-! ### The total -/

/-- Where nothing is negative, a sum that leaves the range has left it for good. -/
theorem word_bind_add {x y : Int} (hx : 0 ≤ x) (hy : 0 ≤ y) :
    (word .refused x >>= fun total => word .refused (total.toInt + y)) =
      word .refused (x + y) := by
  have hmin := Int64.toInt_minValue
  by_cases hrange : Int64.minValue.toInt ≤ x ∧ x ≤ Int64.maxValue.toInt
  · obtain ⟨a, ha⟩ : ∃ a, word .refused x = .ok a := ⟨_, if_pos hrange⟩
    rw [ha, ok_bind, word_eq_ok.1 ha]
  · have hsum : ¬(Int64.minValue.toInt ≤ x + y ∧ x + y ≤ Int64.maxValue.toInt) := by omega
    unfold word
    rw [if_neg hrange, if_neg hsum]
    rfl

/-- Up to sixty units of an hour at most fit, so only the sum can leave the range. -/
theorem plusTimes_eq (total : Int64) {count : Int64} {unit : Nat} (h0 : 0 ≤ count.toInt)
    (h60 : count.toInt < 60) (hunit : unit ≤ hour) :
    plusTimes total count unit = word .refused (total.toInt + count.toInt * unit) := by
  have hmax := Int64.toInt_maxValue
  have hhour : hour = 3600000 := rfl
  obtain ⟨n, hn⟩ := Int.eq_ofNat_of_zero_le h0
  have hproduct : n * unit ≤ 60 * hour := Nat.mul_le_mul (by omega) hunit
  obtain ⟨part, hpart⟩ := exists_word (n := n * unit) (by omega)
  rw [Nat.cast_mul, ← hn] at hpart
  unfold plusTimes
  rw [word_eq_ok.2 hpart, ok_bind, hpart]

/-- The parts of a span, none of them negative and hours, minutes and seconds as on a clock. -/
structure WordFields.OnClock (f : WordFields) : Prop where
  days : 0 ≤ f.days.toInt
  hours : 0 ≤ f.hours.toInt ∧ f.hours.toInt < 24
  minutes : 0 ≤ f.minutes.toInt ∧ f.minutes.toInt < 60
  seconds : 0 ≤ f.seconds.toInt ∧ f.seconds.toInt < 60
  millis : 0 ≤ f.millis.toInt

/-- The parts are added up exactly, as far as the sum fits. -/
theorem WordFields.OnClock.total_eq {f : WordFields} (hf : f.OnClock) :
    f.total = word .refused (f.days.toInt * day + f.hours.toInt * hour +
      f.minutes.toInt * minute + f.seconds.toInt * second + f.millis.toInt) := by
  obtain ⟨hd, ⟨hh0, hh⟩, ⟨hm0, hm⟩, ⟨hs0, hs⟩, hf0⟩ := hf
  have hhours (total : Int64) := plusTimes_eq total hh0 (by omega) (Nat.le_refl hour)
  have hminutes (total : Int64) := plusTimes_eq total hm0 hm (show minute ≤ hour by decide)
  have hseconds (total : Int64) := plusTimes_eq total hs0 hs (show second ≤ hour by decide)
  have hday : 0 ≤ f.days.toInt * day := mul_nonneg hd (Int.natCast_nonneg _)
  have hhour : 0 ≤ f.hours.toInt * hour := mul_nonneg hh0 (Int.natCast_nonneg _)
  have hminute : 0 ≤ f.minutes.toInt * minute := mul_nonneg hm0 (Int.natCast_nonneg _)
  have hsecond : 0 ≤ f.seconds.toInt * second := mul_nonneg hs0 (Int.natCast_nonneg _)
  unfold WordFields.total
  simp only [hhours, hminutes, hseconds]
  rw [← bind_assoc, word_bind_add hday hhour, ← bind_assoc,
    word_bind_add (add_nonneg hday hhour) hminute, ← bind_assoc,
    word_bind_add (add_nonneg (add_nonneg hday hhour) hminute) hsecond,
    word_bind_add (add_nonneg (add_nonneg (add_nonneg hday hhour) hminute) hsecond) hf0]

/-! ### Texts cut into parts -/

theorem SpelledSeconds.chars_of (cs : List Char) : (SpelledSeconds.of cs).chars = cs := by
  unfold SpelledSeconds.of
  by_cases hpoint : '.' ∈ cs
  · obtain ⟨whole, fraction, rfl, hwhole⟩ := List.eq_append_cons_of_mem hpoint
    rw [cutAtPoint?_append_cons hwhole]
    rfl
  · rw [cutAtPoint?_of_notMem hpoint]
    exact List.append_nil cs

theorem SpelledSeconds.IsProper.of_chars {s : SpelledSeconds} (hs : s.IsProper) :
    SpelledSeconds.of s.chars = s := by
  obtain ⟨whole, fraction⟩ := s
  have hpoint : '.' ∉ whole := hs.whole.notMem (by decide)
  unfold SpelledSeconds.of SpelledSeconds.chars
  cases fraction with
  | none =>
    rw [Option.elim_none, List.append_nil, cutAtPoint?_of_notMem hpoint]
  | some run =>
    rw [Option.elim_some, cutAtPoint?_append_cons hpoint]

section OfParts

variable (negative : Bool) (front minutes : List Char) (seconds : Option SpelledSeconds)

@[simp] theorem Spelling.ofParts_negative :
    (Spelling.ofParts negative front minutes seconds).negative = negative := by
  unfold Spelling.ofParts
  split <;> rfl

@[simp] theorem Spelling.ofParts_minutes :
    (Spelling.ofParts negative front minutes seconds).minutes = minutes := by
  unfold Spelling.ofParts
  split <;> rfl

@[simp] theorem Spelling.ofParts_seconds :
    (Spelling.ofParts negative front minutes seconds).seconds = seconds := by
  unfold Spelling.ofParts
  split <;> rfl

@[simp] theorem Spelling.ofParts_front :
    (Spelling.ofParts negative front minutes seconds).front = front := by
  unfold Spelling.ofParts
  by_cases hpoint : '.' ∈ front
  · obtain ⟨days, hours, rfl, hdays⟩ := List.eq_append_cons_of_mem hpoint
    rw [cutAtPoint?_append_cons hdays]
    exact List.append_assoc days ['.'] hours
  · rw [cutAtPoint?_of_notMem hpoint]
    rfl

end OfParts

theorem Spelling.IsProper.ofParts_front {w : Spelling} (hw : w.IsProper) :
    Spelling.ofParts w.negative w.front w.minutes w.seconds = w := by
  obtain ⟨negative, days, hours, minutes, seconds⟩ := w
  unfold Spelling.ofParts Spelling.front
  cases days with
  | none =>
    rw [Option.elim_none, List.nil_append, cutAtPoint?_of_notMem (hw.hours.notMem (by decide))]
  | some run =>
    rw [Option.elim_some, List.append_assoc, List.singleton_append,
      cutAtPoint?_append_cons ((hw.days run rfl).notMem (by decide))]

theorem Spelling.of_ofBody? {negative : Bool} {body : List Char} {w : Spelling}
    (h : Spelling.ofBody? negative body = some w) : w.negative = negative ∧ w.body = body := by
  have hjoin := Text.joinWith_splitOn ':' body
  unfold Spelling.ofBody? at h
  split at h
  · next front minutes hsplit =>
    rw [hsplit, Text.joinWith_cons_cons, Text.joinWith_singleton] at hjoin
    rw [← Option.some.inj h, ← hjoin]
    simp [Spelling.body]
  · next front minutes s hsplit =>
    rw [hsplit, Text.joinWith_cons_cons, Text.joinWith_cons_cons, Text.joinWith_singleton] at hjoin
    rw [← Option.some.inj h, ← hjoin]
    simp [Spelling.body, SpelledSeconds.chars_of]
  · cases h

theorem Spelling.IsProper.ofBody?_body {w : Spelling} (hw : w.IsProper) :
    Spelling.ofBody? w.negative w.body = some w := by
  have hparts := hw.ofParts_front
  unfold Spelling.ofBody?
  cases hseconds : w.seconds with
  | none =>
    rw [hseconds] at hparts
    rw [hw.splitOn_body_pair hseconds]
    exact congrArg some hparts
  | some s =>
    rw [hseconds] at hparts
    rw [hw.splitOn_body_triple hseconds]
    dsimp only
    rw [(hw.seconds s hseconds).of_chars, hparts]

theorem Spelling.chars_of? {cs : List Char} {w : Spelling} (h : Spelling.of? cs = some w) :
    w.chars = cs := by
  unfold Spelling.of? at h
  unfold Spelling.chars
  split at h
  · obtain ⟨hsign, rfl⟩ := Spelling.of_ofBody? h
    rw [hsign, if_pos rfl]
  · obtain ⟨hsign, rfl⟩ := Spelling.of_ofBody? h
    rw [hsign, if_neg Bool.false_ne_true]

theorem Spelling.IsProper.of?_chars {w : Spelling} (hw : w.IsProper) :
    Spelling.of? w.chars = some w := by
  have hbody := hw.ofBody?_body
  unfold Spelling.of? Spelling.chars
  cases hsign : w.negative with
  | true =>
    rw [hsign] at hbody
    exact hbody
  | false =>
    rw [hsign] at hbody
    obtain ⟨c, cs, hcons, hne⟩ := hw.exists_body_cons
    rw [if_neg Bool.false_ne_true]
    split
    · next rest heq =>
      rw [hcons] at heq
      exact absurd (List.cons.inj heq).1 hne
    · exact hbody

/-! ### Spans -/

theorem WordFields.exceeds_iff (f : WordFields) :
    (24 ≤ f.hours ∨ 60 ≤ f.minutes ∨ 60 ≤ f.seconds) ↔
      24 ≤ f.hours.toInt ∨ 60 ≤ f.minutes.toInt ∨ 60 ≤ f.seconds.toInt := by
  rw [Int64.le_iff_toInt_le, Int64.le_iff_toInt_le, Int64.le_iff_toInt_le]
  exact Iff.rfl

/-- The test of the words is the test of the numbers that they hold. -/
theorem WordFields.Holds.isProper_iff {f : WordFields} {w : Spelling} (hf : f.Holds w) :
    w.IsProper ↔ w.HasRuns ∧ ¬(24 ≤ f.hours ∨ 60 ≤ f.minutes ∨ 60 ≤ f.seconds) := by
  have hhours := hf.hours
  have hminutes := hf.minutes
  have hseconds := hf.seconds
  rw [WordFields.exceeds_iff]
  constructor
  · intro hw
    have hhours_lt := hw.hours_lt
    have hminutes_lt := hw.minutes_lt
    refine ⟨⟨hw.days, hw.hours, hw.minutes, fun s hs => ⟨(hw.seconds s hs).whole,
      (hw.seconds s hs).fraction⟩⟩, ?_⟩
    cases hs : w.seconds with
    | none =>
      rw [hs, Option.elim_none] at hseconds
      omega
    | some s =>
      have hseconds_lt := (hw.seconds s hs).whole_lt
      rw [hs, Option.elim_some] at hseconds
      omega
  · rintro ⟨hruns, hclock⟩
    refine ⟨hruns.days, hruns.hours, hruns.minutes, fun s hs => ?_, by omega, by omega⟩
    rw [hs, Option.elim_some] at hseconds
    exact ⟨(hruns.seconds s hs).1, (hruns.seconds s hs).2, by omega⟩

theorem WordFields.Holds.onClock {f : WordFields} {w : Spelling} (hf : f.Holds w)
    (hclock : ¬(24 ≤ f.hours ∨ 60 ≤ f.minutes ∨ 60 ≤ f.seconds)) : f.OnClock := by
  rw [WordFields.exceeds_iff] at hclock
  obtain ⟨hdays, hhours, hminutes, hseconds, hmillis⟩ := hf
  exact ⟨by omega, by omega, by omega, by omega, by omega⟩

/-- The words add up to the length of the span. -/
theorem WordFields.Holds.total_eq {f : WordFields} {w : Spelling} (hf : f.Holds w)
    (hclock : ¬(24 ≤ f.hours ∨ 60 ≤ f.minutes ∨ 60 ≤ f.seconds)) :
    f.total = word .refused w.milliseconds := by
  have hlength : (w.milliseconds : Int) = f.days.toInt * day + f.hours.toInt * hour +
      f.minutes.toInt * minute + f.seconds.toInt * second + f.millis.toInt := by
    rw [hf.days, hf.hours, hf.minutes, hf.seconds, hf.millis, Spelling.milliseconds]
    cases w.seconds with
    | none => simp
    | some s =>
      rw [Option.elim_some, Option.elim_some, Option.elim_some, SpelledSeconds.milliseconds]
      push_cast
      ring
  rw [(hf.onClock hclock).total_eq, hlength]

/-- Every part of a span that fits is a word. -/
theorem Spelling.exists_holds {w : Spelling} (h : (w.milliseconds : Int) ≤ Int64.maxValue.toInt) :
    ∃ f : WordFields, f.Holds w := by
  have hparts : w.days.elim 0 valueOf ≤ w.milliseconds ∧ valueOf w.hours ≤ w.milliseconds ∧
      valueOf w.minutes ≤ w.milliseconds ∧
      (w.seconds.elim 0 fun s => valueOf s.whole) ≤ w.milliseconds ∧
      (w.seconds.elim 0 fun s => s.fraction.elim 0 thousandths) ≤ w.milliseconds := by
    unfold Spelling.milliseconds day hour minute second
    cases w.seconds with
    | none =>
      simp only [Option.elim_none]
      omega
    | some s =>
      rw [Option.elim_some, Option.elim_some, Option.elim_some, SpelledSeconds.milliseconds, second]
      omega
  obtain ⟨hd, hh, hm, hs, hf⟩ := hparts
  obtain ⟨days, hdays⟩ := exists_word ((Int.ofNat_le.2 hd).trans h)
  obtain ⟨hours, hhours⟩ := exists_word ((Int.ofNat_le.2 hh).trans h)
  obtain ⟨minutes, hminutes⟩ := exists_word ((Int.ofNat_le.2 hm).trans h)
  obtain ⟨seconds, hseconds⟩ := exists_word ((Int.ofNat_le.2 hs).trans h)
  obtain ⟨millis, hmillis⟩ := exists_word ((Int.ofNat_le.2 hf).trans h)
  exact ⟨⟨days, hours, minutes, seconds, millis⟩, hdays, hhours, hminutes, hseconds, hmillis⟩

/-- Words read what numbers of any size read. -/
theorem wordOfText_eq_ok {cs : List Char} {ms : Int64} :
    wordOfText cs = .ok ms ↔ ofText? cs = some ms := by
  rw [ofText?_eq_some_iff]
  unfold wordOfText
  constructor
  · intro h
    split at h
    · cases h
    next w hw =>
    -- the spelling is proper, and its number fits a word
    obtain ⟨f, hfields, h⟩ := bind_eq_ok.1 h
    obtain ⟨hruns, hf⟩ := Spelling.wordFields_eq_ok.1 hfields
    split at h
    · cases h
    next hclock =>
    obtain ⟨total, htotal, h⟩ := bind_eq_ok.1 h
    rw [hf.total_eq hclock, word_eq_ok] at htotal
    refine ⟨w, hf.isProper_iff.2 ⟨hruns, hclock⟩, Spelling.chars_of? hw,
      htotal ▸ Int64.le_iff_toInt_le.1 total.le_maxValue, ?_⟩
    rw [Spelling.signed, ← htotal]
    split_ifs at h ⊢
    · exact word_eq_ok.1 h
    · rw [Except.ok.inj h]
  · rintro ⟨w, hw, rfl, hle, hms⟩
    -- the number fits, so the words hold the fields
    obtain ⟨f, hf⟩ := Spelling.exists_holds hle
    obtain ⟨hruns, hclock⟩ := hf.isProper_iff.1 hw
    obtain ⟨total, htotal⟩ := exists_word hle
    rw [hw.of?_chars]
    refine bind_eq_ok.2 ⟨f, Spelling.wordFields_eq_ok.2 ⟨hruns, hf⟩, ?_⟩
    rw [if_neg hclock, hf.total_eq hclock]
    refine bind_eq_ok.2 ⟨total, word_eq_ok.2 htotal, ?_⟩
    unfold Spelling.signed at hms
    split_ifs at hms ⊢
    · exact word_eq_ok.2 (by rw [hms, htotal])
    · exact congrArg _ (Int64.toInt_inj.1 (htotal.trans hms.symm))

/-- No step takes its result out of range without noticing. -/
theorem avoids_wordOfText (cs : List Char) : Avoids (· = .overflow) (wordOfText cs) := by
  unfold wordOfText
  split
  · exact avoids_error (by decide)
  next w hw =>
  refine (avoids_wordFields w).bind fun f hfields => ?_
  obtain ⟨hruns, hf⟩ := Spelling.wordFields_eq_ok.1 hfields
  split_ifs with hclock hsign
  · exact avoids_error (by decide)
  · rw [hf.total_eq hclock]
    refine (avoids_word_refused _).bind fun total htotal => avoids_word ?_
    have hvalue := word_eq_ok.1 htotal
    have hlt := total.toInt_lt
    have hmin := Int64.toInt_minValue
    have hmax := Int64.toInt_maxValue
    omega
  · rw [hf.total_eq hclock]
    exact (avoids_word_refused _).bind fun total _ => avoids_ok total

/-- **Words are wide enough.**  In words a span is read, or refused, as in numbers of any size. -/
theorem wordOfText_eq (cs : List Char) :
    wordOfText cs = (ofText? cs).elim (.error .refused) .ok := by
  cases hread : ofText? cs with
  | some ms => exact wordOfText_eq_ok.2 hread
  | none =>
    cases hword : wordOfText cs with
    | ok ms =>
      rw [wordOfText_eq_ok.1 hword] at hread
      cases hread
    | error e =>
      cases e with
      | refused => rfl
      | overflow => exact absurd rfl (avoids_wordOfText cs .overflow hword)

/-- **Spans are read exactly.**  A text is read as `ms` exactly if it spells `[-][d.]h:m[:s[.f]]` with
runs of digits, hours, minutes and seconds as on a clock, and a length of at most the greatest word,
and then `ms` is the length with the sign; in words the same is read without an overflow.  The text of
a span is read back unless it is that of the least one, which no text is read as. -/
theorem ofText?_exact :
    (∀ (cs : List Char) (ms : Int64), ofText? cs = some ms ↔
      ∃ w : Spelling, w.IsProper ∧ w.chars = cs ∧
        (w.milliseconds : Int) ≤ Int64.maxValue.toInt ∧ ms.toInt = w.signed) ∧
    (∀ cs : List Char, wordOfText cs = (ofText? cs).elim (.error .refused) .ok) ∧
    (∀ ms : Int64, ofText? (text ms).toList = if ms = Int64.minValue then none else some ms) ∧
    ∀ cs : List Char, ofText? cs ≠ some Int64.minValue :=
  ⟨fun _ _ => ofText?_eq_some_iff, wordOfText_eq, ofText?_text, ofText?_ne_minValue⟩

example : ofText? "-1.02:03:04.56789".toList = some (-93784567) := by decide

end RecordTables.Duration
