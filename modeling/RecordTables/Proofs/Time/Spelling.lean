import Mathlib
import RecordTables.Proofs.Text.Pieces
import RecordTables.Proofs.Time.Duration

/-!
# How spans of time are spelled

A span is spelled `[-][d.]h:m[:s[.f]]` with runs of digits (`Duration.Spelling`), where hours, minutes
and seconds are less than a day, an hour and a minute (`Spelling.IsProper`).  What is spelled so has a
length in milliseconds, however large, to which the first three digits of the fraction count.

`Duration.ofText?` reads these spellings and no other text, each as its length with its sign, as long
as the length fits (`ofText?_eq_some_iff`).  The least span has a length that does not, so no text is
read as it (`ofText?_ne_minValue`).
-/

namespace RecordTables.Duration

open Number

/-! ### Runs of digits -/

/-- Digits, one at least. -/
def IsRun (cs : List Char) : Prop := cs ≠ [] ∧ ∀ c ∈ cs, c.isDigit = true

/-- The number that a run of digits stands for. -/
def valueOf (run : List Char) : Nat := Nat.ofDigitChars 10 run 0

theorem natOfDigits?_eq_some_iff {cs : List Char} {n : Nat} :
    natOfDigits? cs = some n ↔ IsRun cs ∧ valueOf cs = n := by
  constructor
  · intro h
    have hrun : IsRun cs := by
      unfold natOfDigits? at h
      split_ifs at h with hbad
      rw [Bool.or_eq_true, not_or, List.isEmpty_iff, Bool.not_eq_true', Bool.not_eq_false,
        List.all_eq_true] at hbad
      exact hbad
    rw [natOfDigits?_eq_some hrun.1 hrun.2] at h
    exact ⟨hrun, Option.some.inj h⟩
  · rintro ⟨hrun, rfl⟩
    exact natOfDigits?_eq_some hrun.1 hrun.2

theorem IsRun.notMem {cs : List Char} (h : IsRun cs) {mark : Char}
    (hmark : mark.isDigit = false) : mark ∉ cs :=
  notMem_of_forall_isDigit h.2 hmark

/-! ### Spellings -/

/-- The milliseconds that the digits behind the point of the seconds stand for: the first three
digits count, and missing ones are zeros. -/
def thousandths (run : List Char) : Nat := valueOf (run.take 3) * 10 ^ (3 - run.length)

/-- The seconds of a span as they are written, with the digits of their fraction. -/
structure SpelledSeconds where
  whole : List Char
  fraction : Option (List Char)

/-- The parts of a span as it is written: `[-][d.]h:m[:s[.f]]`. -/
structure Spelling where
  negative : Bool
  days : Option (List Char)
  hours : List Char
  minutes : List Char
  seconds : Option SpelledSeconds

namespace SpelledSeconds

/-- The seconds with their fraction. -/
def chars (s : SpelledSeconds) : List Char := s.whole ++ s.fraction.elim [] fun f => '.' :: f

/-- The seconds in milliseconds. -/
def milliseconds (s : SpelledSeconds) : Nat :=
  valueOf s.whole * second + s.fraction.elim 0 thousandths

/-- Digits everywhere, and less than a minute. -/
structure IsProper (s : SpelledSeconds) : Prop where
  whole : IsRun s.whole
  fraction : ∀ f ∈ s.fraction, IsRun f
  whole_lt : valueOf s.whole < 60

end SpelledSeconds

namespace Spelling

/-- The days and the hours. -/
def front (w : Spelling) : List Char := (w.days.elim [] fun d => d ++ ['.']) ++ w.hours

/-- The span without its sign. -/
def body (w : Spelling) : List Char :=
  w.front ++ ':' :: (w.minutes ++ w.seconds.elim [] fun s => ':' :: s.chars)

/-- The text of the span. -/
def chars (w : Spelling) : List Char := if w.negative then '-' :: w.body else w.body

/-- The length of the span in milliseconds, in no bounded range. -/
def milliseconds (w : Spelling) : Nat :=
  w.days.elim 0 valueOf * day + valueOf w.hours * hour + valueOf w.minutes * minute +
    w.seconds.elim 0 SpelledSeconds.milliseconds

/-- The span in milliseconds with its sign. -/
def signed (w : Spelling) : Int := if w.negative then -(w.milliseconds : Int) else w.milliseconds

/-- Digits everywhere, the hours less than a day, the minutes less than an hour, the seconds less than
a minute. -/
structure IsProper (w : Spelling) : Prop where
  days : ∀ d ∈ w.days, IsRun d
  hours : IsRun w.hours
  minutes : IsRun w.minutes
  seconds : ∀ s ∈ w.seconds, s.IsProper
  hours_lt : valueOf w.hours < 24
  minutes_lt : valueOf w.minutes < 60

end Spelling

/-! ### Reading the parts -/

theorem isRun_take_append_zeros {cs : List Char} (h : IsRun cs) :
    IsRun ((cs ++ ['0', '0']).take 3) := by
  refine ⟨fun hnil => ?_, fun c hc => ?_⟩
  · have hlength := congrArg List.length hnil
    rw [List.length_take, List.length_append, List.length_nil] at hlength
    have hpos := List.length_pos_of_ne_nil h.1
    simp only [List.length_cons, List.length_nil] at hlength
    omega
  · rcases List.mem_append.1 (List.mem_of_mem_take hc) with hc | hc
    · exact h.2 c hc
    · rcases List.mem_pair.1 hc with rfl | rfl <;> rfl

theorem valueOf_take_append_zeros {cs : List Char} (h : IsRun cs) :
    valueOf ((cs ++ ['0', '0']).take 3) = thousandths cs := by
  unfold thousandths valueOf
  obtain ⟨c, rest, rfl⟩ := List.exists_cons_of_ne_nil h.1
  match rest with
  | [] => simp [Nat.ofDigitChars_cons]; omega
  | [b] => simp [Nat.ofDigitChars_cons]; omega
  | b :: a :: more => simp [Nat.ofDigitChars_cons]

theorem isRun_iff {cs : List Char} :
    (cs.isEmpty || !cs.all Char.isDigit) = false ↔ IsRun cs := by
  unfold IsRun
  rw [Bool.or_eq_false_iff, List.isEmpty_eq_false_iff, Bool.not_eq_false', List.all_eq_true]

theorem fraction?_eq_some_iff {cs : List Char} {n : Nat} :
    fraction? cs = some n ↔ IsRun cs ∧ thousandths cs = n := by
  unfold fraction?
  by_cases hrun : IsRun cs
  · rw [isRun_iff.2 hrun, if_neg Bool.false_ne_true, natOfDigits?_eq_some_iff,
      valueOf_take_append_zeros hrun]
    exact and_congr_left' (iff_of_true (isRun_take_append_zeros hrun) hrun)
  · rw [if_pos (Bool.of_not_eq_false (mt isRun_iff.1 hrun))]
    exact iff_of_false (fun h => nomatch h) fun h => hrun h.1

theorem minutes?_eq_some_iff {cs : List Char} {n : Nat} :
    minutes? cs = some n ↔ IsRun cs ∧ valueOf cs < 60 ∧ valueOf cs = n := by
  unfold minutes?
  rw [Option.filter_eq_some_iff, natOfDigits?_eq_some_iff, decide_eq_true_eq]
  constructor
  · rintro ⟨⟨hrun, rfl⟩, hlt⟩
    exact ⟨hrun, hlt, rfl⟩
  · rintro ⟨hrun, hlt, rfl⟩
    exact ⟨⟨hrun, rfl⟩, hlt⟩

theorem daysAndHours?_of_notMem {cs : List Char} (h : '.' ∉ cs) :
    daysAndHours? cs = (natOfDigits? cs).bind fun hours =>
      if hours < 24 then some (0, hours) else none := by
  unfold daysAndHours?
  rw [cutAtPoint?_of_notMem h]
  simp

theorem daysAndHours?_append_cons {front : List Char} (h : '.' ∉ front) (back : List Char) :
    daysAndHours? (front ++ '.' :: back) = (natOfDigits? front).bind fun days =>
      (natOfDigits? back).bind fun hours => if hours < 24 then some (days, hours) else none := by
  unfold daysAndHours?
  rw [cutAtPoint?_append_cons h]
  simp

/-- **Days and hours** are read from their spelling only. -/
theorem daysAndHours?_eq_some_iff {cs : List Char} {d h : Nat} :
    daysAndHours? cs = some (d, h) ↔ ∃ (days : Option (List Char)) (hours : List Char),
      (days.elim [] fun run => run ++ ['.']) ++ hours = cs ∧ (∀ run ∈ days, IsRun run) ∧
        IsRun hours ∧ valueOf hours < 24 ∧ days.elim 0 valueOf = d ∧ valueOf hours = h := by
  constructor
  · intro hread
    by_cases hpoint : '.' ∈ cs
    -- what is in front of the point is the days
    · obtain ⟨days, hours, rfl, hdays⟩ := List.eq_append_cons_of_mem hpoint
      rw [daysAndHours?_append_cons hdays] at hread
      obtain ⟨d', hd, hread⟩ := Option.bind_eq_some_iff.1 hread
      obtain ⟨h', hh, hread⟩ := Option.bind_eq_some_iff.1 hread
      split_ifs at hread with hlt
      obtain ⟨rfl, rfl⟩ := Prod.mk.inj (Option.some.inj hread)
      obtain ⟨hdays, rfl⟩ := natOfDigits?_eq_some_iff.1 hd
      obtain ⟨hhours, rfl⟩ := natOfDigits?_eq_some_iff.1 hh
      exact ⟨some days, hours, List.append_assoc _ _ _,
        fun run hrun => Option.some.inj hrun ▸ hdays, hhours, hlt, rfl, rfl⟩
    · rw [daysAndHours?_of_notMem hpoint] at hread
      obtain ⟨h', hh, hread⟩ := Option.bind_eq_some_iff.1 hread
      split_ifs at hread with hlt
      obtain ⟨rfl, rfl⟩ := Prod.mk.inj (Option.some.inj hread)
      obtain ⟨hhours, rfl⟩ := natOfDigits?_eq_some_iff.1 hh
      exact ⟨none, cs, rfl, fun _ h => (nomatch h), hhours, hlt, rfl, rfl⟩
  · rintro ⟨days, hours, rfl, hdays, hhours, hlt, rfl, rfl⟩
    have hh := natOfDigits?_eq_some_iff.2 ⟨hhours, rfl⟩
    cases days with
    | none =>
      rw [Option.elim_none, List.nil_append, daysAndHours?_of_notMem (hhours.notMem (by decide)), hh,
        Option.bind_some, if_pos hlt, Option.elim_none]
    | some run =>
      have hrun := hdays run rfl
      have hd := natOfDigits?_eq_some_iff.2 ⟨hrun, rfl⟩
      rw [Option.elim_some, List.append_assoc, List.singleton_append,
        daysAndHours?_append_cons (hrun.notMem (by decide)), hd, hh, Option.bind_some,
        Option.bind_some, if_pos hlt, Option.elim_some]

theorem seconds?_of_notMem {cs : List Char} (h : '.' ∉ cs) :
    seconds? cs = (natOfDigits? cs).bind fun whole =>
      if whole < 60 then some (whole * second) else none := by
  unfold seconds?
  rw [cutAtPoint?_of_notMem h]
  simp

theorem seconds?_append_cons {front : List Char} (h : '.' ∉ front) (back : List Char) :
    seconds? (front ++ '.' :: back) = (natOfDigits? front).bind fun whole =>
      (fraction? back).bind fun millis =>
        if whole < 60 then some (whole * second + millis) else none := by
  unfold seconds?
  rw [cutAtPoint?_append_cons h]
  simp

/-- **Seconds** are read from their spelling only. -/
theorem seconds?_eq_some_iff {cs : List Char} {n : Nat} :
    seconds? cs = some n ↔
      ∃ s : SpelledSeconds, s.chars = cs ∧ s.IsProper ∧ s.milliseconds = n := by
  constructor
  · intro hread
    by_cases hpoint : '.' ∈ cs
    -- what is behind the point is the fraction
    · obtain ⟨whole, fraction, rfl, hwhole⟩ := List.eq_append_cons_of_mem hpoint
      rw [seconds?_append_cons hwhole] at hread
      obtain ⟨s', hs, hread⟩ := Option.bind_eq_some_iff.1 hread
      obtain ⟨f', hf, hread⟩ := Option.bind_eq_some_iff.1 hread
      split_ifs at hread with hlt
      obtain ⟨hwhole, rfl⟩ := natOfDigits?_eq_some_iff.1 hs
      obtain ⟨hfraction, rfl⟩ := fraction?_eq_some_iff.1 hf
      exact ⟨⟨whole, some fraction⟩, rfl,
        ⟨hwhole, fun run hrun => Option.some.inj hrun ▸ hfraction, hlt⟩, Option.some.inj hread⟩
    · rw [seconds?_of_notMem hpoint] at hread
      obtain ⟨s', hs, hread⟩ := Option.bind_eq_some_iff.1 hread
      split_ifs at hread with hlt
      obtain ⟨hwhole, rfl⟩ := natOfDigits?_eq_some_iff.1 hs
      exact ⟨⟨cs, none⟩, List.append_nil _, ⟨hwhole, fun _ h => (nomatch h), hlt⟩,
        (Nat.add_zero _).trans (Option.some.inj hread)⟩
  · rintro ⟨⟨whole, fraction⟩, rfl, ⟨hwhole, hfraction, hlt⟩, rfl⟩
    dsimp only at hwhole hfraction hlt
    have hs := natOfDigits?_eq_some_iff.2 ⟨hwhole, rfl⟩
    unfold SpelledSeconds.chars SpelledSeconds.milliseconds
    cases fraction with
    | none =>
      rw [Option.elim_none, List.append_nil, seconds?_of_notMem (hwhole.notMem (by decide)), hs,
        Option.bind_some, if_pos hlt, Option.elim_none, Nat.add_zero]
    | some run =>
      have hf := fraction?_eq_some_iff.2 ⟨hfraction run rfl, rfl⟩
      rw [Option.elim_some, seconds?_append_cons (hwhole.notMem (by decide)), hs, hf,
        Option.bind_some, Option.bind_some, if_pos hlt, Option.elim_some]

/-! ### Reading spans -/

theorem magnitude?_of_splitOn_pair {cs front m : List Char}
    (h : Text.splitOn ':' cs = [front, m]) :
    magnitude? cs = (daysAndHours? front).bind fun dh => (minutes? m).bind fun minutes =>
      some (dh.1 * day + dh.2 * hour + minutes * minute + 0) := by
  unfold magnitude?
  rw [h]
  rfl

theorem magnitude?_of_splitOn_triple {cs front m s : List Char}
    (h : Text.splitOn ':' cs = [front, m, s]) :
    magnitude? cs = (seconds? s).bind fun rest => (daysAndHours? front).bind fun dh =>
      (minutes? m).bind fun minutes =>
        some (dh.1 * day + dh.2 * hour + minutes * minute + rest) := by
  unfold magnitude?
  rw [h]
  simp [Option.bind_map]

/-- A text that is read has two parts or three. -/
theorem splitOn_of_magnitude? {cs : List Char} {n : Nat} (h : magnitude? cs = some n) :
    (∃ front m, Text.splitOn ':' cs = [front, m]) ∨
      ∃ front m s, Text.splitOn ':' cs = [front, m, s] := by
  unfold magnitude? at h
  split at h
  · next front m hsplit => exact Or.inl ⟨front, m, hsplit⟩
  · next front m s hsplit => exact Or.inr ⟨front, m, s, hsplit⟩
  · cases h

theorem Spelling.IsProper.daysAndHours?_front {w : Spelling} (hw : w.IsProper) :
    daysAndHours? w.front = some (w.days.elim 0 valueOf, valueOf w.hours) :=
  daysAndHours?_eq_some_iff.2
    ⟨w.days, w.hours, rfl, hw.days, hw.hours, hw.hours_lt, rfl, rfl⟩

theorem Spelling.IsProper.colon_notMem_front {w : Spelling} (hw : w.IsProper) :
    ':' ∉ w.front := by
  unfold Spelling.front
  rw [List.mem_append, not_or]
  refine ⟨?_, hw.hours.notMem (by decide)⟩
  cases hdays : w.days with
  | none => exact List.not_mem_nil
  | some run =>
    rw [Option.elim_some, List.mem_append, not_or]
    exact ⟨(hw.days run hdays).notMem (by decide), by decide⟩

theorem SpelledSeconds.IsProper.colon_notMem {s : SpelledSeconds} (hs : s.IsProper) :
    ':' ∉ s.chars := by
  unfold SpelledSeconds.chars
  rw [List.mem_append, not_or]
  refine ⟨hs.whole.notMem (by decide), ?_⟩
  cases hfraction : s.fraction with
  | none => exact List.not_mem_nil
  | some run =>
    rw [Option.elim_some, List.mem_cons, not_or]
    exact ⟨by decide, (hs.fraction run hfraction).notMem (by decide)⟩

theorem Spelling.IsProper.splitOn_body_pair {w : Spelling} (hw : w.IsProper)
    (h : w.seconds = none) : Text.splitOn ':' w.body = [w.front, w.minutes] := by
  rw [Spelling.body, h, Option.elim_none, List.append_nil,
    Text.splitOn_append_cons hw.colon_notMem_front,
    Text.splitOn_of_notMem (hw.minutes.notMem (by decide))]

theorem Spelling.IsProper.splitOn_body_triple {w : Spelling} (hw : w.IsProper)
    {s : SpelledSeconds} (h : w.seconds = some s) :
    Text.splitOn ':' w.body = [w.front, w.minutes, s.chars] := by
  rw [Spelling.body, h, Option.elim_some, Text.splitOn_append_cons hw.colon_notMem_front,
    Text.splitOn_append_cons (hw.minutes.notMem (by decide)),
    Text.splitOn_of_notMem (hw.seconds s h).colon_notMem]

/-- What is spelled properly is read. -/
theorem Spelling.IsProper.magnitude?_body {w : Spelling} (hw : w.IsProper) :
    magnitude? w.body = some w.milliseconds := by
  have hfront := hw.daysAndHours?_front
  have hminutes := minutes?_eq_some_iff.2 ⟨hw.minutes, hw.minutes_lt, rfl⟩
  unfold Spelling.milliseconds
  cases hseconds : w.seconds with
  | none =>
    rw [magnitude?_of_splitOn_pair (hw.splitOn_body_pair hseconds), hfront, hminutes]
    rfl
  | some s =>
    rw [magnitude?_of_splitOn_triple (hw.splitOn_body_triple hseconds),
      seconds?_eq_some_iff.2 ⟨s, rfl, hw.seconds s hseconds, rfl⟩, hfront, hminutes]
    rfl

/-- What is read is spelled properly. -/
theorem exists_spelling {cs : List Char} {n : Nat} (h : magnitude? cs = some n) :
    ∃ w : Spelling, w.IsProper ∧ w.body = cs ∧ w.milliseconds = n := by
  have hcs := Text.joinWith_splitOn ':' cs
  -- hours and minutes, or seconds behind them
  obtain ⟨front, m, hsplit⟩ | ⟨front, m, s, hsplit⟩ := splitOn_of_magnitude? h
  · rw [magnitude?_of_splitOn_pair hsplit] at h
    rw [hsplit, Text.joinWith_cons_cons, Text.joinWith_singleton] at hcs
    obtain ⟨⟨d, hrs⟩, hfront, h⟩ := Option.bind_eq_some_iff.1 h
    obtain ⟨mins, hminutes, h⟩ := Option.bind_eq_some_iff.1 h
    obtain ⟨days, hours, rfl, hdays, hhours, hhours_lt, rfl, rfl⟩ :=
      daysAndHours?_eq_some_iff.1 hfront
    obtain ⟨hm, hm_lt, rfl⟩ := minutes?_eq_some_iff.1 hminutes
    refine ⟨⟨false, days, hours, m, none⟩,
      ⟨hdays, hhours, hm, fun _ h => (nomatch h), hhours_lt, hm_lt⟩, ?_, Option.some.inj h⟩
    rw [← hcs, Spelling.body, Option.elim_none, List.append_nil, Spelling.front]
  · rw [magnitude?_of_splitOn_triple hsplit] at h
    rw [hsplit, Text.joinWith_cons_cons, Text.joinWith_cons_cons, Text.joinWith_singleton] at hcs
    obtain ⟨rest, hseconds, h⟩ := Option.bind_eq_some_iff.1 h
    obtain ⟨⟨d, hrs⟩, hfront, h⟩ := Option.bind_eq_some_iff.1 h
    obtain ⟨mins, hminutes, h⟩ := Option.bind_eq_some_iff.1 h
    obtain ⟨s, rfl, hs, rfl⟩ := seconds?_eq_some_iff.1 hseconds
    obtain ⟨days, hours, rfl, hdays, hhours, hhours_lt, rfl, rfl⟩ :=
      daysAndHours?_eq_some_iff.1 hfront
    obtain ⟨hm, hm_lt, rfl⟩ := minutes?_eq_some_iff.1 hminutes
    refine ⟨⟨false, days, hours, m, some s⟩,
      ⟨hdays, hhours, hm, fun _ h => Option.some.inj h ▸ hs, hhours_lt, hm_lt⟩, ?_,
      Option.some.inj h⟩
    rw [← hcs, Spelling.body, Option.elim_some, Spelling.front]

theorem Spelling.IsProper.exists_body_cons {w : Spelling} (hw : w.IsProper) :
    ∃ c cs, w.body = c :: cs ∧ c ≠ '-' := by
  have hdash {run : List Char} (hrun : IsRun run) : ∃ c cs, run = c :: cs ∧ c ≠ '-' := by
    obtain ⟨c, cs, rfl⟩ := List.exists_cons_of_ne_nil hrun.1
    have hnot : '-' ∉ c :: cs := hrun.notMem (by decide)
    exact ⟨c, cs, rfl, fun h => hnot (h ▸ List.mem_cons_self)⟩
  unfold Spelling.body Spelling.front
  cases hdays : w.days with
  | none =>
    obtain ⟨c, cs, h, hne⟩ := hdash hw.hours
    exact ⟨c, _, by rw [Option.elim_none, List.nil_append, h, List.cons_append], hne⟩
  | some run =>
    obtain ⟨c, cs, h, hne⟩ := hdash (hw.days run hdays)
    exact ⟨c, _, by rw [Option.elim_some, h]; rfl, hne⟩

/-- A span that is spelled properly is read as its length if the length fits. -/
theorem Spelling.IsProper.ofText?_chars {w : Spelling} (hw : w.IsProper) :
    ofText? w.chars =
      if w.milliseconds < 0x8000000000000000 then some (Int64.ofInt w.signed) else none := by
  unfold Spelling.chars Spelling.signed
  cases w.negative with
  | true =>
    rw [if_pos rfl, if_pos rfl, ofText?_cons_dash, hw.magnitude?_body, Option.bind_some]
  | false =>
    obtain ⟨c, cs, hbody, hne⟩ := hw.exists_body_cons
    have hread := hw.magnitude?_body
    rw [if_neg Bool.false_ne_true, if_neg Bool.false_ne_true]
    rw [hbody] at hread ⊢
    rw [ofText?_cons_of_ne hne, hread, Option.bind_some]

/-- Only what is spelled properly is read. -/
theorem exists_spelling_chars {cs : List Char} {ms : Int64} (h : ofText? cs = some ms) :
    ∃ w : Spelling, w.IsProper ∧ w.chars = cs := by
  have hsigned (negative : Bool) {w : Spelling} (hw : w.IsProper) :
      ({ w with negative } : Spelling).IsProper :=
    ⟨hw.days, hw.hours, hw.minutes, hw.seconds, hw.hours_lt, hw.minutes_lt⟩
  match cs with
  | [] => exact nomatch h
  | c :: rest =>
    by_cases hc : c = '-'
    · subst hc
      rw [ofText?_cons_dash] at h
      obtain ⟨n, hn, -⟩ := Option.bind_eq_some_iff.1 h
      obtain ⟨w, hw, rfl, -⟩ := exists_spelling hn
      exact ⟨{ w with negative := true }, hsigned true hw, rfl⟩
    · rw [ofText?_cons_of_ne hc] at h
      obtain ⟨n, hn, -⟩ := Option.bind_eq_some_iff.1 h
      obtain ⟨w, hw, hbody, -⟩ := exists_spelling hn
      exact ⟨{ w with negative := false }, hsigned false hw, hbody⟩

theorem Spelling.toInt_ofInt_signed {w : Spelling} (h : w.milliseconds < 0x8000000000000000) :
    (Int64.ofInt w.signed).toInt = w.signed := by
  unfold Spelling.signed
  split_ifs
  · exact Int64.toInt_ofInt_of_le (by omega) (by omega)
  · exact Int64.toInt_ofInt_of_le (by omega) (by omega)

/-- **Reading a span.**  A text is read as `ms` exactly if it spells a span properly whose length fits
the signed 64-bit range, and `ms` is the length with the sign. -/
theorem ofText?_eq_some_iff {cs : List Char} {ms : Int64} :
    ofText? cs = some ms ↔ ∃ w : Spelling, w.IsProper ∧ w.chars = cs ∧
      (w.milliseconds : Int) ≤ Int64.maxValue.toInt ∧ ms.toInt = w.signed := by
  have hmax := Int64.toInt_maxValue
  constructor
  · intro h
    obtain ⟨w, hw, rfl⟩ := exists_spelling_chars h
    rw [hw.ofText?_chars] at h
    by_cases hlt : w.milliseconds < 0x8000000000000000
    · rw [if_pos hlt] at h
      rw [← Option.some.inj h]
      exact ⟨w, hw, rfl, by omega, Spelling.toInt_ofInt_signed hlt⟩
    · rw [if_neg hlt] at h
      cases h
  · rintro ⟨w, hw, rfl, hle, hms⟩
    rw [hw.ofText?_chars, if_pos (by omega), ← hms, Int64.ofInt_toInt]

/-- No text is read as the least span. -/
theorem ofText?_ne_minValue (cs : List Char) : ofText? cs ≠ some Int64.minValue := by
  intro h
  obtain ⟨w, -, -, hle, hms⟩ := ofText?_eq_some_iff.1 h
  have hmin := Int64.toInt_minValue
  have hmax := Int64.toInt_maxValue
  unfold Spelling.signed at hms
  split_ifs at hms <;> omega

end RecordTables.Duration
