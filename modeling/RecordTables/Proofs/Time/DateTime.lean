import Mathlib
import RecordTables.Proofs.Number.Numeral
import RecordTables.Proofs.Time.Calendar
import RecordTables.Time.DateTime

/-!
# The text of an instant reads back

The text of an instant of a year of four digits is a timestamp with an offset, and is read back as
the instant (`ofText?_of_year`).  A year before zero or after 9999 is written with a sign in front.
No form reads such a text: a timestamp has four digits there, a date and a time of day have no letter
between them, and a date alone has no time of day behind it (`ofText?_of_year_of_sign`).  So an instant
is read back from its text exactly when its year has four digits (`ofText?_text?`).  These are the
instants from midnight of the first of January 0 to the last millisecond of 9999 (`readsBack_iff`).
-/

namespace RecordTables.DateTime

open Number

/-! ### Numbers of a fixed width -/

theorem fixed?_padded {width n : Nat} (hwidth : 0 < width) (h : n < 10 ^ width) (rest : List Char) :
    fixed? width ((padded width n).toList ++ rest) = some (n, rest) := by
  have hlength := length_padded hwidth h
  unfold fixed?
  rw [List.take_append_of_le_length hlength.ge, List.take_of_length_le hlength.le]
  dsimp only
  rw [if_pos hlength, natOfDigits?_padded, List.drop_append_of_le_length hlength.ge,
    List.drop_of_length_le hlength.le]
  rfl

theorem upTo?_fixed?_padded {limit width n : Nat} (hwidth : 0 < width) (h : n < 10 ^ width)
    (hlimit : n ≤ limit) (rest : List Char) :
    upTo? limit (fixed? width) ((padded width n).toList ++ rest) = some (n, rest) := by
  unfold upTo?
  rw [fixed?_padded hwidth h, Option.filter_some, if_pos (decide_eq_true hlimit)]

theorem mark?_cons (c : Char) (rest : List Char) : mark? c (c :: rest) = some rest := by
  unfold mark?
  exact if_pos rfl

/-- Digits in front, as far as another character. -/
theorem takeWhile_isDigit {cs : List Char} (h : ∀ c ∈ cs, c.isDigit = true) {mark : Char}
    (hmark : mark.isDigit = false) (rest : List Char) :
    (cs ++ mark :: rest).takeWhile Char.isDigit = cs := by
  rw [List.takeWhile_append_of_pos h, List.takeWhile_cons_of_neg (by rw [hmark]; simp),
    List.append_nil]

theorem fraction?_padded {n : Nat} (h : n < 1000) {mark : Char} (hmark : mark.isDigit = false)
    (rest : List Char) : fraction? ((padded 3 n).toList ++ mark :: rest) = some (n, mark :: rest) := by
  have hlength := length_padded (show 0 < 3 by decide) h
  unfold fraction?
  rw [takeWhile_isDigit isDigit_of_mem_padded hmark]
  dsimp only
  rw [List.isEmpty_eq_false_iff.2 (padded_ne_nil 3 n), if_neg Bool.false_ne_true,
    List.take_append_of_le_length hlength.ge, List.take_of_length_le hlength.le,
    natOfDigits?_padded, List.drop_append_of_le_length (le_refl _),
    List.drop_of_length_le (le_refl _)]
  rfl

/-! ### The parts of a text -/

/-- The time of day as it is written. -/
def timeText (ofDay : Nat) : List Char :=
  'T' :: ((padded 2 (ofDay / 3600000)).toList ++ ':' ::
    ((padded 2 (ofDay / 60000 % 60)).toList ++ ':' ::
      ((padded 2 (ofDay / 1000 % 60)).toList ++
        ((if ofDay % 1000 = 0 then [] else '.' :: (padded 3 (ofDay % 1000)).toList) ++ ['Z']))))

/-- The text of an instant by its parts. -/
theorem toList_text? {ms : Int64} {text : String} (h : text? ms = some text) :
    ∃ date, Calendar.date? (ms.toInt / 86400000) = some date ∧
      text.toList = (yearText date.year).toList ++ '-' :: ((padded 2 date.month).toList ++ '-' ::
        ((padded 2 date.day).toList ++ timeText (ms.toInt % 86400000).toNat)) := by
  unfold text? at h
  dsimp only at h
  obtain ⟨date, hdate, rfl⟩ := Option.map_eq_some_iff.1 h
  refine ⟨date, hdate, ?_⟩
  unfold timeText
  split_ifs <;> simp [String.toList_append]

/-- A month and a day of the month have two digits. -/
theorem lt_of_isValid {date : Calendar.Date} (h : date.isValid = true) :
    date.month < 100 ∧ date.day < 100 := by
  obtain ⟨-, hmonth, -, hday⟩ := Calendar.bounds_of_isValid h
  omega

theorem isValid_of_date? {n : Int} {date : Calendar.Date} (h : Calendar.date? n = some date) :
    date.isValid = true := by
  unfold Calendar.date? at h
  dsimp only at h
  split_ifs at h
  rw [← Option.some.inj h]
  exact Calendar.isValid_ofDay n

/-! ### Years of four digits -/

/-- A timestamp is read by its parts. -/
theorem stamped?_parts {date : Calendar.Date} {day : Int} (ofDay : Nat)
    (hyear : 0 ≤ date.year ∧ date.year ≤ 9999) (hdate : date.isValid = true)
    (hday : Calendar.day? date = some day) (hofDay : ofDay < 86400000) :
    stamped? ((yearText date.year).toList ++ '-' :: ((padded 2 date.month).toList ++ '-' ::
      ((padded 2 date.day).toList ++ timeText ofDay))) = some (day * 86400000 + ofDay) := by
  obtain ⟨hmonth, hdayOfMonth⟩ := lt_of_isValid hdate
  have hyearText : yearText date.year = padded 4 date.year.natAbs := by
    unfold yearText
    dsimp only
    rw [if_neg (by omega), if_neg (by omega)]
  have hdate' : (⟨(date.year.natAbs : Int), date.month, date.day⟩ : Calendar.Date) = date := by
    rw [show (date.year.natAbs : Int) = date.year by omega]
  have hoffset : offset? ['Z'] = some (0, []) := rfl
  -- the fraction is left out if it is zero
  have hfraction : optionalFraction? ((if ofDay % 1000 = 0 then []
      else '.' :: (padded 3 (ofDay % 1000)).toList) ++ ['Z']) = some (ofDay % 1000, ['Z']) := by
    split_ifs with hmillis
    · rw [hmillis]
      rfl
    · rw [List.cons_append, optionalFraction?]
      exact fraction?_padded (Nat.mod_lt _ (by decide)) (by decide) []
  have htotal : milliseconds day (ofDay / 3600000) (ofDay / 60000 % 60) (ofDay / 1000 % 60)
      (ofDay % 1000) 0 = day * 86400000 + ofDay := by
    unfold milliseconds
    omega
  -- the parts are read one after the other: the date, the time of day, the fraction and the offset
  unfold stamped? timeText
  rw [hyearText]
  refine Option.bind_eq_some_iff.2
    ⟨(date.year.natAbs, _), fixed?_padded (by decide) (by omega) _, ?_⟩
  refine Option.bind_eq_some_iff.2 ⟨_, mark?_cons _ _, ?_⟩
  refine Option.bind_eq_some_iff.2 ⟨(date.month, _), fixed?_padded (by decide) hmonth _, ?_⟩
  refine Option.bind_eq_some_iff.2 ⟨_, mark?_cons _ _, ?_⟩
  refine Option.bind_eq_some_iff.2 ⟨(date.day, _), fixed?_padded (by decide) hdayOfMonth _, ?_⟩
  refine Option.bind_eq_some_iff.2 ⟨_, rfl, ?_⟩
  refine Option.bind_eq_some_iff.2 ⟨(ofDay / 3600000, _),
    upTo?_fixed?_padded (by decide) (by omega) (by omega) _, ?_⟩
  refine Option.bind_eq_some_iff.2 ⟨_, mark?_cons _ _, ?_⟩
  refine Option.bind_eq_some_iff.2 ⟨(ofDay / 60000 % 60, _),
    upTo?_fixed?_padded (by decide) (by omega) (by omega) _, ?_⟩
  refine Option.bind_eq_some_iff.2 ⟨_, mark?_cons _ _, ?_⟩
  refine Option.bind_eq_some_iff.2 ⟨(ofDay / 1000 % 60, _),
    upTo?_fixed?_padded (by decide) (by omega) (by omega) _, ?_⟩
  refine Option.bind_eq_some_iff.2 ⟨(ofDay % 1000, ['Z']), hfraction, ?_⟩
  refine Option.bind_eq_some_iff.2 ⟨(0, []), hoffset, ?_⟩
  dsimp only
  rw [if_pos (by rfl), hdate']
  exact Option.bind_eq_some_iff.2 ⟨day, hday, congrArg some htotal⟩

/-- **The text of an instant of a year of four digits is read back.** -/
theorem ofText?_of_year {ms : Int64} {text : String} (h : text? ms = some text)
    (hlow : 0 ≤ (Calendar.ofDay (ms.toInt / 86400000)).year)
    (hhigh : (Calendar.ofDay (ms.toInt / 86400000)).year ≤ 9999) :
    ofText? text.toList = some ms := by
  obtain ⟨date, hdate, htext⟩ := toList_text? h
  have heq : date = Calendar.ofDay (ms.toInt / 86400000) := by
    unfold Calendar.date? at hdate
    dsimp only at hdate
    split_ifs at hdate
    exact (Option.some.inj hdate).symm
  have hstamped := stamped?_parts (ms.toInt % 86400000).toNat (heq ▸ ⟨hlow, hhigh⟩)
    (isValid_of_date? hdate) (Calendar.day?_of_date? hdate) (by omega)
  have htotal : ms.toInt / 86400000 * 86400000 + (ms.toInt % 86400000).toNat = ms.toInt := by
    omega
  unfold ofText?
  rw [htext, hstamped, htotal, Option.some_or, Option.map_some, Int64.ofInt_toInt]

/-! ### Years with a sign -/

/-- The digits of a number of two digits, as far as another character. -/
theorem short?_padded {n : Nat} (h : n < 100) {mark : Char} (hmark : mark.isDigit = false)
    (rest : List Char) : short? ((padded 2 n).toList ++ mark :: rest) = some (n, mark :: rest) := by
  have hlength := length_padded (show 0 < 2 by decide) h
  have htrim : Text.trimStart ((padded 2 n).toList ++ mark :: rest) =
      (padded 2 n).toList ++ mark :: rest := by
    obtain ⟨c, cs, hcons⟩ := List.exists_cons_of_ne_nil (padded_ne_nil 2 n)
    have hdigit : c.isDigit = true :=
      isDigit_of_mem_padded c (by rw [hcons]; exact List.mem_cons_self)
    have hblank : Text.isBlank c = false := by
      have h57 : c.toNat ≤ 57 := (isDigit_iff.1 hdigit).2
      have h48 : 48 ≤ c.toNat := (isDigit_iff.1 hdigit).1
      unfold Text.isBlank
      simp only [Bool.or_eq_false_iff, Bool.and_eq_false_iff, decide_eq_false_iff_not,
        beq_eq_false_iff_ne]
      omega
    rw [hcons]
    exact List.dropWhile_cons_of_neg (by rw [hblank]; exact Bool.false_ne_true)
  unfold short? digits?
  rw [htrim, takeWhile_isDigit isDigit_of_mem_padded hmark]
  dsimp only
  rw [List.take_of_length_le hlength.le, natOfDigits?_padded,
    List.drop_append_of_le_length (le_refl _), List.drop_of_length_le (le_refl _)]
  rfl

theorem digits?_padded {n : Nat} {mark : Char} (hmark : mark.isDigit = false) (rest : List Char)
    (most : Nat) (hmost : (padded 4 n).toList.length ≤ most) :
    digits? most ((padded 4 n).toList ++ mark :: rest) = some (n, mark :: rest) := by
  unfold digits?
  rw [takeWhile_isDigit isDigit_of_mem_padded hmark]
  dsimp only
  rw [List.take_of_length_le hmost, natOfDigits?_padded,
    List.drop_append_of_le_length (le_refl _), List.drop_of_length_le (le_refl _)]
  rfl

theorem year?_minus (cs : List Char) :
    year? ('-' :: cs) = (digits? cs.length cs).map fun r => (-(r.1 : Int), r.2) := rfl

theorem year?_plus (cs : List Char) :
    year? ('+' :: cs) = (digits? cs.length cs).map fun r => ((r.1 : Int), r.2) := rfl

/-- A sign stands in front of a year before zero or after 9999. -/
theorem toList_yearText {year : Int} (h : year < 0 ∨ 9999 < year) :
    (yearText year).toList = (if year < 0 then '-' else '+') :: (padded 4 year.natAbs).toList := by
  unfold yearText
  dsimp only
  rcases h with h | h
  · rw [if_pos h, if_pos h, String.toList_append]
    rfl
  · rw [if_neg (by omega), if_pos h, if_neg (by omega), String.toList_append]
    rfl

/-- A year with a sign is read with all of its digits. -/
theorem year?_signed {year : Int} (h : year < 0 ∨ 9999 < year) (rest : List Char) :
    year? ((yearText year).toList ++ '-' :: rest) = some (year, '-' :: rest) := by
  have hmost : (padded 4 year.natAbs).toList.length ≤
      ((padded 4 year.natAbs).toList ++ '-' :: rest).length := by
    rw [List.length_append]
    omega
  have hdigits := digits?_padded (n := year.natAbs) (by decide : '-'.isDigit = false) rest _ hmost
  rw [toList_yearText h, List.cons_append]
  by_cases hnegative : year < 0
  · have hyear : -(year.natAbs : Int) = year := by omega
    rw [if_pos hnegative, year?_minus, hdigits, Option.map_some, hyear]
  · have hyear : (year.natAbs : Int) = year := by omega
    rw [if_neg hnegative, year?_plus, hdigits, Option.map_some, hyear]

/-- A timestamp has no sign in front. -/
theorem stamped?_signed {year : Int} (h : year < 0 ∨ 9999 < year) (rest : List Char) :
    stamped? ((yearText year).toList ++ rest) = none := by
  have hsign : (if year < 0 then '-' else '+').isDigit = false := by
    split_ifs <;> decide
  have hdigits (cs : List Char) : natOfDigits? ((if year < 0 then '-' else '+') :: cs) = none := by
    unfold natOfDigits?
    rw [List.all_cons, hsign, Bool.false_and]
    exact if_pos (by simp)
  have hfixed : fixed? 4 ((yearText year).toList ++ rest) = none := by
    unfold fixed?
    rw [toList_yearText h, List.cons_append, List.take_succ_cons]
    dsimp only
    rw [hdigits]
    exact ite_self _
  unfold stamped?
  rw [hfixed]
  rfl

/-- The date of a year with a sign is read; the time of day is left over. -/
theorem date?_signed {date : Calendar.Date} (hyear : date.year < 0 ∨ 9999 < date.year)
    (hdate : date.isValid = true) (ofDay : Nat) :
    date? ((yearText date.year).toList ++ '-' :: ((padded 2 date.month).toList ++ '-' ::
      ((padded 2 date.day).toList ++ timeText ofDay))) = some (date, timeText ofDay) := by
  obtain ⟨hmonth, hday⟩ := lt_of_isValid hdate
  unfold date?
  rw [year?_signed hyear]
  simp only [Option.bind_eq_bind, Option.bind_some, mark?_cons]
  rw [short?_padded hmonth (by decide)]
  simp only [Option.bind_some, mark?_cons]
  unfold timeText
  rw [short?_padded hday (by decide)]
  rfl

/-- **The text of an instant of another year is refused.** -/
theorem ofText?_of_year_of_sign {ms : Int64} {text : String} (h : text? ms = some text)
    (hyear : (Calendar.ofDay (ms.toInt / 86400000)).year < 0 ∨
      9999 < (Calendar.ofDay (ms.toInt / 86400000)).year) : ofText? text.toList = none := by
  obtain ⟨date, hdate, htext⟩ := toList_text? h
  have heq : Calendar.ofDay (ms.toInt / 86400000) = date := by
    unfold Calendar.date? at hdate
    dsimp only at hdate
    split_ifs at hdate
    exact Option.some.inj hdate
  rw [heq] at hyear
  have hread := date?_signed hyear (isValid_of_date? hdate) (ms.toInt % 86400000).toNat
  generalize htime : timeText (ms.toInt % 86400000).toNat = time at htext hread
  obtain ⟨rest, htimeCons⟩ : ∃ rest, time = 'T' :: rest := ⟨_, htime.symm⟩
  -- no form reads the sign together with what stands behind the date
  have hstamped : stamped? text.toList = none := by
    rw [htext]
    exact stamped?_signed hyear _
  have hdateAndTime : dateAndTime? text.toList = none := by
    unfold dateAndTime?
    rw [htext, hread, htimeCons]
    rfl
  have hdateOnly : dateOnly? text.toList = none := by
    unfold dateOnly?
    rw [htext, hread, htimeCons]
    rfl
  unfold ofText?
  rw [hstamped, hdateAndTime, hdateOnly]
  rfl

/-- **An instant is read back from its text exactly when its year has four digits.** -/
theorem ofText?_text? {ms : Int64} {text : String} (h : text? ms = some text) :
    ofText? text.toList = some ms ↔
      0 ≤ (Calendar.ofDay (ms.toInt / 86400000)).year ∧
        (Calendar.ofDay (ms.toInt / 86400000)).year ≤ 9999 := by
  constructor
  · intro hread
    by_contra hyear
    have hnone := ofText?_of_year_of_sign h (by omega)
    rw [hread] at hnone
    cases hnone
  · exact fun hyear => ofText?_of_year h hyear.1 hyear.2

/-! ### Instants of years of four digits -/

/-- Midnight of the first of January of the year 0. -/
def firstInstant : Int := milliseconds (Calendar.firstDay 0) 0 0 0 0 0

/-- The last millisecond of the thirty-first of December 9999. -/
def lastInstant : Int := milliseconds (Calendar.dayNumber ⟨9999, 12, 31⟩) 23 59 59 999 0

theorem year_iff (ms : Int64) :
    (0 ≤ (Calendar.ofDay (ms.toInt / 86400000)).year ∧
        (Calendar.ofDay (ms.toInt / 86400000)).year ≤ 9999) ↔
      firstInstant ≤ ms.toInt ∧ ms.toInt ≤ lastInstant := by
  have hfirst := Calendar.le_year_ofDay_iff 0 (ms.toInt / 86400000)
  have hlast := Calendar.le_year_ofDay_iff 10000 (ms.toInt / 86400000)
  have hfirstDay : Calendar.firstDay 0 = -719528 := rfl
  have hnextDay : Calendar.firstDay 10000 = 2932897 := rfl
  have hfirstInstant : firstInstant = -62167219200000 := rfl
  have hlastInstant : lastInstant = 253402300799999 := rfl
  omega

/-- The dates of years of four digits are known. -/
theorem exists_text? {ms : Int64}
    (hyear : 0 ≤ (Calendar.ofDay (ms.toInt / 86400000)).year ∧
      (Calendar.ofDay (ms.toInt / 86400000)).year ≤ 9999) : ∃ text, text? ms = some text := by
  have hdate : Calendar.date? (ms.toInt / 86400000) =
      some (Calendar.ofDay (ms.toInt / 86400000)) := by
    have hknown : (Calendar.firstYear ≤ (Calendar.ofDay (ms.toInt / 86400000)).year &&
        (Calendar.ofDay (ms.toInt / 86400000)).year ≤ Calendar.lastYear) = true := by
      unfold Calendar.firstYear Calendar.lastYear
      rw [Bool.and_eq_true, decide_eq_true_eq, decide_eq_true_eq]
      omega
    unfold Calendar.date?
    exact if_pos hknown
  unfold text?
  dsimp only
  rw [hdate]
  exact ⟨_, rfl⟩

/-- **The instants of years of four digits**, and no others, have a text that is read back as the
instant. -/
theorem readsBack_iff (ms : Int64) :
    (firstInstant ≤ ms.toInt ∧ ms.toInt ≤ lastInstant) ↔
      ∃ text, text? ms = some text ∧ ofText? text.toList = some ms := by
  rw [← year_iff]
  constructor
  · intro hyear
    obtain ⟨text, htext⟩ := exists_text? hyear
    exact ⟨text, htext, (ofText?_text? htext).2 hyear⟩
  · rintro ⟨text, htext, hread⟩
    exact (ofText?_text? htext).1 hread

example : text? (Int64.ofInt firstInstant) = some "0000-01-01T00:00:00Z" ∧
    text? (Int64.ofInt lastInstant) = some "9999-12-31T23:59:59.999Z" := by decide

end RecordTables.DateTime
