import Mathlib
import RecordTables.Proofs.Number.Numeral
import RecordTables.Time.Duration

/-!
# The text of a span of time reads back

Days, hours, minutes, seconds and milliseconds make up the length of a span, so the text of every
length is read back as the length (`magnitude?_spanText`).  With the sign, all spans are read back
but one: the least one has a length that no span without a sign has, and its text is refused
(`ofText?_text`).
-/

namespace RecordTables.Duration

open Number

/-! ### Parts between marks -/

theorem notMem_of_forall_isDigit {cs : List Char} (h : ∀ c ∈ cs, c.isDigit = true) {mark : Char}
    (hmark : mark.isDigit = false) : mark ∉ cs := by
  intro hmem
  rw [h mark hmem] at hmark
  cases hmark

theorem notMem_padded {width n : Nat} {mark : Char} (hmark : mark.isDigit = false) :
    mark ∉ (padded width n).toList :=
  notMem_of_forall_isDigit isDigit_of_mem_padded hmark

theorem all_ne_of_notMem {cs : List Char} (h : '.' ∉ cs) : ∀ c ∈ cs, (c != '.') = true := by
  intro c hc
  rw [bne_iff_ne]
  rintro rfl
  exact h hc

theorem cutAtPoint?_of_notMem {cs : List Char} (h : '.' ∉ cs) : cutAtPoint? cs = none := by
  unfold cutAtPoint?
  rw [List.dropWhile_eq_nil_iff.2 (all_ne_of_notMem h)]

theorem cutAtPoint?_append_cons {front : List Char} (h : '.' ∉ front) (rest : List Char) :
    cutAtPoint? (front ++ '.' :: rest) = some (front, rest) := by
  have hfront := all_ne_of_notMem h
  unfold cutAtPoint?
  rw [List.dropWhile_append_of_pos hfront, List.takeWhile_append_of_pos hfront,
    List.dropWhile_cons_of_neg (by decide), List.takeWhile_cons_of_neg (by decide),
    List.append_nil]

/-! ### The fields -/

/-- The text of a length: days and milliseconds only where there are any. -/
def spanText (n : Nat) : String :=
  (if n / day = 0 then "" else s!"{n / day}.") ++ padded 2 (n % day / hour) ++ ":" ++
    padded 2 (n % hour / minute) ++ ":" ++ padded 2 (n % minute / second) ++
      (if n % second = 0 then "" else "." ++ padded 3 (n % second))

/-- The hours of a span, behind its days. -/
def hoursText (n : Nat) : List Char :=
  (if n / day = 0 then [] else Nat.toDigits 10 (n / day) ++ ['.']) ++
    (padded 2 (n % day / hour)).toList

/-- The seconds of a span with their fraction. -/
def secondsText (n : Nat) : List Char :=
  (padded 2 (n % minute / second)).toList ++
    if n % second = 0 then [] else '.' :: (padded 3 (n % second)).toList

theorem toList_spanText (n : Nat) : (spanText n).toList =
    hoursText n ++ ':' :: ((padded 2 (n % hour / minute)).toList ++ ':' :: secondsText n) := by
  unfold spanText hoursText secondsText
  split_ifs <;>
    simp [String.toList_append, toString, Nat.toList_repr]

theorem colon_notMem_hoursText (n : Nat) : ':' ∉ hoursText n := by
  unfold hoursText
  rw [List.mem_append, not_or]
  refine ⟨?_, notMem_padded (by decide)⟩
  split_ifs
  · exact List.not_mem_nil
  · rw [List.mem_append, not_or]
    exact ⟨notMem_of_forall_isDigit isDigit_of_mem_toDigits (by decide), by decide⟩

theorem colon_notMem_secondsText (n : Nat) : ':' ∉ secondsText n := by
  unfold secondsText
  rw [List.mem_append, not_or]
  refine ⟨notMem_padded (by decide), ?_⟩
  split_ifs
  · exact List.not_mem_nil
  · rw [List.mem_cons, not_or]
    exact ⟨by decide, notMem_padded (by decide)⟩

theorem daysAndHours?_hoursText (n : Nat) :
    daysAndHours? (hoursText n) = some (n / day, n % day / hour) := by
  have hhours : n % day / hour < 24 := by
    unfold day hour minute second
    omega
  unfold daysAndHours? hoursText
  split_ifs with hdays
  · rw [List.nil_append, cutAtPoint?_of_notMem (notMem_padded (by decide))]
    simp [natOfDigits?_padded, hhours, hdays]
  · rw [List.append_assoc, List.singleton_append,
      cutAtPoint?_append_cons (notMem_of_forall_isDigit isDigit_of_mem_toDigits (by decide))]
    simp [natOfDigits?_padded, natOfDigits?_toDigits, hhours]

theorem fraction?_padded {n : Nat} (h : n < 1000) : fraction? (padded 3 n).toList = some n := by
  have hlength := length_padded (show 0 < 3 by decide) h
  unfold fraction?
  rw [List.isEmpty_eq_false_iff.2 (padded_ne_nil 3 n),
    List.all_eq_true.2 isDigit_of_mem_padded, List.take_append_of_le_length hlength.ge,
    List.take_of_length_le hlength.le, natOfDigits?_padded]
  rfl

theorem seconds?_secondsText (n : Nat) : seconds? (secondsText n) = some (n % minute) := by
  have hseconds : n % minute / second < 60 := by
    unfold minute second
    omega
  have htotal : n % minute / second * second + n % second = n % minute := by
    unfold minute second
    omega
  unfold seconds? secondsText
  split_ifs with hmillis
  · rw [List.append_nil, cutAtPoint?_of_notMem (notMem_padded (by decide))]
    rw [hmillis, Nat.add_zero] at htotal
    simp [natOfDigits?_padded, hseconds, htotal]
  · have hfraction := fraction?_padded (n := n % second) (Nat.mod_lt n (by decide))
    rw [cutAtPoint?_append_cons (notMem_padded (by decide))]
    simp [natOfDigits?_padded, hfraction, hseconds, htotal]

/-! ### Spans -/

/-- **The text of a length is read back.** -/
theorem magnitude?_spanText (n : Nat) : magnitude? (spanText n).toList = some n := by
  have hminutes : minutes? (padded 2 (n % hour / minute)).toList = some (n % hour / minute) := by
    have hlt : n % hour / minute < 60 := by
      unfold hour minute second
      omega
    unfold minutes?
    rw [natOfDigits?_padded, Option.filter_some, if_pos (decide_eq_true hlt)]
  have htotal : n / day * day + n % day / hour * hour + n % hour / minute * minute + n % minute =
      n := by
    unfold day hour minute second
    omega
  unfold magnitude?
  rw [toList_spanText, Text.splitOn_append_cons (colon_notMem_hoursText n),
    Text.splitOn_append_cons (notMem_padded (by decide)),
    Text.splitOn_of_notMem (colon_notMem_secondsText n)]
  simp [seconds?_secondsText, daysAndHours?_hoursText, hminutes, htotal]

theorem text_eq (ms : Int64) :
    text ms = (if ms.toInt < 0 then "-" else "") ++ spanText ms.toInt.natAbs := by
  unfold text spanText
  dsimp only
  simp only [String.append_assoc]

/-- The text of a length starts with a digit. -/
theorem exists_spanText_cons (n : Nat) :
    ∃ c cs, (spanText n).toList = c :: cs ∧ c.isDigit = true := by
  have hhours : ∃ c cs, hoursText n = c :: cs ∧ c.isDigit = true := by
    unfold hoursText
    split_ifs
    · obtain ⟨c, cs, h⟩ := List.exists_cons_of_ne_nil (padded_ne_nil 2 (n % day / hour))
      exact ⟨c, cs, by rw [List.nil_append, h],
        isDigit_of_mem_padded c (by rw [h]; exact List.mem_cons_self)⟩
    · obtain ⟨c, cs, h, hdigit⟩ := exists_toDigits_cons (n / day)
      exact ⟨c, cs ++ ['.'] ++ (padded 2 (n % day / hour)).toList, by rw [h]; simp, hdigit⟩
  obtain ⟨c, cs, h, hdigit⟩ := hhours
  exact ⟨c, _, by rw [toList_spanText, h, List.cons_append], hdigit⟩

theorem ofText?_cons_dash (cs : List Char) :
    ofText? ('-' :: cs) = (magnitude? cs).bind fun n =>
      if n < 0x8000000000000000 then some (Int64.ofInt (-(n : Int))) else none := by
  unfold ofText?
  simp

theorem ofText?_cons_of_ne {c : Char} (h : c ≠ '-') (cs : List Char) :
    ofText? (c :: cs) = (magnitude? (c :: cs)).bind fun n =>
      if n < 0x8000000000000000 then some (Int64.ofInt n) else none := by
  unfold ofText?
  simp [h]

theorem ofText?_signed (negative : Bool) (n : Nat) :
    ofText? ((if negative then "-" else "") ++ spanText n).toList =
      if n < 0x8000000000000000 then some (Int64.ofInt (if negative then -(n : Int) else n))
      else none := by
  obtain ⟨c, cs, hcons, hdigit⟩ := exists_spanText_cons n
  have hmagnitude := magnitude?_spanText n
  rw [String.toList_append]
  cases negative with
  | true =>
    have hdash : (if true = true then "-" else "").toList = ['-'] := rfl
    rw [hdash, List.singleton_append, ofText?_cons_dash, hmagnitude, Option.bind_some]
    rfl
  | false =>
    have hempty : (if false = true then "-" else "").toList = [] := rfl
    have hne : c ≠ '-' := by
      rintro rfl
      exact absurd hdigit (by decide)
    rw [hcons] at hmagnitude
    rw [hempty, List.nil_append, hcons, ofText?_cons_of_ne hne, hmagnitude, Option.bind_some]
    rfl

/-- **The text of a span is read back**, except that of the least one, which is refused. -/
theorem ofText?_text (ms : Int64) :
    ofText? (text ms).toList = if ms = Int64.minValue then none else some ms := by
  have hlow := ms.le_toInt
  have hhigh := ms.toInt_lt
  have hsigned := ofText?_signed (decide (ms.toInt < 0)) ms.toInt.natAbs
  have hvalue : (if decide (ms.toInt < 0) = true then -(ms.toInt.natAbs : Int)
      else ms.toInt.natAbs) = ms.toInt := by
    by_cases h : ms.toInt < 0
    · rw [if_pos (decide_eq_true h)]
      omega
    · rw [if_neg (by simpa using h)]
      omega
  have hminimum : ms = Int64.minValue ↔ ¬ ms.toInt.natAbs < 0x8000000000000000 := by
    rw [← Int64.toInt_inj, show Int64.minValue.toInt = -0x8000000000000000 from rfl]
    omega
  rw [hvalue, Int64.ofInt_toInt] at hsigned
  simp only [decide_eq_true_eq] at hsigned
  rw [text_eq, hsigned]
  by_cases h : ms.toInt.natAbs < 0x8000000000000000
  · rw [if_pos h, if_neg (fun heq => hminimum.1 heq h)]
  · rw [if_neg h, if_pos (hminimum.2 h)]

end RecordTables.Duration
