import Mathlib
import RecordTables.Time.Calendar

/-!
# The calendar undoes itself

Every day number has a date that exists (`isValid_ofDay`) and whose day number it is
(`dayNumber_ofDay`).  The days of a year are those from its first of January to the next one
(`le_year_ofDay_iff`).

A cycle of four hundred years is cut into centuries, a century into groups of four years, and a group
into years (`exists_cut`); the closed formula for the year of the cycle agrees with the cut
(`yearOfCycle_eq`).  The leap day is the last of the longest pieces at each level.
-/

namespace RecordTables.Calendar

/-! ### Cutting a cycle of four hundred years -/

/-- A day of a cycle by its century, its group of four years, its year in the group and its day in
the year. -/
structure Cut (d century group year day : Nat) : Prop where
  sum : d = 36524 * century + 1461 * group + 365 * year + day
  century_le : century ≤ 3
  group_le : group ≤ 24
  year_le : year ≤ 3
  day_le : day ≤ 365
  /-- The leap day ends the last year of a group, and the last group of a century only in the last
  century. -/
  leap : day = 365 → year = 3 ∧ (group = 24 → century = 3)

theorem exists_cut {d : Nat} (h : d < 146097) :
    ∃ century group year day, Cut d century group year day := by
  -- the quotient at each level, except that the last piece also takes the leap day
  obtain ⟨century, hcentury, hlow, hhigh⟩ :
      ∃ c ≤ 3, 36524 * c ≤ d ∧ (d < 36524 * (c + 1) ∨ c = 3) :=
    ⟨min (d / 36524) 3, by omega, by omega, by omega⟩
  obtain ⟨inCentury, rfl⟩ := Nat.exists_eq_add_of_le hlow
  obtain ⟨group, hgroup, hlow', hhigh'⟩ :
      ∃ g ≤ 24, 1461 * g ≤ inCentury ∧ (inCentury < 1461 * (g + 1) ∨ g = 24) :=
    ⟨min (inCentury / 1461) 24, by omega, by omega, by omega⟩
  obtain ⟨inGroup, rfl⟩ := Nat.exists_eq_add_of_le hlow'
  obtain ⟨year, hyear, hlow'', hhigh''⟩ :
      ∃ y ≤ 3, 365 * y ≤ inGroup ∧ (inGroup < 365 * (y + 1) ∨ y = 3) :=
    ⟨min (inGroup / 365) 3, by omega, by omega, by omega⟩
  obtain ⟨day, rfl⟩ := Nat.exists_eq_add_of_le hlow''
  exact ⟨century, group, year, day, by omega, hcentury, hgroup, hyear, by omega, by omega⟩

variable {d century group year day : Nat}

/-- The year of the cycle, by the closed formula. -/
def yearOfCycle (d : Nat) : Nat := (d - d / 1460 + d / 36524 - d / 146096) / 365

/-- The closed formula gives the year of the cut. -/
theorem yearOfCycle_eq (h : Cut d century group year day) :
    yearOfCycle d = 100 * century + 4 * group + year := by
  obtain ⟨hsum, hcentury, hgroup, hyear, hday, hleap⟩ := h
  -- one more group of 1460 days fits where the days that were left over make one
  have hgroups : d / 1460 = 25 * century + group +
      (24 * century + group + 365 * year + day) / 1460 := by
    have hsplit : d = 24 * century + group + 365 * year + day +
        1460 * (25 * century + group) := by omega
    rw [hsplit, Nat.add_mul_div_left _ _ (by decide), Nat.add_comm]
  have hextra : (24 * century + group + 365 * year + day) / 1460 ≤ day ∧
      day - (24 * century + group + 365 * year + day) / 1460 < 365 := by
    omega
  have hcenturies : d / 36524 = century + d / 146096 := by
    obtain ⟨rest, hrest⟩ : ∃ rest, rest = 1461 * group + 365 * year + day := ⟨_, rfl⟩
    have hd : d = 36524 * century + rest := by omega
    have hbound : rest < 36524 ∨ century = 3 ∧ rest = 36524 := by omega
    clear hsum hgroups hextra hrest hleap
    rcases hbound with hlt | ⟨rfl, rfl⟩ <;> omega
  have hdays : d - d / 1460 + d / 36524 - d / 146096 =
      day - (24 * century + group + 365 * year + day) / 1460 +
        365 * (100 * century + 4 * group + year) := by
    rw [hcenturies, hgroups]
    generalize (24 * century + group + 365 * year + day) / 1460 = extra at hextra
    generalize d / 146096 = last
    clear hleap hgroups hcenturies
    omega
  unfold yearOfCycle
  rw [hdays, Nat.add_mul_div_left _ _ (by decide), Nat.div_eq_of_lt hextra.2, Nat.zero_add]

/-- The days of the cycle before a year of the cut. -/
theorem dayOfYear_eq (h : Cut d century group year day) :
    d - (365 * yearOfCycle d + yearOfCycle d / 4 - yearOfCycle d / 100) = day := by
  rw [yearOfCycle_eq h]
  obtain ⟨hsum, hcentury, hgroup, hyear, hday, hleap⟩ := h
  omega

/-! ### Months -/

/-- The date of a day of a year that starts in March. -/
def ofYearDay (year : Int) (t : Nat) : Date :=
  let m := (5 * t + 2) / 153
  let month := if m < 10 then m + 3 else m - 9
  ⟨if month ≤ 2 then year + 1 else year, month, t - daysBeforeMonth m + 1⟩

theorem ofYearDay_of_lt (year : Int) {t : Nat} (h : (5 * t + 2) / 153 < 10) :
    ofYearDay year t = ⟨year, (5 * t + 2) / 153 + 3, t - daysBeforeMonth ((5 * t + 2) / 153) + 1⟩ := by
  have hmonth : ¬ (5 * t + 2) / 153 + 3 ≤ 2 := by omega
  unfold ofYearDay
  simp only [if_pos h, if_neg hmonth]

theorem ofYearDay_of_ge (year : Int) {t : Nat} (h : ¬ (5 * t + 2) / 153 < 10)
    (hm : (5 * t + 2) / 153 ≤ 11) : ofYearDay year t =
      ⟨year + 1, (5 * t + 2) / 153 - 9, t - daysBeforeMonth ((5 * t + 2) / 153) + 1⟩ := by
  have hmonth : (5 * t + 2) / 153 - 9 ≤ 2 := by omega
  unfold ofYearDay
  simp only [if_neg h, if_pos hmonth]

theorem dayNumber_ofYearDay (year : Int) {t : Nat} (ht : t ≤ 365) :
    dayNumber (ofYearDay year t) =
      365 * year + year / 4 - year / 100 + year / 400 + t - 719468 := by
  have hm : (5 * t + 2) / 153 ≤ 11 := by omega
  have hbefore : daysBeforeMonth ((5 * t + 2) / 153) ≤ t := by
    unfold daysBeforeMonth
    omega
  by_cases hmarch : (5 * t + 2) / 153 < 10
  · have hmonth : ((5 * t + 2) / 153 + 3 + 9) % 12 = (5 * t + 2) / 153 := by omega
    rw [ofYearDay_of_lt year hmarch]
    unfold dayNumber
    dsimp only
    rw [if_neg (by omega), hmonth]
    omega
  · have hmonth : ((5 * t + 2) / 153 - 9 + 9) % 12 = (5 * t + 2) / 153 := by omega
    rw [ofYearDay_of_ge year hmarch hm]
    unfold dayNumber
    dsimp only
    rw [if_pos (by omega), hmonth, add_sub_cancel_right]
    omega

/-- The date of a day of a year that starts in March exists, if the last day of the longest year is
a leap day. -/
theorem isValid_ofYearDay {year : Int} {t : Nat} (ht : t ≤ 365)
    (hleap : t = 365 → isLeapYear (year + 1) = true) : (ofYearDay year t).isValid = true := by
  have hm : (5 * t + 2) / 153 ≤ 11 := by omega
  have hfebruary : t - daysBeforeMonth 11 + 1 ≤ 29 ∧
      (t - daysBeforeMonth 11 + 1 = 29 → t = 365) := by
    unfold daysBeforeMonth
    omega
  unfold Date.isValid
  simp only [Bool.and_eq_true, decide_eq_true_eq]
  by_cases hmarch : (5 * t + 2) / 153 < 10
  · rw [ofYearDay_of_lt year hmarch]
    refine ⟨⟨⟨by dsimp only; omega, by dsimp only; omega⟩, by dsimp only; omega⟩, ?_⟩
    dsimp only
    generalize hmonth : (5 * t + 2) / 153 = m at hmarch ⊢
    -- by month: the days before it and its length are numbers
    interval_cases m <;> simp only [daysInMonth, daysBeforeMonth] <;> omega
  · rw [ofYearDay_of_ge year hmarch hm]
    refine ⟨⟨⟨by dsimp only; omega, by dsimp only; omega⟩, by dsimp only; omega⟩, ?_⟩
    dsimp only
    rcases (by omega : (5 * t + 2) / 153 = 10 ∨ (5 * t + 2) / 153 = 11) with hjanuary | hlast
    · rw [hjanuary]
      simp only [daysInMonth, daysBeforeMonth]
      omega
    · rw [hlast]
      simp only [daysInMonth]
      by_cases hyear : isLeapYear (year + 1) = true
      · rw [if_pos hyear]
        exact hfebruary.1
      · rw [if_neg hyear]
        have hday := mt hleap hyear
        omega

/-- A month and a day of a date that exists. -/
theorem bounds_of_isValid {d : Date} (h : d.isValid = true) :
    1 ≤ d.month ∧ d.month ≤ 12 ∧ 1 ≤ d.day ∧ d.day ≤ 31 := by
  have hlength : daysInMonth d.year d.month ≤ 31 := by
    unfold daysInMonth
    split
    · split_ifs <;> omega
    all_goals omega
  unfold Date.isValid at h
  simp only [Bool.and_eq_true, decide_eq_true_eq] at h
  omega

/-! ### Days -/

theorem ofDay_eq {n : Int} (h : Cut ((n + 719468) % 146097).toNat century group year day) :
    ofDay n = ofYearDay ((100 * century + 4 * group + year : Nat) +
      (n + 719468) / 146097 * 400) day := by
  have hyear := yearOfCycle_eq h
  have hday := dayOfYear_eq h
  unfold yearOfCycle at hyear hday
  unfold ofDay ofYearDay
  dsimp only
  rw [hday, hyear]

theorem isLeapYear_iff (year : Int) :
    isLeapYear year = true ↔ year % 4 = 0 ∧ (year % 100 ≠ 0 ∨ year % 400 = 0) := by
  unfold isLeapYear
  simp

/-- **Every day has a date that exists.** -/
theorem isValid_ofDay (n : Int) : (ofDay n).isValid = true := by
  obtain ⟨century, group, year, day, h⟩ :=
    exists_cut (d := ((n + 719468) % 146097).toNat) (by omega)
  rw [ofDay_eq h]
  refine isValid_ofYearDay h.day_le fun hday => ?_
  obtain ⟨hyear, hcentury⟩ := h.leap hday
  have hgroup := h.group_le
  have hcentury' := h.century_le
  rw [isLeapYear_iff]
  omega

/-- **The day number of the date of a day** is the day. -/
theorem dayNumber_ofDay (n : Int) : dayNumber (ofDay n) = n := by
  obtain ⟨century, group, year, day, h⟩ :=
    exists_cut (d := ((n + 719468) % 146097).toNat) (by omega)
  rw [ofDay_eq h, dayNumber_ofYearDay _ h.day_le]
  obtain ⟨hsum, hcentury, hgroup, hyear, hday, hleap⟩ := h
  generalize hcycle : (n + 719468) / 146097 = cycle
  have hn : n + 719468 = 146097 * cycle + (36524 * century + 1461 * group + 365 * year + day) := by
    omega
  clear hsum hleap hcycle
  omega

/-- **The day of the date of a known day** is the day. -/
theorem day?_of_date? {n : Int} {d : Date} (h : date? n = some d) : day? d = some n := by
  unfold date? at h
  dsimp only at h
  split_ifs at h with hknown
  obtain rfl := Option.some.inj h
  unfold day?
  rw [isValid_ofDay, dayNumber_ofDay, Bool.true_and, if_pos hknown]

/-! ### Years -/

/-- The first day of a year. -/
def firstDay (year : Int) : Int := dayNumber ⟨year, 1, 1⟩

theorem firstDay_eq (year : Int) : firstDay year =
    365 * (year - 1) + (year - 1) / 4 - (year - 1) / 100 + (year - 1) / 400 - 719162 := by
  have hbefore : daysBeforeMonth ((1 + 9) % 12) = 306 := rfl
  unfold firstDay dayNumber
  dsimp only
  rw [if_pos (by decide), hbefore]
  omega

theorem firstDay_mono {year year' : Int} (h : year ≤ year') : firstDay year ≤ firstDay year' := by
  rw [firstDay_eq, firstDay_eq]
  omega

/-- The days of a year come after its first day and before that of the next year. -/
theorem firstDay_le_and_lt {d : Date} (h : d.isValid = true) :
    firstDay d.year ≤ dayNumber d ∧ dayNumber d < firstDay (d.year + 1) := by
  obtain ⟨hmonth, hmonth', hday, hday'⟩ := bounds_of_isValid h
  rw [firstDay_eq, firstDay_eq, add_sub_cancel_right]
  unfold dayNumber daysBeforeMonth
  dsimp only
  -- January and February are the last months of the year before
  by_cases hnext : d.month ≤ 2
  · have hm : (d.month + 9) % 12 = d.month + 9 := by omega
    rw [if_pos hnext, hm]
    omega
  · have hm : (d.month + 9) % 12 = d.month - 3 := by omega
    rw [if_neg hnext, hm]
    omega

/-- **A year has come** when its first day has. -/
theorem le_year_ofDay_iff (year n : Int) : year ≤ (ofDay n).year ↔ firstDay year ≤ n := by
  have hvalid := isValid_ofDay n
  have hnumber := dayNumber_ofDay n
  constructor
  · intro h
    calc firstDay year ≤ firstDay (ofDay n).year := firstDay_mono h
      _ ≤ dayNumber (ofDay n) := (firstDay_le_and_lt hvalid).1
      _ = n := hnumber
  · intro h
    by_contra hlater
    have hlt : n < firstDay year :=
      calc n = dayNumber (ofDay n) := hnumber.symm
        _ < firstDay ((ofDay n).year + 1) := (firstDay_le_and_lt hvalid).2
        _ ≤ firstDay year := firstDay_mono (by omega)
    omega

end RecordTables.Calendar
