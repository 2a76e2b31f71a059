import Mathlib
import RecordTables.Format.Ron.Printer
import RecordTables.Format.Ron.Basic
import RecordTables.Proofs.Number.Decimal32

/-!
# Names, texts and numbers of RON

Each kind of token is read back from what was written for it, whatever follows, as long as that is
not more of the token: a name (`Ron.readName?_append`), a text in its quotes (`Ron.readQuoted_quote`),
a whole number (`Ron.readNumber?_int`) and a finite floating-point number (`Ron.readNumber?_float`).
-/

namespace RecordTables.Ron

open Number (Binary32)

/-! ### Gaps -/

theorem skipGap_cons {c : Char} (h : isGap c = true) (cs : List Char) :
    skipGap (c :: cs) = skipGap cs := by
  have hne : c ≠ '/' := by
    rintro rfl
    exact absurd h (by decide)
  rw [skipGap.eq_def]
  split
  · next heq => exact absurd (List.cons.inj heq).1 hne
  · next heq => exact absurd (List.cons.inj heq).1 hne
  · next heq => exact absurd (List.cons.inj heq).1 hne
  · next heq =>
    obtain ⟨rfl, rfl⟩ := List.cons.inj heq
    rw [if_pos h]
  · next heq => cases heq

/-- Characters that stand between parts. -/
theorem skipGap_append {gap : List Char} (h : ∀ c ∈ gap, isGap c = true) (cs : List Char) :
    skipGap (gap ++ cs) = skipGap cs := by
  induction gap with
  | nil => rfl
  | cons c gap ih =>
    rw [List.cons_append, skipGap_cons (h c List.mem_cons_self)]
    exact ih fun c hc => h c (List.mem_cons_of_mem _ hc)

/-- A part begins behind the gap. -/
theorem skipGap_of_not {c : Char} (h : isGap c = false) (hslash : c ≠ '/') (cs : List Char) :
    skipGap (c :: cs) = some (c :: cs) := by
  rw [skipGap.eq_def]
  split
  · next heq => exact absurd (List.cons.inj heq).1 hslash
  · next heq => exact absurd (List.cons.inj heq).1 hslash
  · next heq => exact absurd (List.cons.inj heq).1 hslash
  · next heq =>
    obtain ⟨rfl, rfl⟩ := List.cons.inj heq
    rw [if_neg (by rw [h]; exact Bool.false_ne_true)]
  · next heq => cases heq

/-! ### Runs of characters -/

/-- Whether all characters of a list satisfy a condition is decided along the list, and not over all
characters that there are. -/
instance (priority := high) decidableForallMem (p : Char → Prop) [DecidablePred p]
    (cs : List Char) : Decidable (∀ c ∈ cs, p c) :=
  List.decidableBAll p cs

/-- No name and no number goes on here. -/
def Ends (rest : List Char) : Prop := ∀ c ∈ rest.head?, c ∈ [',', ')', ':', '(']

theorem ends_cons {c : Char} (h : c ∈ [',', ')', ':', '(']) (rest : List Char) :
    Ends (c :: rest) := fun d hd => by
  rwa [← Option.some.inj hd]

section Runs

variable {p : Char → Bool} (hp : ∀ c ∈ [',', ')', ':', '('], p c = false) {cs rest : List Char}
  (hcs : ∀ c ∈ cs, p c = true) (hrest : Ends rest)

include hp hcs hrest

theorem takeWhile_append : (cs ++ rest).takeWhile p = cs := by
  rw [List.takeWhile_append_of_pos hcs]
  cases rest with
  | nil => rw [List.takeWhile_nil, List.append_nil]
  | cons c rest =>
    have hc := hp c (hrest c rfl)
    rw [List.takeWhile_cons_of_neg (by rw [hc]; exact Bool.false_ne_true), List.append_nil]

theorem dropWhile_append : (cs ++ rest).dropWhile p = rest := by
  rw [List.dropWhile_append_of_pos hcs]
  cases rest with
  | nil => rfl
  | cons c rest =>
    have hc := hp c (hrest c rfl)
    rw [List.dropWhile_cons_of_neg (by rw [hc]; exact Bool.false_ne_true)]

end Runs

/-! ### Names -/

/-- A name that needs no mark in front: a letter or an underscore, and then letters, digits and
underscores. -/
def IsName (name : String) : Prop :=
  match name.toList with
  | [] => False
  | c :: cs => (c.isAlpha || c = '_') = true ∧ ∀ c ∈ cs, isNameChar c = true

instance (name : String) : Decidable (IsName name) := by
  unfold IsName
  split <;> infer_instance

theorem IsName.exists_cons {name : String} (h : IsName name) :
    ∃ c cs, name.toList = c :: cs ∧ (c.isAlpha || c = '_') = true ∧
      ∀ c ∈ cs, isNameChar c = true := by
  unfold IsName at h
  split at h
  · exact h.elim
  · next c cs hname => exact ⟨c, cs, hname, h.1, h.2⟩

/-- A name is not the beginning of a longer one. -/
theorem notMem_marks {cs rest : List Char} (hcs : ∀ c ∈ cs, isNameChar c = true)
    (hrest : Ends rest) : (cs ++ rest).head? ≠ some '#' := by
  cases cs with
  | nil => exact fun h => absurd (hrest '#' h) (by decide)
  | cons c cs =>
    intro h
    have hc := hcs c List.mem_cons_self
    rw [Option.some.inj h] at hc
    exact absurd hc (by decide)

/-- **A name** is read back. -/
theorem readName?_append {name : String} (h : IsName name) {rest : List Char}
    (hrest : Ends rest) : readName? (name.toList ++ rest) = some (name, rest) := by
  obtain ⟨c, cs, hname, hfirst, hothers⟩ := h.exists_cons
  rw [hname, List.cons_append, readName?.eq_def]
  split
  · next heq =>
    exact absurd (congrArg List.head? (List.cons.inj heq).2) (notMem_marks hothers hrest)
  · next heq =>
    obtain ⟨rfl, rfl⟩ := List.cons.inj heq
    have hstops : ((rest.head?).map isRawNameChar).getD false = false := by
      cases rest with
      | nil => rfl
      | cons d rest =>
        have hraw : ∀ d ∈ [',', ')', ':', '('], isRawNameChar d = false := by decide
        exact hraw d (hrest d rfl)
    rw [if_pos (by simpa using hfirst), takeWhile_append (by decide) hothers hrest,
      dropWhile_append (by decide) hothers hrest, ← hname, String.ofList_toList,
      if_neg (by rw [hstops]; exact Bool.false_ne_true)]
  · next heq => cases heq

/-! ### Texts -/

theorem digit?_digitChar {radix n : Nat} (hn : n < radix) (hradix : radix ≤ 16) :
    Number.digit? radix n.digitChar = some n := by
  have hall : ∀ n < 16, ∀ radix ≤ 16, n < radix →
      Number.digit? radix n.digitChar = some n := by decide
  exact hall n (by omega) radix hradix hn

/-- The digits of a number are read back. -/
theorem foldlM_toDigits {radix : Nat} (h1 : 1 < radix) (h16 : radix ≤ 16) (n : Nat) :
    (Nat.toDigits radix n).foldlM
      (fun n c => (Number.digit? radix c).map (n * radix + ·)) 0 = some n := by
  induction n using Nat.strong_induction_on with
  | _ n ih =>
    by_cases hn : n < radix
    · rw [Nat.toDigits_of_lt_base hn, List.foldlM_cons, digit?_digitChar hn h16]
      simp
    · rw [Nat.toDigits_of_base_le h1 (Nat.le_of_not_lt hn), List.foldlM_append,
        ih (n / radix) (Nat.div_lt_self (by omega) h1)]
      rw [Option.bind_eq_bind, Option.bind_some, List.foldlM_cons,
        digit?_digitChar (Nat.mod_lt n (by omega)) h16, Option.map_some, Nat.mul_comm,
        Nat.div_add_mod]
      rfl

theorem hexValue?_toDigits (n : Nat) : hexValue? (Nat.toDigits 16 n) = some n :=
  foldlM_toDigits (by decide) (by decide) n

theorem ofCodePoint?_toNat (c : Char) : ofCodePoint? c.toNat = some c := by
  unfold ofCodePoint?
  rw [if_pos (show c.toNat.isValidChar from c.valid), Char.ofNat_toNat]

theorem toDigits_ne_brace {n : Nat} : ∀ c ∈ Nat.toDigits 16 n, c ≠ '\x7d' := by
  have hall : ∀ n < 16, n.digitChar ≠ '\x7d' := by decide
  induction n using Nat.strong_induction_on with
  | _ n ih =>
    intro c hc
    by_cases hn : n < 16
    · rw [Nat.toDigits_of_lt_base hn] at hc
      rw [List.mem_singleton.1 hc]
      exact hall n hn
    · rw [Nat.toDigits_of_base_le (by decide) (Nat.le_of_not_lt hn), List.mem_append] at hc
      rcases hc with hc | hc
      · exact ih (n / 16) (by omega) c hc
      · rw [List.mem_singleton.1 hc]
        exact hall _ (Nat.mod_lt n (by decide))

/-- A code point is read back. -/
theorem readEscape?_codePoint (c : Char) (rest : List Char) :
    readEscape? ('u' :: '\x7b' :: (Nat.toDigits 16 c.toNat ++ '\x7d' :: rest)) = some (c, rest) := by
  have hdigits : ∀ d ∈ Nat.toDigits 16 c.toNat, decide (d ≠ '\x7d') = true := fun d hd =>
    decide_eq_true (toDigits_ne_brace d hd)
  have hlength : (Nat.toDigits 16 c.toNat).length ≤ 6 := by
    rw [Nat.length_toDigits_le_iff (by decide) (by decide)]
    have hvalid := c.valid
    have hlt : c.toNat < 0x110000 := by
      rcases hvalid with h | h
      · exact Nat.lt_of_lt_of_le h (by decide)
      · exact h.2
    omega
  have hempty : (Nat.toDigits 16 c.toNat).isEmpty = false :=
    List.isEmpty_eq_false_iff.2 Nat.toDigits_ne_nil
  rw [readEscape?, List.takeWhile_append_of_pos hdigits, List.dropWhile_append_of_pos hdigits,
    List.takeWhile_cons_of_neg (by decide), List.dropWhile_cons_of_neg (by decide),
    List.append_nil, if_neg (by rw [hempty]; simpa using hlength)]
  dsimp only
  rw [hexValue?_toDigits, Option.bind_eq_bind, Option.bind_some, ofCodePoint?_toNat]
  rfl

/-- A character that stands for itself. -/
theorem readQuoted_cons (fuel : Nat) (done rest : List Char) {c : Char} (hquote : c ≠ '"')
    (hback : c ≠ '\\') :
    readQuoted (fuel + 1) done (c :: rest) = readQuoted fuel (c :: done) rest := by
  rw [readQuoted]
  · exact hquote
  · exact hback

theorem readQuoted_backslash {fuel : Nat} {done cs rest : List Char} {c : Char}
    (h : readEscape? cs = some (c, rest)) :
    readQuoted (fuel + 1) done ('\\' :: cs) = readQuoted fuel (c :: done) rest := by
  rw [readQuoted, h]

/-- An escaped character is read back. -/
theorem readQuoted_escape (fuel : Nat) (done rest : List Char) (c : Char) :
    readQuoted (fuel + 1) done ((escape c).toList ++ rest) = readQuoted fuel (c :: done) rest := by
  unfold escape
  split
  -- the characters with an escape of one letter
  iterate 7 exact readQuoted_backslash rfl
  next hquote hback =>
    split_ifs with hshown
    · rw [Char.toString_eq_singleton, String.toList_singleton, List.singleton_append]
      exact readQuoted_cons fuel done rest hquote hback
    · have htext : ("\\u\x7b" ++ hexText c.toNat ++ "\x7d").toList ++ rest =
          '\\' :: 'u' :: '\x7b' :: (Nat.toDigits 16 c.toNat ++ '\x7d' :: rest) := by
        simp [hexText]
      rw [htext]
      exact readQuoted_backslash (readEscape?_codePoint c rest)

theorem toList_quote (s : String) :
    (quote s).toList = '"' :: (s.toList.flatMap (fun c => (escape c).toList) ++ ['"']) := by
  unfold quote
  rw [String.toList_append, String.toList_append, String.toList_join, List.flatMap_map]
  rfl

theorem readQuoted_flatMap {fuel : Nat} (done cs rest : List Char) (hfuel : cs.length < fuel) :
    readQuoted fuel done (cs.flatMap (fun c => (escape c).toList) ++ '"' :: rest) =
      some (String.ofList (done.reverse ++ cs), rest) := by
  induction cs generalizing fuel done with
  | nil =>
    obtain ⟨fuel, rfl⟩ := Nat.exists_eq_add_of_lt hfuel
    rw [List.flatMap_nil, List.nil_append, List.append_nil, readQuoted]
  | cons c cs ih =>
    rw [List.length_cons] at hfuel
    obtain ⟨fuel, rfl⟩ := Nat.exists_eq_add_of_lt hfuel
    rw [List.flatMap_cons, List.append_assoc, readQuoted_escape, ih (c :: done) (by omega),
      List.reverse_cons, List.append_assoc, List.singleton_append]

theorem escape_ne_nil (c : Char) : (escape c).toList ≠ [] := by
  unfold escape
  split
  iterate 7 decide
  split_ifs <;> simp

/-- An escaped text is not shorter than the text. -/
theorem length_le_escaped (cs : List Char) :
    cs.length ≤ (cs.flatMap fun c => (escape c).toList).length := by
  induction cs with
  | nil => exact Nat.le_refl 0
  | cons c cs ih =>
    have hpos := List.length_pos_iff.2 (escape_ne_nil c)
    rw [List.flatMap_cons, List.length_append, List.length_cons]
    omega

/-- **A text** in its quotes is read back. -/
theorem readQuoted_quote (s : String) (rest : List Char) :
    ∃ inner, (quote s).toList ++ rest = '"' :: inner ∧
      readQuoted (inner.length + 1) [] inner = some (s, rest) := by
  refine ⟨s.toList.flatMap (fun c => (escape c).toList) ++ '"' :: rest, ?_, ?_⟩
  · rw [toList_quote, List.cons_append, List.append_assoc, List.singleton_append]
  · have hlength := length_le_escaped s.toList
    rw [readQuoted_flatMap [] s.toList rest (by rw [List.length_append]; omega), List.reverse_nil,
      List.nil_append, String.ofList_toList]

/-! ### Numbers -/

theorem isRawNameChar_of_isDigit {c : Char} (h : c.isDigit = true) : isRawNameChar c = true := by
  unfold isRawNameChar isNameChar Char.isAlphanum
  rw [h]
  simp

/-- A literal that can be read is read as itself. -/
theorem readNumber?_append (literal : List Char) (hchars : ∀ c ∈ literal, isRawNameChar c = true)
    (hnumber : (readInt? literal).isSome ∨ (readFloat? literal).isSome) {rest : List Char}
    (hrest : Ends rest) :
    readNumber? (literal ++ rest) = some (.number (String.ofList literal), rest) := by
  unfold readNumber?
  rw [takeWhile_append (by decide) hchars hrest, dropWhile_append (by decide) hchars hrest,
    if_pos hnumber]

theorem ne_of_isDigit {c : Char} (h : c.isDigit = true) {d : Char} (hd : d.isDigit = false) :
    c ≠ d := by
  rintro rfl
  rw [h] at hd
  cases hd

/-- The digits of a whole number are read back. -/
theorem readNat?_toDigits (n : Nat) : readNat? (Nat.toDigits 10 n) = some n := by
  have hdigits : ∀ c ∈ Nat.toDigits 10 n, c.isDigit = true := fun c hc =>
    Nat.isDigit_of_mem_toDigits (by decide) (by decide) hc
  have hsecond : ∀ d rest, Nat.toDigits 10 n ≠ '0' :: d :: rest ∨ d.isDigit = true := by
    intro d rest
    by_cases h : Nat.toDigits 10 n = '0' :: d :: rest
    · exact Or.inr (hdigits d (by rw [h]; simp))
    · exact Or.inl h
  have hempty : (Nat.toDigits 10 n).isEmpty = false :=
    List.isEmpty_eq_false_iff.2 Nat.toDigits_ne_nil
  have hhead : (Nat.toDigits 10 n).head? ≠ some '_' := fun h =>
    ne_of_isDigit (hdigits '_' (List.mem_of_head? h)) (d := '_') (by decide) rfl
  have hfilter : (Nat.toDigits 10 n).filter (fun c => decide (c ≠ '_')) = Nat.toDigits 10 n :=
    List.filter_eq_self.2 fun c hc => decide_eq_true (ne_of_isDigit (hdigits c hc) (by decide))
  unfold readNat?
  split
  · next digits h => exact absurd ((hsecond 'x' digits).resolve_left (not_not.2 h)) (by decide)
  · next digits h => exact absurd ((hsecond 'b' digits).resolve_left (not_not.2 h)) (by decide)
  · next digits h => exact absurd ((hsecond 'o' digits).resolve_left (not_not.2 h)) (by decide)
  · unfold radixDigits?
    rw [hfilter, if_neg (by rw [hempty]; simpa using hhead)]
    exact foldlM_toDigits (by decide) (by decide) n

/-- **A whole number** is read back. -/
theorem readInt?_toString (n : Int) : readInt? (toString n).toList = some n := by
  cases n with
  | ofNat n =>
    have hdigits : ∀ c ∈ Nat.toDigits 10 n, c.isDigit = true := fun c hc =>
      Nat.isDigit_of_mem_toDigits (by decide) (by decide) hc
    show readInt? (toString n).toList = _
    rw [toList_natText]
    unfold readInt?
    split
    · next cs h =>
      exact absurd (hdigits '+' (by rw [h]; exact List.mem_cons_self)) (by decide)
    · next cs h =>
      exact absurd (hdigits '-' (by rw [h]; exact List.mem_cons_self)) (by decide)
    · rw [readNat?_toDigits]
      rfl
  | negSucc n =>
    show readInt? ("-" ++ toString (n + 1)).toList = _
    have htext : ("-" ++ toString (n + 1)).toList = '-' :: Nat.toDigits 10 (n + 1) := by
      rw [String.toList_append, toList_natText]
      rfl
    rw [htext, readInt?, readNat?_toDigits]
    rfl

/-! ### Floating-point numbers -/

/-- A literal of digits, a point and digits, with a minus sign in front if need be. -/
def decimal (negative : Bool) (whole fraction : List Char) : List Char :=
  (if negative then ['-'] else []) ++ (whole ++ '.' :: fraction)

/-- **A finite floating-point number** is written as a decimal that denotes it. -/
theorem exists_floatText {x : Binary32} (hfinite : x.magnitude < Binary32.infiniteMagnitude) :
    ∃ whole fraction, (floatText x).toList = decimal x.isNegative whole fraction ∧
      whole ≠ [] ∧ (∀ c ∈ whole, c.isDigit = true) ∧ fraction ≠ [] ∧
        (∀ c ∈ fraction, c.isDigit = true) ∧ x.Denotes whole fraction := by
  obtain ⟨hnan, hinf⟩ := Binary32.magnitude_lt_iff.1 hfinite
  -- the text is a sign, digits, and a fraction if there is one
  obtain ⟨n, fraction, htext, hfraction, hdenotes⟩ := Binary32.exists_text_denotes hfinite
  have hdigits : ∀ c ∈ Nat.toDigits 10 n, c.isDigit = true := Number.isDigit_of_mem_toDigits
  unfold floatText
  dsimp only
  rw [hnan, hinf, Bool.false_or, Bool.false_or]
  by_cases hempty : fraction = []
  · -- a point and a zero stand behind a whole number
    have hpoint : x.text.toList.contains '.' = false := by
      rw [htext, if_pos hempty, List.append_nil, ← Bool.not_eq_true, List.contains_iff_mem]
      intro hmem
      rcases List.mem_append.1 hmem with hmem | hmem
      · split_ifs at hmem
        · exact absurd (List.mem_singleton.1 hmem) (by decide)
        · cases hmem
      · exact absurd (hdigits '.' hmem) (by decide)
    subst hempty
    refine ⟨Nat.toDigits 10 n, ['0'], ?_, Nat.toDigits_ne_nil, hdigits, List.cons_ne_nil _ _,
      by decide, hdenotes.point_zero⟩
    rw [hpoint, if_neg Bool.false_ne_true, String.toList_append, htext, if_pos rfl,
      List.append_nil, List.append_assoc]
    rfl
  · have hpoint : x.text.toList.contains '.' = true := by
      rw [htext, if_neg hempty, List.contains_iff_mem]
      simp
    refine ⟨Nat.toDigits 10 n, fraction, ?_, Nat.toDigits_ne_nil, hdigits, hempty, hfraction,
      hdenotes⟩
    rw [hpoint, if_pos rfl, htext, if_neg hempty]
    rfl

/-- The characters of a decimal can be those of a literal. -/
theorem isPart_of_mem_decimal {negative : Bool} {whole fraction : List Char}
    (hwhole : ∀ c ∈ whole, c.isDigit = true) (hfraction : ∀ c ∈ fraction, c.isDigit = true) :
    ∀ c ∈ decimal negative whole fraction, c.isDigit = true ∨ c = '-' ∨ c = '.' := by
  intro c hc
  unfold decimal at hc
  rcases List.mem_append.1 hc with hc | hc
  · split_ifs at hc
    · exact Or.inr (Or.inl (List.mem_singleton.1 hc))
    · cases hc
  · rcases List.mem_append.1 hc with hc | hc
    · exact Or.inl (hwhole c hc)
    · rcases List.mem_cons.1 hc with rfl | hc
      · exact Or.inr (Or.inr rfl)
      · exact Or.inl (hfraction c hc)

/-- **A finite floating-point number** is read back from its literal. -/
theorem readFloat?_floatText {x : Binary32} (hfinite : x.magnitude < Binary32.infiniteMagnitude) :
    readFloat? (floatText x).toList = some x := by
  obtain ⟨whole, fraction, htext, hne, hwhole, hpoint, hfraction, hdenotes⟩ :=
    exists_floatText hfinite
  have hparts : (floatText x).toList.all (fun c => c.isDigit || c = '.' || c = 'e' || c = 'E' ||
      c = '+' || c = '-') = true := by
    rw [htext]
    refine List.all_eq_true.2 fun c hc => ?_
    rcases isPart_of_mem_decimal hwhole hfraction c hc with h | rfl | rfl
    · rw [h]; rfl
    · rfl
    · rfl
  have hread := Binary32.ofText?_of_denotes hfinite hne hwhole hfraction hdenotes
  rw [if_neg hpoint] at hread
  unfold readFloat?
  dsimp only
  rw [if_pos (Or.inl hparts), htext]
  exact hread

/-- **A finite floating-point number** is read back as its literal. -/
theorem readNumber?_float {x : Binary32} (hfinite : x.magnitude < Binary32.infiniteMagnitude)
    {rest : List Char} (hrest : Ends rest) :
    readNumber? ((floatText x).toList ++ rest) = some (.number (floatText x), rest) := by
  obtain ⟨whole, fraction, htext, -, hwhole, -, hfraction, -⟩ := exists_floatText hfinite
  have hchars : ∀ c ∈ (floatText x).toList, isRawNameChar c = true := by
    rw [htext]
    intro c hc
    rcases isPart_of_mem_decimal hwhole hfraction c hc with h | rfl | rfl
    · exact isRawNameChar_of_isDigit h
    · decide
    · decide
  rw [readNumber?_append _ hchars (Or.inr (by rw [readFloat?_floatText hfinite]; rfl)) hrest,
    String.ofList_toList]

/-- **A whole number** is read back as its literal. -/
theorem readNumber?_int (n : Int) {rest : List Char} (hrest : Ends rest) :
    readNumber? ((toString n).toList ++ rest) = some (.number (toString n), rest) := by
  have hchars : ∀ c ∈ (toString n).toList, isRawNameChar c = true := by
    intro c hc
    rcases isNumeric_intText n c hc with h | rfl | rfl
    · unfold isRawNameChar isNameChar
      rw [h]
      rfl
    · decide
    · decide
  rw [readNumber?_append _ hchars (Or.inl (by rw [readInt?_toString]; rfl)) hrest,
    String.ofList_toList]

end RecordTables.Ron
