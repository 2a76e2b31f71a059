import Mathlib
import RecordTables.Proofs.Format.Ron.Tokens

/-!
# Reading back what was written as RON

`Node.tree` is the tree that the text of data should read as.  If the names in the data are plain
ones (`Node.HasPlainNames`), it does (`Ron.ofText?_ron`): every part is read back whatever stands
behind it, as long as that is a comma or a closing bracket.
-/

namespace RecordTables

open Number (Binary32)
open Ron

/-! ### The tree of data -/

/-- A floating-point number as RON. -/
def Ron.ofFloat (x : Binary32) : Ron :=
  if x.isNaN then .word "NaN"
  else if x.isInfinite && !x.isNegative then .word "inf"
  else .number (floatText x)

namespace Node

mutual

/-- The tree that the text of data reads as.  A record without parts reads as an empty tuple. -/
def tree : Node → Ron
  | bool b => .word (if b then "true" else "false")
  | int n => .number (toString n)
  | float x => .ofFloat x
  | text s => .text s
  | word name => .word name
  | absent => .word "None"
  | present x => .tuple (some "Some") [x.tree]
  | list items => .list (trees items)
  | tuple items => .tuple none (trees items)
  | record fields =>
    if fields.isEmpty then .tuple none [] else .record none (fieldTrees fields)
  | map entries => .map ((fieldTrees entries).map fun e => (.text e.1, e.2))
  | tagged name x => .tuple (some name) [x.tree]
  | taggedRecord name fields =>
    if fields.isEmpty then .tuple (some name) [] else .record (some name) (fieldTrees fields)

/-- The trees of elements. -/
def trees : List Node → List Ron
  | [] => []
  | x :: rest => x.tree :: trees rest

/-- The trees of named parts. -/
def fieldTrees : List (String × Node) → List (String × Ron)
  | [] => []
  | f :: rest => (f.1, f.2.tree) :: fieldTrees rest

end

mutual

/-- All words, titles and names of parts need no mark in front. -/
def HasPlainNames : Node → Prop
  | word name => IsName name
  | present x => x.HasPlainNames
  | list items => AllPlain items
  | tuple items => AllPlain items
  | record fields => FieldsPlain fields
  | map entries => EntriesPlain entries
  | tagged name x => IsName name ∧ x.HasPlainNames
  | taggedRecord name fields => IsName name ∧ FieldsPlain fields
  | bool _ | int _ | float _ | text _ | absent => True

/-- The names in all elements are plain. -/
def AllPlain : List Node → Prop
  | [] => True
  | x :: rest => x.HasPlainNames ∧ AllPlain rest

/-- The names of all parts are plain, and those in them. -/
def FieldsPlain : List (String × Node) → Prop
  | [] => True
  | f :: rest => IsName f.1 ∧ f.2.HasPlainNames ∧ FieldsPlain rest

/-- The names in all entries are plain; their keys are texts. -/
def EntriesPlain : List (String × Node) → Prop
  | [] => True
  | e :: rest => e.2.HasPlainNames ∧ EntriesPlain rest

end

end Node

namespace Ron

/-! ### One value at a time -/

section Values

variable {fuel : Nat} {cs rest : List Char}

theorem readValue_of_skipGap {cs' : List Char} (h : skipGap cs' = skipGap cs) :
    readValue fuel cs' = readValue fuel cs := by
  cases fuel with
  | zero => rfl
  | succ fuel => rw [readValue, readValue, h]

theorem readValue_text (h : skipGap cs = some ('"' :: rest)) :
    readValue (fuel + 1) cs =
      (readQuoted (rest.length + 1) [] rest).map fun (s, rest) => (.text s, rest) := by
  rw [readValue, h]
  rfl

theorem readValue_list (h : skipGap cs = some ('[' :: rest)) :
    readValue (fuel + 1) cs =
      (readItems fuel ']' rest).map fun (items, rest) => (.list items, rest) := by
  rw [readValue, h]
  rfl

theorem readValue_map (h : skipGap cs = some ('\x7b' :: rest)) :
    readValue (fuel + 1) cs =
      (readEntries fuel rest).map fun (entries, rest) => (.map entries, rest) := by
  rw [readValue, h]
  rfl

theorem readValue_body (h : skipGap cs = some ('(' :: rest)) :
    readValue (fuel + 1) cs = readBody fuel none rest := by
  rw [readValue, h]
  rfl

theorem readValue_number {c : Char} (h : skipGap cs = some (c :: rest))
    (hc : beginsNumber c = true) : readValue (fuel + 1) cs = readNumber? (c :: rest) := by
  rw [readValue, h]
  split
  -- the characters that begin other values
  iterate 5
    rename_i heq
    exact absurd hc (by rw [(List.cons.inj (Option.some.inj heq)).1]; decide)
  · next heq =>
    obtain ⟨rfl, rfl⟩ := List.cons.inj (Option.some.inj heq)
    rw [if_pos hc]
  · next hnone => exact absurd rfl (hnone c rest)

/-- A name does not begin like a number. -/
theorem beginsNumber_of_first {c : Char} (h : (c.isAlpha || c = '_') = true) :
    beginsNumber c = false := by
  unfold beginsNumber
  rcases Bool.or_eq_true_iff.1 h with h | h
  · have hdigit : c.isDigit = false := by
      simp only [Char.isAlpha, Char.isUpper, Char.isLower, Char.isDigit, Bool.or_eq_true,
        Bool.and_eq_true, Bool.and_eq_false_iff, decide_eq_true_eq, decide_eq_false_iff_not,
        UInt32.le_iff_toNat_le, ge_iff_le] at h ⊢
      have hA : 'A'.val.toNat = 65 := rfl
      have ha : 'a'.val.toNat = 97 := rfl
      have h9 : '9'.val.toNat = 57 := rfl
      omega
    have hsigns : ∀ d ∈ ['+', '-', '.'], c ≠ d := by
      rintro d hd rfl
      have hall : ∀ d ∈ ['+', '-', '.'], d.isAlpha = false := by decide
      rw [hall c hd] at h
      cases h
    simp [hdigit, hsigns]
  · rw [of_decide_eq_true h]
    decide

/-- A name is not the beginning of a text without escapes. -/
theorem beginsRawText_append {name : String} (h : IsName name) (hrest : Ends rest) :
    beginsRawText (name.toList ++ rest) = false := by
  obtain ⟨c, cs, hname, -, hothers⟩ := h.exists_cons
  rw [hname, List.cons_append]
  unfold beginsRawText
  split
  · next raw heq =>
    obtain rfl : cs ++ rest = raw := (List.cons.inj heq).2
    -- what follows the first letter does not begin with a mark, so no mark is taken away
    have hmark : (cs ++ rest).dropWhile (fun c => decide (c = '#')) = cs ++ rest := by
      cases hhead : cs ++ rest with
      | nil => rfl
      | cons d others =>
        refine List.dropWhile_cons_of_neg fun hd => ?_
        refine notMem_marks hothers hrest ?_
        rw [hhead, List.head?_cons, of_decide_eq_true hd]
    unfold readRawText?
    dsimp only
    rw [hmark]
    split
    -- a raw text would need a quotation mark after the first letter
    · next heq' =>
      exfalso
      cases cs with
      | nil => exact absurd (hrest '"' (by rw [List.nil_append] at heq'; rw [heq']; rfl)) (by decide)
      | cons d others =>
        have hd := hothers d List.mem_cons_self
        rw [(List.cons.inj heq').1] at hd
        exact absurd hd (by decide)
    · rfl
  · rfl

theorem readValue_name {name : String} (hname : IsName name) (hrest : Ends rest)
    (h : skipGap cs = some (name.toList ++ rest)) :
    readValue (fuel + 1) cs =
      match skipGap rest with
      | some ('(' :: inner) => readBody fuel (some name) inner
      | _ => some (.word name, rest) := by
  have hraw := beginsRawText_append hname hrest
  have hread := readName?_append hname hrest
  obtain ⟨c, cs', hcs, hfirst, -⟩ := hname.exists_cons
  rw [hcs, List.cons_append] at h hraw hread
  rw [readValue, h]
  split
  -- the characters that begin other values
  iterate 5
    rename_i heq
    exact absurd hfirst (by rw [(List.cons.inj (Option.some.inj heq)).1]; decide)
  · next heq =>
    obtain ⟨rfl, rfl⟩ := List.cons.inj (Option.some.inj heq)
    rw [if_neg (by rw [beginsNumber_of_first hfirst]; exact Bool.false_ne_true),
      if_neg (by rw [hraw]; exact Bool.false_ne_true)]
    exact hread ▸ rfl
  · next hnone => exact absurd rfl (hnone c _)

end Values

/-! ### What stands behind a value -/

/-- Nothing, a comma or a closing bracket. -/
def Closes (rest : List Char) : Prop := ∀ c ∈ rest.head?, c = ',' ∨ c = ')'

theorem closes_cons {c : Char} (h : c = ',' ∨ c = ')') (rest : List Char) : Closes (c :: rest) :=
  fun d hd => by rwa [← Option.some.inj hd]

theorem closes_nil : Closes [] := fun _ h => nomatch h

theorem Closes.ends {rest : List Char} (h : Closes rest) : Ends rest := by
  intro c hc
  rcases h c hc with rfl | rfl <;> decide

/-- The gap behind a value has no characters. -/
theorem Closes.skipGap {rest : List Char} (h : Closes rest) : skipGap rest = some rest := by
  cases rest with
  | nil => rfl
  | cons c rest =>
    rcases h c rfl with rfl | rfl
    · exact skipGap_of_not (by decide) (by decide) rest
    · exact skipGap_of_not (by decide) (by decide) rest

/-- The characters that begin a value. -/
def Begins (c : Char) : Prop := isGap c = false ∧ c ∉ ['/', ']', ')', '\x7d']

instance : DecidablePred Begins := fun _ => inferInstanceAs (Decidable (_ ∧ _))

theorem Begins.skipGap {c : Char} (h : Begins c) (cs : List Char) :
    skipGap (c :: cs) = some (c :: cs) :=
  skipGap_of_not h.1 (fun heq => h.2 (by rw [heq]; decide)) cs

/-- A character begins a value if it is of a class without gaps and closing characters. -/
theorem begins_of_class (isFirst : Char → Bool)
    (hgaps : ∀ d ∈ [' ', '\t', '\n', '\r'], isFirst d = false)
    (hclosing : ∀ d ∈ ['/', ']', ')', '\x7d'], isFirst d = false) {c : Char}
    (h : isFirst c = true) : Begins c := by
  constructor
  · by_contra hne
    rw [Bool.not_eq_false] at hne
    have hmem : c ∈ [' ', '\t', '\n', '\r'] := by simpa [isGap, or_assoc] using hne
    rw [hgaps c hmem] at h
    cases h
  · intro hmem
    rw [hclosing c hmem] at h
    cases h

theorem begins_of_first {c : Char} (h : (c.isAlpha || c = '_') = true) : Begins c :=
  begins_of_class (fun c => c.isAlpha || c = '_') (by decide) (by decide) h

theorem begins_of_beginsNumber {c : Char} (h : beginsNumber c = true) : Begins c :=
  begins_of_class beginsNumber (by decide) (by decide) h

/-- A gap is a run of characters that may stand between parts. -/
def IsGap (gap : List Char) : Prop := ∀ c ∈ gap, isGap c = true

instance : DecidablePred IsGap := fun gap =>
  inferInstanceAs (Decidable (∀ c ∈ gap, isGap c = true))

theorem IsGap.append {gap gap' : List Char} (h : IsGap gap) (h' : IsGap gap') :
    IsGap (gap ++ gap') :=
  List.forall_mem_append.2 ⟨h, h'⟩

end Ron

/-! ### Data that is read back -/

namespace Node

/-- Whatever the indentation, the text of the data reads as its tree, and not as the name of a part.
-/
structure ReadsBack (x : Node) : Prop where
  begins : ∀ indent, ∃ c cs, (x.ronAt indent).toList = c :: cs ∧ Begins c
  read : ∀ indent fuel rest, IsGap indent.toList → 2 * (x.ronAt indent).toList.length ≤ fuel →
    Closes rest → readValue fuel ((x.ronAt indent).toList ++ rest) = some (x.tree, rest)
  unnamed : ∀ indent rest, Closes rest → readFieldName? ((x.ronAt indent).toList ++ rest) = none

end Node

namespace Ron

open Node (ronItems ronFields trees fieldTrees)

variable {x : Node} {items : List Node} {fields : List (String × Node)} {fuel : Nat}
  {cs gap back rest tail : List Char} {indent : String}

theorem skipGap_readsBack (h : x.ReadsBack) (hgap : IsGap gap) (indent : String)
    (rest : List Char) :
    skipGap (gap ++ ((x.ronAt indent).toList ++ rest)) =
      some ((x.ronAt indent).toList ++ rest) := by
  obtain ⟨c, cs, hcs, hc⟩ := h.begins indent
  rw [skipGap_append hgap, hcs]
  exact hc.skipGap _

/-! ### Elements -/

section OneElement

variable (h : x.ReadsBack) {closing : Char} (hclosing : closing ∈ [']', ')'])
  (hcs : skipGap cs = some ((x.ronAt indent).toList ++ tail))
  (hread : readValue fuel ((x.ronAt indent).toList ++ tail) = some (x.tree, tail))

include h hclosing hcs hread

/-- One element is read, and then what its end says. -/
theorem readItems_cons :
    readItems (fuel + 1) closing cs =
      match skipGap tail with
      | some (',' :: rest) =>
        (readItems fuel closing rest).map fun (items, rest) => (x.tree :: items, rest)
      | some (c :: rest) => if c = closing then some ([x.tree], rest) else none
      | _ => none := by
  obtain ⟨c, text, htext, hc⟩ := h.begins indent
  have hne : c ≠ closing := by
    rintro rfl
    refine hc.2 ?_
    rcases List.mem_cons.1 hclosing with rfl | hclosing
    · decide
    · rw [List.mem_singleton.1 hclosing]
      decide
  rw [htext, List.cons_append] at hcs hread
  rw [readItems, hcs]
  dsimp only
  rw [if_neg hne]
  exact hread ▸ rfl

theorem readItems_comma (htail : tail = ',' :: rest) :
    readItems (fuel + 1) closing cs =
      (readItems fuel closing rest).map fun (items, rest) => (x.tree :: items, rest) := by
  rw [readItems_cons h hclosing hcs hread, htail, skipGap_of_not (by decide) (by decide)]
  rfl

theorem readItems_last (htail : tail = closing :: rest) :
    readItems (fuel + 1) closing cs = some ([x.tree], rest) := by
  rw [readItems_cons h hclosing hcs hread, htail]
  rcases List.mem_cons.1 hclosing with rfl | hclosing
  · rw [skipGap_of_not (by decide) (by decide)]
    rfl
  · rw [List.mem_singleton.1 hclosing, skipGap_of_not (by decide) (by decide)]
    rfl

end OneElement

theorem readItems_nil {closing : Char} (hcs : skipGap cs = some (closing :: rest)) :
    readItems (fuel + 1) closing cs = some ([], rest) := by
  rw [readItems, hcs]
  dsimp only
  rw [if_pos rfl]

/-- Parts on lines of their own. -/
def lines (indent : String) (parts : List String) : List Char :=
  parts.flatMap fun part => indent.toList ++ (part.toList ++ [',', '\n'])

theorem lines_cons (indent part : String) (parts : List String) :
    lines indent (part :: parts) =
      indent.toList ++ (part.toList ++ ',' :: '\n' :: lines indent parts) := by
  unfold lines
  rw [List.flatMap_cons, List.append_assoc, List.append_assoc]
  rfl

theorem toList_block (indent opening closing : String) {parts : List String} (h : parts ≠ []) :
    (block indent opening closing parts).toList =
      opening.toList ++ '\n' :: (lines (indent ++ levelIndent) parts ++
        (indent.toList ++ closing.toList)) := by
  unfold block lines
  rw [if_neg (mt List.isEmpty_iff.1 h)]
  simp [List.flatMap_map, List.append_assoc]

theorem isGap_nil : IsGap [] := fun _ hc => nomatch hc

theorem isGap_blank : IsGap [' '] := by decide

theorem isGap_newline : IsGap ['\n'] := by decide

/-- The elements of a list are read back. -/
theorem readItems_lines (h : ∀ x ∈ items, x.ReadsBack) (hindent : IsGap indent.toList)
    (hgap : IsGap gap) (hback : IsGap back) (fuel : Nat) (rest : List Char)
    (hfuel : 2 * (lines indent (ronItems indent items)).length + 1 ≤ fuel) :
    readItems fuel ']' (gap ++ (lines indent (ronItems indent items) ++ (back ++ ']' :: rest))) =
      some (trees items, rest) := by
  induction items generalizing fuel gap with
  | nil =>
    obtain ⟨fuel, rfl⟩ := Nat.exists_eq_add_of_lt hfuel
    refine readItems_nil ?_
    show skipGap (gap ++ ([] ++ (back ++ ']' :: rest))) = _
    rw [skipGap_append hgap, List.nil_append, skipGap_append hback]
    exact skipGap_of_not (by decide) (by decide) rest
  | cons x items ih =>
    have hx := h x List.mem_cons_self
    rw [ronItems, lines_cons] at hfuel ⊢
    simp only [List.length_append, List.length_cons] at hfuel
    obtain ⟨fuel, rfl⟩ : ∃ n, fuel = n + 1 := ⟨fuel - 1, by omega⟩
    simp only [List.append_assoc, List.cons_append]
    rw [← List.append_assoc]
    have hrest := ih (fun y hy => h y (List.mem_cons_of_mem _ hy)) isGap_newline fuel
      (by omega)
    rw [List.singleton_append] at hrest
    rw [readItems_comma hx (by decide) (skipGap_readsBack hx (hgap.append hindent) _ _)
      (hx.read indent fuel _ hindent (by omega) (closes_cons (Or.inl rfl) _)) rfl, hrest]
    rfl

/-- The parts of a tuple are read back. -/
theorem readItems_tuple (h : ∀ x ∈ items, x.ReadsBack) (hindent : IsGap indent.toList)
    (hgap : IsGap gap) (hne : items ≠ []) (fuel : Nat) (rest : List Char)
    (hfuel : 2 * ([',', ' '].intercalate ((ronItems indent items).map String.toList)).length + 1 ≤
      fuel) :
    readItems fuel ')' (gap ++ ([',', ' '].intercalate ((ronItems indent items).map String.toList) ++
      ')' :: rest)) = some (trees items, rest) := by
  induction items generalizing fuel gap with
  | nil => exact absurd rfl hne
  | cons x items ih =>
    have hx := h x List.mem_cons_self
    -- the last item is closed by the parenthesis, any other by a comma
    cases items with
    | nil =>
      rw [ronItems, ronItems, List.map_singleton, List.intercalate_singleton] at hfuel ⊢
      obtain ⟨fuel, rfl⟩ : ∃ n, fuel = n + 1 := ⟨fuel - 1, by omega⟩
      rw [readItems_last hx (by decide) (skipGap_readsBack hx hgap _ _)
        (hx.read indent fuel _ hindent (by omega) (closes_cons (Or.inr rfl) _)) rfl]
      rfl
    | cons y items =>
      rw [ronItems, List.map_cons, ronItems, List.map_cons, List.intercalate_cons_cons,
        ← List.map_cons, ← ronItems] at hfuel ⊢
      simp only [List.length_append, List.length_cons, List.length_nil] at hfuel
      obtain ⟨fuel, rfl⟩ : ∃ n, fuel = n + 1 := ⟨fuel - 1, by omega⟩
      simp only [List.append_assoc, List.cons_append, List.nil_append]
      have hrest := ih (fun y hy => h y (List.mem_cons_of_mem _ hy)) isGap_blank
        (List.cons_ne_nil _ _) fuel (by omega)
      rw [List.singleton_append] at hrest
      rw [readItems_comma hx (by decide) (skipGap_readsBack hx hgap _ _)
        (hx.read indent fuel _ hindent (by omega) (closes_cons (Or.inl rfl) _)) rfl, hrest]
      rfl

/-! ### Named parts -/

theorem readFieldName?_append {name : String} (h : IsName name) (rest : List Char) :
    readFieldName? (name.toList ++ ':' :: rest) = some (name, rest) := by
  unfold readFieldName?
  rw [readName?_append h (ends_cons (by decide) rest)]
  dsimp only
  rw [skipGap_of_not (by decide) (by decide)]
  rfl

/-- One named part is read, and the others behind its comma. -/
theorem readFields_cons {name : String} (hname : IsName name)
    (hcs : skipGap cs =
      some (name.toList ++ ':' :: ' ' :: ((x.ronAt indent).toList ++ ',' :: rest)))
    (hread : readValue fuel ((x.ronAt indent).toList ++ ',' :: rest) =
      some (x.tree, ',' :: rest)) :
    readFields (fuel + 1) cs =
      (readFields fuel rest).map fun (fields, rest) => ((name, x.tree) :: fields, rest) := by
  have hfield := readFieldName?_append hname (' ' :: ((x.ronAt indent).toList ++ ',' :: rest))
  have hvalue : readValue fuel (' ' :: ((x.ronAt indent).toList ++ ',' :: rest)) =
      some (x.tree, ',' :: rest) := by
    rw [readValue_of_skipGap (skipGap_cons (by decide) _), hread]
  rw [readFields, hcs]
  split
  -- a name does not begin with the parenthesis that closes the fields
  · next heq =>
    obtain ⟨c, cs', hcs', hfirst, -⟩ := hname.exists_cons
    rw [hcs', List.cons_append] at heq
    rw [(List.cons.inj (Option.some.inj heq)).1] at hfirst
    exact absurd hfirst (by decide)
  · next heq =>
    rw [← Option.some.inj heq, hfield]
    dsimp only
    rw [hvalue]
    dsimp only
    rw [skipGap_of_not (by decide) (by decide)]
    rfl
  · next heq => cases heq

theorem skipGap_isName {name : String} (h : IsName name) (hgap : IsGap gap) :
    skipGap (gap ++ (name.toList ++ rest)) = some (name.toList ++ rest) := by
  obtain ⟨c, cs, hcs, hfirst, -⟩ := h.exists_cons
  rw [skipGap_append hgap, hcs]
  exact (begins_of_first hfirst).skipGap _

theorem toList_part (name : String) (x : Node) (indent : String) (rest : List Char) :
    (name ++ ": " ++ x.ronAt indent).toList ++ rest =
      name.toList ++ ':' :: ' ' :: ((x.ronAt indent).toList ++ rest) := by
  rw [String.toList_append, String.toList_append, List.append_assoc, List.append_assoc]
  rfl

/-- The parts of a record are read back. -/
theorem readFields_lines (h : ∀ f ∈ fields, IsName f.1 ∧ f.2.ReadsBack)
    (hindent : IsGap indent.toList) (hgap : IsGap gap) (hback : IsGap back) (fuel : Nat)
    (rest : List Char) (hfuel : 2 * (lines indent (ronFields id indent fields)).length + 1 ≤ fuel) :
    readFields fuel (gap ++ (lines indent (ronFields id indent fields) ++ (back ++ ')' :: rest))) =
      some (fieldTrees fields, rest) := by
  induction fields generalizing fuel gap with
  | nil =>
    obtain ⟨fuel, rfl⟩ : ∃ n, fuel = n + 1 := ⟨fuel - 1, by omega⟩
    -- without fields there is only the gap before the parenthesis
    have hcs : skipGap (gap ++ (lines indent (ronFields id indent []) ++ (back ++ ')' :: rest))) =
        some (')' :: rest) := by
      show skipGap (gap ++ ([] ++ (back ++ ')' :: rest))) = _
      rw [skipGap_append hgap, List.nil_append, skipGap_append hback]
      exact skipGap_of_not (by decide) (by decide) rest
    rw [readFields, hcs]
    all_goals rfl
  | cons f fields ih =>
    obtain ⟨hname, hx⟩ := h f List.mem_cons_self
    rw [ronFields, lines_cons] at hfuel ⊢
    have htext := toList_part f.1 f.2 indent
    -- one line has the name, the value and a comma, and the others are read with what fuel is left
    have hlength := congrArg List.length (htext [])
    simp only [List.append_nil, List.length_append, List.length_cons] at hfuel hlength
    obtain ⟨fuel, rfl⟩ : ∃ n, fuel = n + 1 := ⟨fuel - 1, by omega⟩
    simp only [List.append_assoc, List.cons_append, id_eq]
    rw [← List.append_assoc, htext]
    have hrest := ih (fun g hg => h g (List.mem_cons_of_mem _ hg)) isGap_newline fuel
      (by omega)
    rw [List.singleton_append] at hrest
    rw [readFields_cons hname (skipGap_isName hname (hgap.append hindent))
      (hx.read indent fuel _ hindent (by simp only [id_eq] at hfuel; omega)
        (closes_cons (Or.inl rfl) _)), hrest]
    rfl

/-! ### Entries -/

/-- A text is read as a value. -/
theorem readValue_quote (key : String) (rest : List Char) :
    readValue (fuel + 1) ((quote key).toList ++ rest) = some (.text key, rest) := by
  obtain ⟨inner, htext, hread⟩ := readQuoted_quote key rest
  rw [htext, readValue_text (skipGap_of_not (by decide) (by decide) inner), hread]
  rfl

theorem skipGap_quote (key : String) (hgap : IsGap gap) :
    skipGap (gap ++ ((quote key).toList ++ rest)) = some ((quote key).toList ++ rest) := by
  rw [skipGap_append hgap, toList_quote]
  exact skipGap_of_not (by decide) (by decide) _

/-- One entry is read, and the others behind its comma. -/
theorem readEntries_cons (key : String)
    (hcs : skipGap cs =
      some ((quote key).toList ++ ':' :: ' ' :: ((x.ronAt indent).toList ++ ',' :: rest)))
    (hread : readValue (fuel + 1) ((x.ronAt indent).toList ++ ',' :: rest) =
      some (x.tree, ',' :: rest)) :
    readEntries (fuel + 2) cs =
      (readEntries (fuel + 1) rest).map fun (entries, rest) =>
        ((.text key, x.tree) :: entries, rest) := by
  have hkey : readValue (fuel + 1) ((quote key).toList ++ ':' :: ' ' :: ((x.ronAt indent).toList ++
      ',' :: rest)) = some (.text key, ':' :: ' ' :: ((x.ronAt indent).toList ++ ',' :: rest)) :=
    readValue_quote key _
  have hvalue : readValue (fuel + 1) (' ' :: ((x.ronAt indent).toList ++ ',' :: rest)) =
      some (x.tree, ',' :: rest) := by
    rw [readValue_of_skipGap (skipGap_cons (by decide) _), hread]
  rw [readEntries, hcs]
  split
  -- a key begins with a quotation mark, not with the bracket that closes the entries
  · next heq =>
    rw [toList_quote, List.cons_append] at heq
    exact absurd (List.cons.inj (Option.some.inj heq)).1 (by decide)
  · next heq =>
    rw [← Option.some.inj heq, hkey]
    dsimp only
    rw [skipGap_of_not (by decide) (by decide)]
    simp only [hvalue]
    rw [skipGap_of_not (by decide) (by decide)]
    rfl
  · next heq => cases heq

/-- The entries of a map are read back. -/
theorem readEntries_lines (h : ∀ e ∈ fields, e.2.ReadsBack) (hindent : IsGap indent.toList)
    (hgap : IsGap gap) (hback : IsGap back) (fuel : Nat) (rest : List Char)
    (hfuel : 2 * (lines indent (ronFields quote indent fields)).length + 1 ≤ fuel) :
    readEntries fuel (gap ++ (lines indent (ronFields quote indent fields) ++
      (back ++ '\x7d' :: rest))) =
        some ((fieldTrees fields).map fun e => (.text e.1, e.2), rest) := by
  induction fields generalizing fuel gap with
  | nil =>
    obtain ⟨fuel, rfl⟩ : ∃ n, fuel = n + 1 := ⟨fuel - 1, by omega⟩
    have hcs : skipGap (gap ++ (lines indent (ronFields quote indent []) ++ (back ++ '\x7d' :: rest))) =
        some ('\x7d' :: rest) := by
      show skipGap (gap ++ ([] ++ (back ++ '\x7d' :: rest))) = _
      rw [skipGap_append hgap, List.nil_append, skipGap_append hback]
      exact skipGap_of_not (by decide) (by decide) rest
    rw [readEntries, hcs]
    all_goals rfl
  | cons e fields ih =>
    have hx := h e List.mem_cons_self
    rw [ronFields, lines_cons] at hfuel ⊢
    have htext := toList_part (quote e.1) e.2 indent
    have hlength := congrArg List.length (htext [])
    simp only [List.append_nil, List.length_append, List.length_cons] at hfuel hlength
    obtain ⟨fuel, rfl⟩ : ∃ n, fuel = n + 2 := ⟨fuel - 2, by omega⟩
    simp only [List.append_assoc, List.cons_append]
    rw [← List.append_assoc, htext]
    have hrest := ih (fun g hg => h g (List.mem_cons_of_mem _ hg)) isGap_newline (fuel + 1)
      (by omega)
    rw [List.singleton_append] at hrest
    rw [readEntries_cons e.1 (skipGap_quote e.1 (hgap.append hindent))
      (hx.read indent (fuel + 1) _ hindent (by omega) (closes_cons (Or.inl rfl) _)), hrest]
    rfl

end Ron

/-! ### All data -/

namespace Ron

open Node (ronItems ronFields trees fieldTrees)

section Body

variable {title : Option String} {items : List Node} {fields : List (String × Node)} {fuel : Nat}
  {cs back rest : List Char} {indent : String}

/-- What does not begin with a letter or an underscore is not the name of a part. -/
theorem readFieldName?_of_not {c : Char} (h : (c.isAlpha || c = '_') = false) (cs : List Char) :
    readFieldName? (c :: cs) = none := by
  have hname : readName? (c :: cs) = none := by
    rw [readName?.eq_def]
    split
    · next heq =>
      rw [(List.cons.inj heq).1] at h
      cases h
    · next heq =>
      obtain ⟨rfl, rfl⟩ := List.cons.inj heq
      rw [if_neg (by simpa using h)]
    · rfl
  unfold readFieldName?
  rw [hname]

theorem readBody_items (h : (skipGap cs).bind readFieldName? = none) :
    readBody (fuel + 1) title cs =
      (readItems fuel ')' cs).map fun (items, rest) => (.tuple title items, rest) := by
  rw [readBody, h]

theorem readBody_fields {x : String × List Char} (h : (skipGap cs).bind readFieldName? = some x) :
    readBody (fuel + 1) title cs =
      (readFields fuel cs).map fun (fields, rest) => (.record title fields, rest) := by
  rw [readBody, h]

/-- Nothing in round brackets. -/
theorem readBody_empty (hfuel : 2 ≤ fuel) :
    readBody fuel title (')' :: rest) = some (.tuple title [], rest) := by
  obtain ⟨fuel, rfl⟩ : ∃ n, fuel = n + 2 := ⟨fuel - 2, by omega⟩
  have hgap : skipGap (')' :: rest) = some (')' :: rest) :=
    skipGap_of_not (by decide) (by decide) rest
  have hunnamed : (skipGap (')' :: rest)).bind readFieldName? = none := by
    rw [hgap]
    exact readFieldName?_of_not (c := ')') (by decide) rest
  rw [readBody_items hunnamed, readItems_nil hgap]
  rfl

/-- Elements in round brackets. -/
theorem readBody_tuple (title : Option String) (h : ∀ x ∈ items, x.ReadsBack)
    (hindent : IsGap indent.toList) (hne : items ≠ []) (fuel : Nat) (rest : List Char)
    (hfuel : 2 * ([',', ' '].intercalate ((ronItems indent items).map String.toList)).length + 2 ≤
      fuel) :
    readBody fuel title ([',', ' '].intercalate ((ronItems indent items).map String.toList) ++
      ')' :: rest) = some (.tuple title (trees items), rest) := by
  obtain ⟨fuel, rfl⟩ : ∃ n, fuel = n + 1 := ⟨fuel - 1, by omega⟩
  have hread := readItems_tuple h hindent isGap_nil hne fuel rest (by omega)
  rw [List.nil_append] at hread
  rw [readBody_items, hread]
  · rfl
  · -- the first element is not the name of a part
    obtain ⟨x, items, rfl⟩ := List.exists_cons_of_ne_nil hne
    have hx := h x List.mem_cons_self
    obtain ⟨tail, htail, htext⟩ : ∃ tail, Closes tail ∧
        [',', ' '].intercalate ((ronItems indent (x :: items)).map String.toList) ++ ')' :: rest =
          (x.ronAt indent).toList ++ tail := by
      cases items with
      | nil =>
        refine ⟨')' :: rest, closes_cons (Or.inr rfl) rest, ?_⟩
        rw [ronItems, ronItems, List.map_singleton, List.intercalate_singleton]
      | cons y items =>
        refine ⟨',' :: ' ' :: ([',', ' '].intercalate
          ((ronItems indent (y :: items)).map String.toList) ++ ')' :: rest),
          closes_cons (Or.inl rfl) _, ?_⟩
        rw [ronItems, List.map_cons, ronItems, List.map_cons, List.intercalate_cons_cons]
        simp only [List.append_assoc, List.cons_append, List.nil_append]
    have hgap := skipGap_readsBack hx isGap_nil indent tail
    rw [List.nil_append] at hgap
    rw [htext, hgap]
    exact hx.unnamed indent tail htail

/-- Named parts in round brackets. -/
theorem readBody_record (h : ∀ f ∈ fields, IsName f.1 ∧ f.2.ReadsBack)
    (hindent : IsGap indent.toList) (hback : IsGap back) (hne : fields ≠ [])
    (hfuel : 2 * (lines indent (ronFields id indent fields)).length + 2 ≤ fuel) :
    readBody fuel title ('\n' :: (lines indent (ronFields id indent fields) ++
      (back ++ ')' :: rest))) = some (.record title (fieldTrees fields), rest) := by
  obtain ⟨fuel, rfl⟩ : ∃ n, fuel = n + 1 := ⟨fuel - 1, by omega⟩
  have hread := readFields_lines h hindent isGap_newline hback fuel rest (by omega)
  rw [List.singleton_append] at hread
  obtain ⟨f, fields, rfl⟩ := List.exists_cons_of_ne_nil hne
  obtain ⟨hname, -⟩ := h f List.mem_cons_self
  rw [readBody_fields, hread]
  · rfl
  · rw [ronFields, lines_cons]
    simp only [List.append_assoc, List.cons_append, id_eq]
    rw [skipGap_cons (by decide), toList_part,
      skipGap_isName hname hindent]
    exact readFieldName?_append hname _

end Body

end Ron

namespace Node

variable {x : Node} {name : String}

theorem length_name_pos (h : IsName name) : 0 < name.toList.length := by
  obtain ⟨c, cs, hcs, -⟩ := h.exists_cons
  rw [hcs]
  exact Nat.succ_pos _

theorem skipGap_name (h : IsName name) (rest : List Char) :
    skipGap (name.toList ++ rest) = some (name.toList ++ rest) :=
  skipGap_isName h isGap_nil

/-- Data that is written as a name. -/
theorem readsBack_name (name : String) (hname : IsName name) (htext : ∀ indent, x.ronAt indent = name)
    (htree : x.tree = .word name) : x.ReadsBack where
  begins := by
    intro indent
    obtain ⟨c, cs, hcs, hfirst, -⟩ := hname.exists_cons
    exact ⟨c, cs, by rw [htext, hcs], begins_of_first hfirst⟩
  read := by
    intro indent fuel rest _ hfuel hrest
    rw [htext] at hfuel ⊢
    have hpos := length_name_pos hname
    obtain ⟨fuel, rfl⟩ : ∃ n, fuel = n + 1 := ⟨fuel - 1, by omega⟩
    rw [readValue_name hname hrest.ends (skipGap_name hname rest), hrest.skipGap, htree]
    split
    -- nothing that closes a value is a parenthesis
    · next heq =>
      have hparen := hrest '(' (by rw [Option.some.inj heq]; rfl)
      exact absurd hparen (by decide)
    · rfl
  unnamed := by
    intro indent rest hrest
    unfold readFieldName?
    rw [htext, readName?_append hname hrest.ends]
    dsimp only
    rw [hrest.skipGap]
    split
    -- and nothing that closes a value is a colon
    · next heq =>
      have hcolon := hrest ':' (by rw [Option.some.inj heq]; rfl)
      exact absurd hcolon (by decide)
    · rfl

/-- Data that is written as a number. -/
theorem readsBack_number (literal : String)
    (hfirst : ∃ c cs, literal.toList = c :: cs ∧ beginsNumber c = true)
    (hread : ∀ rest, Ends rest → readNumber? (literal.toList ++ rest) = some (.number literal, rest))
    (htext : ∀ indent, x.ronAt indent = literal) (htree : x.tree = .number literal) :
    x.ReadsBack := by
  obtain ⟨c, cs, hcs, hc⟩ := hfirst
  have hbegins := begins_of_beginsNumber hc
  constructor
  case begins => exact fun indent => ⟨c, cs, by rw [htext, hcs], hbegins⟩
  case read =>
    intro indent fuel rest _ hfuel hrest
    rw [htext] at hfuel ⊢
    rw [hcs, List.length_cons] at hfuel
    obtain ⟨fuel, rfl⟩ : ∃ n, fuel = n + 1 := ⟨fuel - 1, by omega⟩
    have hnumber := hread rest hrest.ends
    rw [hcs, List.cons_append] at hnumber ⊢
    rw [readValue_number (hbegins.skipGap _) hc, hnumber, htree]
  case unnamed =>
    intro indent rest _
    rw [htext, hcs]
    refine readFieldName?_of_not ?_ _
    by_contra hne
    rw [Bool.not_eq_false] at hne
    rw [beginsNumber_of_first hne] at hc
    cases hc

/-- Data whose text begins with a mark. -/
theorem readsBack_of_mark {c : Char} (hc : Begins c) (hletter : (c.isAlpha || c = '_') = false)
    (htext : ∀ indent, ∃ cs, (x.ronAt indent).toList = c :: cs)
    (hread : ∀ indent fuel rest, IsGap indent.toList →
      2 * (x.ronAt indent).toList.length ≤ fuel → Closes rest →
        readValue fuel ((x.ronAt indent).toList ++ rest) = some (x.tree, rest)) :
    x.ReadsBack where
  begins := by
    intro indent
    obtain ⟨cs, hcs⟩ := htext indent
    exact ⟨c, cs, hcs, hc⟩
  read := hread
  unnamed := by
    intro indent rest _
    obtain ⟨cs, hcs⟩ := htext indent
    rw [hcs]
    exact readFieldName?_of_not hletter _

/-- Data that is written as a title in front of round brackets. -/
theorem readsBack_titled (hname : IsName name) (inner : String → List Char)
    (htext : ∀ indent, (x.ronAt indent).toList = name.toList ++ '(' :: inner indent)
    (hread : ∀ indent fuel rest, IsGap indent.toList → 2 * (inner indent).length + 2 ≤ fuel →
      Closes rest → readBody fuel (some name) (inner indent ++ rest) = some (x.tree, rest)) :
    x.ReadsBack where
  begins := by
    intro indent
    obtain ⟨c, cs, hcs, hfirst, -⟩ := hname.exists_cons
    exact ⟨c, cs ++ '(' :: inner indent, by rw [htext, hcs, List.cons_append],
      begins_of_first hfirst⟩
  read := by
    intro indent fuel rest hindent hfuel hrest
    have hpos := length_name_pos hname
    rw [htext] at hfuel ⊢
    rw [List.length_append, List.length_cons] at hfuel
    obtain ⟨fuel, rfl⟩ : ∃ n, fuel = n + 1 := ⟨fuel - 1, by omega⟩
    -- the parenthesis ends the name
    have hends : Ends ('(' :: (inner indent ++ rest)) := ends_cons (by decide) _
    rw [List.append_assoc, List.cons_append,
      readValue_name hname hends (skipGap_name hname _), skipGap_of_not (by decide) (by decide)]
    exact hread indent fuel rest hindent (by omega) hrest
  unnamed := by
    intro indent rest _
    unfold readFieldName?
    rw [htext, List.append_assoc, List.cons_append,
      readName?_append hname (ends_cons (by decide) _)]
    dsimp only
    rw [skipGap_of_not (by decide) (by decide)]
    rfl

theorem isGap_levelIndent (indent : String) (h : IsGap indent.toList) :
    IsGap (indent ++ levelIndent).toList := by
  rw [String.toList_append]
  exact h.append (by decide)

theorem ronItems_ne_nil {indent : String} {items : List Node} (h : items ≠ []) :
    ronItems indent items ≠ [] := by
  obtain ⟨x, items, rfl⟩ := List.exists_cons_of_ne_nil h
  exact List.cons_ne_nil _ _

theorem ronFields_ne_nil {write : String → String} {indent : String}
    {fields : List (String × Node)} (h : fields ≠ []) : ronFields write indent fields ≠ [] := by
  obtain ⟨f, fields, rfl⟩ := List.exists_cons_of_ne_nil h
  exact List.cons_ne_nil _ _

theorem readsBack_text (s : String) : (text s).ReadsBack := by
  refine readsBack_of_mark (c := '"') (by decide) (by decide)
    (fun indent => ⟨_, toList_quote s⟩) fun indent fuel rest _ hfuel _ => ?_
  show readValue fuel ((quote s).toList ++ rest) = some (.text s, rest)
  have hpos : 0 < (quote s).toList.length := by
    rw [toList_quote]
    exact Nat.succ_pos _
  obtain ⟨fuel, rfl⟩ : ∃ n, fuel = n + 1 :=
    ⟨fuel - 1, by have := hfuel; change 2 * (quote s).toList.length ≤ fuel at this; omega⟩
  exact readValue_quote s rest

theorem toList_block_nil (indent opening closing : String) :
    (block indent opening closing []).toList = opening.toList ++ closing.toList :=
  String.toList_append

theorem readsBack_list {items : List Node} (h : ∀ x ∈ items, x.ReadsBack) :
    (list items).ReadsBack := by
  by_cases hne : items = []
  · rw [hne]
    have htext (indent : String) : ((list []).ronAt indent).toList = ['[', ']'] :=
      toList_block_nil indent "[" "]"
    refine readsBack_of_mark (c := '[') (by decide) (by decide) (fun indent => ⟨_, htext indent⟩)
      fun indent fuel rest _ hfuel _ => ?_
    rw [htext] at hfuel ⊢
    simp only [List.length_cons] at hfuel
    obtain ⟨fuel, rfl⟩ : ∃ n, fuel = n + 2 := ⟨fuel - 2, by omega⟩
    simp only [List.cons_append, List.nil_append]
    rw [readValue_list (skipGap_of_not (by decide) (by decide) _),
      readItems_nil (skipGap_of_not (by decide) (by decide) _)]
    rfl
  · have htext (indent : String) : ((list items).ronAt indent).toList =
        '[' :: '\n' :: (lines (indent ++ levelIndent) (ronItems (indent ++ levelIndent) items) ++
          (indent.toList ++ [']'])) :=
      toList_block indent "[" "]" (ronItems_ne_nil hne)
    refine readsBack_of_mark (c := '[') (by decide) (by decide) (fun indent => ⟨_, htext indent⟩)
      fun indent fuel rest hindent hfuel _ => ?_
    rw [htext] at hfuel ⊢
    simp only [List.length_append, List.length_cons] at hfuel
    obtain ⟨fuel, rfl⟩ : ∃ n, fuel = n + 1 := ⟨fuel - 1, by omega⟩
    -- the items are written a level deeper, each on its line
    have hread := readItems_lines h (isGap_levelIndent indent hindent) isGap_newline hindent fuel
      rest (by omega)
    rw [List.singleton_append] at hread
    simp only [List.cons_append, List.append_assoc, List.nil_append]
    rw [readValue_list (skipGap_of_not (by decide) (by decide) _), hread]
    rfl

theorem readsBack_map {entries : List (String × Node)} (h : ∀ e ∈ entries, e.2.ReadsBack) :
    (map entries).ReadsBack := by
  by_cases hne : entries = []
  · subst hne
    have htext (indent : String) : ((map []).ronAt indent).toList = ['\x7b', '\x7d'] :=
      toList_block_nil indent "\x7b" "\x7d"
    refine readsBack_of_mark (c := '\x7b') (by decide) (by decide)
      (fun indent => ⟨_, htext indent⟩) fun indent fuel rest _ hfuel _ => ?_
    rw [htext] at hfuel ⊢
    simp only [List.length_cons] at hfuel
    obtain ⟨fuel, rfl⟩ : ∃ n, fuel = n + 2 := ⟨fuel - 2, by omega⟩
    have hread := readEntries_lines h (show IsGap "".toList from isGap_nil) isGap_nil isGap_nil
      (fuel + 1) rest (Nat.le_add_left 1 fuel)
    simp only [List.cons_append, List.nil_append]
    rw [readValue_map (skipGap_of_not (by decide) (by decide) _)]
    exact congrArg _ hread
  · have htext (indent : String) : ((map entries).ronAt indent).toList =
        '\x7b' :: '\n' :: (lines (indent ++ levelIndent)
          (ronFields quote (indent ++ levelIndent) entries) ++ (indent.toList ++ ['\x7d'])) :=
      toList_block indent "\x7b" "\x7d" (ronFields_ne_nil hne)
    refine readsBack_of_mark (c := '\x7b') (by decide) (by decide)
      (fun indent => ⟨_, htext indent⟩) fun indent fuel rest hindent hfuel _ => ?_
    rw [htext] at hfuel ⊢
    simp only [List.length_append, List.length_cons] at hfuel
    obtain ⟨fuel, rfl⟩ : ∃ n, fuel = n + 1 := ⟨fuel - 1, by omega⟩
    -- the entries are written a level deeper, each on its line
    have hread := readEntries_lines h (isGap_levelIndent indent hindent) isGap_newline hindent fuel
      rest (by omega)
    rw [List.singleton_append] at hread
    simp only [List.cons_append, List.append_assoc, List.nil_append]
    rw [readValue_map (skipGap_of_not (by decide) (by decide) _), hread]
    rfl

/-! Tuples, records and variants are what their round brackets hold. -/

theorem toList_tuple (indent : String) (items : List Node) :
    ((tuple items).ronAt indent).toList =
      '(' :: ([',', ' '].intercalate ((ronItems indent items).map String.toList) ++ [')']) := by
  show ("(" ++ ", ".intercalate (ronItems indent items) ++ ")").toList = _
  rw [String.toList_append, String.toList_append, String.toList_intercalate]
  rfl

theorem readsBack_tuple {items : List Node} (h : ∀ x ∈ items, x.ReadsBack) :
    (tuple items).ReadsBack := by
  refine readsBack_of_mark (c := '(') (by decide) (by decide)
    (fun indent => ⟨_, toList_tuple indent items⟩) fun indent fuel rest hindent hfuel _ => ?_
  rw [toList_tuple] at hfuel ⊢
  simp only [List.length_append, List.length_cons] at hfuel
  obtain ⟨fuel, rfl⟩ : ∃ n, fuel = n + 1 := ⟨fuel - 1, by omega⟩
  simp only [List.cons_append, List.append_assoc, List.nil_append]
  rw [readValue_body (skipGap_of_not (by decide) (by decide) _)]
  by_cases hne : items = []
  · rw [hne]
    exact readBody_empty (by omega)
  · exact readBody_tuple none h hindent hne fuel rest (by omega)

/-- What stands behind the opening bracket of a record. -/
def recordInner (indent : String) (fields : List (String × Node)) : List Char :=
  if fields.isEmpty then [')']
  else '\n' :: (lines (indent ++ levelIndent) (ronFields id (indent ++ levelIndent) fields) ++
    (indent.toList ++ [')']))

theorem toList_recordBlock (indent : String) (fields : List (String × Node)) :
    (block indent "(" ")" (ronFields id (indent ++ levelIndent) fields)).toList =
      '(' :: recordInner indent fields := by
  unfold recordInner
  by_cases hne : fields = []
  · rw [hne]
    exact toList_block_nil indent "(" ")"
  · rw [if_neg (mt List.isEmpty_iff.1 hne)]
    exact toList_block indent "(" ")" (ronFields_ne_nil hne)

/-- The brackets of a record are read back. -/
theorem readBody_recordInner {title : Option String} {indent : String}
    {fields : List (String × Node)} (h : ∀ f ∈ fields, IsName f.1 ∧ f.2.ReadsBack) {fuel : Nat}
    (hindent : IsGap indent.toList) (hfuel : 2 * (recordInner indent fields).length ≤ fuel)
    (rest : List Char) :
    readBody fuel title (recordInner indent fields ++ rest) =
      some (if fields.isEmpty then .tuple title [] else .record title (fieldTrees fields),
        rest) := by
  unfold recordInner at hfuel ⊢
  by_cases hne : fields = []
  · rw [if_pos (List.isEmpty_iff.2 hne)] at hfuel ⊢
    rw [if_pos (List.isEmpty_iff.2 hne)]
    exact readBody_empty hfuel
  · rw [if_neg (mt List.isEmpty_iff.1 hne)] at hfuel ⊢
    rw [if_neg (mt List.isEmpty_iff.1 hne)]
    simp only [List.length_append, List.length_cons] at hfuel
    simp only [List.cons_append, List.append_assoc, List.nil_append]
    exact readBody_record h (isGap_levelIndent indent hindent) hindent hne (by omega)

theorem readsBack_record {fields : List (String × Node)}
    (h : ∀ f ∈ fields, IsName f.1 ∧ f.2.ReadsBack) : (record fields).ReadsBack := by
  have htext (indent : String) : ((record fields).ronAt indent).toList =
      '(' :: recordInner indent fields :=
    toList_recordBlock indent fields
  refine readsBack_of_mark (c := '(') (by decide) (by decide) (fun indent => ⟨_, htext indent⟩)
    fun indent fuel rest hindent hfuel _ => ?_
  rw [htext] at hfuel ⊢
  rw [List.length_cons] at hfuel
  obtain ⟨fuel, rfl⟩ : ∃ n, fuel = n + 1 := ⟨fuel - 1, by omega⟩
  rw [List.cons_append, readValue_body (skipGap_of_not (by decide) (by decide) _)]
  exact readBody_recordInner h hindent (by omega) rest

theorem readsBack_taggedRecord {fields : List (String × Node)} (hname : IsName name)
    (h : ∀ f ∈ fields, IsName f.1 ∧ f.2.ReadsBack) : (taggedRecord name fields).ReadsBack := by
  refine readsBack_titled hname (fun indent => recordInner indent fields) (fun indent => ?_)
    fun indent fuel rest hindent hfuel _ => ?_
  · show (name ++ block indent "(" ")" (ronFields id (indent ++ levelIndent) fields)).toList = _
    rw [String.toList_append, toList_recordBlock]
  · exact readBody_recordInner h hindent (by omega) rest

/-- A title with one part in round brackets. -/
theorem readsBack_one {y : Node} (name : String) (hname : IsName name) (hy : y.ReadsBack)
    (htext : ∀ indent, x.ronAt indent = name ++ "(" ++ y.ronAt indent ++ ")")
    (htree : x.tree = .tuple (some name) [y.tree]) : x.ReadsBack := by
  refine readsBack_titled hname (fun indent => (y.ronAt indent).toList ++ [')'])
    (fun indent => ?_) fun indent fuel rest hindent hfuel _ => ?_
  · rw [htext, String.toList_append, String.toList_append, String.toList_append, List.append_assoc,
      List.append_assoc]
    rfl
  · rw [List.length_append, List.length_singleton] at hfuel
    have hitems : ∀ z ∈ [y], z.ReadsBack := fun z hz => List.mem_singleton.1 hz ▸ hy
    have hread := readBody_tuple (some name) hitems hindent (List.cons_ne_nil _ _) fuel rest
      (by rw [ronItems, ronItems, List.map_singleton, List.intercalate_singleton]; omega)
    rw [ronItems, ronItems, List.map_singleton, List.intercalate_singleton] at hread
    rw [List.append_assoc, htree]
    exact hread

theorem readsBack_float (v : Binary32) : (float v).ReadsBack := by
  by_cases hnan : v.isNaN = true
  · have htext : floatText v = "NaN" := by
      unfold floatText Binary32.text
      simp [hnan]
    exact readsBack_name "NaN" (by decide) (fun _ => htext) (if_pos hnan)
  rw [Bool.not_eq_true] at hnan
  by_cases hinf : v.isInfinite = true
  · have htext : floatText v = (if v.isNegative then "-" else "") ++ "inf" := by
      unfold floatText Binary32.text
      simp [hnan, hinf]
    -- with its sign in front the word is read as a number, without it as a name
    by_cases hnegative : v.isNegative = true
    · rw [hnegative, if_pos rfl] at htext
      refine readsBack_number (floatText v) ⟨'-', "inf".toList, by rw [htext]; rfl, rfl⟩
        (fun rest hrest => ?_) (fun _ => rfl) ?_
      · rw [htext]
        exact readNumber?_append ['-', 'i', 'n', 'f'] (by decide) (Or.inr (by decide)) hrest
      · show Ron.ofFloat v = _
        unfold Ron.ofFloat
        simp [hnan, hinf, hnegative]
    · rw [if_neg hnegative] at htext
      refine readsBack_name "inf" (by decide) (fun _ => htext) ?_
      show Ron.ofFloat v = _
      unfold Ron.ofFloat
      simp [hnan, hinf, hnegative]
  · rw [Bool.not_eq_true] at hinf
    -- a finite number has a decimal text
    have hfinite := Binary32.magnitude_lt_iff.2 ⟨hnan, hinf⟩
    obtain ⟨whole, fraction, hdecimal, hne, hwhole, -⟩ := exists_floatText hfinite
    refine readsBack_number (floatText v) ?_
      (fun rest hrest => readNumber?_float hfinite hrest) (fun _ => rfl) ?_
    · rw [hdecimal]
      obtain ⟨c, cs, rfl⟩ := List.exists_cons_of_ne_nil hne
      cases v.isNegative with
      | true => exact ⟨'-', _, rfl, rfl⟩
      | false =>
        refine ⟨c, _, rfl, ?_⟩
        unfold beginsNumber
        rw [hwhole c List.mem_cons_self]
        rfl
    · show Ron.ofFloat v = _
      unfold Ron.ofFloat
      simp [hnan, hinf]

theorem readsBack_int (n : Int) : (int n).ReadsBack := by
  refine readsBack_number (toString n) ?_
    (fun rest hrest => readNumber?_int n hrest) (fun _ => rfl) rfl
  cases n with
  | ofNat n =>
    have hdigit : ∀ c ∈ (toString n).toList, c.isDigit = true := by
      rw [toList_natText]
      exact fun c hc => Nat.isDigit_of_mem_toDigits (by decide) (by decide) hc
    have hne : (toString n).toList ≠ [] := by
      rw [toList_natText]
      exact Nat.toDigits_ne_nil
    obtain ⟨c, cs, hcs⟩ := List.exists_cons_of_ne_nil hne
    refine ⟨c, cs, hcs, ?_⟩
    unfold beginsNumber
    rw [hdigit c (by rw [hcs]; exact List.mem_cons_self)]
    rfl
  | negSucc n =>
    refine ⟨'-', (toString (n + 1)).toList, ?_, rfl⟩
    show ("-" ++ toString (n + 1)).toList = _
    rw [String.toList_append]
    rfl

mutual

/-- **Data with plain names is read back.** -/
theorem readsBack : (x : Node) → x.HasPlainNames → x.ReadsBack
  | bool b, _ => by
    refine readsBack_name (if b then "true" else "false") ?_ (fun _ => rfl) rfl
    cases b <;> decide
  | int n, _ => readsBack_int n
  | float v, _ => readsBack_float v
  | text s, _ => readsBack_text s
  | word _, h => readsBack_name _ h (fun _ => rfl) rfl
  | absent, _ => readsBack_name "None" (by decide) (fun _ => rfl) rfl
  | present y, h => readsBack_one "Some" (by decide) (readsBack y h) (fun _ => rfl) rfl
  | list items, h => readsBack_list (allReadBack items h)
  | tuple items, h => readsBack_tuple (allReadBack items h)
  | record fields, h => readsBack_record (fieldsReadBack fields h)
  | map entries, h => readsBack_map (entriesReadBack entries h)
  | tagged _ y, h => readsBack_one _ h.1 (readsBack y h.2) (fun _ => rfl) rfl
  | taggedRecord _ fields, h => readsBack_taggedRecord h.1 (fieldsReadBack fields h.2)

theorem allReadBack : (items : List Node) → AllPlain items → ∀ x ∈ items, x.ReadsBack
  | [], _ => List.forall_mem_nil _
  | x :: items, h => List.forall_mem_cons.2 ⟨readsBack x h.1, allReadBack items h.2⟩

theorem fieldsReadBack : (fields : List (String × Node)) → FieldsPlain fields →
    ∀ f ∈ fields, IsName f.1 ∧ f.2.ReadsBack
  | [], _ => List.forall_mem_nil _
  | f :: fields, h =>
    List.forall_mem_cons.2 ⟨⟨h.1, readsBack f.2 h.2.1⟩, fieldsReadBack fields h.2.2⟩

theorem entriesReadBack : (entries : List (String × Node)) → EntriesPlain entries →
    ∀ e ∈ entries, e.2.ReadsBack
  | [], _ => List.forall_mem_nil _
  | e :: entries, h => List.forall_mem_cons.2 ⟨readsBack e.2 h.1, entriesReadBack entries h.2⟩

end

end Node

/-- **The RON text of data** reads as the tree of the data. -/
theorem Ron.ofText?_ron {x : Node} (h : x.HasPlainNames) : Ron.ofText? x.ron = some x.tree := by
  have hread := (Node.readsBack x h).read "" (2 * x.ron.toList.length + 2) []
    (fun _ hc => nomatch hc) (Nat.le_add_right _ _) closes_nil
  rw [List.append_nil] at hread
  unfold Ron.ofText?
  dsimp only
  rw [show readValue (2 * x.ron.toList.length + 2) x.ron.toList = some (x.tree, []) from hread]
  rfl

end RecordTables
