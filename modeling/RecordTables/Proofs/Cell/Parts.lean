import RecordTables.Cell.Encode
import RecordTables.Proofs.Number.Numeral
import RecordTables.Proofs.Outcome
import RecordTables.Proofs.Text.Pieces

/-!
# The components of a written tuple

The components that are written for an outline are as many as it has, and each is `Tidy`: it can
stand between commas and between semicolons, and its brackets are balanced
(`Context.writeParts_spec`).  For a component of text this is what the reserved characters are for,
for a fixed-width value it follows from its characters, and a list in brackets is tidy because its
elements are balanced (`Context.tidy_of_writeNested`).
-/

namespace RecordTables.Cell

open Schema Text

/-! ### Tidy components -/

/-- What can stand as one component of a tuple and, in a list inside a tuple, as one element. -/
structure Tidy (part : List Char) : Prop where
  component : IsPiece componentMark part
  element : IsPiece nestedMark part
  balanced : IsBalanced part
  unbarred : elementMark ∉ part

theorem reserve_eq_ok {marks text out : List Char} :
    reserve marks text = .ok out ↔ text = out ∧ ∀ c ∈ text, c ∉ marks := by
  have hany : text.any marks.contains = true ↔ ¬ ∀ c ∈ text, c ∉ marks := by simp
  unfold reserve
  split
  · next h =>
    constructor
    · intro h'
      cases h'
    · rintro ⟨-, h'⟩
      exact absurd h' (hany.1 h)
  · next h =>
    constructor
    · intro h'
      exact ⟨Except.ok.inj h', by_contra fun hplain => h (hany.2 hplain)⟩
    · rintro ⟨rfl, -⟩
      rfl

/-- A text without reserved characters is tidy. -/
theorem tidy_of_plain {part : List Char} (h : ∀ c ∈ part, c ∉ tupleMarks) : Tidy part := by
  have hmark : ∀ c ∈ tupleMarks, c ∉ part := fun c hc hpart => h c hpart hc
  have hopen : '[' ∉ part := hmark '[' (by decide)
  have hclose : ']' ∉ part := hmark ']' (by decide)
  exact ⟨isPiece_of_notMem hopen hclose (hmark ',' (by decide)),
    isPiece_of_notMem hopen hclose (hmark ';' (by decide)), isBalanced_of_notMem hopen hclose,
    hmark '|' (by decide)⟩

theorem tidy_scalar (s : Scalar) : Tidy s.text.toList := by
  refine tidy_of_plain fun c hc hmark => ?_
  have hnone : tupleMarks.all (fun c => !decide (IsNumeral c)) = true := by decide
  have hnot := List.all_eq_true.1 hnone c hmark
  rw [decide_eq_true (s.isNumeric_text c hc)] at hnot
  cases hnot

/-- Two parts and more are never blank together, with a mark between them that is not. -/
theorem all_isBlank_joinWith {mark : Char} (h : isBlank mark = false) (part next : List Char)
    (parts : List (List Char)) : (joinWith mark (part :: next :: parts)).all isBlank = false := by
  rw [joinWith_cons_cons, List.all_append, List.all_cons, h, Bool.false_and, Bool.and_false]

theorem tidy_nil : Tidy [] := ⟨isPiece_nil _, isPiece_nil _, isBalanced_nil, List.not_mem_nil⟩

/-- Brackets around a balanced text without bars. -/
theorem tidy_brackets {cs : List Char} (h : IsBalanced cs) (hbar : elementMark ∉ cs) :
    Tidy ('[' :: cs ++ [']']) := by
  refine ⟨isPiece_brackets h, isPiece_brackets h, isBalanced_brackets h, fun hmem => ?_⟩
  rw [List.cons_append, List.mem_cons, List.mem_append, List.mem_singleton] at hmem
  rcases hmem with hopen | hmem | hclose
  · exact absurd hopen (by decide)
  · exact hbar hmem
  · exact absurd hclose (by decide)

/-! ### Tuples -/

namespace Context

variable {ctx : Context} {nested : ValueType → Value → Except CellError (List Char)}

mutual

/-- **The components of an outline.**  They are as many as the outline has, and tidy, if the lists
among them are. -/
theorem writeParts_spec (hnested : ∀ vt v cs, nested vt v = .ok cs → Tidy cs) :
    ∀ (outline : Outline) (v : Value) {parts : List (List Char)},
      ctx.writeParts nested outline v = .ok parts →
        parts.length = outline.arity ∧ ∀ part ∈ parts, Tidy part
  | .leaf vt, v, parts, h => by
    rw [writeParts] at h
    obtain ⟨text, -, h⟩ := bind_eq_ok.1 h
    obtain ⟨part, hpart, h⟩ := bind_eq_ok.1 h
    obtain rfl := Except.ok.inj h
    obtain ⟨rfl, hplain⟩ := reserve_eq_ok.1 hpart
    exact ⟨rfl, by simpa using tidy_of_plain hplain⟩
  | .nested vt, v, parts, h => by
    rw [writeParts] at h
    obtain ⟨part, hpart, h⟩ := bind_eq_ok.1 h
    obtain rfl := Except.ok.inj h
    exact ⟨rfl, by simpa using hnested vt v part hpart⟩
  | .composite shape, v, parts, h => by
    cases v with
    | composite components =>
      rw [writeParts] at h
      split_ifs at h with hfits
      obtain rfl := Except.ok.inj h
      refine ⟨by rw [List.length_map, hfits.1]; rfl, fun part hpart => ?_⟩
      obtain ⟨s, -, rfl⟩ := List.mem_map.1 hpart
      exact tidy_scalar s
    | _ => cases h
  | .struct name fields, v, parts, h => by
    cases v with
    | struct values => exact writeFields_spec hnested fields values h
    | _ => cases h

/-- The components of the fields of a sub-structure. -/
theorem writeFields_spec (hnested : ∀ vt v cs, nested vt v = .ok cs → Tidy cs) :
    ∀ (fields : List (String × Outline)) (values : List (String × Value))
      {parts : List (List Char)}, ctx.writeFields nested fields values = .ok parts →
        parts.length = Outline.arityOfFields fields ∧ ∀ part ∈ parts, Tidy part
  | [], values, parts, h => by
    rw [writeFields] at h
    obtain rfl := Except.ok.inj h
    exact ⟨rfl, by simp⟩
  | f :: rest, values, parts, h => by
    rw [writeFields] at h
    obtain ⟨first, hfirst, h⟩ := bind_eq_ok.1 h
    obtain ⟨others, hothers, h⟩ := bind_eq_ok.1 h
    obtain rfl := Except.ok.inj h
    obtain ⟨hlength, htidy⟩ := writeParts_spec hnested f.2 _ hfirst
    obtain ⟨hlength', htidy'⟩ := writeFields_spec hnested rest values hothers
    refine ⟨by rw [List.length_append, hlength, hlength', Outline.arityOfFields], ?_⟩
    intro part hpart
    rcases List.mem_append.1 hpart with hpart | hpart
    · exact htidy part hpart
    · exact htidy' part hpart

end

theorem writeTuple_eq_ok {vt : ValueType} {v : Value} {cs : List Char} :
    ctx.writeTuple nested vt v = .ok cs ↔
      ∃ outline parts, ctx.registry.outline? vt = some outline ∧
        ctx.writeParts nested outline v = .ok parts ∧ joinWith componentMark parts = cs := by
  unfold writeTuple
  cases ctx.registry.outline? vt with
  | none => simp
  | some outline =>
    constructor
    · intro h
      obtain ⟨parts, hparts, hcs⟩ := map_eq_ok.1 h
      exact ⟨outline, parts, rfl, hparts, hcs⟩
    · rintro ⟨_, parts, ⟨⟩, hparts, hcs⟩
      exact map_eq_ok.2 ⟨parts, hparts, hcs⟩

/-! ### Lists inside tuples -/

/-- A tuple has no bar in it. -/
theorem elementMark_notMem_writeTuple (hnested : ∀ vt v cs, nested vt v = .ok cs → Tidy cs)
    {vt : ValueType} {v : Value} {cs : List Char} (h : ctx.writeTuple nested vt v = .ok cs) :
    elementMark ∉ cs := by
  obtain ⟨outline, parts, -, hparts, rfl⟩ := writeTuple_eq_ok.1 h
  exact notMem_joinWith (by decide) fun part hpart =>
    ((writeParts_spec hnested outline v hparts).2 part hpart).unbarred

/-- An element of a list inside a tuple can stand between semicolons, is balanced and has no bar in
it. -/
theorem writeNestedElement_spec (hnested : ∀ vt v cs, nested vt v = .ok cs → Tidy cs)
    {vt : ValueType} {v : Value} {cs : List Char}
    (h : ctx.writeNestedElement nested vt v = .ok cs) :
    IsPiece nestedMark cs ∧ IsBalanced cs ∧ elementMark ∉ cs := by
  unfold writeNestedElement at h
  split at h
  · have hbar := elementMark_notMem_writeTuple hnested h
    obtain ⟨outline, parts, -, hparts, rfl⟩ := writeTuple_eq_ok.1 h
    have htidy := (writeParts_spec hnested outline v hparts).2
    exact ⟨isPiece_joinWith (by decide) (by decide) (by decide) fun p hp => (htidy p hp).element,
      isBalanced_joinWith (by decide) (by decide) fun p hp => (htidy p hp).balanced, hbar⟩
  · obtain ⟨text, -, h⟩ := bind_eq_ok.1 h
    obtain ⟨rfl, hplain⟩ := reserve_eq_ok.1 h
    have htidy := tidy_of_plain hplain
    exact ⟨htidy.element, htidy.balanced, htidy.unbarred⟩

/-- **What is written for a list inside a tuple.**  Nothing for the empty list; else the elements
between semicolons, in brackets, and not all of it blank. -/
theorem writeNested_eq_ok {fuel : Nat} {vt : ValueType} {v : Value} {cs : List Char}
    (h : ctx.writeNested fuel vt v = .ok cs) :
    (v = .list [] ∧ cs = []) ∨
      ∃ fuel' items parts, fuel = fuel' + 1 ∧ v = .list items ∧ parts ≠ [] ∧
        items.mapM (ctx.writeNestedElement (ctx.writeNested fuel') vt) = .ok parts ∧
        cs = '[' :: joinWith nestedMark parts ++ [']'] ∧
        (joinWith nestedMark parts).all isBlank = false := by
  cases fuel with
  | zero => cases h
  | succ fuel =>
    unfold writeNested at h
    cases v with
    | list items =>
      cases items with
      | nil => exact Or.inl ⟨rfl, (Except.ok.inj h).symm⟩
      | cons item items =>
        obtain ⟨parts, hparts, h⟩ := bind_eq_ok.1 h
        refine Or.inr ⟨fuel, item :: items, parts, rfl, rfl, ?_, hparts, ?_⟩
        -- elements that are there give at least one text
        · rintro rfl
          cases mapM_eq_ok.1 hparts
        · split at h
          · next only =>
            split at h
            · cases h
            · next hblank =>
              rw [joinWith_singleton]
              exact ⟨(Except.ok.inj h).symm, by simpa using hblank⟩
          -- with a mark between two texts the list is no blank
          · next hmany =>
            refine ⟨(Except.ok.inj h).symm, ?_⟩
            match parts, hparts, hmany with
            | [], hparts, _ => cases mapM_eq_ok.1 hparts
            | [only], _, hmany => exact absurd rfl (hmany only)
            | part :: next :: parts, _, _ => exact all_isBlank_joinWith (by decide) part next parts
    | _ => cases h

/-- What is written for a list inside a tuple is tidy. -/
theorem tidy_of_writeNested (fuel : Nat) :
    ∀ (vt : ValueType) (v : Value) (cs : List Char), ctx.writeNested fuel vt v = .ok cs →
      Tidy cs := by
  induction fuel with
  | zero =>
    intro vt v cs h
    cases h
  | succ fuel ih =>
    intro vt v cs h
    rcases writeNested_eq_ok h with ⟨-, rfl⟩ | ⟨fuel', items, parts, hfuel, -, -, hparts, rfl, -⟩
    · exact tidy_nil
    · obtain rfl := Nat.succ.inj hfuel
      have hparts : ∀ part ∈ parts, IsBalanced part ∧ elementMark ∉ part := by
        intro part hpart
        obtain ⟨item, -, h⟩ := exists_of_mem_mapM hparts hpart
        exact (writeNestedElement_spec ih h).2
      exact tidy_brackets (isBalanced_joinWith (by decide) (by decide) fun p hp => (hparts p hp).1)
        (notMem_joinWith (by decide) fun p hp => (hparts p hp).2)

end Context

end RecordTables.Cell
