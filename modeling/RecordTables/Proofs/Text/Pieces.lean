import Mathlib.Data.List.Basic
import RecordTables.Text.Blank
import RecordTables.Text.Split

/-!
# Splitting joined pieces at depth zero

A text is one piece for a separator if its brackets are balanced and every separator in it stands
inside brackets (`IsPiece`).  `splitTopLevel?_joinWith`: joining pieces and splitting at depth zero
gives the pieces back.

The depth is followed through a text by `depthAfter?`, which takes the steps of `splitAtDepth?`
without keeping the parts (`splitAtDepth?_append`).  A text without structuring characters is a
piece, joined pieces stay balanced for every other separator, and brackets around a balanced text
make a piece for every separator.

`splitTopLevel?_exact`: a text can be split at depth zero if and only if its brackets are balanced,
and it is split into the only parts that make it up when a separator is put between any two, that
are balanced, and in which every separator stands inside brackets.  Here balance is a matter of
counting (`BalancedFrom`): in no front of the text are there more closing brackets than opening
ones, and in the whole text there are as many of both.  The induction needs both conditions for texts
in front of which some brackets are open already, since that is what the rest of a text is.
-/

namespace RecordTables.Text

/-! ### Depth -/

/-- How many brackets are open after some characters, when `depth` were before them.  There is no
answer if a bracket is closed that is not open, or if a separator stands outside all brackets. -/
def depthAfter? (sep : Char) : (depth : Nat) → List Char → Option Nat
  | depth, [] => some depth
  | depth, c :: rest =>
    if c = '[' then depthAfter? sep (depth + 1) rest
    else if c = ']' then
      match depth with
      | 0 => none
      | depth + 1 => depthAfter? sep depth rest
    else if c = sep ∧ depth = 0 then none
    else depthAfter? sep depth rest

/-- A text that splitting at depth zero leaves in one part. -/
def IsPiece (sep : Char) (cs : List Char) : Prop := depthAfter? sep 0 cs = some 0

/-- A text whose brackets are balanced: at depth one no separator counts. -/
def IsBalanced (cs : List Char) : Prop :=
  ∀ sep depth, depthAfter? sep (depth + 1) cs = some (depth + 1)

/-- One step of the depth, by the character. -/
theorem depthAfter?_cons (sep : Char) (depth : Nat) (c : Char) (rest : List Char) :
    depthAfter? sep depth (c :: rest) =
      if c = '[' then depthAfter? sep (depth + 1) rest
      else if c = ']' then (if depth = 0 then none else depthAfter? sep (depth - 1) rest)
      else if c = sep ∧ depth = 0 then none
      else depthAfter? sep depth rest := by
  cases depth <;> rfl

/-- One step of the splitting, by the character. -/
theorem splitAtDepth?_cons (sep : Char) (depth : Nat) (c : Char) (rest : List Char) :
    splitAtDepth? sep depth (c :: rest) =
      if c = '[' then (splitAtDepth? sep (depth + 1) rest).map (consFirst c)
      else if c = ']' then
        (if depth = 0 then none else (splitAtDepth? sep (depth - 1) rest).map (consFirst c))
      else if c = sep ∧ depth = 0 then (splitAtDepth? sep depth rest).map ([] :: ·)
      else (splitAtDepth? sep depth rest).map (consFirst c) := by
  cases depth <;> rfl

theorem depthAfter?_append {sep : Char} {depth depth' : Nat} {cs : List Char}
    (h : depthAfter? sep depth cs = some depth') (rest : List Char) :
    depthAfter? sep depth (cs ++ rest) = depthAfter? sep depth' rest := by
  induction cs generalizing depth with
  | nil =>
    obtain rfl := Option.some.inj h
    rfl
  | cons c cs ih =>
    rw [depthAfter?_cons] at h
    rw [List.cons_append, depthAfter?_cons]
    split_ifs at h ⊢ <;> exact ih h

/-- **The parts of a text that begins with a followed text.**  What is followed goes in front of the
first part of the rest. -/
theorem splitAtDepth?_append {sep : Char} {depth depth' : Nat} {cs : List Char}
    (h : depthAfter? sep depth cs = some depth') (rest : List Char) :
    splitAtDepth? sep depth (cs ++ rest) =
      (splitAtDepth? sep depth' rest).map fun parts => cs.foldr consFirst parts := by
  induction cs generalizing depth with
  | nil =>
    obtain rfl := Option.some.inj h
    simp
  | cons c cs ih =>
    rw [depthAfter?_cons] at h
    rw [List.cons_append, splitAtDepth?_cons]
    split_ifs at h ⊢ <;> rw [ih h, Option.map_map] <;> rfl

theorem foldr_consFirst_cons (cs part : List Char) (parts : List (List Char)) :
    cs.foldr consFirst (part :: parts) = (cs ++ part) :: parts := by
  induction cs with
  | nil => rfl
  | cons c cs ih => rw [List.foldr_cons, ih]; rfl

/-! ### Pieces -/

/-- A separator outside the brackets ends a piece. -/
theorem splitTopLevel?_append_cons {sep : Char} {part : List Char} (h : IsPiece sep part)
    (hopen : sep ≠ '[') (hclose : sep ≠ ']') (rest : List Char) :
    splitTopLevel? sep (part ++ sep :: rest) =
      (splitTopLevel? sep rest).map (part :: ·) := by
  unfold splitTopLevel?
  rw [splitAtDepth?_append h, splitAtDepth?_cons, if_neg hopen, if_neg hclose, if_pos ⟨rfl, rfl⟩,
    Option.map_map]
  congr 1
  funext parts
  exact (foldr_consFirst_cons part [] parts).trans (by rw [List.append_nil])

/-- Cutting gives at least one part. -/
theorem splitAtDepth?_ne_nil {sep : Char} {depth : Nat} {cs : List Char}
    {parts : List (List Char)} (h : splitAtDepth? sep depth cs = some parts) : parts ≠ [] := by
  cases cs with
  | nil =>
    cases depth with
    | zero => exact Option.some.inj h ▸ List.cons_ne_nil _ _
    | succ depth => cases h
  | cons c rest =>
    rw [splitAtDepth?_cons] at h
    split_ifs at h
    all_goals
      obtain ⟨parts, -, rfl⟩ := Option.map_eq_some_iff.1 h
      first | exact consFirst_ne_nil c parts | exact List.cons_ne_nil [] parts

theorem splitTopLevel?_of_isPiece {sep : Char} {part : List Char} (h : IsPiece sep part) :
    splitTopLevel? sep part = some [part] := by
  have happ := splitAtDepth?_append h []
  rw [List.append_nil] at happ
  unfold splitTopLevel?
  rw [happ, splitAtDepth?, Option.map_some, foldr_consFirst_cons, List.append_nil]

theorem joinWith_cons_cons {α : Type} (sep : α) (part next : List α) (parts : List (List α)) :
    joinWith sep (part :: next :: parts) = part ++ sep :: joinWith sep (next :: parts) := by
  simp [joinWith, List.intercalate_cons_cons]

@[simp] theorem joinWith_singleton {α : Type} (sep : α) (part : List α) :
    joinWith sep [part] = part := by
  simp [joinWith]

/-- **Splitting gives joined pieces back.** -/
theorem splitTopLevel?_joinWith {sep : Char} (hopen : sep ≠ '[') (hclose : sep ≠ ']')
    {parts : List (List Char)} (hne : parts ≠ []) (h : ∀ part ∈ parts, IsPiece sep part) :
    splitTopLevel? sep (joinWith sep parts) = some parts := by
  induction parts with
  | nil => exact absurd rfl hne
  | cons part parts ih =>
    have hpart := h part (List.mem_cons_self ..)
    cases parts with
    | nil => rw [joinWith_singleton, splitTopLevel?_of_isPiece hpart]
    | cons next parts =>
      rw [joinWith_cons_cons, splitTopLevel?_append_cons hpart hopen hclose,
        ih (List.cons_ne_nil _ _) fun p hp => h p (List.mem_cons_of_mem _ hp), Option.map_some]

/-! ### Which texts are pieces -/

theorem isPiece_nil (sep : Char) : IsPiece sep [] := rfl

theorem isBalanced_nil : IsBalanced [] := fun _ _ => rfl

theorem depthAfter?_of_notMem {sep : Char} {cs : List Char} (hopen : '[' ∉ cs) (hclose : ']' ∉ cs)
    (depth : Nat) (hsep : depth = 0 → sep ∉ cs) : depthAfter? sep depth cs = some depth := by
  induction cs with
  | nil => rfl
  | cons c cs ih =>
    simp only [List.mem_cons, not_or] at hopen hclose hsep
    rw [depthAfter?_cons, if_neg (Ne.symm hopen.1), if_neg (Ne.symm hclose.1), if_neg]
    · exact ih hopen.2 hclose.2 fun h => (hsep h).2
    · rintro ⟨rfl, hd⟩
      exact (hsep hd).1 rfl

/-- A text without brackets and without the separator is a piece. -/
theorem isPiece_of_notMem {sep : Char} {cs : List Char} (hopen : '[' ∉ cs) (hclose : ']' ∉ cs)
    (hsep : sep ∉ cs) : IsPiece sep cs :=
  depthAfter?_of_notMem hopen hclose 0 fun _ => hsep

theorem isBalanced_of_notMem {cs : List Char} (hopen : '[' ∉ cs) (hclose : ']' ∉ cs) :
    IsBalanced cs :=
  fun _ depth => depthAfter?_of_notMem hopen hclose (depth + 1) fun h => absurd h (Nat.succ_ne_zero _)

theorem IsPiece.append {sep : Char} {cs ds : List Char} (hc : IsPiece sep cs)
    (hd : IsPiece sep ds) : IsPiece sep (cs ++ ds) := by
  unfold IsPiece at hc
  rw [IsPiece, depthAfter?_append hc]
  exact hd

theorem IsBalanced.append {cs ds : List Char} (hc : IsBalanced cs) (hd : IsBalanced ds) :
    IsBalanced (cs ++ ds) := by
  intro sep depth
  rw [depthAfter?_append (hc sep depth)]
  exact hd sep depth

/-- Balanced texts stay balanced when they are joined. -/
theorem isBalanced_joinWith {mark : Char} (hopen : mark ≠ '[') (hclose : mark ≠ ']')
    {parts : List (List Char)} (h : ∀ part ∈ parts, IsBalanced part) :
    IsBalanced (joinWith mark parts) := by
  induction parts with
  | nil => exact isBalanced_nil
  | cons part parts ih =>
    have hpart := h part (List.mem_cons_self ..)
    cases parts with
    | nil => rw [joinWith_singleton]; exact hpart
    | cons next parts =>
      have hmark : IsBalanced [mark] := isBalanced_of_notMem (by simpa using Ne.symm hopen)
        (by simpa using Ne.symm hclose)
      rw [joinWith_cons_cons, List.append_cons]
      exact (hpart.append hmark).append (ih fun p hp => h p (List.mem_cons_of_mem _ hp))

/-- What is in no part and is not the mark is not in the joined text. -/
theorem notMem_joinWith {α : Type} {mark c : α} (hne : c ≠ mark) {parts : List (List α)}
    (h : ∀ part ∈ parts, c ∉ part) : c ∉ joinWith mark parts := by
  induction parts with
  | nil => exact List.not_mem_nil
  | cons part parts ih =>
    have hpart := h part List.mem_cons_self
    have hrest := ih fun p hp => h p (List.mem_cons_of_mem _ hp)
    cases parts with
    | nil => rwa [joinWith_singleton]
    | cons next parts =>
      rw [joinWith_cons_cons, List.mem_append, List.mem_cons]
      rintro (hc | hc | hc)
      · exact hpart hc
      · exact hne hc
      · exact hrest hc

/-- Pieces for one separator stay pieces for it when they are joined with another mark. -/
theorem isPiece_joinWith {sep mark : Char} (hopen : mark ≠ '[') (hclose : mark ≠ ']')
    (hne : sep ≠ mark) {parts : List (List Char)} (h : ∀ part ∈ parts, IsPiece sep part) :
    IsPiece sep (joinWith mark parts) := by
  induction parts with
  | nil => exact isPiece_nil sep
  | cons part parts ih =>
    have hpart := h part (List.mem_cons_self ..)
    cases parts with
    | nil => rw [joinWith_singleton]; exact hpart
    | cons next parts =>
      have hmark : IsPiece sep [mark] := isPiece_of_notMem (by simpa using Ne.symm hopen)
        (by simpa using Ne.symm hclose) (by simpa using hne)
      rw [joinWith_cons_cons, List.append_cons]
      exact (hpart.append hmark).append (ih fun p hp => h p (List.mem_cons_of_mem _ hp))

/-- Brackets around a balanced text make a piece for every separator but the brackets. -/
theorem isPiece_brackets {sep : Char} {cs : List Char} (h : IsBalanced cs) :
    IsPiece sep ('[' :: cs ++ [']']) := by
  unfold IsPiece
  rw [List.cons_append, depthAfter?_cons, if_pos rfl, depthAfter?_append (h sep 0)]
  rfl

theorem isBalanced_brackets {cs : List Char} (h : IsBalanced cs) :
    IsBalanced ('[' :: cs ++ [']']) := by
  intro sep depth
  rw [List.cons_append, depthAfter?_cons, if_pos rfl, depthAfter?_append (h sep (depth + 1))]
  rfl

variable {sep c : Char} {depth : Nat} {cs rest : List Char}

/-! ### Counting brackets -/

/-- The brackets of a text are balanced, when `depth` are open in front of it: no front of it closes
more than are open, and in the end all are closed. -/
structure BalancedFrom (depth : Nat) (cs : List Char) : Prop where
  fronts : ∀ front, front <+: cs → front.count ']' ≤ depth + front.count '['
  closed : cs.count ']' = depth + cs.count '['

/-- Every separator of a text stands inside brackets, when `depth` are open in front of it. -/
def SeparatorsInside (sep : Char) (depth : Nat) (cs : List Char) : Prop :=
  ∀ front back, cs = front ++ sep :: back → front.count ']' < depth + front.count '['

/-- A character does not close a bracket where none is open. -/
def CanFollow (depth : Nat) (c : Char) : Prop := [c].count ']' ≤ depth + [c].count '['

/-- How many brackets are open behind a character. -/
def depthBehind (depth : Nat) (c : Char) : Nat := depth + [c].count '[' - [c].count ']'

theorem count_cons_eq (c d : Char) (front : List Char) :
    (c :: front).count d = [c].count d + front.count d := by
  rw [← List.singleton_append, List.count_append]

theorem balancedFrom_nil : BalancedFrom depth [] ↔ depth = 0 := by
  constructor
  · intro h
    have hclosed := h.closed
    simp only [List.count_nil] at hclosed
    omega
  · rintro rfl
    refine ⟨fun front hfront => ?_, rfl⟩
    rw [List.prefix_nil.1 hfront]
    simp

/-- The first character must not close a bracket that is not open, and the rest must be balanced at
the depth that it leads to. -/
theorem balancedFrom_cons :
    BalancedFrom depth (c :: rest) ↔ CanFollow depth c ∧ BalancedFrom (depthBehind depth c) rest := by
  unfold CanFollow depthBehind
  constructor
  · intro h
    have hfirst : [c].count ']' ≤ depth + [c].count '[' := h.fronts [c] ⟨rest, rfl⟩
    have hclosed := h.closed
    rw [count_cons_eq c ']', count_cons_eq c '['] at hclosed
    refine ⟨hfirst, fun front hfront => ?_, by omega⟩
    have hle := h.fronts (c :: front) (List.cons_prefix_cons.2 ⟨rfl, hfront⟩)
    rw [count_cons_eq c ']', count_cons_eq c '['] at hle
    omega
  · rintro ⟨hfirst, hrest⟩
    have hclosed := hrest.closed
    refine ⟨fun front hfront => ?_, ?_⟩
    · cases front with
      | nil => simp
      | cons d front =>
        have hparts := List.cons_prefix_cons.1 hfront
        have hle := hrest.fronts front hparts.2
        rw [hparts.1, count_cons_eq c ']', count_cons_eq c '[']
        omega
    · rw [count_cons_eq c ']', count_cons_eq c '[']
      omega

theorem separatorsInside_nil : SeparatorsInside sep depth [] :=
  fun _ _ hcut => absurd hcut.symm (by simp)

/-- The first character must not be a separator at depth zero, nor must there be one in the rest. -/
theorem separatorsInside_cons (hfirst : CanFollow depth c) :
    SeparatorsInside sep depth (c :: rest) ↔
      (c = sep → depth ≠ 0) ∧ SeparatorsInside sep (depthBehind depth c) rest := by
  unfold CanFollow at hfirst
  unfold depthBehind
  constructor
  · intro h
    refine ⟨fun heq => ?_, fun front back hcut => ?_⟩
    · have hlt := h [] rest (by rw [heq, List.nil_append])
      simp only [List.count_nil] at hlt
      omega
    · have hlt := h (c :: front) back (by rw [hcut, List.cons_append])
      rw [count_cons_eq c ']', count_cons_eq c '['] at hlt
      omega
  · rintro ⟨hsep, hrest⟩ front back hcut
    cases front with
    | nil =>
      have hne : depth ≠ 0 := hsep (List.cons.inj hcut).1
      simp only [List.count_nil]
      omega
    | cons d front =>
      have hparts := List.cons.inj hcut
      have hlt := hrest front back hparts.2
      rw [← hparts.1, count_cons_eq c ']', count_cons_eq c '[']
      omega

/-- An opening bracket can follow everything, and leads one deeper. -/
theorem canFollow_open : CanFollow depth '[' := by
  have hnone : ['['].count ']' = 0 := rfl
  unfold CanFollow
  omega

@[simp] theorem depthBehind_open : depthBehind depth '[' = depth + 1 := rfl

/-- A closing bracket needs one that is open, and leads one back. -/
theorem canFollow_close : CanFollow depth ']' ↔ depth ≠ 0 := by
  have hone : [']'].count ']' = 1 := rfl
  have hnone : [']'].count '[' = 0 := rfl
  unfold CanFollow
  omega

@[simp] theorem depthBehind_close : depthBehind depth ']' = depth - 1 := rfl

/-- Every other character can follow everything and leaves the depth as it is. -/
theorem canFollow_of_ne (hclose : c ≠ ']') : CanFollow depth c := by
  have hnone : [c].count ']' = 0 := by simp [hclose]
  unfold CanFollow
  omega

theorem depthBehind_of_ne (hopen : c ≠ '[') (hclose : c ≠ ']') : depthBehind depth c = depth := by
  have hnone : [c].count '[' = 0 := by simp [hopen]
  have hnone' : [c].count ']' = 0 := by simp [hclose]
  unfold depthBehind
  omega

/-! ### What can be split, and what is one part -/

/-- A text can be split at a depth if and only if it is balanced there. -/
theorem splitAtDepth?_isSome_iff :
    (splitAtDepth? sep depth cs).isSome ↔ BalancedFrom depth cs := by
  induction cs generalizing depth with
  | nil =>
    rw [balancedFrom_nil]
    cases depth <;> simp [splitAtDepth?]
  | cons c rest ih =>
    rw [splitAtDepth?_cons, balancedFrom_cons]
    by_cases hopen : c = '['
    · subst hopen
      simp [ih, canFollow_open]
    by_cases hclose : c = ']'
    · subst hclose
      by_cases hzero : depth = 0 <;> simp [hzero, ih, canFollow_close]
    -- a separator at depth zero begins a new part, but does not change the depth
    rw [if_neg hopen, if_neg hclose, depthBehind_of_ne hopen hclose]
    have hfirst : CanFollow depth c := canFollow_of_ne hclose
    split <;> simp [ih, hfirst]

/-- A text is followed to depth zero if and only if it is balanced there and its separators stand
inside brackets. -/
theorem depthAfter?_eq_zero_iff (hopen : sep ≠ '[') (hclose : sep ≠ ']') :
    depthAfter? sep depth cs = some 0 ↔ BalancedFrom depth cs ∧ SeparatorsInside sep depth cs := by
  induction cs generalizing depth with
  | nil => simp [depthAfter?, balancedFrom_nil, separatorsInside_nil]
  | cons c rest ih =>
    rw [depthAfter?_cons, balancedFrom_cons, and_assoc]
    by_cases hisOpen : c = '['
    · subst hisOpen
      have hfirst : CanFollow depth '[' := canFollow_open
      have hne : '[' ≠ sep := hopen.symm
      simp [ih, separatorsInside_cons hfirst, hfirst, hne]
    -- a closing bracket must have an opening one before it
    by_cases hisClose : c = ']'
    · subst hisClose
      by_cases hzero : depth = 0
      · simp [hzero, canFollow_close]
      · have hfirst : CanFollow depth ']' := canFollow_close.2 hzero
        have hne : ']' ≠ sep := hclose.symm
        simp [ih, separatorsInside_cons hfirst, hfirst, hzero, hne]
    -- any other letter leaves the depth, and a separator must not stand outside
    have hfirst : CanFollow depth c := canFollow_of_ne hisClose
    rw [if_neg hisOpen, if_neg hisClose, separatorsInside_cons hfirst,
      depthBehind_of_ne hisOpen hisClose]
    split
    · next hsep => simp [hsep.1, hsep.2]
    · next hsep =>
      have hinside : c = sep → depth ≠ 0 := fun heq hzero => hsep ⟨heq, hzero⟩
      rw [ih]
      tauto

/-- A piece is a balanced text whose separators stand inside brackets. -/
theorem isPiece_iff (hopen : sep ≠ '[') (hclose : sep ≠ ']') :
    IsPiece sep cs ↔ BalancedFrom 0 cs ∧ SeparatorsInside sep 0 cs :=
  depthAfter?_eq_zero_iff hopen hclose

/-! ### The parts -/

/-- What splitting at a depth gives: the first part leads back to depth zero, the others are pieces,
and together they are the text. -/
structure AreParts (sep : Char) (depth : Nat) (cs : List Char) (parts : List (List Char)) :
    Prop where
  joined : joinWith sep parts = cs
  first : ∃ part others, parts = part :: others ∧ depthAfter? sep depth part = some 0
  others : ∀ part ∈ parts.tail, IsPiece sep part

/-- A character that stays in the first part is put in front of it. -/
theorem AreParts.consFirst {depth' : Nat} {parts : List (List Char)}
    (h : AreParts sep depth' rest parts)
    (hstep : ∀ part, depthAfter? sep depth (c :: part) = depthAfter? sep depth' part) :
    AreParts sep depth (c :: rest) (consFirst c parts) := by
  obtain ⟨part, others, rfl, hpart⟩ := h.first
  refine ⟨?_, ⟨c :: part, others, rfl, ?_⟩, h.others⟩
  · rw [joinWith_consFirst sep c (List.cons_ne_nil part others), h.joined]
  · rw [hstep part, hpart]

/-- A separator at depth zero begins a new part. -/
theorem AreParts.cons_nil {parts : List (List Char)} (h : AreParts sep 0 rest parts) :
    AreParts sep 0 (sep :: rest) ([] :: parts) := by
  obtain ⟨part, others, rfl, hpart⟩ := h.first
  refine ⟨?_, ⟨[], part :: others, rfl, rfl⟩, ?_⟩
  · rw [joinWith_cons_cons, h.joined, List.nil_append]
  · intro q hq
    have hmem : q = part ∨ q ∈ others := List.mem_cons.1 hq
    rcases hmem with rfl | hother
    · exact hpart
    · exact h.others q hother

theorem areParts_of_splitAtDepth? {parts : List (List Char)}
    (h : splitAtDepth? sep depth cs = some parts) : AreParts sep depth cs parts := by
  induction cs generalizing depth parts with
  | nil =>
    cases depth with
    | zero =>
      rw [← Option.some.inj h]
      exact ⟨joinWith_singleton sep [], ⟨[], [], rfl, rfl⟩, fun _ hpart => by simp at hpart⟩
    | succ depth => cases h
  | cons c rest ih =>
    rw [splitAtDepth?_cons] at h
    split_ifs at h with hisOpen hisClose hzero hsep <;>
      obtain ⟨inner, hinner, rfl⟩ := Option.map_eq_some_iff.1 h
    · exact (ih hinner).consFirst fun part => by rw [depthAfter?_cons, if_pos hisOpen]
    · exact (ih hinner).consFirst fun part => by
        rw [depthAfter?_cons, if_neg hisOpen, if_pos hisClose, if_neg hzero]
    · rw [hsep.1, hsep.2]
      rw [hsep.2] at hinner
      exact (ih hinner).cons_nil
    · exact (ih hinner).consFirst fun part => by
        rw [depthAfter?_cons, if_neg hisOpen, if_neg hisClose, if_neg hsep]

theorem AreParts.isPiece {parts : List (List Char)} (h : AreParts sep 0 cs parts) :
    ∀ part ∈ parts, IsPiece sep part := by
  obtain ⟨first, others, rfl, hfirst⟩ := h.first
  intro part hpart
  have hmem : part = first ∨ part ∈ others := List.mem_cons.1 hpart
  rcases hmem with rfl | hother
  · exact hfirst
  · exact h.others part hother

/-- **Splitting at depth zero is exact.**  A text can be split if and only if its brackets are
balanced.  Its parts are those that make it up when a separator is put between any two, that are
balanced, and in which every separator stands inside brackets; no other parts do. -/
theorem splitTopLevel?_exact (hopen : sep ≠ '[') (hclose : sep ≠ ']') (cs : List Char) :
    ((∃ parts, splitTopLevel? sep cs = some parts) ↔ BalancedFrom 0 cs) ∧
      ∀ parts, splitTopLevel? sep cs = some parts ↔
        parts ≠ [] ∧ joinWith sep parts = cs ∧
          ∀ part ∈ parts, BalancedFrom 0 part ∧ SeparatorsInside sep 0 part := by
  refine ⟨?_, fun parts => ⟨fun h => ?_, ?_⟩⟩
  · rw [← Option.isSome_iff_exists]
    exact splitAtDepth?_isSome_iff
  · have hparts : AreParts sep 0 cs parts := areParts_of_splitAtDepth? h
    have hne : parts ≠ [] := splitAtDepth?_ne_nil h
    exact ⟨hne, hparts.joined, fun part hpart =>
      (isPiece_iff hopen hclose).1 (hparts.isPiece part hpart)⟩
  · rintro ⟨hne, rfl, hpieces⟩
    exact splitTopLevel?_joinWith hopen hclose hne fun part hpart =>
      (isPiece_iff hopen hclose).2 (hpieces part hpart)

/-- A list cell is split at its commas, but not at those of a nested list. -/
theorem splitTopLevel?_exact_comma :
    (',' ≠ '[' ∧ ',' ≠ ']') ∧
      splitTopLevel? ',' "[1,2],3".toList = some ["[1,2]".toList, "3".toList] ∧
      BalancedFrom 0 "[1,2],3".toList ∧
      (∀ part ∈ ["[1,2]".toList, "3".toList],
        BalancedFrom 0 part ∧ SeparatorsInside ',' 0 part) ∧
      ¬ BalancedFrom 0 "[1,2]],3[".toList := by
  have hopen : ',' ≠ '[' := by decide
  have hclose : ',' ≠ ']' := by decide
  have hsplit : splitTopLevel? ',' "[1,2],3".toList = some ["[1,2]".toList, "3".toList] := by
    decide
  have hall := splitTopLevel?_exact hopen hclose "[1,2],3".toList
  refine ⟨⟨hopen, hclose⟩, hsplit, hall.1.1 ⟨_, hsplit⟩, ((hall.2 _).1 hsplit).2.2, ?_⟩
  intro hbalanced
  have hnone : splitTopLevel? ',' "[1,2]],3[".toList = none := by decide
  obtain ⟨parts, hparts⟩ := (splitTopLevel?_exact hopen hclose "[1,2]],3[".toList).1.2 hbalanced
  rw [hnone] at hparts
  cases hparts

end RecordTables.Text
