/-!
# Splitting and joining text

A cell holds several values side by side, set apart by a separator.  `splitOn` cuts a text, or
bytes, at every separator and `joinWith` puts the parts together again.  `splitTopLevel?` cuts only
where no square bracket is open, and refuses a text whose brackets are not balanced.
-/

namespace RecordTables.Text

variable {α : Type}

/-- Puts a character in front of the first part. -/
def consFirst (c : α) : List (List α) → List (List α)
  | [] => [[c]]
  | p :: rest => (c :: p) :: rest

/-- The parts between the separators; there is one more than there are separators. -/
def splitOn [DecidableEq α] (sep : α) : List α → List (List α)
  | [] => [[]]
  | c :: rest => if c = sep then [] :: splitOn sep rest else consFirst c (splitOn sep rest)

/-- The parts with a separator between any two. -/
def joinWith (sep : α) (parts : List (List α)) : List α := [sep].intercalate parts

/-- The parts between the separators at which `depth` brackets fewer are open than at the start. -/
def splitAtDepth? (sep : Char) : (depth : Nat) → List Char → Option (List (List Char))
  | 0, [] => some [[]]
  | _ + 1, [] => none
  | depth, c :: rest =>
    if c = '[' then (splitAtDepth? sep (depth + 1) rest).map (consFirst c)
    else if c = ']' then
      match depth with
      | 0 => none
      | depth + 1 => (splitAtDepth? sep depth rest).map (consFirst c)
    else if c = sep ∧ depth = 0 then (splitAtDepth? sep depth rest).map ([] :: ·)
    else (splitAtDepth? sep depth rest).map (consFirst c)

/-- The parts between the separators outside all brackets; `none` if a bracket is closed that is not
open, or is left open. -/
def splitTopLevel? (sep : Char) (cs : List Char) : Option (List (List Char)) :=
  splitAtDepth? sep 0 cs

theorem consFirst_ne_nil (c : α) (parts : List (List α)) : consFirst c parts ≠ [] := by
  cases parts <;> simp [consFirst]

theorem splitOn_ne_nil [DecidableEq α] (sep : α) (cs : List α) : splitOn sep cs ≠ [] := by
  cases cs with
  | nil => simp [splitOn]
  | cons c rest =>
    rw [splitOn]; split
    · simp
    · exact consFirst_ne_nil _ _

theorem joinWith_consFirst (sep c : α) {parts : List (List α)} (h : parts ≠ []) :
    joinWith sep (consFirst c parts) = c :: joinWith sep parts := by
  match parts with
  | [p] => simp [consFirst, joinWith]
  | p :: q :: rest => simp [consFirst, joinWith, List.intercalate_cons_cons]

/-- Joining the parts gives the text back. -/
theorem joinWith_splitOn [DecidableEq α] (sep : α) (cs : List α) :
    joinWith sep (splitOn sep cs) = cs := by
  induction cs with
  | nil => simp [splitOn, joinWith]
  | cons c rest ih =>
    rw [splitOn]; split
    · next h =>
      subst h
      match hs : splitOn c rest, splitOn_ne_nil c rest with
      | p :: ps, _ => rw [hs] at ih; simp [joinWith, List.intercalate_cons_cons] at ih ⊢; exact ih
    · rw [joinWith_consFirst sep c (splitOn_ne_nil sep rest), ih]

/-- A text without separators is its own only part. -/
theorem splitOn_of_notMem [DecidableEq α] {sep : α} {cs : List α} (h : sep ∉ cs) :
    splitOn sep cs = [cs] := by
  induction cs with
  | nil => rfl
  | cons c rest ih =>
    simp only [List.mem_cons, not_or] at h
    rw [splitOn, if_neg (Ne.symm h.1), ih h.2]; rfl

/-- The first separator ends the first part. -/
theorem splitOn_append_cons [DecidableEq α] {sep : α} {part : List α} (h : sep ∉ part)
    (rest : List α) : splitOn sep (part ++ sep :: rest) = part :: splitOn sep rest := by
  induction part with
  | nil => simp [splitOn]
  | cons c part ih =>
    simp only [List.mem_cons, not_or] at h
    rw [List.cons_append, splitOn, if_neg (Ne.symm h.1), ih h.2]; rfl

/-- Splitting gives back the parts that were joined, if there is one and none holds a separator. -/
theorem splitOn_joinWith [DecidableEq α] {sep : α} {parts : List (List α)} (hne : parts ≠ [])
    (h : ∀ part ∈ parts, sep ∉ part) : splitOn sep (joinWith sep parts) = parts := by
  induction parts with
  | nil => exact absurd rfl hne
  | cons part parts ih =>
    cases parts with
    | nil => simpa [joinWith] using splitOn_of_notMem (h part (by simp))
    | cons next parts =>
      have step : joinWith sep (part :: next :: parts) =
          part ++ sep :: joinWith sep (next :: parts) := by
        simp [joinWith, List.intercalate_cons_cons]
      rw [step, splitOn_append_cons (h part (by simp)),
        ih (by simp) (fun p hp => h p (List.mem_cons_of_mem _ hp))]

end RecordTables.Text
