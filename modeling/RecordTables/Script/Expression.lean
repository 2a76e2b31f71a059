/-!
# Patterns and regular expressions of scripts

In a pattern a star stands for any characters, a question mark for one, and square brackets for one
of the characters in them.

An expression is a row of parts.  A part stands for one character of a kind, or with a star for any
number of them.  `Expression.search?` finds the first place of a text that an expression matches,
and there the longest match that leaves the parts behind it theirs.
-/

namespace RecordTables.Script

/-! ## Patterns -/

/-- Whether a character is among those of a set, which may have ranges. -/
def inSet (c : Char) : List Char → Bool
  | a :: '-' :: b :: rest => (a ≤ c && c ≤ b) || inSet c rest
  | a :: rest => a = c || inSet c rest
  | [] => false

/-- Whether a text matches a pattern.  `fuel` bounds the steps; the lengths of both are enough. -/
def matchesPattern : (fuel : Nat) → (pattern text : List Char) → Bool
  | 0, _, _ => false
  | _ + 1, [], text => text.isEmpty
  | fuel + 1, '*' :: pattern, text =>
    matchesPattern fuel pattern text ||
      match text with
      | [] => false
      | _ :: rest => matchesPattern fuel ('*' :: pattern) rest
  | fuel + 1, '?' :: pattern, _ :: rest => matchesPattern fuel pattern rest
  | fuel + 1, '\\' :: p :: pattern, c :: rest => p = c && matchesPattern fuel pattern rest
  | fuel + 1, '[' :: pattern, c :: rest =>
    let set := pattern.takeWhile (· ≠ ']')
    let found := match set with
      | '!' :: set => !inSet c set
      | set => inSet c set
    found && matchesPattern fuel (pattern.drop (set.length + 1)) rest
  | fuel + 1, p :: pattern, c :: rest => p = c && matchesPattern fuel pattern rest
  | _ + 1, _ :: _, [] => false

/-- Whether a text matches a pattern. -/
def hasPattern (pattern text : String) : Bool :=
  matchesPattern (pattern.length + text.length + 1) pattern.toList text.toList

/-- A pattern that a text matches and nothing else. -/
def guardedPattern (text : String) : String :=
  String.ofList (text.toList.flatMap fun c => if "*?[]\\".toList.contains c then ['\\', c] else [c])

/-- Whether a pattern has characters that stand for others. -/
def isWild : List Char → Bool
  | '\\' :: _ :: rest => isWild rest
  | c :: rest => c = '*' || c = '?' || c = '[' || isWild rest
  | [] => false

/-- The text of a pattern without backslashes. -/
def plainText : List Char → List Char
  | '\\' :: c :: rest => c :: plainText rest
  | c :: rest => c :: plainText rest
  | [] => []

/-- The lengths of the beginnings of a text that match a pattern, the shortest first. -/
def matchingLengths (pattern : String) (text : List Char) : List Nat :=
  (List.range (text.length + 1)).filter fun n => hasPattern pattern (String.ofList (text.take n))

/-- A text without a beginning that matches a pattern. -/
def dropBeginning (longest : Bool) (pattern text : String) : String :=
  let lengths := matchingLengths pattern text.toList
  let n := (if longest then lengths.getLast? else lengths.head?).getD 0
  String.ofList (text.toList.drop n)

/-- A text without an end that matches a pattern. -/
def dropEnding (longest : Bool) (pattern text : String) : String :=
  let cs := text.toList
  let lengths := (List.range (cs.length + 1)).filter fun n =>
    hasPattern pattern (String.ofList (cs.drop (cs.length - n)))
  let n := (if longest then lengths.getLast? else lengths.head?).getD 0
  String.ofList (cs.take (cs.length - n))

/-! ## Regular expressions -/

/-- A kind of characters. -/
inductive CharKind where
  | any
  | one (c : Char)
  /-- Those of a set, or all others. -/
  | set (negated : Bool) (members : List Char)
  deriving DecidableEq, Repr

/-- Whether a character is of a kind. -/
def CharKind.holds : CharKind → Char → Bool
  | any, _ => true
  | one c, d => c = d
  | set negated members, d => inSet d members != negated

/-- A part of an expression. -/
structure ExpressionPart where
  kind : CharKind
  /-- Whether it stands for any number of characters. -/
  starred : Bool
  deriving DecidableEq, Repr

/-- A regular expression. -/
structure Expression where
  parts : List ExpressionPart
  /-- Whether it matches at the beginning of a line only. -/
  atStart : Bool
  /-- Whether it matches at the end of a line only. -/
  atEnd : Bool
  deriving DecidableEq, Repr

namespace Expression

/-- Reads the parts of an expression, and whether a dollar sign ends it. -/
def readParts? : (fuel : Nat) → List Char → Option (List ExpressionPart × Bool)
  | 0, _ => none
  | _ + 1, [] => some ([], false)
  | _ + 1, ['$'] => some ([], true)
  | fuel + 1, c :: rest =>
    let found : Option (CharKind × List Char) :=
      match c, rest with
      | '.', _ => some (.any, rest)
      | '\\', d :: rest => if "()\x7b\x7d".toList.contains d then none else some (.one d, rest)
      | '\\', [] => none
      | '[', '^' :: ']' :: rest =>
        some (.set true (']' :: rest.takeWhile (· ≠ ']')), (rest.dropWhile (· ≠ ']')).drop 1)
      | '[', '^' :: rest =>
        some (.set true (rest.takeWhile (· ≠ ']')), (rest.dropWhile (· ≠ ']')).drop 1)
      | '[', d :: rest =>
        some (.set false (d :: rest.takeWhile (· ≠ ']')), (rest.dropWhile (· ≠ ']')).drop 1)
      | c, _ => some (.one c, rest)
    match found with
    | none => none
    | some (kind, '*' :: rest) =>
      (readParts? fuel rest).map fun (parts, atEnd) => (⟨kind, true⟩ :: parts, atEnd)
    | some (kind, rest) =>
      (readParts? fuel rest).map fun (parts, atEnd) => (⟨kind, false⟩ :: parts, atEnd)

/-- Reads an expression. -/
def ofText? (text : String) : Option Expression :=
  let (atStart, cs) := match text.toList with
    | '^' :: rest => (true, rest)
    | cs => (false, cs)
  (readParts? (cs.length + 1) cs).map fun (parts, atEnd) => ⟨parts, atStart, atEnd⟩

/-- The expression that a text matches literally. -/
def literal (text : String) : Expression :=
  ⟨text.toList.map fun c => ⟨.one c, false⟩, false, false⟩

/-- What is behind a match of parts at the beginning of some characters. -/
def rest? (atEnd : Bool) : List ExpressionPart → List Char → Option (List Char)
  | [], cs => if atEnd ∧ !cs.isEmpty then none else some cs
  | p :: parts, cs =>
    if p.starred then
      let most := (cs.takeWhile p.kind.holds).length
      (List.range (most + 1)).reverse.findSome? fun n => rest? atEnd parts (cs.drop n)
    else
      match cs with
      | c :: rest => if p.kind.holds c then rest? atEnd parts rest else none
      | [] => none

/-- The first match in some characters: what is before it, the match, and what is behind it. -/
def search? (e : Expression) (cs : List Char) : Option (List Char × List Char × List Char) :=
  let places := if e.atStart then [0] else List.range (cs.length + 1)
  places.findSome? fun n =>
    (rest? e.atEnd e.parts (cs.drop n)).map fun rest =>
      (cs.take n, (cs.drop n).take (cs.length - n - rest.length), rest)

/-- Whether an expression matches somewhere in some characters. -/
def occurs (e : Expression) (cs : List Char) : Bool := (e.search? cs).isSome

/-- Puts something in the place of the first match, or of every match. -/
def replace (e : Expression) (all : Bool) (replacement : List Char → List Char) :
    (fuel : Nat) → List Char → List Char
  | 0, cs => cs
  | fuel + 1, cs =>
    match e.search? cs with
    | none => cs
    | some (before, found, rest) =>
      if !all ∨ e.atStart then before ++ replacement found ++ rest
      else if found.isEmpty then
        match rest with
        | [] => before ++ replacement found
        | c :: rest => before ++ replacement found ++ c :: replace e all replacement fuel rest
      else if rest.isEmpty then before ++ replacement found
      else before ++ replacement found ++ replace e all replacement fuel rest

end Expression

end RecordTables.Script
