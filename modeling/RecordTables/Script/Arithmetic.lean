import RecordTables.Number.Numeral

/-!
# Arithmetic of scripts

`Arithmetic.value?` finds the value of an expression over integers.  A comparison has the value one
if it holds and zero if not; a name stands for the number of its variable.
-/

namespace RecordTables.Script.Arithmetic

/-- The binary operators, from those that bind least; of two that begin alike the longer one stands
in front. -/
def levels : List (List String) :=
  [["||"], ["&&"], ["==", "!="], ["<=", ">=", "<", ">"], ["+", "-"], ["*", "/", "%"]]

/-- One for what holds, and zero for what does not. -/
def ofBool (b : Bool) : Int := if b then 1 else 0

/-- The value of a binary operator; a division by zero has none. -/
def combine? (operator : String) (a b : Int) : Option Int :=
  match operator with
  | "||" => some (ofBool (a ≠ 0 || b ≠ 0))
  | "&&" => some (ofBool (a ≠ 0 && b ≠ 0))
  | "==" => some (ofBool (a = b))
  | "!=" => some (ofBool (a ≠ b))
  | "<=" => some (ofBool (a ≤ b))
  | ">=" => some (ofBool (b ≤ a))
  | "<" => some (ofBool (a < b))
  | ">" => some (ofBool (b < a))
  | "+" => some (a + b)
  | "-" => some (a - b)
  | "*" => some (a * b)
  | "/" => if b = 0 then none else some (a.tdiv b)
  | "%" => if b = 0 then none else some (a.tmod b)
  | _ => none

/-- What is behind blanks. -/
def skip (cs : List Char) : List Char := cs.dropWhile fun c => c = ' ' ∨ c = '\t' ∨ c = '\n'

mutual

/-- Reads operands that are joined by the operators of some levels. -/
def readJoined (lookup : String → Int) :
    (fuel : Nat) → List (List String) → List Char → Option (Int × List Char)
  | 0, _, _ => none
  | fuel + 1, [], cs => readOperand lookup fuel (skip cs)
  | fuel + 1, operators :: tighter, cs =>
    match readJoined lookup fuel tighter cs with
    | some (a, rest) => readOnto lookup fuel operators tighter a rest
    | none => none

/-- Reads what is joined onto an operand, from left to right. -/
def readOnto (lookup : String → Int) :
    (fuel : Nat) → List String → List (List String) → Int → List Char → Option (Int × List Char)
  | 0, _, _, _, _ => none
  | fuel + 1, operators, tighter, a, cs =>
    match operators.find? fun op => op.toList.isPrefixOf (skip cs) with
    | none => some (a, cs)
    | some op =>
      match readJoined lookup fuel tighter ((skip cs).drop op.length) with
      | some (b, rest) =>
        match combine? op a b with
        | some c => readOnto lookup fuel operators tighter c rest
        | none => none
      | none => none

/-- Reads a number, a name, a sign with its operand, or an expression in brackets. -/
def readOperand (lookup : String → Int) : (fuel : Nat) → List Char → Option (Int × List Char)
  | 0, _ => none
  | fuel + 1, '-' :: rest => (readOperand lookup fuel (skip rest)).map fun (a, rest) => (-a, rest)
  | fuel + 1, '+' :: rest => readOperand lookup fuel (skip rest)
  | fuel + 1, '!' :: rest =>
    (readOperand lookup fuel (skip rest)).map fun (a, rest) => (ofBool (a = 0), rest)
  | fuel + 1, '(' :: rest =>
    match readJoined lookup fuel levels rest with
    | some (a, rest) =>
      match skip rest with
      | ')' :: rest => some (a, rest)
      | _ => none
    | none => none
  | _ + 1, cs =>
    let word := cs.takeWhile fun c => c.isAlphanum || c = '_'
    let rest := cs.drop word.length
    if word.isEmpty then none
    else
      match Number.natOfDigits? word with
      | some n => some (n, rest)
      | none => if word.any (·.isDigit) ∧ word.head?.any (·.isDigit) then none
        else some (lookup (String.ofList word), rest)

end

/-- The value of an expression. -/
def value? (lookup : String → Int) (text : String) : Option Int :=
  let cs := text.toList
  match readJoined lookup (8 * cs.length + 16) levels cs with
  | some (a, rest) => if (skip rest).isEmpty then some a else none
  | none => none

end RecordTables.Script.Arithmetic
