/-!
# Numerals in a bounded range

Whole numbers are read from left to right, and the first fault met decides: a character that is no
digit of the radix, or a digit that takes the number out of its range.  A plus sign may stand in
front; a minus sign only where the range has negative numbers.  A sign alone is no numeral.
-/

namespace RecordTables.Number

/-- Why a text is no numeral of the range asked for. -/
inductive NumeralFault where
  /-- There are no characters at all. -/
  | empty
  /-- A character is not a digit, or a sign stands alone. -/
  | invalidDigit
  /-- The number is above the range. -/
  | tooLarge
  /-- The number is below the range. -/
  | tooSmall
  deriving DecidableEq, Repr

/-- The value of a digit of the radix; letters stand for ten and above, in either case. -/
def digit? (radix : Nat) (c : Char) : Option Nat :=
  let value :=
    if '0' ≤ c ∧ c ≤ '9' then some (c.toNat - 0x30)
    else if 'a' ≤ c ∧ c ≤ 'z' then some (c.toNat - 0x61 + 10)
    else if 'A' ≤ c ∧ c ≤ 'Z' then some (c.toNat - 0x41 + 10)
    else none
  value.filter (· < radix)

/-- Reads digits onto a number read so far.  Numbers above `limit` are the fault `beyond`. -/
def readDigits (radix limit : Nat) (beyond : NumeralFault) :
    Nat → List Char → Except NumeralFault Nat
  | n, [] => .ok n
  | n, c :: rest =>
    match digit? radix c with
    | none => .error .invalidDigit
    | some d =>
      if n * radix + d ≤ limit then readDigits radix limit beyond (n * radix + d) rest
      else .error beyond

/-- Reads an unsigned numeral up to `limit`. -/
def readNat (radix limit : Nat) (cs : List Char) : Except NumeralFault Nat :=
  match cs with
  | [] => .error .empty
  | ['+'] => .error .invalidDigit
  | '+' :: rest => readDigits radix limit .tooLarge 0 rest
  | _ => readDigits radix limit .tooLarge 0 cs

/-- Reads a signed decimal numeral between `-below` and `above`. -/
def readInt (below above : Nat) (cs : List Char) : Except NumeralFault Int :=
  match cs with
  | [] => .error .empty
  | ['+'] => .error .invalidDigit
  | ['-'] => .error .invalidDigit
  | '+' :: rest => (readDigits 10 above .tooLarge 0 rest).map Int.ofNat
  | '-' :: rest => (readDigits 10 below .tooSmall 0 rest).map (fun n => -(n : Int))
  | _ => (readDigits 10 above .tooLarge 0 cs).map Int.ofNat

/-- Reads a numeral of the signed 64-bit range. -/
def readInt64 (cs : List Char) : Except NumeralFault Int64 :=
  (readInt 0x8000000000000000 0x7fffffffffffffff cs).map Int64.ofInt

/-- The number that a run of decimal digits denotes, in no bounded range.  `none` for the empty run
and for a run with another character in it. -/
def natOfDigits? (cs : List Char) : Option Nat :=
  if cs.isEmpty || !cs.all Char.isDigit then none
  else some (cs.foldl (fun n c => n * 10 + (c.toNat - 0x30)) 0)

/-- The decimal digits of `n`, padded with zeros in front to at least `width`. -/
def padded (width n : Nat) : String :=
  let digits := Nat.toDigits 10 n
  String.ofList (List.replicate (width - digits.length) '0' ++ digits)

end RecordTables.Number

namespace RecordTables.Text

/-- The lowercase digit of a value below sixteen. -/
def hexDigit (n : Nat) : Char :=
  if n < 10 then Char.ofNat (0x30 + n) else Char.ofNat (0x61 + (n - 10))

/-- The last `width` hexadecimal digits of `n`, the most significant first. -/
def hexDigits : (width n : Nat) → List Char
  | 0, _ => []
  | width + 1, n => hexDigits width (n / 16) ++ [hexDigit (n % 16)]

/-- The last `width` hexadecimal digits of `n` as a text. -/
def hex (width n : Nat) : String := String.ofList (hexDigits width n)

@[simp] theorem length_hexDigits (width n : Nat) : (hexDigits width n).length = width := by
  induction width generalizing n with
  | zero => rfl
  | succ w ih => simp [hexDigits, ih]

end RecordTables.Text
