import RecordTables.Number.Numeral
import RecordTables.Time.Calendar

/-!
# TOML

`Toml` is what a TOML document says: a table of named values, some of which are tables themselves.
Where a table is written, under a heading, in braces, or by the dots in the names of its values,
makes no difference to it.

A scalar without quotes is a truth value, a whole number of the signed 64-bit range in one of four
radices, a floating-point number, or a date or a time.  Between two digits there may be one
underscore.
-/

namespace RecordTables

/-- A TOML value. -/
inductive Toml where
  | text (s : String)
  | int (n : Int)
  /-- A floating-point number, by its literal. -/
  | float (literal : String)
  | bool (b : Bool)
  /-- A date, a time or both, by its literal. -/
  | time (literal : String)
  | array (items : List Toml)
  | table (entries : List (String × Toml))
  deriving Inhabited

namespace Toml

/-! ## Scalars -/

/-! ### Numbers -/

/-- Whether digits have underscores only between two of them. -/
def underscoresFit (digits : List Char) : Bool :=
  let rec fits : (afterDigit : Bool) → List Char → Bool
    | afterDigit, [] => afterDigit
    | afterDigit, c :: rest => if c = '_' then afterDigit && fits false rest else fits true rest
  fits false digits

/-- The number that digits denote in a radix. -/
def radixDigits? (radix : Nat) (digits : List Char) : Option Nat :=
  if underscoresFit digits then
    (digits.filter (· ≠ '_')).foldlM (fun n c => (Number.digit? radix c).map (n * radix + ·)) 0
  else none

/-- Decimal digits without a superfluous zero in front. -/
def decimal? (digits : List Char) : Option Nat :=
  match digits with
  | '0' :: _ :: _ => none
  | _ => radixDigits? 10 digits

/-- The sign of a literal, and what is behind it. -/
def splitSign : List Char → Bool × List Char
  | '-' :: rest => (true, rest)
  | '+' :: rest => (false, rest)
  | cs => (false, cs)

/-- The whole number of a literal. -/
def readInt? (cs : List Char) : Option Int :=
  let value : Option Int := match cs with
    | '0' :: 'x' :: digits => (radixDigits? 16 digits).map Int.ofNat
    | '0' :: 'o' :: digits => (radixDigits? 8 digits).map Int.ofNat
    | '0' :: 'b' :: digits => (radixDigits? 2 digits).map Int.ofNat
    | _ =>
      let (negative, digits) := splitSign cs
      (decimal? digits).map fun n => if negative then -(n : Int) else n
  value.filter fun n => -0x8000000000000000 ≤ n ∧ n < 0x8000000000000000

/-- Whether a literal is a floating-point number: decimal digits, and behind them a fraction, an
exponent or both; or infinity, or no number at all. -/
def isFloat (cs : List Char) : Bool :=
  let (_, body) := splitSign cs
  if body = "inf".toList ∨ body = "nan".toList then true
  else
    let isDigit (c : Char) : Bool := c.isDigit || c = '_'
    let whole := body.takeWhile isDigit
    let (fraction, rest) := match body.dropWhile isDigit with
      | '.' :: rest => (some (rest.takeWhile isDigit), rest.dropWhile isDigit)
      | rest => (none, rest)
    let exponent := match rest with
      | 'e' :: rest | 'E' :: rest => some (splitSign rest).2
      | _ => none
    (decimal? whole).isSome && fraction.all underscoresFit &&
      (if rest.isEmpty then fraction.isSome
        else exponent.any (fun ds => (radixDigits? 10 ds).isSome))

/-! ### Dates and times -/

/-- The number of exactly `width` digits in front, and what is behind them. -/
def fixedDigits? (width : Nat) (cs : List Char) : Option (Nat × List Char) :=
  let digits := cs.take width
  if digits.length = width then (Number.natOfDigits? digits).map (·, cs.drop width) else none

/-- What is behind a character. -/
def behind? (c : Char) : List Char → Option (List Char)
  | d :: rest => if c = d then some rest else none
  | [] => none

/-- What is behind a date. -/
def afterDate? (cs : List Char) : Option (List Char) := do
  let (year, cs) ← fixedDigits? 4 cs
  let (month, cs) ← fixedDigits? 2 (← behind? '-' cs)
  let (day, cs) ← fixedDigits? 2 (← behind? '-' cs)
  if 1 ≤ month ∧ month ≤ 12 ∧ 1 ≤ day ∧ day ≤ Calendar.daysInMonth year month then some cs else none

/-- What is behind the time of a day. -/
def afterTime? (cs : List Char) : Option (List Char) := do
  let (hour, cs) ← fixedDigits? 2 cs
  let (minute, cs) ← fixedDigits? 2 (← behind? ':' cs)
  let (second, cs) ← fixedDigits? 2 (← behind? ':' cs)
  if hour < 24 ∧ minute < 60 ∧ second ≤ 60 then
    match cs with
    | '.' :: fraction =>
      if (fraction.head?.map Char.isDigit).getD false then some (fraction.dropWhile Char.isDigit)
      else none
    | _ => some cs
  else none

/-- What is behind an offset from universal time. -/
def afterOffset? : List Char → Option (List Char)
  | 'Z' :: rest | 'z' :: rest => some rest
  | '+' :: rest | '-' :: rest => do
    let (hour, cs) ← fixedDigits? 2 rest
    let (minute, cs) ← fixedDigits? 2 (← behind? ':' cs)
    if hour < 24 ∧ minute < 60 then some cs else none
  | _ => none

/-- Whether a literal is a time, a date, or both with an offset if need be. -/
def isTime (cs : List Char) : Bool :=
  match afterDate? cs with
  | none => afterTime? cs = some []
  | some [] => true
  | some (c :: rest) =>
    if c = 'T' ∨ c = 't' ∨ c = ' ' then
      match afterTime? rest with
      | none => false
      | some [] => true
      | some rest => afterOffset? rest = some []
    else false

/-- Whether a character can be part of a scalar without quotes. -/
def isScalarChar (c : Char) : Bool :=
  c.isAlphanum || c = '_' || c = '+' || c = '-' || c = '.' || c = ':'

/-- The literal in front, and what is behind it.  A blank belongs to it between a date and a time.
-/
def splitLiteral (cs : List Char) : List Char × List Char :=
  let literal := cs.takeWhile isScalarChar
  match cs.dropWhile isScalarChar with
  | ' ' :: c :: rest =>
    if afterDate? literal = some [] ∧ c.isDigit then
      let more := (c :: rest).takeWhile isScalarChar
      (literal ++ ' ' :: more, (c :: rest).dropWhile isScalarChar)
    else (literal, ' ' :: c :: rest)
  | rest => (literal, rest)

/-- Reads a scalar without quotes. -/
def readScalar? (cs : List Char) : Option (Toml × List Char) :=
  let (literal, rest) := splitLiteral cs
  if literal = "true".toList then some (.bool true, rest)
  else if literal = "false".toList then some (.bool false, rest)
  else
    match readInt? literal with
    | some n => some (.int n, rest)
    | none =>
      if isFloat literal then some (.float (String.ofList literal), rest)
      else if isTime literal then some (.time (String.ofList literal), rest)
      else none

end Toml

end RecordTables
