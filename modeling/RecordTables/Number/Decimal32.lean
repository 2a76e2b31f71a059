import RecordTables.Number.Binary32
import RecordTables.Number.Numeral

/-!
# Decimal text of 32-bit floating-point numbers

A decimal text names the number nearest to it (`Binary32.ofText?`).  A number is written with the
fewest digits that read back as itself, the nearest of those, and of two equally near the greater
(`Binary32.text`); there is never an exponent, and no point where there is no fraction.
-/

namespace RecordTables.Number.Binary32

/-! ### Reading -/

/-- The number nearest to `m * 10 ^ e`.  Powers beyond the range of every finite number are cut off
before they are computed: `m` has `length` digits or fewer. -/
def ofDecimal (negative : Bool) (m : Nat) (e : Int) (length : Nat) : Binary32 :=
  if m = 0 then ofMagnitude negative 0
  else if e > 60 then ofMagnitude negative infiniteMagnitude
  else if (length : Int) + e < -60 then ofMagnitude negative 0
  else ofRatio negative (m * Nat.pow 10 e.toNat) (Nat.pow 10 (-e).toNat)

/-- The value of an exponent part: `e`, a sign if need be, and digits.  Nothing at all is zero. -/
def readExponent? : List Char → Option Int
  | [] => some 0
  | c :: rest =>
    if c = 'e' ∨ c = 'E' then
      match rest with
      | '-' :: digits => (natOfDigits? digits).map (fun n => -(n : Int))
      | '+' :: digits => (natOfDigits? digits).map Int.ofNat
      | digits => (natOfDigits? digits).map Int.ofNat
    else none

/-- The number of a text without its sign: digits with at most one point among or beside them, and
an exponent if need be. -/
def readUnsigned? (negative : Bool) (cs : List Char) : Option Binary32 :=
  let whole := cs.takeWhile Char.isDigit
  let rest := cs.dropWhile Char.isDigit
  let (fraction, rest) := match rest with
    | '.' :: more => (more.takeWhile Char.isDigit, more.dropWhile Char.isDigit)
    | _ => ([], rest)
  match natOfDigits? (whole ++ fraction), readExponent? rest with
  | some m, some e =>
    some (ofDecimal negative m (e - fraction.length) (whole.length + fraction.length))
  | _, _ => none

/-- The names of the values that are not finite, in any mixture of cases. -/
def readNonFinite? (negative : Bool) (cs : List Char) : Option Binary32 :=
  let word := cs.map Char.toLower
  if word = "nan".toList then some nan
  else if word = "inf".toList ∨ word = "infinity".toList then
    some (ofMagnitude negative infiniteMagnitude)
  else none

/-- Reads a decimal text, with a sign if need be. -/
def ofText? (cs : List Char) : Option Binary32 :=
  let (negative, body) := match cs with
    | '-' :: rest => (true, rest)
    | '+' :: rest => (false, rest)
    | _ => (false, cs)
  (readUnsigned? negative body).or (readNonFinite? negative body)

/-! ### Writing -/

/-- The numbers that round to `x`, as quotients over `4`, in units of `2 ^ (x.exponent)`: from
`4 * m - 2` to `4 * m + 2`, and only from `4 * m - 1` where the numbers below lie twice as dense. -/
def lowerBound (x : Binary32) : Nat :=
  if x.magnitude % 0x800000 = 0 ∧ 1 < x.magnitude / 0x800000 then 4 * x.significand - 1
  else 4 * x.significand - 2

/-- Whether `num / den` rounds to `x`: it lies in the interval of `x`, the ends included exactly
when the significand is even. -/
def roundsTo (x : Binary32) (num den : Nat) : Bool :=
  let scaled := 4 * num * Nat.pow 2 (-x.exponent).toNat
  let unit := den * Nat.pow 2 x.exponent.toNat
  let low := x.lowerBound * unit
  let high := (4 * x.significand + 2) * unit
  if x.significand % 2 = 0 then low ≤ scaled && scaled ≤ high
  else low < scaled && scaled < high

/-- The least `p` at or above the bound with `num / den < 10 ^ p`, looking `fuel` powers up. -/
def decimalPoint (num den : Nat) : (fuel : Nat) → Int → Int
  | 0, p => p
  | fuel + 1, p =>
    if num * Nat.pow 10 (-p).toNat < den * Nat.pow 10 p.toNat then p
    else decimalPoint num den fuel (p + 1)

/-- The neighbour of `num / den` on the grid of multiples of `10 ^ g` that rounds to `x`, as a
multiple of `10 ^ g`; of two, the nearer, and of two equally near the greater. -/
def neighbour? (x : Binary32) (num den : Nat) (g : Int) : Option Nat :=
  let num' := num * Nat.pow 10 (-g).toNat
  let den' := den * Nat.pow 10 g.toNat
  let low := num' / den'
  let reads (d : Nat) : Bool := x.roundsTo (d * Nat.pow 10 g.toNat) (Nat.pow 10 (-g).toNat)
  match reads low, reads (low + 1) with
  | true, true => if 2 * (num' % den') < den' then some low else some (low + 1)
  | true, false => some low
  | false, true => some (low + 1)
  | false, false => none

/-- The digits and the power of ten of the shortest decimal that reads back as `x`, trying grids of
one digit more at a time.  Nine digits always suffice. -/
def shortestFrom (x : Binary32) (num den : Nat) : (fuel : Nat) → Int → Nat × Int
  | 0, g => (num * Nat.pow 10 (-g).toNat / (den * Nat.pow 10 g.toNat), g)
  | fuel + 1, g =>
    match x.neighbour? num den g with
    | some d => (d, g)
    | none => shortestFrom x num den fuel (g - 1)

/-- The shortest decimal `d * 10 ^ g` that reads back as the magnitude of a finite number. -/
def shortest (x : Binary32) : Nat × Int :=
  let num := x.significand * Nat.pow 2 x.exponent.toNat
  let den := Nat.pow 2 (-x.exponent).toNat
  shortestFrom x num den 9 (decimalPoint num den 90 (-45) - 1)

/-- The digits after the point of `n / 10 ^ places`, without zeros at the end. -/
def fractionDigits (places n : Nat) : List Char :=
  ((padded places n).toList.reverse.dropWhile (· = '0')).reverse

/-- The decimal `d * 10 ^ g` in positional notation. -/
def positional (d : Nat) (g : Int) : String :=
  if 0 ≤ g then toString (d * Nat.pow 10 g.toNat)
  else
    let places := (-g).toNat
    let fraction := fractionDigits places (d % Nat.pow 10 places)
    toString (d / Nat.pow 10 places) ++
      if fraction.isEmpty then "" else "." ++ String.ofList fraction

/-- The text of a number. -/
def text (x : Binary32) : String :=
  if x.isNaN then "NaN"
  else
    let sign := if x.isNegative then "-" else ""
    if x.isInfinite then sign ++ "inf"
    else if x.magnitude = 0 then sign ++ "0"
    else
      let (d, g) := x.shortest
      sign ++ positional d g

end RecordTables.Number.Binary32
