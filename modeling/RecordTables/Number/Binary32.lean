/-!
# Binary floating-point numbers of 32 bits

A `Binary32` is its bit pattern: sign, eight bits of exponent, twenty-three bits of significand.
All arithmetic on it is exact arithmetic on natural numbers.  A finite number is `m * 2 ^ q`
(`significand`, `exponent`), and `ofRatio` rounds a quotient to the nearest number, a tie going to
the even significand.
-/

namespace RecordTables.Number

/-- A 32-bit binary floating-point number, by its bit pattern. -/
structure Binary32 where
  /-- Sign, exponent and significand, from the most significant bit down. -/
  bits : UInt32
  deriving DecidableEq, Repr

namespace Binary32

instance : Inhabited Binary32 := ⟨⟨0⟩⟩

/-- Positive zero. -/
def zero : Binary32 := ⟨0⟩

/-- The number one. -/
def one : Binary32 := ⟨0x3f800000⟩

/-- The sign bit. -/
def isNegative (x : Binary32) : Bool := x.bits.toNat ≥ 0x80000000

/-- The pattern without its sign bit. -/
def magnitude (x : Binary32) : Nat := x.bits.toNat % 0x80000000

/-- The magnitude of infinity; what is above it is not a number. -/
def infiniteMagnitude : Nat := 0x7f800000

/-- Whether the pattern stands for no number. -/
def isNaN (x : Binary32) : Bool := infiniteMagnitude < x.magnitude

/-- Whether the pattern stands for an infinity. -/
def isInfinite (x : Binary32) : Bool := x.magnitude == infiniteMagnitude

/-- A quiet pattern that stands for no number. -/
def nan : Binary32 := ⟨0x7fc00000⟩

/-- The number with this sign and magnitude. -/
def ofMagnitude (negative : Bool) (magnitude : Nat) : Binary32 :=
  ⟨UInt32.ofNat (magnitude + if negative then 0x80000000 else 0)⟩

/-- The factor `m` of a finite number `m * 2 ^ q`. -/
def significand (x : Binary32) : Nat :=
  let fraction := x.magnitude % 0x800000
  if x.magnitude / 0x800000 = 0 then fraction else fraction + 0x800000

/-- The power `q` of a finite number `m * 2 ^ q`. -/
def exponent (x : Binary32) : Int :=
  let biased : Nat := x.magnitude / 0x800000
  if biased = 0 then -149 else (biased : Int) - 150

/-! ### Rounding a quotient -/

/-- The whole number nearest to `num / den`; a tie goes to the even one. -/
def roundDiv (num den : Nat) : Nat :=
  let low := num / den
  let twice := 2 * (num % den)
  if twice < den then low
  else if den < twice then low + 1
  else low + low % 2

/-- The greatest `k` with `2 ^ k ≤ num / den`, for a positive quotient. -/
def floorLog2 (num den : Nat) : Int :=
  let k : Int := (num.log2 : Int) - den.log2
  if num * Nat.pow 2 (-k).toNat < den * Nat.pow 2 k.toNat then k - 1 else k

/-- The magnitude nearest to `num / den`.  The significand after rounding is added onto the exponent
field, so a carry out of it lands in the next binade, and what passes the largest finite number is
infinite. -/
def magnitudeOfRatio (num den : Nat) : Nat :=
  if num = 0 then 0
  else
    let q := max (floorLog2 num den - 23) (-149)
    let m := roundDiv (num * Nat.pow 2 (-q).toNat) (den * Nat.pow 2 q.toNat)
    min ((q + 149).toNat * 0x800000 + m) infiniteMagnitude

/-- The number nearest to `num / den` with the given sign. -/
def ofRatio (negative : Bool) (num den : Nat) : Binary32 :=
  ofMagnitude negative (magnitudeOfRatio num den)

end Binary32

end RecordTables.Number
