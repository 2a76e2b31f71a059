import RecordTables.Number.Numeral
import RecordTables.Text.Split

/-!
# The text of a span of time

A span is written `[-][d.]hh:mm:ss[.fff]`, with days and milliseconds only where there are any.  On
reading, the seconds may be left out, numbers may have any number of digits, and digits behind the
third of a fraction do not count.
-/

namespace RecordTables.Duration

/-- Milliseconds of a second. -/
def second : Nat := 1000

/-- Milliseconds of a minute. -/
def minute : Nat := 60 * second

/-- Milliseconds of an hour. -/
def hour : Nat := 60 * minute

/-- Milliseconds of a day. -/
def day : Nat := 24 * hour

/-- The two sides of the first point, if there is one. -/
def cutAtPoint? (cs : List Char) : Option (List Char × List Char) :=
  match cs.dropWhile (· != '.') with
  | _ :: rest => some (cs.takeWhile (· != '.'), rest)
  | [] => none

/-- The milliseconds of the digits behind the point of the seconds. -/
def fraction? (cs : List Char) : Option Nat :=
  if cs.isEmpty || !cs.all Char.isDigit then none
  else Number.natOfDigits? ((cs ++ ['0', '0']).take 3)

/-- Days and hours, the hours below twenty-four. -/
def daysAndHours? (cs : List Char) : Option (Nat × Nat) := do
  let (days, hours) ← match cutAtPoint? cs with
    | some (d, h) => do pure (← Number.natOfDigits? d, ← Number.natOfDigits? h)
    | none => do pure (0, ← Number.natOfDigits? cs)
  if hours < 24 then some (days, hours) else none

/-- Minutes, below sixty. -/
def minutes? (cs : List Char) : Option Nat := (Number.natOfDigits? cs).filter (· < 60)

/-- Seconds, below sixty, and their fraction, together in milliseconds. -/
def seconds? (cs : List Char) : Option Nat := do
  let (seconds, millis) ← match cutAtPoint? cs with
    | some (s, f) => do pure (← Number.natOfDigits? s, ← fraction? f)
    | none => do pure (← Number.natOfDigits? cs, 0)
  if seconds < 60 then some (seconds * second + millis) else none

/-- The milliseconds of a span without its sign. -/
def magnitude? (cs : List Char) : Option Nat := do
  let (head, minutesText, rest) ← match Text.splitOn ':' cs with
    | [h, m] => some (h, m, 0)
    | [h, m, s] => (seconds? s).map fun rest => (h, m, rest)
    | _ => none
  let (days, hours) ← daysAndHours? head
  let minutes ← minutes? minutesText
  return days * day + hours * hour + minutes * minute + rest

/-- Reads a span whose length fits the signed 64-bit range. -/
def ofText? (cs : List Char) : Option Int64 :=
  let (negative, body) := match cs with
    | '-' :: rest => (true, rest)
    | _ => (false, cs)
  (magnitude? body).bind fun ms =>
    if ms < 0x8000000000000000 then some (Int64.ofInt (if negative then -(ms : Int) else ms))
    else none

/-- The text of a span. -/
def text (ms : Int64) : String :=
  let n := ms.toInt.natAbs
  let sign := if ms.toInt < 0 then "-" else ""
  let days := if n / day = 0 then "" else s!"{n / day}."
  let millis := if n % second = 0 then "" else "." ++ Number.padded 3 (n % second)
  sign ++ days ++ Number.padded 2 (n % day / hour) ++ ":" ++
    Number.padded 2 (n % hour / minute) ++ ":" ++ Number.padded 2 (n % minute / second) ++ millis

end RecordTables.Duration
