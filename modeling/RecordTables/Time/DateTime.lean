import RecordTables.Number.Numeral
import RecordTables.Text.Blank
import RecordTables.Time.Calendar

/-!
# The text of an instant

An instant is written `yyyy-mm-ddThh:mm:ssZ`, with three digits of milliseconds where there are any.
Three forms are read, tried in this order: a timestamp with an offset from universal time
(`stamped?`), a date and a time of day in universal time (`dateAndTime?`), and a date alone
(`dateOnly?`).  The first has numbers of fixed width; in the others numbers may be shorter, blanks
may stand before a number, and the year may have a sign and then any number of digits.  A second of
sixty is the first of the next minute.
-/

namespace RecordTables.DateTime

open Calendar (Date)

/-- A number, and what is behind it. -/
abbrev Step (α : Type) := List Char → Option (α × List Char)

/-- The digits in front, at least one of them and at most `most`. -/
def digits? (most : Nat) : Step Nat := fun cs =>
  let ds := (cs.takeWhile Char.isDigit).take most
  (Number.natOfDigits? ds).map fun n => (n, cs.drop ds.length)

/-- Exactly `width` digits. -/
def fixed? (width : Nat) : Step Nat := fun cs =>
  let ds := cs.take width
  if ds.length = width then (Number.natOfDigits? ds).map fun n => (n, cs.drop width) else none

/-- One character. -/
def mark? (c : Char) (cs : List Char) : Option (List Char) :=
  match cs with
  | x :: rest => if x = c then some rest else none
  | [] => none

/-- A number up to a limit. -/
def upTo? (limit : Nat) (step : Step Nat) : Step Nat := fun cs =>
  (step cs).filter fun (n, _) => n ≤ limit

/-- The digits behind the point of the seconds, in milliseconds: the first three count. -/
def fraction? : Step Nat := fun cs =>
  let ds := cs.takeWhile Char.isDigit
  if ds.isEmpty then none
  else (Number.natOfDigits? ((ds ++ ['0', '0']).take 3)).map fun n =>
    (n, cs.drop ds.length)

/-- A fraction, if a point stands in front. -/
def optionalFraction? : Step Nat := fun cs =>
  match cs with
  | '.' :: rest => fraction? rest
  | _ => some (0, cs)

/-- The milliseconds of an instant from its day, its time of day and its offset in minutes. -/
def milliseconds (day : Int) (hour minute second millis : Nat) (offset : Int) : Int :=
  (((day * 24 + hour) * 60 + minute - offset) * 60 + second) * 1000 + millis

/-- The offset from universal time in minutes: `Z`, or a sign, hours and minutes. -/
def offset? : Step Int := fun cs =>
  match cs with
  | 'Z' :: rest | 'z' :: rest => some (0, rest)
  | sign :: rest => do
    let negative ← if sign = '+' then some false
      else if sign = '-' ∨ sign = '\u2212' then some true else none
    let (hours, rest) ← upTo? 23 (fixed? 2) rest
    let rest ← mark? ':' rest
    let (minutes, rest) ← upTo? 59 (fixed? 2) rest
    let n : Int := hours * 60 + minutes
    return (if negative then -n else n, rest)
  | [] => none

/-- A timestamp with an offset. -/
def stamped? (cs : List Char) : Option Int := do
  let (year, cs) ← fixed? 4 cs
  let (month, cs) ← fixed? 2 (← mark? '-' cs)
  let (day, cs) ← fixed? 2 (← mark? '-' cs)
  let cs ← match cs with
    | 'T' :: rest | 't' :: rest | ' ' :: rest => some rest
    | _ => none
  let (hour, cs) ← upTo? 23 (fixed? 2) cs
  let (minute, cs) ← upTo? 59 (fixed? 2) (← mark? ':' cs)
  let (second, cs) ← upTo? 60 (fixed? 2) (← mark? ':' cs)
  let (millis, cs) ← optionalFraction? cs
  let (offset, cs) ← offset? cs
  if cs.isEmpty then
    return milliseconds (← Calendar.day? ⟨year, month, day⟩) hour minute second millis offset
  else none

/-- A year: up to four digits, or a sign and any number of digits. -/
def year? : Step Int := fun cs =>
  match Text.trimStart cs with
  | '-' :: rest => (digits? rest.length rest).map fun (n, rest) => (-(n : Int), rest)
  | '+' :: rest => (digits? rest.length rest).map fun (n, rest) => ((n : Int), rest)
  | cs => (digits? 4 cs).map fun (n, rest) => ((n : Int), rest)

/-- One or two digits behind any blanks. -/
def short? : Step Nat := fun cs => digits? 2 (Text.trimStart cs)

/-- A date, and what is behind it. -/
def date? : Step Date := fun cs => do
  let (year, cs) ← year? cs
  let (month, cs) ← short? (← mark? '-' cs)
  let (day, cs) ← short? (← mark? '-' cs)
  return (⟨year, month, day⟩, cs)

/-- A date and a time of day. -/
def dateAndTime? (cs : List Char) : Option Int := do
  let (date, cs) ← date? cs
  let (hour, cs) ← upTo? 23 short? cs
  let (minute, cs) ← upTo? 59 short? (← mark? ':' cs)
  let (second, cs) ← upTo? 60 short? (← mark? ':' cs)
  let (millis, cs) ← optionalFraction? cs
  if cs.isEmpty then
    return milliseconds (← Calendar.day? date) hour minute second millis 0
  else none

/-- A date alone, for the start of its day. -/
def dateOnly? (cs : List Char) : Option Int := do
  let (date, cs) ← date? cs
  if cs.isEmpty then return milliseconds (← Calendar.day? date) 0 0 0 0 0 else none

/-- Reads an instant. -/
def ofText? (cs : List Char) : Option Int64 :=
  ((stamped? cs).or ((dateAndTime? cs).or (dateOnly? cs))).map Int64.ofInt

/-- The text of a year: four digits, or a sign and at least four. -/
def yearText (year : Int) : String :=
  let digits := Number.padded 4 year.natAbs
  if year < 0 then "-" ++ digits else if 9999 < year then "+" ++ digits else digits

/-- The text of an instant whose date is known. -/
def text? (ms : Int64) : Option String :=
  let n := ms.toInt
  (Calendar.date? (n / 86400000)).map fun date =>
    let ofDay := (n % 86400000).toNat
    let millis := ofDay % 1000
    yearText date.year ++ "-" ++ Number.padded 2 date.month ++ "-" ++ Number.padded 2 date.day ++
      "T" ++ Number.padded 2 (ofDay / 3600000) ++ ":" ++
      Number.padded 2 (ofDay / 60000 % 60) ++ ":" ++ Number.padded 2 (ofDay / 1000 % 60) ++
      (if millis = 0 then "" else "." ++ Number.padded 3 millis) ++ "Z"

end RecordTables.DateTime
