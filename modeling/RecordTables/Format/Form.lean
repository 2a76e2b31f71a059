import RecordTables.Format.Json
import RecordTables.Number.Numeral

/-!
# Reading data out of a tree

Schemas, configurations and manifests are written in several notations.  A `Form δ` says how the
trees `δ` of one notation spell texts, words, numbers, lists, absent values and records; what a file
must contain is said once, for every form.
-/

namespace RecordTables

/-- How the trees of a notation spell data. -/
structure Form (δ : Type) where
  /-- A text. -/
  text? : δ → Option String
  /-- One of a fixed set of words. -/
  word? : δ → Option String
  /-- A truth value. -/
  bool? : δ → Option Bool
  /-- A whole number. -/
  int? : δ → Option Int
  /-- A whole number for a place where no sign may stand. -/
  nat? : δ → Option Nat
  /-- The elements of a list. -/
  items? : δ → Option (List δ)
  /-- A value that may be absent. -/
  optional? : δ → Option (Option δ)
  /-- The parts of a record with these names, each at most once.  Parts of other names are left out.
  A notation with titles for records lets this record bear this title and no other. -/
  record? : (title : String) → (names : List String) → δ → Option (List (String × δ))
  /-- The parts of a record that stands where something else might stand.  It has no title of its
  own. -/
  untitled? : (names : List String) → δ → Option (List (String × δ))

namespace Form

variable {δ α : Type}

/-- Keeps the members that have one of the names, and fails if a name occurs twice. -/
def selectMembers? (names : List String) (members : List (String × δ)) :
    Option (List (String × δ)) :=
  let chosen := members.filter (fun m => names.contains m.1)
  if (chosen.map (·.1)).eraseDups.length = chosen.length then some chosen else none

/-- A part that must be there. -/
def required? (parts : List (String × δ)) (name : String) (read : δ → Option α) : Option α :=
  (parts.lookup name).bind read

/-- A part with a default. -/
def defaulted? (parts : List (String × δ)) (name : String) (default : α) (read : δ → Option α) :
    Option α :=
  match parts.lookup name with
  | some part => read part
  | none => some default

/-- A list of parts that are all read alike. -/
def list? (form : Form δ) (read : δ → Option α) (d : δ) : Option (List α) :=
  (form.items? d).bind (fun items => items.mapM read)

/-- A value that may be absent, or is read. -/
def option? (form : Form δ) (read : δ → Option α) (d : δ) : Option (Option α) :=
  match form.optional? d with
  | none => none
  | some none => some none
  | some (some inner) => (read inner).map some

/-- A whole number of the signed 64-bit range. -/
def int64? (form : Form δ) (d : δ) : Option Int64 :=
  (form.int? d).bind fun n =>
    if -0x8000000000000000 ≤ n ∧ n < 0x8000000000000000 then some (Int64.ofInt n) else none

/-- A whole number of the unsigned 64-bit range. -/
def nat64? (form : Form δ) (d : δ) : Option Nat :=
  (form.nat? d).bind fun n => if n < 0x10000000000000000 then some n else none

end Form

namespace Json

/-- The whole number of a literal without fraction and exponent.  Zero with a minus sign is none. -/
def wholeNumber? (literal : String) : Option Int :=
  match literal.toList with
  | '-' :: digits =>
    (Number.natOfDigits? digits).bind fun n => if n = 0 then none else some (-(n : Int))
  | digits => (Number.natOfDigits? digits).map Int.ofNat

/-- The parts of a record, which may also be the array of its parts in order. -/
def parts? (names : List String) : Json → Option (List (String × Json))
  | object members => Form.selectMembers? names members
  | array items => if items.length ≤ names.length then some (names.zip items) else none
  | _ => none

/-- JSON spells words as texts, and absent values as `null`; it has no titles. -/
def form : Form Json where
  text? | text s => some s | _ => none
  word?
    | text s => some s
    | object [(name, null)] => some name
    | _ => none
  bool? | bool b => some b | _ => none
  int? | number literal => wholeNumber? literal | _ => none
  nat? | number literal => Number.natOfDigits? literal.toList | _ => none
  items? | array items => some items | _ => none
  optional? | null => some none | v => some (some v)
  record? _ := parts?
  untitled? := parts?

end Json

end RecordTables
