import RecordTables.Format.Form
import RecordTables.NameMap
import RecordTables.Number.Numeral

/-!
# Exchange with other programs

Other programs hand values, records, plans and schemas to the library as JSON and get them back as
JSON.  Here are the pieces that all of these forms are made of: wide integers and bytes travel as
texts, small numbers as numbers, and `null` stands for what is absent.
-/

namespace RecordTables

namespace Json

/-! ### Writing -/

/-- A small number. -/
def nat (n : Nat) : Json := .number (toString n)

/-- An integer of any size, as text. -/
def wide (v : Int64) : Json := .text (toString v.toInt)

/-- Bytes, as lowercase hexadecimal digits. -/
def hexBytes (bs : List UInt8) : Json :=
  .text (String.join (bs.map fun b => Text.hex 2 b.toNat))

/-- A value that may be absent. -/
def orNull {α : Type} (write : α → Json) : Option α → Json
  | some x => write x
  | none => null

/-- A list of texts. -/
def texts (l : List String) : Json := .array (l.map .text)

/-- The entries of a map. -/
def ofMap {α : Type} (write : α → Json) (m : NameMap α) : Json :=
  .object (m.entries.map fun e => (e.1, write e.2))

/-- What went well or did not. -/
def ofResult {ε α : Type} (fault : ε → Json) (write : α → Json) : Except ε α → Json
  | .ok x => write x
  | .error e => fault e

/-- A fault by its kind alone. -/
def faultKind (kind : String) : Json := .object [("error", .text kind)]

/-- A fault by its kind and its wording. -/
def fault (kind message : String) : Json :=
  .object [("error", .text kind), ("message", .text message)]

/-- Several faults of one kind. -/
def faults (kind : String) (parts : List Json) : Json :=
  .object [("error", .text kind), ("errors", .array parts)]

/-! ### Reading -/

/-- A text. -/
def text? : Json → Option String
  | .text s => some s
  | _ => none

/-- A truth value. -/
def flag? : Json → Option Bool
  | .bool b => some b
  | _ => none

/-- A small number. -/
def nat? : Json → Option Nat
  | .number literal =>
    (wholeNumber? literal).bind fun n => if 0 ≤ n then some n.toNat else none
  | _ => none

/-- The elements of an array. -/
def items? : Json → Option (List Json)
  | .array items => some items
  | _ => none

/-- The elements of an array, each of them read. -/
def listOf? {α : Type} (read : Json → Option α) (v : Json) : Option (List α) :=
  v.items?.bind (·.mapM read)

/-- A list of texts. -/
def texts? : Json → Option (List String) := listOf? text?

/-- The members of an object, each of them read. -/
def mapOf? {α : Type} (read : Json → Option α) : Json → Option (NameMap α)
  | .object members =>
    (members.mapM fun m => (read m.2).map fun x => (m.1, x)).map NameMap.ofList
  | _ => none

/-- An integer of the signed 64-bit range, from its text. -/
def wide? (v : Json) : Option Int64 := v.text?.bind fun s => (Number.readInt64 s.toList).toOption

/-- The bytes of pairs of hexadecimal digits. -/
def bytesOfHex? : List Char → Option (List UInt8)
  | [] => some []
  | a :: b :: rest => do
    return UInt8.ofNat ((← Number.digit? 16 a) * 16 + (← Number.digit? 16 b)) ::
      (← bytesOfHex? rest)
  | [_] => none

/-- Bytes from their hexadecimal digits. -/
def hexBytes? (v : Json) : Option (List UInt8) := v.text?.bind fun s => bytesOfHex? s.toList

/-- A member of an object that must be there. -/
def field? {α : Type} (v : Json) (name : String) (read : Json → Option α) : Option α :=
  (v.member? name).bind read

/-- A member of an object that may be left out or `null`. -/
def optional? {α : Type} (v : Json) (name : String) (read : Json → Option α) :
    Option (Option α) :=
  match v.member? name with
  | none | some .null => some none
  | some part => (read part).map some

/-- A member of an object with a default. -/
def fieldOr? {α : Type} (v : Json) (name : String) (read : Json → Option α) (default : α) :
    Option α :=
  (v.optional? name read).map (·.getD default)

end Json

end RecordTables
