import RecordTables.Format.Json
import RecordTables.Number.Decimal32

/-!
# Data to be written

A `Node` is data with the distinctions that a notation may want to show: records and maps, lists and
tuples, words and texts, variants with one part or with named parts, and values that may be absent.
Notations that know fewer distinctions fold them together (`Node.json`).
-/

namespace RecordTables

open Number (Binary32)

/-- Data to be written in some notation. -/
inductive Node where
  | bool (b : Bool)
  | int (n : Int)
  | float (x : Binary32)
  | text (s : String)
  /-- One of a fixed set of words. -/
  | word (name : String)
  | absent
  | present (x : Node)
  | list (items : List Node)
  | tuple (items : List Node)
  | record (fields : List (String × Node))
  | map (entries : List (String × Node))
  /-- A variant with one part. -/
  | tagged (name : String) (x : Node)
  /-- A variant with named parts. -/
  | taggedRecord (name : String) (fields : List (String × Node))
  deriving Inhabited

namespace Node

/-- A value that may be absent. -/
def ofOption (x : Option Node) : Node :=
  match x with
  | none => absent
  | some x => present x

mutual

/-- The data as JSON: words are texts, and a variant is an object with one member. -/
def json : Node → Json
  | bool b => .bool b
  | int n => .number (toString n)
  | float x => .number x.text
  | text s | word s => .text s
  | absent => .null
  | present x => x.json
  | list items | tuple items => .array (jsonItems items)
  | record fields | map fields => .object (jsonFields fields)
  | tagged name x => .object [(name, x.json)]
  | taggedRecord name fields => .object [(name, .object (jsonFields fields))]

/-- The elements of a list as JSON. -/
def jsonItems : List Node → List Json
  | [] => []
  | x :: rest => x.json :: jsonItems rest

/-- The fields of a record as JSON. -/
def jsonFields : List (String × Node) → List (String × Json)
  | [] => []
  | f :: rest => (f.1, f.2.json) :: jsonFields rest

end

end Node

end RecordTables
