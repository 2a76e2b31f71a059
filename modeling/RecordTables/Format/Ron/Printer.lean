import RecordTables.Format.Node
import RecordTables.Number.Numeral
import RecordTables.Text.Printable

/-!
# Writing RON

Lists, maps and records stand with one part to a line, indented by four blanks for each level, and a
comma behind every part; if they are empty they are a pair of brackets.  Tuples stand on one line,
which adds no level.  Records bear no titles.
-/

namespace RecordTables

namespace Ron

/-- The hexadecimal digits of a number, without zeros in front. -/
def hexText (n : Nat) : String := String.ofList (Nat.toDigits 16 n)

/-- A character inside a text. -/
def escape (c : Char) : String :=
  match c with
  | '\x00' => "\\0"
  | '\t' => "\\t"
  | '\n' => "\\n"
  | '\r' => "\\r"
  | '\'' => "\\'"
  | '"' => "\\\""
  | '\\' => "\\\\"
  | c => if Text.isPrintable c then c.toString else "\\u\x7b" ++ hexText c.toNat ++ "\x7d"

/-- A text in its quotes. -/
def quote (s : String) : String := "\"" ++ String.join (s.toList.map escape) ++ "\""

/-- A floating-point number; one without a fraction keeps a point and a zero. -/
def floatText (x : Number.Binary32) : String :=
  let digits := x.text
  if x.isNaN || x.isInfinite || digits.toList.contains '.' then digits else digits ++ ".0"

/-- One level of indentation. -/
def levelIndent : String := "    "

/-- Parts between brackets, each on a line of its own one level below `indent`. -/
def block (indent opening closing : String) (parts : List String) : String :=
  if parts.isEmpty then opening ++ closing
  else
    opening ++ "\n" ++ String.join (parts.map (indent ++ levelIndent ++ · ++ ",\n")) ++ indent ++
      closing

end Ron

namespace Node

open Ron (quote floatText block levelIndent)

mutual

/-- The data as RON, behind an indentation. -/
def ronAt (indent : String) : Node → String
  | bool b => if b then "true" else "false"
  | int n => toString n
  | float x => floatText x
  | text s => quote s
  | word name => name
  | absent => "None"
  | present x => "Some(" ++ x.ronAt indent ++ ")"
  | list items => block indent "[" "]" (ronItems (indent ++ levelIndent) items)
  | tuple items => "(" ++ ", ".intercalate (ronItems indent items) ++ ")"
  | record fields => block indent "(" ")" (ronFields id (indent ++ levelIndent) fields)
  | map entries => block indent "\x7b" "\x7d" (ronFields quote (indent ++ levelIndent) entries)
  | tagged name x => name ++ "(" ++ x.ronAt indent ++ ")"
  | taggedRecord name fields =>
    name ++ block indent "(" ")" (ronFields id (indent ++ levelIndent) fields)

/-- The elements of a list as RON. -/
def ronItems (indent : String) : List Node → List String
  | [] => []
  | x :: rest => x.ronAt indent :: ronItems indent rest

/-- Named parts as RON, their names written by `name`. -/
def ronFields (name : String → String) (indent : String) : List (String × Node) → List String
  | [] => []
  | f :: rest => (name f.1 ++ ": " ++ f.2.ronAt indent) :: ronFields name indent rest

end

/-- The data as RON. -/
def ron (x : Node) : String := x.ronAt ""

end Node

end RecordTables
