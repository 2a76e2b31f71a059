import RecordTables.Format.Node
import RecordTables.Format.Toml.Text
import RecordTables.Number.Numeral

/-!
# Writing TOML

A record is a document: first its plain values, then its records, each under a heading behind a
blank line.  A list of two values or more has a line for each of them.  What is absent is left out.
A text stands in single quotes where it has a backslash and nothing that would need an escape, and
in double quotes otherwise; a text with line ends goes over several lines.
-/

namespace RecordTables

namespace Toml

/-! ### Texts -/

/-- A character in double quotes. -/
def escape (severalLines : Bool) (c : Char) : String :=
  match c with
  | '\x08' => "\\b"
  | '\t' => "\\t"
  | '\n' => if severalLines then "\n" else "\\n"
  | '\x0c' => "\\f"
  | '\r' => "\\r"
  | '"' => "\\\""
  | '\\' => "\\\\"
  | c => if isInline c then c.toString else "\\u" ++ (Text.hex 4 c.toNat).toUpper

/-- The length of the longest run of single quotes. -/
def longestQuoteRun : (run : Nat) → List Char → Nat
  | run, [] => run
  | run, c :: rest =>
    if c = '\'' then longestQuoteRun (run + 1) rest else max run (longestQuoteRun 0 rest)

/-- Whether a text is written without escapes. -/
def isLiteral (cs : List Char) : Bool :=
  cs.contains '\\' && cs.all (fun c => c = '\n' || isInline c) && longestQuoteRun 0 cs < 3 &&
    cs.getLast? != some '\''

/-- A text in its quotes. -/
def quote (s : String) : String :=
  let cs := s.toList
  let severalLines := cs.contains '\n'
  if isLiteral cs then
    if severalLines then "'''\n" ++ s ++ "'''"
    else if cs.contains '\'' then "'''" ++ s ++ "'''"
    else "'" ++ s ++ "'"
  else
    let body := String.join (cs.map (escape severalLines))
    if severalLines then "\"\"\"\n" ++ body ++ "\"\"\"" else "\"" ++ body ++ "\""

/-- A name, in quotes unless it is made of letters, digits, underscores and hyphens. -/
def nameText (name : String) : String :=
  let isPlain (c : Char) : Bool := c.isAlphanum || c = '_' || c = '-'
  if name.isEmpty || !name.toList.all isPlain then quote name else name

/-- Values between square brackets. -/
def listText (items : List String) : String :=
  match items with
  | [] => "[]"
  | [x] => "[" ++ x ++ "]"
  | _ => "[" ++ ",".intercalate (items.map ("\n    " ++ ·)) ++ ",\n]"

end Toml

namespace Node

open Toml (quote nameText listText)

mutual

/-- A plain value as TOML; `none` for what is absent and for records. -/
def tomlValue? : Node → Option String
  | bool b => some (if b then "true" else "false")
  | int n => some (toString n)
  | text s | word s => some (quote s)
  | present x => x.tomlValue?
  | list items | tuple items => (tomlValues? items).map listText
  | _ => none

/-- The elements of a list as TOML. -/
def tomlValues? : List Node → Option (List String)
  | [] => some []
  | x :: rest =>
    match x.tomlValue?, tomlValues? rest with
    | some v, some vs => some (v :: vs)
    | _, _ => none

end

/-- The lines of the plain values among named parts. -/
def tomlLines (fields : List (String × Node)) : List String :=
  fields.filterMap fun f => f.2.tomlValue?.map fun v => nameText f.1 ++ " = " ++ v ++ "\n"

mutual

/-- The tables of a record, each with its heading. -/
def tomlTables (heading : String) : Node → List String
  | record fields =>
    let lines := tomlLines fields
    let title := if fields.isEmpty || !lines.isEmpty || fields.all (fun f => f.2 matches .absent)
      then ["[" ++ heading ++ "]\n" ++ String.join lines] else []
    title ++ tomlSubtables (heading ++ ".") fields
  | _ => []

/-- The tables among named parts. -/
def tomlSubtables (stem : String) : List (String × Node) → List String
  | [] => []
  | f :: rest => f.2.tomlTables (stem ++ nameText f.1) ++ tomlSubtables stem rest

end

/-- A record as a document. -/
def toml (x : Node) : String :=
  match x with
  | record fields =>
    let lines := tomlLines fields
    "\n".intercalate
      ((if lines.isEmpty then [] else [String.join lines]) ++ tomlSubtables "" fields)
  | _ => ""

end Node

end RecordTables
