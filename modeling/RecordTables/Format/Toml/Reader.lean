import RecordTables.Format.Form
import RecordTables.Format.Toml.Basic
import RecordTables.Format.Toml.Text

/-!
# Reading TOML

A document is a list of lines: values with their names, headings, blank lines and comments.
`Toml.ofText?` reads a whole document.

A document puts values into tables that are opened by headings and by the dots in names.  Nothing is
defined twice: an `OpenTable` remembers how each table came about, and `OpenTable.put?`,
`OpenTable.open?` and `OpenTable.openNext?` refuse what has been settled before.

As a notation of data, TOML spells words as texts and leaves out what is absent, so a value that is
there is present.  It has no titles.
-/

namespace RecordTables.Toml

/-! ## Tables under construction -/

/-- How a table came about. -/
inductive Origin where
  /-- Only tables in it have been named by headings. -/
  | implied
  /-- By the dots in the name of a value. -/
  | dotted
  /-- By a heading of its own. -/
  | heading
  deriving DecidableEq, Repr

/-- A part of a table under construction. -/
inductive Part where
  | value (v : Toml)
  | table (origin : Origin) (parts : List (String × Part))
  /-- Tables of one name; the last one is open. -/
  | tables (items : List (List (String × Part)))

/-- A table under construction. -/
structure OpenTable where
  origin : Origin
  parts : List (String × Part)

namespace OpenTable

/-- The table of a document without any line. -/
def root : OpenTable := ⟨.heading, []⟩

/-- Puts a part in the place of the one of its name, or behind all others. -/
def replace (t : OpenTable) (name : String) (p : Part) : OpenTable :=
  if t.parts.any (fun e => e.1 == name) then
    { t with parts := t.parts.map fun e => if e.1 = name then (name, p) else e }
  else { t with parts := t.parts ++ [(name, p)] }

/-- Changes the table at the end of a path.  Tables on the way that there are not yet come about as
`fresh` says; through dots no table may be reached that has a heading. -/
def within? (fresh : Origin) (change : OpenTable → Option OpenTable) :
    (path : List String) → OpenTable → Option OpenTable
  | [], t => change t
  | name :: path, t =>
    match t.parts.lookup name with
    | none =>
      (within? fresh change path ⟨fresh, []⟩).map fun u => t.replace name (.table u.origin u.parts)
    | some (.value _) => none
    | some (.table origin parts) =>
      if fresh = .dotted ∧ origin = .heading then none
      else (within? fresh change path ⟨origin, parts⟩).map fun u =>
        t.replace name (.table u.origin u.parts)
    | some (.tables items) =>
      match items.getLast? with
      | none => none
      | some parts =>
        (within? fresh change path ⟨.heading, parts⟩).map fun u =>
          t.replace name (.tables (items.dropLast ++ [u.parts]))

/-- Puts a value into a table under a name with dots, each of which opens a table in the one before.
-/
def put? (dots : List String) (name : String) (v : Toml) (t : OpenTable) : Option OpenTable :=
  within? .dotted (fun u =>
    if (u.origin = .dotted) = dots.isEmpty ∨ (u.parts.lookup name).isSome then none
    else some (u.replace name (.value v))) dots t

/-- Opens the table of a heading. -/
def open? (path : List String) (name : String) (t : OpenTable) : Option OpenTable :=
  within? .implied (fun u =>
    match u.parts.lookup name with
    | none => some (u.replace name (.table .heading []))
    | some (.table .implied parts) => some (u.replace name (.table .heading parts))
    | some _ => none) path t

/-- Opens the next table of a heading that may come several times. -/
def openNext? (path : List String) (name : String) (t : OpenTable) : Option OpenTable :=
  within? .implied (fun u =>
    match u.parts.lookup name with
    | none => some (u.replace name (.tables [[]]))
    | some (.tables items) => some (u.replace name (.tables (items ++ [[]])))
    | some _ => none) path t

end OpenTable

mutual

/-- A finished part. -/
def Part.close : Part → Toml
  | .value v => v
  | .table _ parts => .table (closeParts parts)
  | .tables items => .array (closeTables items)

/-- The finished parts of a table. -/
def closeParts : List (String × Part) → List (String × Toml)
  | [] => []
  | e :: rest => (e.1, e.2.close) :: closeParts rest

/-- The finished tables of one name. -/
def closeTables : List (List (String × Part)) → List Toml
  | [] => []
  | parts :: rest => .table (closeParts parts) :: closeTables rest

end

/-- A finished table. -/
def OpenTable.close (t : OpenTable) : Toml := .table (closeParts t.parts)

/-! ## Reading -/

/-! ### Names -/

/-- The characters of a name without quotes. -/
def isNameChar (c : Char) : Bool := c.isAlphanum || c = '_' || c = '-'

/-- Reads a name without dots. -/
def readName? (cs : List Char) : Option (String × List Char) :=
  match cs with
  | '"' :: '"' :: '"' :: _ | '\'' :: '\'' :: '\'' :: _ => none
  | '"' :: _ | '\'' :: _ => readText? cs
  | _ =>
    let name := cs.takeWhile isNameChar
    if name.isEmpty then none else some (String.ofList name, cs.dropWhile isNameChar)

/-- Reads a name with its dots: the names in front of the last dot, and the one behind it. -/
def readPath? : (fuel : Nat) → List Char → Option ((List String × String) × List Char)
  | 0, _ => none
  | fuel + 1, cs =>
    match readName? (skipBlanks cs) with
    | none => none
    | some (name, rest) =>
      match skipBlanks rest with
      | '.' :: rest =>
        (readPath? fuel rest).map fun (path, rest) => ((name :: path.1, path.2), rest)
      | rest => some (([], name), rest)

/-- What is behind a comment that may stand in front, up to the end of its line; a character that no
comment may have is an error. -/
def afterComment? : List Char → Option (List Char)
  | '#' :: cs =>
    match cs.dropWhile isInline with
    | [] => some []
    | rest => (afterLineEnd? rest).map fun _ => rest
  | cs => some cs

/-- What is behind blanks, comments and line ends. -/
def skipGap? : (fuel : Nat) → List Char → Option (List Char)
  | 0, _ => none
  | fuel + 1, cs =>
    match afterComment? (skipBlanks cs) with
    | none => none
    | some rest =>
      match afterLineEnd? rest with
      | some rest => skipGap? fuel rest
      | none => some rest

/-! ### Values -/

mutual

/-- Reads a value.  `fuel` bounds the nesting and the number of parts; the length of the text is
enough. -/
def readValue : (fuel : Nat) → List Char → Option (Toml × List Char)
  | 0, _ => none
  | fuel + 1, cs =>
    match cs with
    | '"' :: _ | '\'' :: _ => (readText? cs).map fun (s, rest) => (.text s, rest)
    | '[' :: rest => (readItems fuel rest).map fun (items, rest) => (.array items, rest)
    | '\x7b' :: rest =>
      match skipBlanks rest with
      | '\x7d' :: rest => some (.table [], rest)
      | rest => (readEntries fuel .root rest).map fun (t, rest) => (t.close, rest)
    | _ => readScalar? cs

/-- Reads the elements of an array up to its end. -/
def readItems : (fuel : Nat) → List Char → Option (List Toml × List Char)
  | 0, _ => none
  | fuel + 1, cs =>
    match skipGap? (cs.length + 1) cs with
    | none => none
    | some (']' :: rest) => some ([], rest)
    | some cs =>
      match readValue fuel cs with
      | none => none
      | some (item, rest) =>
        match skipGap? (rest.length + 1) rest with
        | some (',' :: rest) =>
          (readItems fuel rest).map fun (items, rest) => (item :: items, rest)
        | some (']' :: rest) => some ([item], rest)
        | _ => none

/-- Reads the values of a table in braces up to its end. -/
def readEntries : (fuel : Nat) → OpenTable → List Char → Option (OpenTable × List Char)
  | 0, _, _ => none
  | fuel + 1, t, cs =>
    match readPath? (cs.length + 1) cs with
    | some ((dots, name), '=' :: rest) =>
      match readValue fuel (skipBlanks rest) with
      | none => none
      | some (v, rest) =>
        match t.put? dots name v, skipBlanks rest with
        | some t, ',' :: rest => readEntries fuel t rest
        | some t, '\x7d' :: rest => some (t, rest)
        | _, _ => none
    | _ => none

end

/-! ### Documents -/

/-- A document up to some line. -/
structure Document where
  table : OpenTable
  /-- The heading that the values behind it belong to. -/
  heading : List String

/-- What is behind the end of a line: nothing but blanks and a comment come before it. -/
def afterLine? (cs : List Char) : Option (List Char) :=
  match afterComment? (skipBlanks cs) with
  | some [] => some []
  | some rest => afterLineEnd? rest
  | none => none

/-- Reads the rest of a heading behind its opening brackets. -/
def readHeading? (closing : List Char) (cs : List Char) :
    Option ((List String × String) × List Char) :=
  match readPath? (cs.length + 1) cs with
  | some (path, rest) =>
    if closing.isPrefixOf rest then some (path, rest.drop closing.length) else none
  | none => none

/-- Reads what stands on a line. -/
def readStatement? (d : Document) (cs : List Char) : Option (Document × List Char) :=
  match cs with
  | '[' :: '[' :: rest => do
    let ((path, name), rest) ← readHeading? [']', ']'] rest
    return (⟨← d.table.openNext? path name, path ++ [name]⟩, rest)
  | '[' :: rest => do
    let ((path, name), rest) ← readHeading? [']'] rest
    return (⟨← d.table.open? path name, path ++ [name]⟩, rest)
  | _ =>
    match readPath? (cs.length + 1) cs with
    | some ((dots, name), '=' :: rest) => do
      let (v, rest) ← readValue (2 * rest.length + 2) (skipBlanks rest)
      let table ← OpenTable.within? .implied (OpenTable.put? dots name v) d.heading d.table
      return ({ d with table }, rest)
    | _ => none

/-- Reads the lines of a document. -/
def readLinesOf : (fuel : Nat) → Document → List Char → Option Document
  | 0, _, _ => none
  | fuel + 1, d, cs =>
    match skipGap? (cs.length + 1) cs with
    | none => none
    | some [] => some d
    | some cs =>
      match readStatement? d cs with
      | none => none
      | some (d, rest) =>
        match afterLine? rest with
        | some rest => readLinesOf fuel d rest
        | none => none

/-- Reads a whole document.  A byte order mark in front is left out. -/
def ofText? (text : String) : Option Toml :=
  let cs := match text.toList with
    | '\uFEFF' :: cs => cs
    | cs => cs
  (readLinesOf (cs.length + 1) ⟨.root, []⟩ cs).map fun d => d.table.close

/-! ## Data -/

/-- The word of a text, or of a table with one empty part of its name. -/
def word? : Toml → Option String
  | text s => some s
  | table [(name, table [])] | table [(name, array [])] => some name
  | _ => none

/-- The parts of a record, which may also be the array of its parts in order. -/
def parts? (names : List String) : Toml → Option (List (String × Toml))
  | table entries => Form.selectMembers? names entries
  | array items => some (names.zip items)
  | _ => none

/-- How TOML spells data. -/
def form : Form Toml where
  text? | text s => some s | _ => none
  word? := word?
  bool? | bool b => some b | _ => none
  int? | int n => some n | _ => none
  nat? | int n => if 0 ≤ n then some n.toNat else none | _ => none
  items? | array items => some items | _ => none
  optional? v := some (some v)
  record? _ := parts?
  untitled? names
    | array items => if items.length ≤ names.length then some (names.zip items) else none
    | v => parts? names v

end RecordTables.Toml
