import RecordTables.Format.Form
import RecordTables.Number.Decimal32

/-!
# RON

RON is an object notation that tells lists, maps, tuples, records and variants apart.  Values are
set apart by commas, with one more behind the last if need be; comments may stand between any two
parts.  `Ron` is the tree of a text and `Ron.ofText?` reads one.

A bare name is a word.  In front of round brackets it is a title: of a variant with its parts, of a
value that is present (`Some`), or of a record.  A number is kept as it is written, because only
what it is needed for decides how it may be written.

As a notation of data, RON has words of its own, marks every value that may be absent, and lets a
record bear its title.
-/

namespace RecordTables

/-- A RON value. -/
inductive Ron where
  /-- A number, by its literal. -/
  | number (literal : String)
  | text (s : String)
  | character (c : Char)
  | word (name : String)
  | list (items : List Ron)
  | map (entries : List (Ron × Ron))
  /-- Parts in round brackets, with a title if need be. -/
  | tuple (title : Option String) (items : List Ron)
  /-- Named parts in round brackets, with a title if need be. -/
  | record (title : Option String) (fields : List (String × Ron))
  deriving Inhabited

namespace Ron

/-! ### Gaps -/

/-- The characters that may stand between the parts of a text. -/
def isGap (c : Char) : Bool := c = ' ' || c = '\t' || c = '\n' || c = '\r'

mutual

/-- The characters behind blanks and comments; a comment must be closed. -/
def skipGap : List Char → Option (List Char)
  | '/' :: '/' :: rest => skipLine rest
  | '/' :: '*' :: rest => skipBlock 0 rest
  | '/' :: _ => none
  | c :: rest => if isGap c then skipGap rest else some (c :: rest)
  | [] => some []

/-- The characters behind the gap that starts with the rest of a line. -/
def skipLine : List Char → Option (List Char)
  | '\n' :: rest => skipGap rest
  | _ :: rest => skipLine rest
  | [] => some []

/-- The characters behind the gap that starts inside a comment, with `depth` comments around it. -/
def skipBlock (depth : Nat) : List Char → Option (List Char)
  | '/' :: '*' :: rest => skipBlock (depth + 1) rest
  | '*' :: '/' :: rest =>
    match depth with
    | 0 => skipGap rest
    | depth + 1 => skipBlock depth rest
  | _ :: rest => skipBlock depth rest
  | [] => none

end

/-! ### Names -/

/-- The characters of a name. -/
def isNameChar (c : Char) : Bool := c.isAlphanum || c = '_'

/-- The characters of a name behind `r#`. -/
def isRawNameChar (c : Char) : Bool := isNameChar c || c = '.' || c = '+' || c = '-'

/-- Reads a name.  One that a point or a sign follows would have to be written behind `r#`. -/
def readName? : List Char → Option (String × List Char)
  | 'r' :: '#' :: cs =>
    let name := cs.takeWhile isRawNameChar
    if name.isEmpty then none else some (String.ofList name, cs.dropWhile isRawNameChar)
  | c :: cs =>
    if c.isAlpha || c = '_' then
      let rest := cs.dropWhile isNameChar
      if (rest.head?.map isRawNameChar).getD false then none
      else some (String.ofList (c :: cs.takeWhile isNameChar), rest)
    else none
  | [] => none

/-! ### Texts -/

/-- The value of hexadecimal digits; `none` if there is another character. -/
def hexValue? (digits : List Char) : Option Nat :=
  digits.foldlM (fun n c => (Number.digit? 16 c).map (n * 16 + ·)) 0

/-- The character of a code point. -/
def ofCodePoint? (n : Nat) : Option Char := if n.isValidChar then some (Char.ofNat n) else none

/-- The character that one letter behind a backslash stands for. -/
def escaped? : Char → Option Char
  | '\'' => some '\''
  | '"' => some '"'
  | '\\' => some '\\'
  | 'n' => some '\n'
  | 'r' => some '\r'
  | 't' => some '\t'
  | '0' => some '\x00'
  | _ => none

/-- Reads what stands behind a backslash. -/
def readEscape? : List Char → Option (Char × List Char)
  | 'x' :: a :: b :: rest => do return (← ofCodePoint? (← hexValue? [a, b]), rest)
  | 'u' :: '\x7b' :: cs =>
    let digits := cs.takeWhile (· ≠ '\x7d')
    if digits.isEmpty ∨ 6 < digits.length then none
    else
      match cs.dropWhile (· ≠ '\x7d') with
      | _ :: rest => do return (← ofCodePoint? (← hexValue? digits), rest)
      | [] => none
  | c :: rest => (escaped? c).map (·, rest)
  | [] => none

/-- Reads the rest of a text in quotes whose characters so far are `done`, last first. -/
def readQuoted : (fuel : Nat) → (done : List Char) → List Char → Option (String × List Char)
  | 0, _, _ => none
  | _ + 1, done, '"' :: rest => some (String.ofList done.reverse, rest)
  | fuel + 1, done, '\\' :: rest =>
    match readEscape? rest with
    | some (c, rest) => readQuoted fuel (c :: done) rest
    | none => none
  | fuel + 1, done, c :: rest => readQuoted fuel (c :: done) rest
  | _ + 1, _, [] => none

/-- Reads a text without escapes up to `closing`. -/
def readRaw (closing : List Char) : (done : List Char) → List Char → Option (String × List Char)
  | done, c :: rest =>
    if closing.isPrefixOf (c :: rest) then
      some (String.ofList done.reverse, (c :: rest).drop closing.length)
    else readRaw closing (c :: done) rest
  | _, [] => none

/-- Reads a text that starts with `r`, any number of `#`, and a quote; it ends with a quote and as
many `#`. -/
def readRawText? (cs : List Char) : Option (String × List Char) :=
  let marks := cs.takeWhile (· = '#')
  match cs.dropWhile (· = '#') with
  | '"' :: rest => readRaw ('"' :: marks) [] rest
  | _ => none

/-- Reads the rest of a single character in quotes. -/
def readCharacter? : List Char → Option (Char × List Char)
  | '\\' :: rest =>
    match readEscape? rest with
    | some (c, '\'' :: rest) => some (c, rest)
    | _ => none
  | c :: '\'' :: rest => some (c, rest)
  | _ => none

/-! ### Numbers -/

/-- The digits of a literal in its radix, without underscores.  None stands in front. -/
def radixDigits? (radix : Nat) (digits : List Char) : Option Nat :=
  if digits.isEmpty ∨ digits.head? = some '_' then none
  else
    (digits.filter (· ≠ '_')).foldlM
      (fun n c => (Number.digit? radix c).map (n * radix + ·)) 0

/-- The whole number of a literal without a sign, in one of four radices. -/
def readNat? : List Char → Option Nat
  | '0' :: 'x' :: digits => radixDigits? 16 digits
  | '0' :: 'b' :: digits => radixDigits? 2 digits
  | '0' :: 'o' :: digits => radixDigits? 8 digits
  | digits => radixDigits? 10 digits

/-- The whole number of a literal. -/
def readInt? : List Char → Option Int
  | '+' :: cs => (readNat? cs).map Int.ofNat
  | '-' :: cs => (readNat? cs).map fun n => -(n : Int)
  | cs => (readNat? cs).map Int.ofNat

/-- The floating-point number of a literal. -/
def readFloat? (cs : List Char) : Option Number.Binary32 :=
  let isPart (c : Char) : Bool := c.isDigit || c = '.' || c = 'e' || c = 'E' || c = '+' || c = '-'
  if cs.all isPart ∨ cs = "-inf".toList then Number.Binary32.ofText? cs else none

/-- Reads a number. -/
def readNumber? (cs : List Char) : Option (Ron × List Char) :=
  let literal := cs.takeWhile isRawNameChar
  if (readInt? literal).isSome ∨ (readFloat? literal).isSome then
    some (.number (String.ofList literal), cs.dropWhile isRawNameChar)
  else none

/-- Whether a character can begin a number. -/
def beginsNumber (c : Char) : Bool := c.isDigit || c = '+' || c = '-' || c = '.'

/-! ### Values -/

/-- The name in front of a colon. -/
def readFieldName? (cs : List Char) : Option (String × List Char) :=
  match readName? cs with
  | none => none
  | some (name, rest) =>
    match skipGap rest with
    | some (':' :: rest) => some (name, rest)
    | _ => none

/-- Whether the text goes on with a text without escapes. -/
def beginsRawText : List Char → Bool
  | 'r' :: cs => (readRawText? cs).isSome
  | _ => false

mutual

/-- Reads a value.  `fuel` bounds the nesting and the number of parts; the length of the text is
enough. -/
def readValue : (fuel : Nat) → List Char → Option (Ron × List Char)
  | 0, _ => none
  | fuel + 1, cs =>
    match skipGap cs with
    | some ('"' :: rest) =>
      (readQuoted (rest.length + 1) [] rest).map fun (s, rest) => (.text s, rest)
    | some ('\'' :: rest) => (readCharacter? rest).map fun (c, rest) => (.character c, rest)
    | some ('[' :: rest) => (readItems fuel ']' rest).map fun (items, rest) => (.list items, rest)
    | some ('\x7b' :: rest) =>
      (readEntries fuel rest).map fun (entries, rest) => (.map entries, rest)
    | some ('(' :: rest) => readBody fuel none rest
    | some (c :: rest) =>
      if beginsNumber c then readNumber? (c :: rest)
      else if beginsRawText (c :: rest) then
        (readRawText? rest).map fun (s, rest) => (.text s, rest)
      else
        match readName? (c :: rest) with
        | none => none
        | some (name, rest) =>
          match skipGap rest with
          | some ('(' :: inner) => readBody fuel (some name) inner
          | _ => some (.word name, rest)
    | _ => none

/-- Reads what stands in round brackets, up to their end: named parts if a name and a colon come
first. -/
def readBody : (fuel : Nat) → (title : Option String) → List Char → Option (Ron × List Char)
  | 0, _, _ => none
  | fuel + 1, title, cs =>
    match (skipGap cs).bind readFieldName? with
    | some _ => (readFields fuel cs).map fun (fields, rest) => (.record title fields, rest)
    | none => (readItems fuel ')' cs).map fun (items, rest) => (.tuple title items, rest)

/-- Reads values up to the closing bracket. -/
def readItems : (fuel : Nat) → (closing : Char) → List Char → Option (List Ron × List Char)
  | 0, _, _ => none
  | fuel + 1, closing, cs =>
    match skipGap cs with
    | none | some [] => none
    | some (c :: inner) =>
      if c = closing then some ([], inner)
      else
        match readValue fuel (c :: inner) with
        | none => none
        | some (item, rest) =>
          match skipGap rest with
          | some (',' :: rest) =>
            (readItems fuel closing rest).map fun (items, rest) => (item :: items, rest)
          | some (c :: rest) => if c = closing then some ([item], rest) else none
          | _ => none

/-- Reads named parts up to the closing bracket. -/
def readFields : (fuel : Nat) → List Char → Option (List (String × Ron) × List Char)
  | 0, _ => none
  | fuel + 1, cs =>
    match skipGap cs with
    | some (')' :: rest) => some ([], rest)
    | some cs =>
      match readFieldName? cs with
      | none => none
      | some (name, rest) =>
        match readValue fuel rest with
        | none => none
        | some (value, rest) =>
          match skipGap rest with
          | some (',' :: rest) =>
            (readFields fuel rest).map fun (fields, rest) => ((name, value) :: fields, rest)
          | some (')' :: rest) => some ([(name, value)], rest)
          | _ => none
    | none => none

/-- Reads the entries of a map up to its end. -/
def readEntries : (fuel : Nat) → List Char → Option (List (Ron × Ron) × List Char)
  | 0, _ => none
  | fuel + 1, cs =>
    match skipGap cs with
    | some ('\x7d' :: rest) => some ([], rest)
    | some cs =>
      match readValue fuel cs with
      | none => none
      | some (key, rest) =>
        match skipGap rest with
        | some (':' :: rest) =>
          match readValue fuel rest with
          | none => none
          | some (value, rest) =>
            match skipGap rest with
            | some (',' :: rest) =>
              (readEntries fuel rest).map fun (entries, rest) => ((key, value) :: entries, rest)
            | some ('\x7d' :: rest) => some ([(key, value)], rest)
            | _ => none
        | _ => none
    | none => none

end

/-- Reads a whole text. -/
def ofText? (text : String) : Option Ron :=
  let cs := text.toList
  match readValue (2 * cs.length + 2) cs with
  | some (value, rest) => if skipGap rest = some [] then some value else none
  | none => none

end Ron

end RecordTables

namespace RecordTables.Ron

/-! ## Data -/

/-- The number of a literal without a sign. -/
def nat? : Ron → Option Nat
  | number literal => readNat? literal.toList
  | _ => none

/-- The number of a literal. -/
def int? : Ron → Option Int
  | number literal => readInt? literal.toList
  | _ => none

/-- The floating-point number of a literal or of a word. -/
def float? : Ron → Option Number.Binary32
  | number literal => readFloat? literal.toList
  | word "inf" => Number.Binary32.ofText? "inf".toList
  | word "NaN" => some .nan
  | _ => none

/-- A value that may be absent: `None`, or `Some` in front of the value. -/
def optional? : Ron → Option (Option Ron)
  | word "None" => some none
  | tuple (some "Some") [x] => some (some x)
  | _ => none

/-- The parts of a record without a title, or with the title given. -/
def parts? (title : String) (names : List String) : Ron → Option (List (String × Ron))
  | record found fields =>
    if found.all (· = title) then Form.selectMembers? names fields else none
  | tuple found [] => if found.all (· = title) then some [] else none
  | _ => none

/-- The entries of a map whose keys are texts. -/
def namedEntries? (entries : List (Ron × Ron)) : Option (List (String × Ron)) :=
  entries.mapM fun
    | (text name, value) => some (name, value)
    | _ => none

/-- The parts of a record under any title, as a map, or by their order alone. -/
def loosely? (names : List String) : Ron → Option (List (String × Ron))
  | record _ fields => Form.selectMembers? names fields
  | map entries => (namedEntries? entries).bind (Form.selectMembers? names)
  | tuple title items =>
    if title ≠ some "Some" ∧ items.length ≤ names.length then some (names.zip items) else none
  | list items => if items.length ≤ names.length then some (names.zip items) else none
  | _ => none

/-- How RON spells data. -/
def form : Form Ron where
  text? | text s => some s | _ => none
  word? | word name => some name | _ => none
  bool? | word "true" => some true | word "false" => some false | _ => none
  int? := int?
  nat? := nat?
  items? | list items => some items | _ => none
  optional? := optional?
  record? := parts?
  untitled? := loosely?

end RecordTables.Ron
