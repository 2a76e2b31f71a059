import RecordTables.Number.Numeral

/-!
# JSON

`Json` is the tree of a JSON text.  A number is kept as it is written, because whether it has a
fraction, an exponent or a sign decides what it may stand for.  `Json.ofText?` reads a whole text,
`Json.compact` and `Json.pretty` write one, without blanks or with two blanks for each level.
-/

namespace RecordTables

/-- A JSON value.  The members of an object stand in the order of the text. -/
inductive Json where
  | null
  | bool (b : Bool)
  /-- A number, by its literal. -/
  | number (literal : String)
  | text (s : String)
  | array (items : List Json)
  | object (members : List (String × Json))
  deriving Inhabited

namespace Json

/-! ### Reading -/

/-- The characters that may stand between the parts of a text. -/
def isGap (c : Char) : Bool := c = ' ' || c = '\t' || c = '\n' || c = '\r'

/-- The characters without the gap in front. -/
def skipGap (cs : List Char) : List Char := cs.dropWhile isGap

/-- The number that four hexadecimal digits denote. -/
def hexQuad? (a b c d : Char) : Option Nat :=
  let value (x : Char) : Option Nat :=
    if '0' ≤ x ∧ x ≤ '9' then some (x.toNat - 0x30)
    else if 'a' ≤ x ∧ x ≤ 'f' then some (x.toNat - 0x61 + 10)
    else if 'A' ≤ x ∧ x ≤ 'F' then some (x.toNat - 0x41 + 10)
    else none
  do return (((← value a) * 16 + (← value b)) * 16 + (← value c)) * 16 + (← value d)

/-- The character that one letter behind a backslash stands for. -/
def escaped? : Char → Option Char
  | '"' => some '"'
  | '\\' => some '\\'
  | '/' => some '/'
  | 'b' => some '\x08'
  | 'f' => some '\x0c'
  | 'n' => some '\n'
  | 'r' => some '\r'
  | 't' => some '\t'
  | _ => none

/-- Reads the rest of a string whose characters so far are `done`, last first.  A code unit of a
surrogate pair counts only together with its partner. -/
def readString : (done : List Char) → List Char → Option (String × List Char)
  | done, '"' :: rest => some (String.ofList done.reverse, rest)
  | done, '\\' :: 'u' :: a :: b :: c :: d :: '\\' :: 'u' :: e :: f :: g :: h :: rest =>
    match hexQuad? a b c d, hexQuad? e f g h with
    | some high, some low =>
      if 0xD800 ≤ high ∧ high < 0xDC00 then
        if 0xDC00 ≤ low ∧ low < 0xE000 then
          readString
            (Char.ofNat (0x10000 + (high - 0xD800) * 0x400 + (low - 0xDC00)) :: done) rest
        else none
      else if 0xDC00 ≤ high ∧ high < 0xE000 then none
      else readString (Char.ofNat high :: done) ('\\' :: 'u' :: e :: f :: g :: h :: rest)
    | _, _ => none
  | done, '\\' :: 'u' :: a :: b :: c :: d :: rest =>
    match hexQuad? a b c d with
    | some n => if 0xD800 ≤ n ∧ n < 0xE000 then none else readString (Char.ofNat n :: done) rest
    | none => none
  | done, '\\' :: c :: rest =>
    match escaped? c with
    | some x => readString (x :: done) rest
    | none => none
  | done, c :: rest => if c.toNat < 0x20 then none else readString (c :: done) rest
  | _, [] => none

/-- The digits in front, if there is one, and what is behind them. -/
def readDigits? (cs : List Char) : Option (List Char × List Char) :=
  let digits := cs.takeWhile Char.isDigit
  if digits.isEmpty then none else some (digits, cs.dropWhile Char.isDigit)

/-- Reads a number: no superfluous zero in front, and digits on both sides of a point. -/
def readNumber? (cs : List Char) : Option (String × List Char) := do
  let (sign, cs) := match cs with
    | '-' :: rest => (['-'], rest)
    | _ => ([], cs)
  let (whole, cs) ← match cs with
    | '0' :: rest => some (['0'], rest)
    | _ => readDigits? cs
  if (cs.head?.map Char.isDigit).getD false then none
  else
    let (fraction, cs) ← match cs with
      | '.' :: rest => (readDigits? rest).map fun (ds, rest) => ('.' :: ds, rest)
      | _ => some ([], cs)
    let (exponent, cs) ← match cs with
      | 'e' :: '+' :: rest | 'E' :: '+' :: rest =>
        (readDigits? rest).map fun (ds, rest) => ('e' :: '+' :: ds, rest)
      | 'e' :: '-' :: rest | 'E' :: '-' :: rest =>
        (readDigits? rest).map fun (ds, rest) => ('e' :: '-' :: ds, rest)
      | 'e' :: rest | 'E' :: rest =>
        (readDigits? rest).map fun (ds, rest) => ('e' :: ds, rest)
      | _ => some ([], cs)
    return (String.ofList (sign ++ whole ++ fraction ++ exponent), cs)

/-- What is behind a word, if it stands in front. -/
def after? (word : String) (cs : List Char) : Option (List Char) :=
  if word.toList.isPrefixOf cs then some (cs.drop word.length) else none

mutual

/-- Reads a value.  `fuel` bounds the nesting and the number of parts; the length of the text is
enough. -/
def readValue : (fuel : Nat) → List Char → Option (Json × List Char)
  | 0, _ => none
  | fuel + 1, cs =>
    match skipGap cs with
    | '"' :: rest => (readString [] rest).map fun (s, rest) => (.text s, rest)
    | '[' :: rest =>
      match skipGap rest with
      | ']' :: rest => some (.array [], rest)
      | rest => (readItems fuel rest).map fun (items, rest) => (.array items, rest)
    | '\x7b' :: rest =>
      match skipGap rest with
      | '\x7d' :: rest => some (.object [], rest)
      | rest => (readMembers fuel rest).map fun (members, rest) => (.object members, rest)
    | cs =>
      match after? "null" cs, after? "true" cs, after? "false" cs with
      | some rest, _, _ => some (.null, rest)
      | _, some rest, _ => some (.bool true, rest)
      | _, _, some rest => some (.bool false, rest)
      | _, _, _ => (readNumber? cs).map fun (literal, rest) => (.number literal, rest)

/-- Reads the elements of an array up to its end. -/
def readItems : (fuel : Nat) → List Char → Option (List Json × List Char)
  | 0, _ => none
  | fuel + 1, cs =>
    match readValue fuel cs with
    | none => none
    | some (item, rest) =>
      match skipGap rest with
      | ',' :: rest => (readItems fuel rest).map fun (items, rest) => (item :: items, rest)
      | ']' :: rest => some ([item], rest)
      | _ => none

/-- Reads the members of an object up to its end. -/
def readMembers : (fuel : Nat) → List Char → Option (List (String × Json) × List Char)
  | 0, _ => none
  | fuel + 1, cs =>
    match skipGap cs with
    | '"' :: rest =>
      match readString [] rest with
      | none => none
      | some (name, rest) =>
        match skipGap rest with
        | ':' :: rest =>
          match readValue fuel rest with
          | none => none
          | some (value, rest) =>
            match skipGap rest with
            | ',' :: rest =>
              (readMembers fuel rest).map fun (members, rest) => ((name, value) :: members, rest)
            | '\x7d' :: rest => some ([(name, value)], rest)
            | _ => none
        | _ => none
    | _ => none

end

/-- Reads a whole text. -/
def ofText? (text : String) : Option Json :=
  let cs := text.toList
  match readValue (cs.length + 1) cs with
  | some (value, rest) => if (skipGap rest).isEmpty then some value else none
  | none => none

/-! ### Writing -/

/-- A character inside a string. -/
def escape (c : Char) : String :=
  match c with
  | '"' => "\\\""
  | '\\' => "\\\\"
  | '\x08' => "\\b"
  | '\x0c' => "\\f"
  | '\n' => "\\n"
  | '\r' => "\\r"
  | '\t' => "\\t"
  | c => if c.toNat < 0x20 then "\\u" ++ Text.hex 4 c.toNat else c.toString

/-- A string in its quotes. -/
def quote (s : String) : String := "\"" ++ String.join (s.toList.map escape) ++ "\""

mutual

/-- A value without blanks. -/
def compact : Json → String
  | null => "null"
  | bool b => if b then "true" else "false"
  | number literal => literal
  | text s => quote s
  | array items => "[" ++ ",".intercalate (compactItems items) ++ "]"
  | object members => "\x7b" ++ ",".intercalate (compactMembers members) ++ "\x7d"

/-- The elements of an array without blanks. -/
def compactItems : List Json → List String
  | [] => []
  | v :: rest => v.compact :: compactItems rest

/-- The members of an object without blanks. -/
def compactMembers : List (String × Json) → List String
  | [] => []
  | m :: rest => (quote m.1 ++ ":" ++ m.2.compact) :: compactMembers rest

end

/-- The parts of an array or an object on lines of their own, one level below `indent`. -/
def lines (indent opening closing : String) (parts : List String) : String :=
  if parts.isEmpty then opening ++ closing
  else
    opening ++ "\n" ++ ",\n".intercalate (parts.map ((indent ++ "  ") ++ ·)) ++ "\n" ++ indent ++
      closing

mutual

/-- A value with its parts on lines of their own. -/
def prettyAt (indent : String) : Json → String
  | array items => lines indent "[" "]" (prettyItems (indent ++ "  ") items)
  | object members => lines indent "\x7b" "\x7d" (prettyMembers (indent ++ "  ") members)
  | null => "null"
  | bool b => if b then "true" else "false"
  | number literal => literal
  | text s => quote s

/-- The elements of an array, each as it stands behind its indentation. -/
def prettyItems (indent : String) : List Json → List String
  | [] => []
  | v :: rest => v.prettyAt indent :: prettyItems indent rest

/-- The members of an object, each as it stands behind its indentation. -/
def prettyMembers (indent : String) : List (String × Json) → List String
  | [] => []
  | m :: rest => (quote m.1 ++ ": " ++ m.2.prettyAt indent) :: prettyMembers indent rest

end

/-- A value with its parts on lines of their own. -/
def pretty (v : Json) : String := v.prettyAt ""

/-! ### Looking into a value -/

/-- The last member of a name. -/
def member? (v : Json) (name : String) : Option Json :=
  match v with
  | object members => (members.reverse.find? (fun m => m.1 == name)).map (·.2)
  | _ => none

end Json

end RecordTables
