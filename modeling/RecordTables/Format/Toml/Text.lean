import RecordTables.Number.Numeral

/-!
# TOML texts

A text stands in double quotes, where a backslash begins an escape, or in single quotes, where every
character stands for itself.  In three quotes it may go over several lines; a line end right behind
the opening quotes is left out, and so are the blanks and line ends behind a backslash at the end of
a line.
-/

namespace RecordTables.Toml

/-- Blanks within a line. -/
def isBlank (c : Char) : Bool := c = ' ' || c = '\t'

/-- The characters without the blanks in front. -/
def skipBlanks (cs : List Char) : List Char := cs.dropWhile isBlank

/-- What is behind a line end, if one stands in front. -/
def afterLineEnd? : List Char → Option (List Char)
  | '\n' :: rest => some rest
  | '\r' :: '\n' :: rest => some rest
  | _ => none

/-- Whether a character may stand in a text or a comment on one line. -/
def isInline (c : Char) : Bool := c = '\t' || (0x20 ≤ c.toNat && c.toNat ≠ 0x7F)

/-- The character of a code point in hexadecimal digits, of which there are exactly `width`. -/
def codePoint? (width : Nat) (cs : List Char) : Option (Char × List Char) := do
  let digits := cs.take width
  let n ← digits.foldlM (fun n c => (Number.digit? 16 c).map (n * 16 + ·)) 0
  if digits.length = width ∧ n.isValidChar then some (Char.ofNat n, cs.drop width) else none

/-- Reads what stands behind a backslash. -/
def readEscape? : List Char → Option (Char × List Char)
  | 'b' :: rest => some ('\x08', rest)
  | 't' :: rest => some ('\t', rest)
  | 'n' :: rest => some ('\n', rest)
  | 'f' :: rest => some ('\x0c', rest)
  | 'r' :: rest => some ('\r', rest)
  | '"' :: rest => some ('"', rest)
  | '\\' :: rest => some ('\\', rest)
  | 'u' :: rest => codePoint? 4 rest
  | 'U' :: rest => codePoint? 8 rest
  | _ => none

/-- The characters without the blanks and line ends in front. -/
def skipLines : List Char → List Char
  | '\r' :: '\n' :: rest => skipLines rest
  | c :: rest => if isBlank c || c = '\n' then skipLines rest else c :: rest
  | [] => []

/-- What is behind a backslash that ends its line, and the blanks and line ends that follow. -/
def afterContinuation? (cs : List Char) : Option (List Char) :=
  (afterLineEnd? (skipBlanks cs)).map skipLines

/-- Reads the rest of a text on one line whose characters so far are `done`, last first.  With
`escapes` a backslash begins an escape. -/
def readLine (quote : Char) (escapes : Bool) :
    (fuel : Nat) → (done : List Char) → List Char → Option (String × List Char)
  | 0, _, _ => none
  | _ + 1, _, [] => none
  | fuel + 1, done, c :: rest =>
    if c = quote then some (String.ofList done.reverse, rest)
    else if escapes ∧ c = '\\' then
      match readEscape? rest with
      | some (x, rest) => readLine quote escapes fuel (x :: done) rest
      | none => none
    else if isInline c then readLine quote escapes fuel (c :: done) rest
    else none

/-- Reads the rest of a text over several lines.  One or two quotes in it stand for themselves, also
right in front of the closing ones. -/
def readLines (quote : Char) (escapes : Bool) :
    (fuel : Nat) → (done : List Char) → List Char → Option (String × List Char)
  | 0, _, _ => none
  | _ + 1, _, [] => none
  | fuel + 1, done, c :: rest =>
    if c = quote then
      let quotes := (c :: rest).takeWhile (· = quote)
      let rest := rest.dropWhile (· = quote)
      if quotes.length < 3 then readLines quote escapes fuel (quotes ++ done) rest
      else if quotes.length ≤ 5 then
        some (String.ofList (quotes.drop 3 ++ done).reverse, rest)
      else none
    else if escapes ∧ c = '\\' then
      match afterContinuation? rest, readEscape? rest with
      | some rest, _ => readLines quote escapes fuel done rest
      | none, some (x, rest) => readLines quote escapes fuel (x :: done) rest
      | none, none => none
    else
      match afterLineEnd? (c :: rest) with
      | some rest => readLines quote escapes fuel ('\n' :: done) rest
      | none => if isInline c then readLines quote escapes fuel (c :: done) rest else none

/-- Reads a text that begins with its quotes. -/
def readText? : List Char → Option (String × List Char)
  | '"' :: '"' :: '"' :: rest =>
    readLines '"' true (rest.length + 1) [] ((afterLineEnd? rest).getD rest)
  | '\'' :: '\'' :: '\'' :: rest =>
    readLines '\'' false (rest.length + 1) [] ((afterLineEnd? rest).getD rest)
  | '"' :: rest => readLine '"' true (rest.length + 1) [] rest
  | '\'' :: rest => readLine '\'' false (rest.length + 1) [] rest
  | _ => none

end RecordTables.Toml
