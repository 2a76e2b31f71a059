import RecordTables.Files.Tree
import RecordTables.Number.Numeral

/-!
# Requests to utilities

A utility works on its arguments, on the bytes it reads, and on files; it writes bytes and error
messages, changes files, and ends with a status, which is zero if it did what it should.

`echo` and `printf` write their arguments.  Behind a backslash a letter stands for a control
character, and octal digits for a byte.
-/

namespace RecordTables.Script

/-- What a utility works with. -/
structure Request where
  /-- The directory that relative paths start from. -/
  directory : Path
  args : List String
  input : List UInt8
  files : FileTree

/-- What a utility did. -/
structure Reply where
  output : List UInt8
  errors : List UInt8
  status : Nat
  files : FileTree

/-- The path of a text in a script.  The project directory is `<root>`. -/
def pathOf (directory : Path) (text : String) : Path :=
  let mark := "<root>".toList
  if mark.isPrefixOf text.toList then
    .inside (Path.partsOf (String.ofList (text.toList.drop mark.length)))
  else directory.join text

namespace Request

variable (r : Request)

/-- The path of an argument. -/
def path (text : String) : Path := pathOf r.directory text

/-- A utility that wrote something and did what it should. -/
def succeed (output : List UInt8) : Reply := ⟨output, [], 0, r.files⟩

/-- A utility that ends with a status and writes nothing. -/
def ended (status : Nat) : Reply := ⟨[], [], status, r.files⟩

/-- A utility that failed, with a message. -/
def failed (message : String) : Reply := ⟨[], Text.utf8 (message ++ "\n"), 1, r.files⟩

/-- The options in front of the other arguments, as letters, and those arguments. -/
def options : List Char × List String :=
  let rec split : List String → List Char × List String
    | [] => ([], [])
    | "--" :: rest => ([], rest)
    | arg :: rest =>
      match arg.toList with
      | '-' :: c :: letters =>
        let (more, rest) := split rest
        (c :: letters ++ more, rest)
      | _ => ([], arg :: rest)
  split r.args

end Request

/-- What a utility says of a file that is not there. -/
def absent (utility what : String) : String :=
  utility ++ ": " ++ what ++ ": No such file or directory"

/-- The bytes of a file; the null device has none. -/
def Request.read? (r : Request) (text : String) : Option (List UInt8) :=
  if text = "-" ∨ text = "/dev/stdin" then some r.input
  else if text = "/dev/null" then some []
  else r.files.read? (r.path text)

/-- Goes on with the bytes of some files, or with what the utility reads if there are none. -/
def Request.onInputs (r : Request) (utility : String) (names : List String)
    (go : List UInt8 → Reply) : Reply :=
  if names.isEmpty then go r.input
  else
    match names.find? fun name => (r.read? name).isNone with
    | some name => r.failed (absent utility name)
    | none => go (names.flatMap fun name => (r.read? name).getD [])

/-- The lines of some bytes, each with its line end if it has one. -/
def linesOf (bytes : List UInt8) : List (List UInt8) :=
  let parts := Text.splitOn 10 bytes
  let whole := parts.dropLast.map (· ++ [10])
  match parts.getLast? with
  | some [] | none => whole
  | some last => whole ++ [last]

/-! ## Writing texts -/

/-- The value of octal digits, of which there are at most `width`, and what is behind them. -/
def splitOctal : (width : Nat) → (n : Nat) → List Char → Nat × List Char
  | 0, n, cs => (n, cs)
  | width + 1, n, c :: rest =>
    if '0' ≤ c ∧ c ≤ '7' then splitOctal width (n * 8 + (c.toNat - 0x30)) rest else (n, c :: rest)
  | _ + 1, n, [] => (n, [])

/-- The byte that a letter behind a backslash stands for. -/
def controlByte? : Char → Option UInt8
  | 'a' => some 7
  | 'b' => some 8
  | 't' => some 9
  | 'n' => some 10
  | 'v' => some 11
  | 'f' => some 12
  | 'r' => some 13
  | '\\' => some 92
  | _ => none

/-- The bytes of an escape behind its backslash, and what is behind it.  `leadingZero` says that
octal numbers start with a zero that is not counted. -/
def readEscape (leadingZero : Bool) (c : Char) (rest : List Char) : List UInt8 × List Char :=
  match controlByte? c with
  | some b => ([b], rest)
  | none =>
    if leadingZero ∧ c = '0' then
      let (n, rest) := splitOctal 3 0 rest
      ([UInt8.ofNat n], rest)
    else if !leadingZero ∧ '0' ≤ c ∧ c ≤ '7' then
      let (n, rest) := splitOctal 3 0 (c :: rest)
      ([UInt8.ofNat n], rest)
    else (Text.utf8 (String.ofList ['\\', c]), rest)

/-- The bytes of a text whose escapes count, and whether something may follow it. -/
def escapedBytes : (fuel : Nat) → List Char → List UInt8 × Bool
  | 0, _ => ([], true)
  | _ + 1, [] => ([], true)
  | _ + 1, '\\' :: 'c' :: _ => ([], false)
  | fuel + 1, '\\' :: c :: rest =>
    let (bytes, rest) := readEscape true c rest
    let (more, goesOn) := escapedBytes fuel rest
    (bytes ++ more, goesOn)
  | fuel + 1, c :: rest =>
    let (more, goesOn) := escapedBytes fuel rest
    (Text.utf8 c.toString ++ more, goesOn)

/-- Writes its arguments with a line end behind them. -/
def echo (r : Request) : Reply :=
  let (ending, args) : List UInt8 × List String := match r.args with
    | "-n" :: rest => ([], rest)
    | args => ([10], args)
  let text := " ".intercalate args
  let (bytes, goesOn) := escapedBytes (text.length + 1) text.toList
  r.succeed (bytes ++ if goesOn then ending else [])

/-- Pads a text to a width, in front or behind. -/
def pad (behind : Bool) (filler : Char) (width : Nat) (s : String) : String :=
  let fill := String.ofList (List.replicate (width - s.length) filler)
  if behind then s ++ fill else fill ++ s

/-- The text of an argument for one conversion of a format. -/
def convert (kind : Char) (arg : String) : Option (List UInt8) :=
  let number : Int := (((Number.readInt64 arg.toList).toOption).getD 0).toInt
  match kind with
  | 's' => some (Text.utf8 arg)
  | 'b' => some (escapedBytes (arg.length + 1) arg.toList).1
  | 'c' => some (Text.utf8 (String.ofList (arg.toList.take 1)))
  | 'd' | 'i' | 'u' => some (Text.utf8 (toString number))
  | 'x' => some (Text.utf8 (String.ofList (Nat.toDigits 16 number.toNat)))
  | 'o' => some (Text.utf8 (String.ofList (Nat.toDigits 8 number.toNat)))
  | _ => none

/-- Writes a format once: the bytes, and the arguments left. -/
def formatOnce : (fuel : Nat) → List Char → List String → List UInt8 × List String
  | 0, _, args => ([], args)
  | _ + 1, [], args => ([], args)
  | fuel + 1, '%' :: '%' :: rest, args =>
    let (more, args) := formatOnce fuel rest args
    (37 :: more, args)
  | fuel + 1, '%' :: rest, args =>
    let behind := rest.head? = some '-'
    let rest := if behind then rest.drop 1 else rest
    let filler := if rest.head? = some '0' ∧ !behind then '0' else ' '
    let width := (Number.natOfDigits? (rest.takeWhile Char.isDigit)).getD 0
    match rest.dropWhile Char.isDigit with
    | kind :: rest =>
      match convert kind (args.head?.getD "") with
      | some bytes =>
        let shown := if width ≤ bytes.length then bytes
          else Text.utf8 (pad behind filler width (Text.ofUtf8Lossy bytes))
        let (more, args) := formatOnce fuel rest args.tail
        (shown ++ more, args)
      | none => ([], args)
    | [] => ([], args)
  | fuel + 1, '\\' :: '"' :: rest, args =>
    let (more, args) := formatOnce fuel rest args
    (34 :: more, args)
  | fuel + 1, '\\' :: c :: rest, args =>
    let (bytes, rest) := readEscape false c rest
    let (more, args) := formatOnce fuel rest args
    (bytes ++ more, args)
  | fuel + 1, c :: rest, args =>
    let (more, args) := formatOnce fuel rest args
    (Text.utf8 c.toString ++ more, args)

/-- Writes a format again as long as it uses arguments up. -/
def formatAll (format : List Char) : (fuel : Nat) → List String → List UInt8
  | 0, _ => []
  | fuel + 1, args =>
    let (bytes, rest) := formatOnce (format.length + 1) format args
    if rest.isEmpty ∨ rest.length = args.length then bytes else bytes ++ formatAll format fuel rest

/-- Writes its arguments as a format says. -/
def printf (r : Request) : Reply :=
  match r.args with
  | [] => r.failed "printf: missing operand"
  | format :: args => r.succeed (formatAll format.toList (args.length + 1) args)

end RecordTables.Script
