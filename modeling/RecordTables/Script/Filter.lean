import RecordTables.Number.Numeral
import RecordTables.Script.Expression
import RecordTables.Script.Request

/-!
# Utilities that pass files on

These utilities write what they read from files, or from their input if no file is named: as it is,
in part, or changed line by line.
-/

namespace RecordTables.Script

/-! ### Whole files and their parts -/

/-- Writes files one after the other. -/
def cat (r : Request) : Reply := r.onInputs "cat" r.options.2 r.succeed

/-- How much of a file is asked for, of bytes or of lines, and the files. -/
def amountOf : List String → (Bool × Nat) × List String
  | "-c" :: n :: rest => ((true, n.toNat?.getD 0), rest)
  | "-n" :: n :: rest => ((false, n.toNat?.getD 0), rest)
  | arg :: rest =>
    match arg.toList with
    | '-' :: 'c' :: n => ((true, (String.ofList n).toNat?.getD 0), rest)
    | '-' :: 'n' :: n => ((false, (String.ofList n).toNat?.getD 0), rest)
    | '-' :: n =>
      match (String.ofList n).toNat? with
      | some n => ((false, n), rest)
      | none => ((false, 10), arg :: rest)
    | _ => ((false, 10), arg :: rest)
  | [] => ((false, 10), [])

/-- The beginning of a file.  The device of zeros has as many as are asked for. -/
def head (r : Request) : Reply :=
  let ((inBytes, n), names) := amountOf r.args
  if names = ["/dev/zero"] ∧ inBytes then r.succeed (List.replicate n 0)
  else r.onInputs "head" names fun bytes =>
    r.succeed (if inBytes then bytes.take n else ((linesOf bytes).take n).flatten)

/-- The end of a file. -/
def tail (r : Request) : Reply :=
  let ((inBytes, n), names) := amountOf r.args
  let last {α : Type} (l : List α) : List α := l.drop (l.length - n)
  r.onInputs "tail" names fun bytes =>
    r.succeed (if inBytes then last bytes else (last (linesOf bytes)).flatten)

/-- The numbers of lines, words and bytes. -/
def wc (r : Request) : Reply :=
  let (letters, names) := r.options
  r.onInputs "wc" names fun bytes =>
    let isGap (b : UInt8) : Bool := b = 32 || (9 ≤ b && b ≤ 13)
    let words := (bytes.splitBy fun a b => isGap a == isGap b).filter fun w => !w.all isGap
    let counts := (if letters.contains 'l' then [bytes.count 10] else []) ++
      (if letters.contains 'w' then [words.length] else []) ++
      (if letters.contains 'c' then [bytes.length] else [])
    let counts := if letters.isEmpty then [bytes.count 10, words.length, bytes.length] else counts
    let width := if counts.length = 1 then 1 else 7
    let shown := counts.map fun n => pad false ' ' width (toString n)
    r.succeed (Text.utf8 (" ".intercalate (shown ++ names) ++ "\n"))

/-- The bytes of a set of characters, with its ranges and escapes. -/
def bytesOfSet : (fuel : Nat) → List Char → List UInt8
  | 0, _ => []
  | _ + 1, [] => []
  | fuel + 1, '\\' :: c :: rest =>
    let (bytes, rest) := readEscape false c rest
    bytes ++ bytesOfSet fuel rest
  | fuel + 1, a :: '-' :: b :: rest =>
    (List.range (b.toNat + 1 - a.toNat)).map (fun i => UInt8.ofNat (a.toNat + i)) ++
      bytesOfSet fuel rest
  | fuel + 1, c :: rest => Text.utf8 c.toString ++ bytesOfSet fuel rest

/-- Puts other bytes in the place of bytes, or leaves them out. -/
def tr (r : Request) : Reply :=
  let set (text : String) : List UInt8 := bytesOfSet (text.length + 1) text.toList
  match r.args with
  | ["-d", text] =>
    let set := set text
    r.succeed (r.input.filter fun b => !set.contains b)
  | [source, target] =>
    let source := set source
    let target := set target
    let translate (b : UInt8) : UInt8 :=
      match source.idxOf? b with
      | some i => (target[i]?.or target.getLast?).getD b
      | none => b
    r.succeed (r.input.map translate)
  | _ => r.failed "tr: missing operand"

/-- Lines in order. -/
def sort (r : Request) : Reply :=
  let (letters, names) := r.options
  r.onInputs "sort" names fun bytes =>
    let lines := (linesOf bytes).map fun l => if l.getLast? = some 10 then l else l ++ [10]
    let sorted := lines.mergeSort fun a b => decide (a ≤ b)
    let sorted := if letters.contains 'u' then sorted.eraseDups else sorted
    r.succeed (if letters.contains 'r' then sorted.reverse else sorted).flatten

/-- The numbers from one to another, each on a line. -/
def seq (r : Request) : Reply :=
  let write (first last : Nat) : Reply :=
    r.succeed (((List.range (last + 1 - first)).map fun i =>
      Text.utf8 (toString (first + i) ++ "\n")).flatten)
  match r.args.map (·.toNat?) with
  | [some last] => write 1 last
  | [some first, some last] => write first last
  | _ => r.failed "seq: missing operand"

/-! ### Lines with expressions and fields -/

/-- A line as characters, without its line end. -/
def charsOf (line : List UInt8) : List Char :=
  (Text.ofUtf8Lossy (if line.getLast? = some 10 then line.dropLast else line)).toList

/-- The bytes of a line of characters. -/
def lineOf (cs : List Char) : List UInt8 := Text.utf8 (String.ofList cs) ++ [10]

/-- The lines that an expression matches, or their number, or only whether there is one. -/
def grep (r : Request) : Reply :=
  let (letters, args) := r.options
  match args with
  | [] => { r.failed "Usage: grep [OPTION]... PATTERNS [FILE]..." with status := 2 }
  | pattern :: names =>
    let expression := if letters.contains 'F' then some (.literal pattern)
      else Expression.ofText? pattern
    match expression, names.find? fun name => (r.read? name).isNone with
    | none, _ => r.ended 2
    | _, some name => { r.failed (absent "grep" name) with status := 2 }
    | some e, none =>
      let bytes :=
        if names.isEmpty then r.input else names.flatMap fun name => (r.read? name).getD []
      let found := ((linesOf bytes).map charsOf).zipIdx.filter fun l =>
        e.occurs l.1 != letters.contains 'v'
      let output := if letters.contains 'q' then []
        else if letters.contains 'c' then Text.utf8 (toString found.length ++ "\n")
        else found.flatMap fun (line, i) =>
          (if letters.contains 'n' then Text.utf8 (toString (i + 1) ++ ":") else []) ++ lineOf line
      { r.succeed output with status := if found.isEmpty then 1 else 0 }

/-- What `sed` does with the lines it is meant for. -/
inductive Edit where
  | print
  | delete
  | substitute (e : Expression) (all : Bool) (replacement : List Char)

/-- The characters up to one that is not guarded by a backslash, and those behind it. -/
def splitGuarded (stop : Char) : List Char → Option (List Char × List Char)
  | [] => none
  | '\\' :: c :: rest =>
    (splitGuarded stop rest).map fun (text, rest) =>
      (if c = stop then c :: text else '\\' :: c :: text, rest)
  | c :: rest =>
    if c = stop then some ([], rest)
    else (splitGuarded stop rest).map fun (text, rest) => (c :: text, rest)

/-- Reads an edit. -/
def readEdit? : List Char → Option Edit
  | ['p'] => some .print
  | ['d'] => some .delete
  | 's' :: stop :: rest => do
    let (pattern, rest) ← splitGuarded stop rest
    let (replacement, flags) ← splitGuarded stop rest
    let e ← Expression.ofText? (String.ofList pattern)
    guard (flags = [] ∨ flags = ['g'])
    return .substitute e (flags = ['g']) replacement
  | _ => none

/-- Reads which lines an edit is meant for: one by its number, the last one, those that an
expression matches, or all.  The answer tells from the number of a line, whether it is the last and
its characters. -/
def readAddress? (cs : List Char) : Option ((Nat → Bool → List Char → Bool) × List Char) :=
  match cs with
  | '$' :: rest => some (fun _ last _ => last, rest)
  | '/' :: rest => do
    let (pattern, rest) ← splitGuarded '/' rest
    let e ← Expression.ofText? (String.ofList pattern)
    return (fun _ _ line => e.occurs line, rest)
  | _ =>
    match Number.natOfDigits? (cs.takeWhile Char.isDigit) with
    | some n => some (fun i _ _ => i = n, cs.dropWhile Char.isDigit)
    | none => some (fun _ _ _ => true, cs)

/-- A replacement in which an ampersand stands for what is replaced. -/
def fillReplacement (found : List Char) : List Char → List Char
  | '\\' :: 'n' :: rest => '\n' :: fillReplacement found rest
  | '\\' :: c :: rest => c :: fillReplacement found rest
  | '&' :: rest => found ++ fillReplacement found rest
  | c :: rest => c :: fillReplacement found rest
  | [] => []

/-- Lines with an edit done on some of them. -/
def sed (r : Request) : Reply :=
  let (letters, args) := r.options
  let quiet := letters.contains 'n'
  match args with
  | [] => r.failed "sed: no script"
  | script :: names =>
    match readAddress? script.toList with
    | none => r.failed "sed: unknown command"
    | some (meant, rest) =>
      match readEdit? rest with
      | none => r.failed "sed: unknown command"
      | some edit =>
        r.onInputs "sed" names fun bytes =>
          let lines := (linesOf bytes).map charsOf
          r.succeed (lines.zipIdx.flatMap fun (line, i) =>
            let shown := if quiet then [] else lineOf line
            if meant (i + 1) (i + 1 = lines.length) line then
              match edit with
              | .print => shown ++ lineOf line
              | .delete => []
              | .substitute e all replacement =>
                let line := e.replace all (fun found => fillReplacement found replacement)
                  (line.length + 1) line
                if quiet then [] else lineOf line
            else shown)

/-- The first and the last number of a range; one that is left out has no bound. -/
def rangeOf (text : List Char) : Nat × Option Nat :=
  let first := (Number.natOfDigits? (text.takeWhile Char.isDigit)).getD 1
  match text.dropWhile Char.isDigit with
  | '-' :: last => (first, Number.natOfDigits? last)
  | _ => (first, some first)

/-- Characters or fields of lines. -/
def cut (r : Request) : Reply :=
  let letters := r.args.filter fun a => a.toList.head? = some '-'
  let names := r.args.filter fun a => a.toList.head? ≠ some '-'
  let option? (letter : Char) : Option (List Char) :=
    letters.findSome? fun a =>
      match a.toList with
      | _ :: c :: rest => if c = letter then some rest else none
      | _ => none
  let chosen (text : List Char) (i : Nat) : Bool :=
    ((Text.splitOn ',' text).map rangeOf).any fun range =>
      range.1 ≤ i && range.2.all fun last => decide (i ≤ last)
  let pick {α : Type} (text : List Char) (parts : List α) : List α :=
    (parts.zipIdx.filter fun p => chosen text (p.2 + 1)).map (·.1)
  r.onInputs "cut" names fun bytes =>
    let lines := (linesOf bytes).map charsOf
    match option? 'f', (option? 'c').or (option? 'b') with
    | some fields, _ =>
      let delimiter := ((option? 'd').bind List.head?).getD '\t'
      r.succeed (lines.flatMap fun line =>
        if line.contains delimiter then
          lineOf ([delimiter].intercalate (pick fields (Text.splitOn delimiter line)))
        else lineOf line)
    | none, some places => r.succeed (lines.flatMap fun line => lineOf (pick places line))
    | none, none => r.failed "cut: you must specify a list of bytes, characters, or fields"

end RecordTables.Script
