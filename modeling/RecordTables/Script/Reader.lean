import RecordTables.Script.Command
import RecordTables.Text.Split

/-!
# Reading scripts

`Command.ofText?` reads a script.  Commands are set apart by semicolons and line ends, joined by
`&&`, `||` and `|`, and grouped by brackets and by words such as `if` and `done`.  In single quotes
every character stands for itself; in double quotes only `$`, a backquote and a backslash do not.
-/

namespace RecordTables.Script

/-! ### Characters -/

/-- Blanks between words. -/
def isBlank (c : Char) : Bool := c = ' ' || c = '\t'

/-- Characters that end a word. -/
def endsWord (c : Char) : Bool := isBlank c || "\n;&|<>()".toList.contains c

/-- Characters of a name. -/
def isNameChar (c : Char) : Bool := c.isAlphanum || c = '_'

/-- Whether a text is a name. -/
def isName (cs : List Char) : Bool :=
  cs.all isNameChar && (cs.head?.map fun c => !c.isDigit).getD false

/-- What is behind blanks, continued lines and a comment. -/
def skipBlanks : List Char → List Char
  | '\\' :: '\n' :: rest => skipBlanks rest
  | '#' :: rest => rest.dropWhile (· ≠ '\n')
  | c :: rest => if isBlank c then skipBlanks rest else c :: rest
  | [] => []

/-- What is behind blanks, comments and line ends. -/
def skipLines : (fuel : Nat) → List Char → List Char
  | 0, cs => cs
  | fuel + 1, cs =>
    match skipBlanks cs with
    | '\n' :: rest => skipLines fuel rest
    | rest => rest

/-! ### Words -/

/-- The characters up to the closing bracket, in which brackets and quotes are balanced. -/
def readNested (opening closing : Char) :
    (depth : Nat) → (quote : Option Char) → (done : List Char) → List Char →
      Option (List Char × List Char)
  | _, _, _, [] => none
  | depth, none, done, '\\' :: c :: rest =>
    readNested opening closing depth none (c :: '\\' :: done) rest
  | depth, some q, done, c :: rest =>
    readNested opening closing depth (if c = q then none else some q) (c :: done) rest
  | depth, none, done, c :: rest =>
    if c = '\'' ∨ c = '"' then readNested opening closing depth (some c) (c :: done) rest
    else if c = closing then
      match depth with
      | 0 => some (done.reverse, rest)
      | depth + 1 => readNested opening closing depth none (c :: done) rest
    else if c = opening then readNested opening closing (depth + 1) none (c :: done) rest
    else readNested opening closing depth none (c :: done) rest

/-- The characters up to a backquote, without the backslashes that guard others. -/
def readBackquoted : (done : List Char) → List Char → Option (List Char × List Char)
  | _, [] => none
  | done, '\x60' :: rest => some (done.reverse, rest)
  | done, '\\' :: c :: rest =>
    if c = '\x60' ∨ c = '\\' ∨ c = '$' then readBackquoted (c :: done) rest
    else readBackquoted (c :: '\\' :: done) rest
  | done, c :: rest => readBackquoted (c :: done) rest

/-- The name of a parameter in front: a digit, a sign, or a name. -/
def splitParameter (cs : List Char) : List Char × List Char :=
  match cs with
  | [] => ([], [])
  | c :: rest =>
    if c.isDigit ∨ "#?$@*!-".toList.contains c then ([c], rest)
    else if isNameChar c then (cs.takeWhile isNameChar, cs.dropWhile isNameChar)
    else ([], cs)

/-- The operators on the values of parameters; longer ones stand in front of their beginnings. -/
def operators : List String := [":-", "-", ":+", "+", "##", "#", "%%", "%"]

/-- The piece of a parameter in braces. -/
def bracedPiece? (quoted : Bool) (cs : List Char) : Option Piece :=
  match cs with
  | '#' :: name =>
    if name.isEmpty then some (.parameter "#" "" "" quoted)
    else if (splitParameter name).2.isEmpty then
      some (.parameter (String.ofList name) "length" "" quoted)
    else none
  | _ =>
    let (name, rest) := splitParameter cs
    if name.isEmpty then none
    else if rest.isEmpty then some (.parameter (String.ofList name) "" "" quoted)
    else
      (operators.find? fun op => op.toList.isPrefixOf rest).map fun op =>
        .parameter (String.ofList name) op (String.ofList (rest.drop op.length)) quoted

/-- Reads what stands behind a dollar sign. -/
def readDollar? (quoted : Bool) (cs : List Char) : Option (Piece × List Char) :=
  match cs with
  | '(' :: rest =>
    (readNested '(' ')' 0 none [] rest).map fun (script, rest) =>
      if script.head? = some '(' ∧ script.getLast? = some ')' then
        (.arithmetic (String.ofList script.tail.dropLast) quoted, rest)
      else (.output (String.ofList script) quoted, rest)
  | '\x7b' :: rest =>
    match readNested '\x7b' '\x7d' 0 none [] rest with
    | some (body, rest) => (bracedPiece? quoted body).map (·, rest)
    | none => none
  | _ =>
    let (name, rest) := splitParameter cs
    if name.isEmpty then some (.literal "$" quoted, cs)
    else some (.parameter (String.ofList name) "" "" quoted, rest)

/-- Puts characters that stand for themselves in front of a word. -/
def literally (done : List Char) (quoted : Bool) (word : Word) : Word :=
  if done.isEmpty then word else .literal (String.ofList done.reverse) quoted :: word

mutual

/-- Reads the rest of a word, of which the plain characters `done` have been read, last first. -/
def readWord : (fuel : Nat) → (done : List Char) → List Char → Option (Word × List Char)
  | 0, _, _ => none
  | _ + 1, done, [] => some (literally done false [], [])
  | fuel + 1, done, '\\' :: '\n' :: rest => readWord fuel done rest
  | fuel + 1, done, '\\' :: c :: rest =>
    (readWord fuel [] rest).map fun (w, rest) =>
      (literally done false (.literal c.toString true :: w), rest)
  | fuel + 1, done, '\'' :: rest =>
    match rest.dropWhile (· ≠ '\'') with
    | [] => none
    | _ :: after =>
      (readWord fuel [] after).map fun (w, rest') =>
        (literally done false
          (.literal (String.ofList (rest.takeWhile (· ≠ '\''))) true :: w), rest')
  | fuel + 1, done, '"' :: rest =>
    (readQuoted fuel [] rest).map fun (w, rest) =>
      (literally done false (.literal "" true :: w), rest)
  | fuel + 1, done, '$' :: rest =>
    match readDollar? false rest with
    | none => none
    | some (piece, rest) =>
      (readWord fuel [] rest).map fun (w, rest) => (literally done false (piece :: w), rest)
  | fuel + 1, done, '\x60' :: rest =>
    match readBackquoted [] rest with
    | none => none
    | some (script, rest) =>
      (readWord fuel [] rest).map fun (w, rest) =>
        (literally done false (.output (String.ofList script) false :: w), rest)
  | fuel + 1, done, c :: rest =>
    if endsWord c then some (literally done false [], c :: rest)
    else readWord fuel (c :: done) rest

/-- Reads the rest of a part in double quotes, and of the word behind it. -/
def readQuoted : (fuel : Nat) → (done : List Char) → List Char → Option (Word × List Char)
  | 0, _, _ => none
  | _ + 1, _, [] => none
  | fuel + 1, done, '"' :: rest =>
    (readWord fuel [] rest).map fun (w, rest) => (literally done true w, rest)
  | fuel + 1, done, '\\' :: '\n' :: rest => readQuoted fuel done rest
  | fuel + 1, done, '\\' :: c :: rest =>
    if "$`\"\\".toList.contains c then readQuoted fuel (c :: done) rest
    else readQuoted fuel (c :: '\\' :: done) rest
  | fuel + 1, done, '$' :: rest =>
    match readDollar? true rest with
    | none => none
    | some (piece, rest) =>
      (readQuoted fuel [] rest).map fun (w, rest) => (literally done true (piece :: w), rest)
  | fuel + 1, done, '\x60' :: rest =>
    match readBackquoted [] rest with
    | none => none
    | some (script, rest) =>
      (readQuoted fuel [] rest).map fun (w, rest) =>
        (literally done true (.output (String.ofList script) true :: w), rest)
  | fuel + 1, done, c :: rest => readQuoted fuel (c :: done) rest

end

/-- Reads a word, in which blanks stand for themselves. -/
def wordOfText? (text : String) : Option Word :=
  let cs := text.toList
  match readQuoted (cs.length + 2) [] (cs ++ ['"']) with
  | some (word, []) => some word
  | _ => none

/-! ### Simple commands -/

/-- The lines up to one, and those behind it. -/
def splitLines (stop : List Char) : List (List Char) → List (List Char) × List (List Char)
  | [] => ([], [])
  | line :: rest =>
    if line = stop then ([], rest)
    else
      let (body, rest) := splitLines stop rest
      (line :: body, rest)

/-- Reads a text that stands in the script below the line of its command, up to a line that is given
in front.  If that is in quotes, every character of the text stands for itself. -/
def readHere? (cs : List Char) : Option (Redirection × List Char) := do
  let cs := skipBlanks cs
  let (stop, rest) ← readWord (cs.length + 1) [] cs
  let quoted := stop.any fun
    | .literal _ quoted => quoted
    | _ => false
  let stop := stop.flatMap fun
    | .literal s _ => s.toList
    | _ => []
  let below := (rest.dropWhile (· ≠ '\n')).drop 1
  let (body, after) := splitLines stop (Text.splitOn '\n' below)
  let text := body.flatMap (· ++ ['\n'])
  let word ←
    if quoted then some [.literal (String.ofList text) true]
    else wordOfText? (String.ofList (text.flatMap fun c => if c = '"' then ['\\', c] else [c]))
  return (⟨0, .here, word⟩, rest.takeWhile (· ≠ '\n') ++ '\n' :: ['\n'].intercalate after)

/-- Reads a redirection, if one stands in front. -/
def readRedirection? (cs : List Char) : Option (Option Redirection × List Char) :=
  let digits := cs.takeWhile Char.isDigit
  let number := digits.foldl (fun n c => n * 10 + (c.toNat - 0x30)) 0
  let descriptor (default : Nat) : Nat := if digits.isEmpty then default else number
  let found : Option (Nat × Direction × List Char) :=
    match cs.dropWhile Char.isDigit with
    | '>' :: '>' :: rest => some (descriptor 1, .append, rest)
    | '>' :: '&' :: rest => some (descriptor 1, .duplicate, rest)
    | '>' :: '|' :: rest => some (descriptor 1, .write, rest)
    | '>' :: rest => some (descriptor 1, .write, rest)
    | '<' :: '&' :: rest => some (descriptor 0, .duplicate, rest)
    | '<' :: rest => some (descriptor 0, .read, rest)
    | _ => none
  match cs, found with
  | '<' :: '<' :: rest, _ => (readHere? rest).map fun (r, rest) => (some r, rest)
  | _, none => some (none, cs)
  | _, some (n, direction, rest) =>
    let rest := skipBlanks rest
    match readWord (rest.length + 1) [] rest with
    | some ([], _) | none => none
    | some (target, rest) => some (some ⟨n, direction, target⟩, rest)

/-- A word that gives a variable a value. -/
def assignment? : Word → Option (String × Word)
  | .literal s false :: rest =>
    let name := s.toList.takeWhile (· ≠ '=')
    match s.toList.dropWhile (· ≠ '=') with
    | _ :: value =>
      if isName name then some (String.ofList name, literally value.reverse false rest) else none
    | [] => none
  | _ => none

/-- Reads the words and redirections of a simple command. -/
def readSimple : (fuel : Nat) → List Char →
    Option ((List (String × Word) × List Word × List Redirection) × List Char)
  | 0, _ => none
  | fuel + 1, cs =>
    let cs := skipBlanks cs
    match readRedirection? cs with
    | none => none
    | some (some r, rest) =>
      (readSimple fuel rest).map fun ((vs, ws, rs), rest) => ((vs, ws, r :: rs), rest)
    | some (none, cs) =>
      match readWord (cs.length + 1) [] cs with
      | none => none
      | some ([], rest) => some (([], [], []), rest)
      | some (word, rest) =>
        (readSimple fuel rest).map fun ((vs, ws, rs), rest) =>
          match assignment? word with
          | some v => ((v :: vs, ws, rs), rest)
          | none =>
            (([], word :: (vs.map fun v => .literal (v.1 ++ "=") false :: v.2) ++ ws, rs), rest)

/-- Reads redirections only. -/
def readRedirections : (fuel : Nat) → List Char → Option (List Redirection × List Char)
  | 0, _ => none
  | fuel + 1, cs =>
    match readRedirection? (skipBlanks cs) with
    | none => none
    | some (none, rest) => some ([], rest)
    | some (some r, rest) => (readRedirections fuel rest).map fun (rs, rest) => (r :: rs, rest)

/-! ### Commands -/

/-- The plain word in front, which may be a reserved one. -/
def reservedWord (cs : List Char) : String :=
  String.ofList ((skipBlanks cs).takeWhile fun c =>
    !endsWord c && !"'\"\\$`".toList.contains c)

/-- What is behind a reserved word. -/
def afterWord? (word : String) (cs : List Char) : Option (List Char) :=
  if reservedWord cs = word then some ((skipBlanks cs).drop word.length) else none

/-- The words that end a list of commands. -/
def endingWords : List String := ["then", "elif", "else", "fi", "do", "done", "esac", "\x7d", ""]

/-- A command with its redirections. -/
def withRedirections (c : Command) (rs : List Redirection) : Command :=
  if rs.isEmpty then c else .redirected c rs

/-- Reads the words of a loop up to the end of its line. -/
def readWords : (fuel : Nat) → List Char → Option (List Word × List Char)
  | 0, _ => none
  | fuel + 1, cs =>
    let cs := skipBlanks cs
    match readWord (cs.length + 1) [] cs with
    | none => none
    | some ([], rest) => some ([], rest)
    | some (word, rest) => (readWords fuel rest).map fun (ws, rest) => (word :: ws, rest)

/-- What is behind a semicolon, if there is one, and line ends. -/
def skipSeparator (cs : List Char) : List Char :=
  match skipBlanks cs with
  | ';' :: rest => skipLines (rest.length + 1) rest
  | rest => skipLines (rest.length + 1) rest

mutual

/-- Reads commands up to a closing bracket, an ending word or the end.  `fuel` bounds the nesting
and the number of parts. -/
def readList : (fuel : Nat) → List Char → Option (Command × List Char)
  | 0, _ => none
  | fuel + 1, cs =>
    let cs := skipLines (cs.length + 1) cs
    if endingWords.contains (reservedWord cs) ∧
        !((skipBlanks cs).head?.map fun c => "'\"\\$`(<>".toList.contains c).getD false then
      some (.nothing, cs)
    else
      match readChain fuel cs with
      | none => none
      | some (c, rest) =>
        match skipBlanks rest with
        | ';' :: ';' :: _ => some (c, skipBlanks rest)
        | '&' :: rest =>
          (readList fuel rest).map fun (d, rest) => (.sequence (.background c) d, rest)
        | ';' :: rest | '\n' :: rest =>
          match readList fuel rest with
          | some (.simple [] [], rest) => some (c, rest)
          | some (d, rest) => some (.sequence c d, rest)
          | none => none
        | rest => some (c, rest)

/-- Reads commands joined by `&&` and `||`, from left to right. -/
def readChain : (fuel : Nat) → List Char → Option (Command × List Char)
  | 0, _ => none
  | fuel + 1, cs =>
    match readPipeline fuel cs with
    | none => none
    | some (c, rest) => readChainOnto fuel c rest

/-- Reads what is joined onto a command. -/
def readChainOnto : (fuel : Nat) → Command → List Char → Option (Command × List Char)
  | 0, _, _ => none
  | fuel + 1, c, cs =>
    match skipBlanks cs with
    | '&' :: '&' :: rest =>
      match readPipeline fuel (skipLines (rest.length + 1) rest) with
      | some (d, rest) => readChainOnto fuel (.both c d) rest
      | none => none
    | '|' :: '|' :: rest =>
      match readPipeline fuel (skipLines (rest.length + 1) rest) with
      | some (d, rest) => readChainOnto fuel (.either c d) rest
      | none => none
    | rest => some (c, rest)

/-- Reads commands joined by `|`. -/
def readPipeline : (fuel : Nat) → List Char → Option (Command × List Char)
  | 0, _ => none
  | fuel + 1, cs =>
    match afterWord? "!" cs with
    | some rest => (readPipeline fuel rest).map fun (c, rest) => (.negated c, rest)
    | none =>
      match readCommand fuel cs with
      | none => none
      | some (c, rest) =>
        match skipBlanks rest with
        | '|' :: '|' :: _ => some (c, rest)
        | '|' :: rest =>
          (readPipeline fuel (skipLines (rest.length + 1) rest)).map fun (d, rest) =>
            (.piped c d, rest)
        | _ => some (c, rest)

/-- Reads one command. -/
def readCommand : (fuel : Nat) → List Char → Option (Command × List Char)
  | 0, _ => none
  | fuel + 1, cs =>
    let finish (found : Option (Command × List Char)) : Option (Command × List Char) :=
      match found with
      | none => none
      | some (c, rest) =>
        (readRedirections (rest.length + 1) rest).map fun (rs, rest) =>
          (withRedirections c rs, rest)
    match skipBlanks cs with
    | '(' :: rest =>
      match readList fuel rest with
      | some (c, ')' :: rest) => finish (some (.enclosed c, rest))
      | _ => none
    | cs =>
      match reservedWord cs with
      | "\x7b" =>
        match readList fuel (cs.drop 1) with
        | some (c, rest) => finish ((afterWord? "\x7d" rest).map (c, ·))
        | none => none
      | "if" => finish (readBranch fuel (cs.drop 2))
      | "while" => finish (readLoop fuel true (cs.drop 5))
      | "until" => finish (readLoop fuel false (cs.drop 5))
      | "for" =>
        let rest := skipBlanks (cs.drop 3)
        let name := rest.takeWhile isNameChar
        let rest := skipSeparator (rest.dropWhile isNameChar)
        let words := match afterWord? "in" rest with
          | some rest => (readWords (rest.length + 1) rest).map fun (ws, rest) => (some ws, rest)
          | none => some (none, rest)
        match words with
        | some (words, rest) =>
          finish ((readBody fuel (skipSeparator rest)).map fun (body, rest) =>
            (.each (String.ofList name) words body, rest))
        | none => none
      | "case" =>
        let rest := skipBlanks (cs.drop 4)
        match readWord (rest.length + 1) [] rest with
        | some (word, rest) =>
          match afterWord? "in" (skipLines (rest.length + 1) rest) with
          | some rest =>
            finish ((readArms fuel rest).map fun (arms, rest) => (.choice word arms, rest))
          | none => none
        | none => none
      | _ =>
        match readSimple (cs.length + 1) cs with
        | some (([], [], []), _) => none
        | some ((values, words, rs), rest) =>
          some (withRedirections (.simple values words) rs, rest)
        | none => none

/-- Reads a branch behind its first word. -/
def readBranch : (fuel : Nat) → List Char → Option (Command × List Char)
  | 0, _ => none
  | fuel + 1, cs =>
    match readList fuel cs with
    | none => none
    | some (condition, rest) =>
      match (afterWord? "then" rest).bind (readList fuel) with
      | none => none
      | some (yes, rest) =>
        match afterWord? "elif" rest, afterWord? "else" rest, afterWord? "fi" rest with
        | some rest, _, _ =>
          (readBranch fuel rest).map fun (no, rest) => (.branch condition yes no, rest)
        | _, some rest, _ =>
          match readList fuel rest with
          | some (no, rest) => (afterWord? "fi" rest).map (.branch condition yes no, ·)
          | none => none
        | _, _, some rest => some (.branch condition yes .nothing, rest)
        | _, _, _ => none

/-- Reads a loop behind its first word. -/
def readLoop : (fuel : Nat) → (whileHolds : Bool) → List Char → Option (Command × List Char)
  | 0, _, _ => none
  | fuel + 1, whileHolds, cs =>
    match readList fuel cs with
    | none => none
    | some (condition, rest) =>
      (readBody fuel rest).map fun (body, rest) => (.loop whileHolds condition body, rest)

/-- Reads what a loop does. -/
def readBody : (fuel : Nat) → List Char → Option (Command × List Char)
  | 0, _ => none
  | fuel + 1, cs =>
    match (afterWord? "do" cs).bind (readList fuel) with
    | some (body, rest) => (afterWord? "done" rest).map (body, ·)
    | none => none

/-- Reads the arms of a choice, up to its last word. -/
def readArms : (fuel : Nat) → List Char → Option (List (List Word × Command) × List Char)
  | 0, _ => none
  | fuel + 1, cs =>
    let cs := skipLines (cs.length + 1) cs
    match afterWord? "esac" cs with
    | some rest => some ([], rest)
    | none =>
      let cs := match cs with
        | '(' :: rest => rest
        | _ => cs
      match readPatterns fuel cs with
      | none => none
      | some (patterns, rest) =>
        match readList fuel rest with
        | some (c, ';' :: ';' :: rest) =>
          (readArms fuel rest).map fun (arms, rest) => ((patterns, c) :: arms, rest)
        | some (c, rest) => (afterWord? "esac" rest).map ([(patterns, c)], ·)
        | none => none

/-- Reads the patterns of an arm, up to their bracket. -/
def readPatterns : (fuel : Nat) → List Char → Option (List Word × List Char)
  | 0, _ => none
  | fuel + 1, cs =>
    let cs := skipBlanks cs
    match readWord (cs.length + 1) [] cs with
    | none => none
    | some (pattern, rest) =>
      match skipBlanks rest with
      | '|' :: rest => (readPatterns fuel rest).map fun (ps, rest) => (pattern :: ps, rest)
      | ')' :: rest => some ([pattern], rest)
      | _ => none

end

/-- Reads a script. -/
def Command.ofText? (text : String) : Option Command :=
  let cs := text.toList
  match readList (8 * cs.length + 8) cs with
  | some (c, rest) => if (skipLines (rest.length + 1) rest).isEmpty then some c else none
  | none => none

end RecordTables.Script
