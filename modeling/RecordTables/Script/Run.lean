import RecordTables.Script.Arithmetic
import RecordTables.Script.Field
import RecordTables.Script.Reader
import RecordTables.Script.Special

/-!
# Running scripts

The words of a command are expanded, its redirections are opened, and then it is run.  A run that
takes more steps than its fuel allows is endless.
-/

namespace RecordTables.Script

/-- Ends a strict script if a command failed and nobody looks at that. -/
def settleStatus (w : Wiring) (status : Nat) : Run Nat := do
  modify fun m => { m with status }
  if status ≠ 0 ∧ !w.tested ∧ (← get).strict then throw (.exited status)
  return status

mutual

/-- Puts a word into fields. -/
def expand (setting : Setting) (w : Wiring) : (fuel : Nat) → Word → Fields → Run Fields
  | 0, _, _ => throw .late
  | _ + 1, [], f => pure f
  | fuel + 1, piece :: rest, f => do
    match piece with
    | .literal s quoted => expand setting w fuel rest (f.add s quoted)
    | .parameter name operator operand quoted =>
      let m ← get
      if name = "@" ∧ quoted then expand setting w fuel rest (f.addEach m.args)
      else
        let s ← parameterText setting w fuel name operator operand
        expand setting w fuel rest (f.addValue s quoted)
    | .output script quoted =>
      let s ← outputText setting w fuel script
      expand setting w fuel rest (f.addValue s quoted)
    | .arithmetic expression quoted =>
      let s ← arithmeticText setting w fuel expression
      expand setting w fuel rest (f.addValue s quoted)

/-- The value of a parameter under its operator. -/
def parameterText (setting : Setting) (w : Wiring) (fuel : Nat) (name operator operand : String) :
    Run String :=
  match fuel with
  | 0 => throw .late
  | fuel + 1 => do
    let found := value? setting (← get) name
    let value := found.getD ""
    let other : Run String := do
      match wordOfText? operand with
      | some word => return (← expand setting w fuel word .none).text
      | none => return operand
    match operator with
    | "length" => return toString value.length
    | ":-" => if value.isEmpty then other else return value
    | "-" => if found.isNone then other else return value
    | ":+" => if value.isEmpty then return "" else other
    | "+" => if found.isNone then return "" else other
    | "##" => return dropBeginning true (← other) value
    | "#" => return dropBeginning false (← other) value
    | "%%" => return dropEnding true (← other) value
    | "%" => return dropEnding false (← other) value
    | _ => return value

/-- The value of an arithmetic expression; one that cannot be read ends the script. -/
def arithmeticText (setting : Setting) (w : Wiring) (fuel : Nat) (expression : String) :
    Run String :=
  match fuel with
  | 0 => throw .late
  | fuel + 1 => do
    let text ← match wordOfText? expression with
      | some word => pure (← expand setting w fuel word .none).text
      | none => pure expression
    let m ← get
    let number (name : String) : Int := (((value? setting m name).bind (·.toInt?)).getD 0)
    match Arithmetic.value? number text with
    | some n => return toString n
    | none =>
      write w.errors (Text.utf8
        (setting.name ++ ": 1: arithmetic expression: expecting primary: \"" ++ text ++ "\"\n"))
      throw (.exited 2)

/-- What a script writes, without the line ends behind it. -/
def outputText (setting : Setting) (w : Wiring) (fuel : Nat) (script : String) : Run String :=
  match fuel with
  | 0 => throw .late
  | fuel + 1 => do
    match Command.ofText? script with
    | none => return ""
    | some c =>
      let (status, bytes) ← collecting fun s =>
        enclosed (execute setting { w with output := s } fuel c)
      modify fun m => { m with status }
      return withoutLineEnds (Text.ofUtf8Lossy bytes)

/-- The fields of some words. -/
def expandAll (setting : Setting) (w : Wiring) : (fuel : Nat) → List Word → Run (List Field)
  | 0, _ => throw .late
  | _ + 1, [] => pure []
  | fuel + 1, word :: rest => do
    let f ← expand setting w fuel word .none
    return f.toList ++ (← expandAll setting w fuel rest)

/-- Gives variables their values. -/
def assignAll (setting : Setting) (w : Wiring) :
    (fuel : Nat) → List (String × Word) → Run Unit
  | 0, _ => throw .late
  | _ + 1, [] => pure ()
  | fuel + 1, (name, word) :: rest => do
    let value := (← expand setting w fuel (word.map Piece.guarded) .none).text
    modify fun m => { m with named := m.named.insert name value }
    assignAll setting w fuel rest

/-- Opens redirections from left to right; `none` if one cannot be opened. -/
def redirectAll (setting : Setting) (fuel : Nat) (w : Wiring) (redirections : List Redirection) :
    Run (Option Wiring) :=
  match fuel, redirections with
  | 0, _ => throw .late
  | _ + 1, [] => pure (some w)
  | fuel + 1, r :: rest => do
    let target := (← expand setting w fuel (r.target.map Piece.guarded) .none).text
    match ← redirect w r.descriptor r.direction target with
    | some w => redirectAll setting fuel w rest
    | none =>
      let what := if r.direction = .read then "cannot open " else "cannot create "
      let why := if r.direction = .read then ": No such file" else ": Directory nonexistent"
      write w.errors (Text.utf8 (setting.name ++ ": 1: " ++ what ++ target ++ why ++ "\n"))
      return none

/-- Runs a command for one word after the other. -/
def executeEach (setting : Setting) (w : Wiring) (name : String) (body : Command) :
    (fuel : Nat) → List String → Run Nat
  | 0, _ => throw .late
  | _ + 1, [] => return (← get).status
  | fuel + 1, s :: rest => do
    modify fun m => { m with named := m.named.insert name s }
    let _ ← execute setting w fuel body
    executeEach setting w name body fuel rest

/-- Runs the command of the first arm with a pattern that a text matches. -/
def executeArm (setting : Setting) (w : Wiring) (s : String) :
    (fuel : Nat) → List (List Word × Command) → Run Nat
  | 0, _ => throw .late
  | _ + 1, [] => return 0
  | fuel + 1, (patterns, c) :: rest => do
    let patterns ← expandAll setting w fuel patterns
    if patterns.any fun p => hasPattern p.pattern s then execute setting w fuel c
    else executeArm setting w s fuel rest

/-- Runs a script as a part of this one. -/
def executeText (setting : Setting) (w : Wiring) (fuel : Nat) (script : String) : Run Nat :=
  match fuel with
  | 0 => throw .late
  | fuel + 1 =>
    match Command.ofText? script with
    | some c => execute setting w fuel c
    | none => do
      write w.errors (Text.utf8 (setting.name ++ ": 1: Syntax error\n"))
      throw (.exited 2)

/-- Runs the fields of a command: a utility, or a command that is made of the arguments. -/
def runFields (setting : Setting) (w : Wiring) (fuel : Nat) (name : String) (args : List String) :
    Run Nat :=
  match fuel with
  | 0 => throw .late
  | fuel + 1 => do
    match name, args with
    | "eval", _ => executeText setting w fuel (" ".intercalate args)
    | "exec", name :: args => throw (.exited (← runFields setting w fuel name args))
    | "sh", _ =>
      match ShellCall.ofArgs (← get) args with
      | .ok call =>
        enclosed do
          modify fun m => { m with args := call.args, strict := call.strict }
          executeText { setting with name := call.name } w fuel call.script
      | .error message =>
        write w.errors (Text.utf8 ("sh: 0: " ++ message ++ "\n"))
        return 2
    | _, _ => runUtility setting w name args

/-- Runs a simple command with its fields. -/
def runSimple (setting : Setting) (w : Wiring) (fuel : Nat) (values : List (String × Word))
    (fields : List String) : Run Nat :=
  match fuel with
  | 0 => throw .late
  | fuel + 1 => do
    modify fun m => if fields.isEmpty then { m with status := 0 } else m
    assignAll setting w fuel values
    match fields with
    | [] => settleStatus w (← get).status
    | name :: args => settleStatus w (← runFields setting w fuel name args)

/-- Runs a command; the answer is its status. -/
def execute (setting : Setting) (w : Wiring) : (fuel : Nat) → Command → Run Nat
  | 0, _ => throw .late
  | fuel + 1, c => do
    let looked : Wiring := { w with tested := true }
    match c with
    | .simple values words =>
      let fields ← expandAll setting w fuel words
      runSimple setting w fuel values (fields.flatMap (Field.names (← get)))
    | .redirected (.simple values words) rs =>
      let fields ← expandAll setting w fuel words
      let fields := fields.flatMap (Field.names (← get))
      match ← redirectAll setting fuel w rs with
      | some w => runSimple setting w fuel values fields
      | none => settleStatus w 2
    | .redirected c rs =>
      match ← redirectAll setting fuel w rs with
      | some w => execute setting w fuel c
      | none => settleStatus w 2
    | .sequence first second =>
      let _ ← execute setting w fuel first
      execute setting w fuel second
    | .both first second =>
      let status ← execute setting looked fuel first
      if status = 0 then execute setting w fuel second else return status
    | .either first second =>
      let status ← execute setting looked fuel first
      if status = 0 then return 0 else execute setting w fuel second
    | .negated c =>
      let status ← execute setting looked fuel c
      let status := if status = 0 then 1 else 0
      modify fun m => { m with status }
      return status
    | .piped first second =>
      let (_, bytes) ← collecting fun s =>
        enclosed (execute setting { looked with output := s } fuel first)
      let status ← enclosed (execute setting { looked with input := bytes } fuel second)
      settleStatus w status
    | .enclosed c =>
      let status ← enclosed (execute setting w fuel c)
      settleStatus w status
    | .background c =>
      let start := (← get).elapsed
      let _ ← enclosed (execute { setting with timeout := start + 1000000000 } looked fuel c)
      modify fun m => { m with elapsed := start, status := 0 }
      return 0
    | .branch condition yes no =>
      if (← execute setting looked fuel condition) = 0 then execute setting w fuel yes
      else
        modify fun m => { m with status := 0 }
        execute setting w fuel no
    | .loop whileHolds condition body =>
      let status ← execute setting looked fuel condition
      if (status = 0) = whileHolds then
        let _ ← execute setting w fuel body
        execute setting w fuel c
      else
        modify fun m => { m with status := 0 }
        return 0
    | .each name words body =>
      let fields ← match words with
        | some words =>
          let fields ← expandAll setting w fuel words
          pure (fields.flatMap (Field.names (← get)))
        | none => pure (← get).args
      modify fun m => { m with status := 0 }
      executeEach setting w name body fuel fields
    | .choice word arms =>
      let text := (← expand setting w fuel (word.map Piece.guarded) .none).text
      executeArm setting w text fuel arms

end

/-- How a script ended, what it wrote, and the files behind it. -/
structure Result where
  /-- The status, unless the script ended in another way. -/
  ending : Ending
  output : List UInt8
  errors : List UInt8
  files : FileTree

/-- The programs that can be run. -/
def isProgram (name : String) : Bool := name = "sh" || name = "sleep" || (utility? name).isSome

/-- The result of a program that is run with arguments and may take some milliseconds. -/
def Result.ofProgram (timeout : Nat) (name : String) (args : List String) (files : FileTree) :
    Result :=
  let setting : Setting := ⟨name, timeout⟩
  let m : Machine := ⟨files, .outside "/", [[], []], .empty, [], 0, 0, false⟩
  let w : Wiring := ⟨[], .collected 0, .collected 1, false⟩
  let step : Run Nat := do
    pass setting 0
    runFields setting w 20000 name args
  let (outcome, m) := step m
  let ending := match outcome with
    | .ok status => .exited status
    | .error e => e
  ⟨ending, (m.collected[0]?).getD [], (m.collected[1]?).getD [], m.files⟩

end RecordTables.Script
