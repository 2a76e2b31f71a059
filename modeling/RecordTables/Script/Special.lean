import RecordTables.Number.Numeral
import RecordTables.Script.Command
import RecordTables.Script.Machine
import RecordTables.Script.Utility

/-!
# Utilities that belong to the script

Some utilities change how the script goes on: its variables, its arguments, its directory, or its
end.  Redirections change where a command reads and writes.
-/

namespace RecordTables.Script

/-- The milliseconds of a number of seconds with a fraction if need be. -/
def milliseconds? (text : String) : Option Nat :=
  let cs := text.toList
  let whole := cs.takeWhile Char.isDigit
  let fraction := match cs.dropWhile Char.isDigit with
    | '.' :: digits => digits
    | _ => []
  let cut := (fraction ++ ['0', '0', '0']).take 3
  (Number.natOfDigits? (whole ++ cut))

/-- Runs a utility that changes how the script goes on; `none` if there is none of the name. -/
def special? (setting : Setting) (w : Wiring) (name : String) (args : List String) :
    Option (Run Nat) :=
  match name with
  | "exit" | "return" => some do
    match args.head? with
    | none => throw (.exited (← get).status)
    | some text =>
      match text.toNat? with
      | some n => throw (.exited (n % 256))
      | none =>
        write w.errors (Text.utf8 (setting.name ++ ": 1: exit: Illegal number: " ++ text ++ "\n"))
        throw (.exited 2)
  | "sleep" => some do
    match args.head?.bind milliseconds? with
    | some ms =>
      pass setting ms
      return 0
    | none => return 1
  | "kill" => some (if args.contains "-0" ∨ !args.contains "4242" then pure 0 else throw .killed)
  | "set" => some do
    for arg in args do
      if arg.toList.head? = some '-' ∧ arg.toList.contains 'e' then
        modify fun m => { m with strict := true }
      if arg.toList.head? = some '+' ∧ arg.toList.contains 'e' then
        modify fun m => { m with strict := false }
    if args.head? = some "--" then modify fun m => { m with args := args.tail }
    return 0
  | "shift" => some do
    let n := (args.head?.bind (·.toNat?)).getD 1
    modify fun m => { m with args := m.args.drop n }
    return 0
  | "export" | "readonly" | "local" => some do
    for arg in args do
      let key := arg.toList.takeWhile (· ≠ '=')
      match arg.toList.dropWhile (· ≠ '=') with
      | _ :: v => modify fun m =>
        { m with named := m.named.insert (String.ofList key) (String.ofList v) }
      | [] => pure ()
    return 0
  | "unset" => some do
    modify fun m => { m with named := args.foldl NameMap.erase m.named }
    return 0
  | "cd" => some do
    let m ← get
    let target := args.head?.getD ""
    let p := pathOf m.directory target
    if m.files.hasDirectory p then
      set { m with directory := p }
      return 0
    write w.errors (Text.utf8 (setting.name ++ ": 1: cd: can't cd to " ++ target ++ "\n"))
    return 2
  | "pwd" => some do
    write w.output (Text.utf8 ((← get).directory.text ++ "\n"))
    return 0
  | _ => none

/-- Runs a utility by its name. -/
def runUtility (setting : Setting) (w : Wiring) (name : String) (args : List String) : Run Nat := do
  match special? setting w name args, utility? name with
  | some run, _ => run
  | none, some utility =>
    let m ← get
    let reply := utility ⟨m.directory, args, w.input, m.files⟩
    set { m with files := reply.files }
    write w.output reply.output
    write w.errors reply.errors
    return reply.status
  | none, none =>
    write w.errors (Text.utf8 (setting.name ++ ": 1: " ++ name ++ ": not found\n"))
    return 127

/-- A call of the shell. -/
structure ShellCall where
  /-- Whether a command that fails ends the script. -/
  strict : Bool
  name : String
  script : String
  args : List String

/-- The letters of options, and the arguments behind them. -/
def splitOptions : List String → List Char × List String
  | [] => ([], [])
  | arg :: rest =>
    match arg.toList with
    | '-' :: letter :: letters =>
      let (more, rest) := splitOptions rest
      (letter :: letters ++ more, rest)
    | _ => ([], arg :: rest)

/-- The call of the shell with some arguments: the script stands behind the options, or in the file
that is named there.  Otherwise the answer is a message. -/
def ShellCall.ofArgs (m : Machine) (args : List String) : Except String ShellCall :=
  let (letters, args) := splitOptions args
  let strict := letters.contains 'e'
  match letters.contains 'c', args with
  | true, [] => .error "-c requires an argument"
  | true, script :: rest => .ok ⟨strict, rest.head?.getD "sh", script, rest.tail⟩
  | false, [] => .ok ⟨strict, "sh", "", []⟩
  | false, file :: rest =>
    match m.files.readText? (pathOf m.directory file) with
    | some script => .ok ⟨strict, file, script, rest⟩
    | none => .error ("cannot open " ++ file ++ ": No such file")

/-! ### Redirections -/

/-- Opens the target of a redirection; `none` if that is not possible. -/
def redirect (w : Wiring) (descriptor : Nat) (direction : Direction) (target : String) :
    Run (Option Wiring) := do
  let m ← get
  let p := pathOf m.directory target
  let wired (s : Sink) : Wiring :=
    if descriptor = 2 then { w with errors := s } else { w with output := s }
  match direction with
  | .duplicate =>
    return some (match target with
      | "1" => wired w.output
      | "2" => wired w.errors
      | _ => wired .discarded)
  | .here => return some { w with input := Text.utf8 target }
  | .read =>
    if target = "/dev/null" then return some { w with input := [] }
    return (m.files.read? p).map fun bytes => { w with input := bytes }
  | _ =>
    match target with
    | "/dev/null" => return some (wired .discarded)
    | "/dev/stdout" => return some (wired w.output)
    | "/dev/stderr" => return some (wired w.errors)
    | _ =>
      let old := if direction = .append then (m.files.read? p).getD [] else []
      match m.files.write? p old with
      | some files =>
        set { m with files }
        return some (wired (.file p))
      | none => return none

end RecordTables.Script
