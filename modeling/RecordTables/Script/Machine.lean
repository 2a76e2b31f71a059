import RecordTables.Files.Tree
import RecordTables.NameMap
import RecordTables.Step

/-!
# Machines that run scripts

A script runs on a `Machine`: the files, what was written so far, and the values of variables.  Time
passes only in `sleep`.  A run ends with an exit status, or because the script killed itself, or
because it takes longer than it may.
-/

namespace RecordTables.Script

/-- Where a descriptor leads. -/
inductive Sink where
  /-- Into the bytes that are collected under a number. -/
  | collected (number : Nat)
  | file (path : Path)
  | discarded
  deriving DecidableEq, Repr, Inhabited

/-- The state of a run. -/
structure Machine where
  files : FileTree
  directory : Path
  /-- The bytes collected, by their numbers; zero is the output and one are the errors. -/
  collected : List (List UInt8)
  /-- The values of variables, by their names. -/
  named : NameMap String
  args : List String
  status : Nat
  /-- How long the run has taken, in milliseconds. -/
  elapsed : Nat
  /-- Whether a command that fails ends the script. -/
  strict : Bool

/-- Why a run ends before its last command. -/
inductive Ending where
  | exited (status : Nat)
  | killed
  /-- The run takes longer than it may, or forever. -/
  | late
  deriving DecidableEq, Repr

/-- What does not change in a run. -/
structure Setting where
  /-- The name of the script. -/
  name : String
  /-- How long the run may take, in milliseconds. -/
  timeout : Nat

/-- Where a command reads and writes. -/
structure Wiring where
  input : List UInt8
  output : Sink
  errors : Sink
  /-- Whether it is looked at if the command fails. -/
  tested : Bool

/-- A step of a run. -/
abbrev Run (α : Type) := Step Machine Ending α

/-! ### Writing -/

/-- Writes bytes to where a descriptor leads. -/
def write (s : Sink) (bytes : List UInt8) : Run Unit :=
  if bytes.isEmpty then pure ()
  else
    modify fun m =>
      match s with
      | .collected n => { m with collected := m.collected.modify n (· ++ bytes) }
      | .file p =>
        { m with files := (m.files.write? p ((m.files.read? p).getD [] ++ bytes)).getD m.files }
      | .discarded => m

/-- Runs a step whose output is collected apart, and tells the output too. -/
def collecting {α : Type} (step : Sink → Run α) : Run (α × List UInt8) := do
  let n := (← get).collected.length
  modify fun m => { m with collected := m.collected ++ [[]] }
  let answer ← step (.collected n)
  let bytes := ((← get).collected[n]?).getD []
  modify fun m => { m with collected := m.collected.take n }
  return (answer, bytes)

/-- Runs a step that leaves variables and the directory as they are; the end of a script in it is
the end of the step. -/
def enclosed (step : Run Nat) : Run Nat := do
  let before ← get
  let status ← tryCatch step fun
    | .exited status => pure status
    | e => throw e
  modify fun m => { m with
    named := before.named, directory := before.directory, args := before.args,
    strict := before.strict }
  return status

/-- Lets time pass. -/
def pass (setting : Setting) (ms : Nat) : Run Unit := do
  modify fun m => { m with elapsed := m.elapsed + ms }
  if setting.timeout ≤ (← get).elapsed then throw .late

/-! ### Parameters -/

/-- The value of a parameter, if it has one. -/
def value? (setting : Setting) (m : Machine) (name : String) : Option String :=
  match name with
  | "#" => some (toString m.args.length)
  | "?" => some (toString m.status)
  | "$" => some "4242"
  | "0" => some setting.name
  | "@" | "*" => some (" ".intercalate m.args)
  | "-" | "!" => some ""
  | _ =>
    match name.toNat? with
    | some i => m.args[i - 1]?
    | none => m.named.find? name

/-- A text without the line ends behind it. -/
def withoutLineEnds (s : String) : String :=
  String.ofList (s.toList.reverse.dropWhile (· = '\n')).reverse

end RecordTables.Script
