/-!
# Commands of scripts

Schema compilers are often small scripts in the shell command language.  A script is a `Command`;
its words are made of pieces that are put together when the command is run.
-/

namespace RecordTables.Script

/-- A piece of a word.  What a piece in quotes stands for is not cut at blanks. -/
inductive Piece where
  /-- Characters that stand for themselves. -/
  | literal (s : String) (quoted : Bool)
  /-- The value of a parameter, changed by an operator with an operand if there is one. -/
  | parameter (name operator operand : String) (quoted : Bool)
  /-- What a script writes. -/
  | output (script : String) (quoted : Bool)
  /-- The value of an arithmetic expression. -/
  | arithmetic (expression : String) (quoted : Bool)
  deriving DecidableEq, Repr, Inhabited

/-- A piece in quotes. -/
def Piece.guarded : Piece → Piece
  | literal s _ => literal s true
  | parameter name operator operand _ => parameter name operator operand true
  | output script _ => output script true
  | arithmetic expression _ => arithmetic expression true

/-- A word. -/
abbrev Word := List Piece

/-- Where a redirection leads. -/
inductive Direction where
  | read
  | write
  | append
  /-- To where another descriptor leads. -/
  | duplicate
  /-- From the text that stands in the script itself. -/
  | here
  deriving DecidableEq, Repr, Inhabited

/-- A redirection of a descriptor. -/
structure Redirection where
  descriptor : Nat
  direction : Direction
  target : Word
  deriving DecidableEq, Repr, Inhabited

/-- A command. -/
inductive Command where
  /-- Values for variables, and a utility with its arguments. -/
  | simple (values : List (String × Word)) (words : List Word)
  | redirected (c : Command) (redirections : List Redirection)
  /-- One command after the other. -/
  | sequence (first second : Command)
  /-- The second command if the first succeeds. -/
  | both (first second : Command)
  /-- The second command if the first fails. -/
  | either (first second : Command)
  | negated (c : Command)
  /-- The second command reads what the first one writes. -/
  | piped (first second : Command)
  /-- A command that leaves variables as they are. -/
  | enclosed (c : Command)
  /-- A command that is not waited for. -/
  | background (c : Command)
  | branch (condition yes no : Command)
  /-- A command again and again, while the condition holds or fails. -/
  | loop (whileHolds : Bool) (condition body : Command)
  /-- A command for each of some words; without words, for each argument. -/
  | each (name : String) (words : Option (List Word)) (body : Command)
  /-- The command of the first pattern that a word matches. -/
  | choice (word : Word) (arms : List (List Word × Command))
  deriving Inhabited

/-- The command that does nothing. -/
def Command.nothing : Command := simple [] []

/-- The command of a utility and its arguments, which stand for themselves. -/
def Command.ofFields (fields : List String) : Command :=
  simple [] (fields.map fun s => [.literal s true])

end RecordTables.Script
