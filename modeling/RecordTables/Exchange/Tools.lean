import RecordTables.Exchange.Packing
import RecordTables.Project.Basic
import RecordTables.Script.Run

/-!
# The tools at hand

Containers are packed as they are exchanged.  A program is a script for the shell, or one of the
utilities that scripts use; no other program is at hand.
-/

namespace RecordTables

namespace Program

/-- The name of a program that is found by its name, or stands where programs stand. -/
def name? : Program → Option String
  | named name => some name
  | file (.outside text) =>
    (["/bin/", "/usr/bin/"].find? fun place => place.toList.isPrefixOf text.toList).map fun place =>
      String.ofList (text.toList.drop place.length)
  | file (.inside _) => none

/-- Runs a program, if it is at hand. -/
def run? (p : Program) (args : List String) (seconds : Nat) (files : FileTree) :
    Option ProgramResult :=
  (p.name?.filter Script.isProgram).map fun name =>
    let r := Script.Result.ofProgram (seconds * 1000) name args files
    let ending : ProgramEnding := match r.ending with
      | .exited status => .exited status
      | .killed => .killed
      | .late => .late
    ⟨ending, r.output, r.errors, r.files⟩

end Program

/-- The tools at hand. -/
def Tools.atHand : Tools := ⟨.plain, Program.run?⟩

end RecordTables
