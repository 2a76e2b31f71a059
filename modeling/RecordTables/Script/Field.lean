import RecordTables.Script.Expression
import RecordTables.Script.Machine
import RecordTables.Script.Request
import RecordTables.Text.Split

/-!
# Fields of command lines

The words of a command become fields: a value that is not in quotes is cut at its blanks, and a
field with stars and question marks that are not in quotes stands for the files of such names.
-/

namespace RecordTables.Script

/-- A field of a command line. -/
structure Field where
  text : String
  /-- The text as a pattern, in which what was in quotes stands for itself. -/
  pattern : String

/-- A field without characters. -/
def Field.empty : Field := ⟨"", ""⟩

/-- A field with more behind it. -/
def Field.add (f : Field) (s : String) (quoted : Bool) : Field :=
  ⟨f.text ++ s, f.pattern ++ if quoted then guardedPattern s else s⟩

/-- Fields of a command line under construction: those that are done, last first, and the open one.
-/
structure Fields where
  done : List Field
  current : Option Field

/-- No fields. -/
def Fields.none : Fields := ⟨[], Option.none⟩

/-- Puts characters into the open field. -/
def Fields.add (f : Fields) (s : String) (quoted : Bool) : Fields :=
  { f with current := some ((f.current.getD .empty).add s quoted) }

/-- Closes the open field. -/
def Fields.close (f : Fields) : Fields :=
  match f.current with
  | some s => ⟨s :: f.done, Option.none⟩
  | Option.none => f

/-- Puts a text into the fields, which is cut at its blanks unless it is in quotes. -/
def Fields.addValue (f : Fields) (s : String) (quoted : Bool) : Fields :=
  if quoted then f.add s true
  else
    s.toList.foldl (fun f c =>
      if c = ' ' ∨ c = '\t' ∨ c = '\n' then f.close else f.add c.toString false) f

/-- Puts texts in quotes into fields of their own. -/
def Fields.addEach (f : Fields) : List String → Fields
  | [] => f
  | [s] => f.add s true
  | s :: rest => (f.add s true).close.addEach rest

/-- All fields, in order. -/
def Fields.toList (f : Fields) : List Field := f.close.done.reverse

/-- The texts of all fields in one, set apart by blanks. -/
def Fields.text (f : Fields) : String := " ".intercalate (f.toList.map (·.text))

/-- The names of files that match a pattern, by the parts of the pattern behind the beginnings in
`found`. -/
def matchingNames (m : Machine) : (parts : List String) → (found : List String) → List String
  | [], found => found.filter fun name => m.files.holds (pathOf m.directory name)
  | part :: rest, found =>
    let step := if rest.isEmpty then "" else "/"
    matchingNames m rest (found.flatMap fun beginning =>
      if isWild part.toList then
        let names := (m.files.names? (pathOf m.directory beginning)).getD []
        let shown (name : String) : Bool :=
          name.toList.head? ≠ some '.' || part.toList.head? = some '.'
        (names.filter fun name => hasPattern part name && shown name).map (beginning ++ · ++ step)
      else [beginning ++ String.ofList (plainText part.toList) ++ step])

/-- The texts that a field stands for: the names of the files that match it, or its own text. -/
def Field.names (m : Machine) (f : Field) : List String :=
  if isWild f.pattern.toList then
    let found := matchingNames m ((Text.splitOn '/' f.pattern.toList).map String.ofList) [""]
    if found.isEmpty then [f.text] else found
  else [f.text]

end RecordTables.Script
