import RecordTables.Text.Split

/-!
# Paths

A path leads to a place below the project directory, or to a place elsewhere that is known by its
absolute text only.  Blank parts and single dots of a path say nothing and are left out.
-/

namespace RecordTables

/-- A path. -/
inductive Path where
  /-- Below the project directory, by its parts. -/
  | inside (parts : List String)
  /-- Elsewhere, by its text. -/
  | outside (text : String)
  deriving DecidableEq, Repr, Inhabited

namespace Path

/-- The parts of a text between its slashes. -/
def partsOf (text : String) : List String :=
  ((Text.splitOn '/' text.toList).map String.ofList).filter fun part => part ≠ "" ∧ part ≠ "."

/-- The project directory. -/
def root : Path := inside []

/-- Whether a text is an absolute path. -/
def isAbsolute (text : String) : Bool := text.toList.head? = some '/'

/-- The path that a text leads to from another path. -/
def join (p : Path) (text : String) : Path :=
  if isAbsolute text then outside text
  else
    match p with
    | inside parts => inside (parts ++ partsOf text)
    | outside stem => outside ("/".intercalate (stem :: partsOf text))

/-- The path that a text leads to from the project directory. -/
def ofText (text : String) : Path := root.join text

/-- The parts of a path. -/
def parts : Path → List String
  | inside parts => parts
  | outside text => partsOf text

/-- The last part of a path, unless it leads back. -/
def name (p : Path) : String :=
  match p.parts.getLast? with
  | some name => if name = ".." then "" else name
  | none => ""

/-- The path with another last part. -/
def withName (p : Path) (name : String) : Path :=
  match p with
  | inside parts => inside (parts.dropLast ++ [name])
  | outside text => outside ("/" ++ "/".intercalate ((partsOf text).dropLast ++ [name]))

/-- The directory that a path is in. -/
def parent : Path → Path
  | inside parts => inside parts.dropLast
  | outside text => outside ("/" ++ "/".intercalate (partsOf text).dropLast)

/-- How a path is shown; the project directory is `<root>`. -/
def text : Path → String
  | inside parts => "<root>/" ++ "/".intercalate parts
  | outside text => text

/-- A name split at its last dot: the stem and the extension.  A name has no extension if nothing
comes before the dot. -/
def splitName (name : String) : String × Option String :=
  let tail := name.toList.reverse.takeWhile (· ≠ '.')
  match name.toList.reverse.dropWhile (· ≠ '.') with
  | _ :: stem =>
    if stem.isEmpty then (name, none)
    else (String.ofList stem.reverse, some (String.ofList tail.reverse))
  | [] => (name, none)

/-- The last part without its extension. -/
def stem (p : Path) : String := (splitName p.name).1

/-- The extension of the last part. -/
def extension? (p : Path) : Option String := (splitName p.name).2

end Path

end RecordTables
