import RecordTables.Files.Path
import RecordTables.Files.Tree
import RecordTables.Format.Ron.Basic
import RecordTables.Format.Ron.Printer
import RecordTables.Format.Toml.Printer
import RecordTables.Format.Toml.Reader
import RecordTables.Step

/-!
# Data files

Data files are written in one of three notations, which the extension of a file names.  A data file
is looked for by its name without the extension; two files of one name in different notations are a
conflict, because it could not be told which of them counts.
-/

namespace RecordTables

/-! ## Faults -/

/-- Why a data file cannot be used. -/
inductive DataFileError where
  /-- The file system failed, or the file is no text. -/
  | io
  /-- The file does not say what it should. -/
  | malformed (file : Path)
  /-- The file is well formed, but what it says cannot be used. -/
  | invalid (file : Path) (detail : String)
  /-- There is no file of this name in any notation. -/
  | missing (baseName : String)
  /-- The extension names no notation. -/
  | unsupported (file : Path)
  /-- Two files of one name are in different notations. -/
  | conflicting (first second : Path)
  deriving DecidableEq, Repr

/-! ## Notations -/

/-- The notations of data files. -/
inductive DataNotation where
  | ron
  | toml
  | json
  deriving DecidableEq, Repr, Inhabited

namespace DataNotation

/-- Every notation, in the order in which files are looked for. -/
def all : List DataNotation := [ron, toml, json]

/-- The extension of files in a notation. -/
def extension : DataNotation → String
  | ron => "ron"
  | toml => "toml"
  | json => "json"

/-- The name of a notation. -/
def title : DataNotation → String
  | ron => "Ron"
  | toml => "Toml"
  | json => "Json"

/-- The notation of files with an extension. -/
def ofExtension? : String → Option DataNotation
  | "ron" => some ron
  | "toml" => some toml
  | "json" => some json
  | _ => none

/-- The notation of a file. -/
def ofPath (p : Path) : Except DataFileError DataNotation :=
  match p.extension?.bind ofExtension? with
  | some n => .ok n
  | none => .error (.unsupported p)

/-- Reads a text; what it must say is the same in every notation. -/
def read? {α : Type} (format : DataNotation) (read : (δ : Type) → Form δ → δ → Option α)
    (text : String) : Option α :=
  match format with
  | ron => (Ron.ofText? text).bind (read Ron Ron.form)
  | toml => (Toml.ofText? text).bind (read Toml Toml.form)
  | json => (Json.ofText? text).bind (read Json Json.form)

/-- Writes data. -/
def write (format : DataNotation) (x : Node) : String :=
  match format with
  | ron => x.ron
  | toml => x.toml
  | json => x.json.pretty

/-- Reading a formats own extension finds it again. -/
theorem ofExtension?_extension (n : DataNotation) : ofExtension? n.extension = some n := by
  cases n <;> rfl

end DataNotation

/-! ## Files -/

namespace DataFile

variable (files : FileTree)

/-- The file of a name, if there is one: the first found counts unless another one follows. -/
def findAmong (directory : Path) (baseName : String) :
    (found : Option Path) → List DataNotation → Except DataFileError (Option Path)
  | found, [] => .ok found
  | found, n :: rest =>
    let candidate := directory.join (baseName ++ "." ++ n.extension)
    if files.holds candidate then
      match found with
      | some existing => .error (.conflicting existing candidate)
      | none => findAmong directory baseName (some candidate) rest
    else findAmong directory baseName found rest

/-- The file of a name in a directory, in whatever notation. -/
def find (directory : Path) (baseName : String) : Except DataFileError (Option Path) :=
  findAmong files directory baseName none DataNotation.all

/-- The file of a name that must be there. -/
def require (directory : Path) (baseName : String) : Except DataFileError Path :=
  match find files directory baseName with
  | .error e => .error e
  | .ok (some p) => .ok p
  | .ok none => .error (.missing baseName)

/-- The first two neighbours with one stem. -/
def firstConflict? : List Path → Option (Path × Path)
  | p :: q :: rest => if p.stem = q.stem then some (p, q) else firstConflict? (q :: rest)
  | _ => none

/-- The data files of a directory, in the order of their names. -/
def list (directory : Path) : Except DataFileError (List Path) :=
  match files.names? directory with
  | none => .error .io
  | some names =>
    let found := (names.map directory.join).filter fun p =>
      files.hasFile p && (DataNotation.ofPath p).toOption.isSome
    match firstConflict? found with
    | some (p, q) => .error (.conflicting p q)
    | none => .ok found

/-- Reads a file in the notation of its extension. -/
def load {α : Type} (read : (δ : Type) → Form δ → δ → Option α) (p : Path) :
    Except DataFileError α :=
  match DataNotation.ofPath p with
  | .error e => .error e
  | .ok n =>
    match files.readText? p with
    | none => .error .io
    | some text =>
      match n.read? read text with
      | some x => .ok x
      | none => .error (.malformed p)

/-- The text of data in the notation of a file. -/
def render (p : Path) (x : Node) : Except DataFileError String :=
  (DataNotation.ofPath p).map fun n => n.write x

/-- Writes data into a file, and makes the directories it is in. -/
def save (p : Path) (x : Node) : Step FileTree DataFileError Unit := do
  let text ← render p x
  Step.change .io (·.makeDirectories? p.parent)
  Step.change .io (·.write? p (Text.utf8 text))

end DataFile

end RecordTables
