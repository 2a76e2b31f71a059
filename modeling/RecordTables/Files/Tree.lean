import RecordTables.Files.Path
import RecordTables.NameMap
import RecordTables.Text.Utf8

/-!
# Files

A `FileTree` is a file with its bytes, or a directory with its entries in the order of their names.
A change of a tree fails where a file system would refuse it: a parent that is no directory, a
directory in the place of a file, a name that no entry can have.
-/

namespace RecordTables

/-- A file, or a directory with all that is in it. -/
inductive FileTree where
  | file (content : List UInt8)
  | directory (entries : List (String × FileTree))
  deriving Inhabited

namespace FileTree

/-- A directory without entries. -/
def empty : FileTree := directory []

/-- The entries of a directory; a file has none. -/
def entries : FileTree → List (String × FileTree)
  | file _ => []
  | directory entries => entries

/-- Whether it is a directory. -/
def isDirectory : FileTree → Bool
  | file _ => false
  | directory _ => true

/-! ### Looking -/

/-- What stands at some parts, none of which leads back. -/
def descend? : List String → FileTree → Option FileTree
  | [], t => some t
  | name :: rest, t => (t.entries.lookup name).bind (descend? rest)

/-- The parts of a place without the ones that lead back.  Those must follow directories of the
tree. -/
def settle? (t : FileTree) : (done : List String) → List String → Option (List String)
  | done, [] => some done
  | done, name :: rest =>
    if name = ".." then
      if done.isEmpty ∨ !(t.descend? done |>.any isDirectory) then none
      else settle? t done.dropLast rest
    else settle? t (done ++ [name]) rest

/-- The place of a path in a tree. -/
def place? (t : FileTree) : Path → Option (List String)
  | .inside parts => t.settle? [] parts
  | .outside _ => none

/-- What stands at a path. -/
def at? (t : FileTree) (p : Path) : Option FileTree :=
  (t.place? p).bind fun parts => t.descend? parts

/-- Whether anything stands at a path. -/
def holds (t : FileTree) (p : Path) : Bool := (t.at? p).isSome

/-- Whether a directory stands at a path. -/
def hasDirectory (t : FileTree) (p : Path) : Bool := (t.at? p).any isDirectory

/-- Whether a file stands at a path. -/
def hasFile (t : FileTree) (p : Path) : Bool := (t.at? p).any (!isDirectory ·)

/-- The bytes of a file. -/
def read? (t : FileTree) (p : Path) : Option (List UInt8) :=
  match t.at? p with
  | some (file content) => some content
  | _ => none

/-- The text of a file that is well-formed UTF-8. -/
def readText? (t : FileTree) (p : Path) : Option String := (t.read? p).bind Text.ofUtf8?

/-- The names in a directory, in order. -/
def names? (t : FileTree) (p : Path) : Option (List String) :=
  match t.at? p with
  | some (directory entries) => some (entries.map (·.1))
  | _ => none

mutual

/-- The places of all files, with their bytes. -/
def files : FileTree → List (List String × List UInt8)
  | file content => [([], content)]
  | directory entries => filesOf entries

/-- The places of all files in some entries. -/
def filesOf : List (String × FileTree) → List (List String × List UInt8)
  | [] => []
  | e :: rest => e.2.files.map (fun f => (e.1 :: f.1, f.2)) ++ filesOf rest

end

/-! ### Changing -/

/-- Whether an entry can have a name. -/
def isName (name : String) : Bool :=
  !name.isEmpty && name.utf8ByteSize ≤ 255 && !name.toList.contains '\x00'

/-- The entries with something under a name, or with nothing. -/
def setEntry (name : String) (child : Option FileTree) (entries : List (String × FileTree)) :
    List (String × FileTree) :=
  match child with
  | some t => NameMap.insertEntry name t entries
  | none => entries.filter fun e => e.1 != name

/-- Changes what stands at some parts; all but the last must be directories. -/
def changeAt? (change : Option FileTree → Option (Option FileTree)) :
    List String → FileTree → Option FileTree
  | [name], directory entries =>
    if isName name then
      (change (entries.lookup name)).map fun child => directory (setEntry name child entries)
    else none
  | name :: rest, directory entries =>
    match entries.lookup name with
    | some child =>
      (changeAt? change rest child).map fun child => directory (setEntry name (some child) entries)
    | none => none
  | _, _ => none

/-- Changes what stands at a path. -/
def change? (t : FileTree) (p : Path) (change : Option FileTree → Option (Option FileTree)) :
    Option FileTree :=
  (t.place? p).bind fun parts => t.changeAt? change parts

/-- Writes a file, in place of the file that may stand there. -/
def write? (t : FileTree) (p : Path) (content : List UInt8) : Option FileTree :=
  t.change? p fun
    | some (directory _) => none
    | _ => some (some (file content))

/-- Makes the directories of some parts that there are not yet. -/
def makeAt? : List String → FileTree → Option FileTree
  | _, file _ => none
  | [], t => some t
  | name :: rest, directory entries =>
    if isName name then
      (makeAt? rest ((entries.lookup name).getD empty)).map fun child =>
        directory (setEntry name (some child) entries)
    else none

/-- Makes a directory and those it is in. -/
def makeDirectories? (t : FileTree) (p : Path) : Option FileTree :=
  (t.place? p).bind fun parts => t.makeAt? parts

/-- Makes one directory, where nothing stands. -/
def makeDirectory? (t : FileTree) (p : Path) : Option FileTree :=
  t.change? p fun
    | none => some (some empty)
    | some _ => none

/-- Takes a file away. -/
def removeFile? (t : FileTree) (p : Path) : Option FileTree :=
  t.change? p fun
    | some (file _) => some none
    | _ => none

/-- Takes a directory away, with all that is in it. -/
def removeDirectory? (t : FileTree) (p : Path) : Option FileTree :=
  t.change? p fun
    | some (directory _) => some none
    | _ => none

/-- Moves a file, in place of the file that may stand at the target. -/
def moveFile? (t : FileTree) (source target : Path) : Option FileTree := do
  let content ← t.read? source
  if t.place? source = t.place? target then return t
  (← t.removeFile? source).write? target content

/-- Writes a file and makes the directories it is in. -/
def writeDeep? (t : FileTree) (p : Path) (content : List UInt8) : Option FileTree := do
  (← t.makeDirectories? p.parent).write? p content

end FileTree

end RecordTables
