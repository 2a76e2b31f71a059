import RecordTables.DataFile
import RecordTables.Exchange.Container
import RecordTables.Files.Tree

/-!
# Files in exchange

A set of files is told as an object from names to texts; a name that ends in a slash is a directory
without entries.  What happened to files is told by those that are new, changed or gone.
-/

namespace RecordTables

/-- A fault of a data file.  Files are told by their names alone. -/
def DataFileError.toJson (e : DataFileError) : Json :=
  let about (kind : String) (p : Path) : List (String × Json) :=
    [("error", .text kind), ("file", .text p.name)]
  match e with
  | io => .faultKind "Io"
  | malformed file => .object (about "Parse" file)
  | invalid file detail => .object (about "Invalid" file ++ [("detail", .text detail)])
  | missing baseName => .object [("error", .text "MissingRequired"), ("file", .text baseName)]
  | unsupported file => .object (about "UnsupportedFormat" file)
  | conflicting first second => .object [("error", .text "ConflictingFormats"),
      ("files", .texts [first.name, second.name])]

namespace FileTree

/-- Puts a text into a file, or makes a directory if the name ends in a slash. -/
def putText? (files : FileTree) (name text : String) : Option FileTree :=
  if name.toList.getLast? = some '/' then files.makeDirectories? (.ofText name)
  else files.writeDeep? (.ofText name) (Text.utf8 text)

/-- Takes away whatever stands at a name. -/
def remove? (files : FileTree) (name : String) : Option FileTree :=
  (files.removeFile? (.ofText name)).or (files.removeDirectory? (.ofText name))

/-- The files of an object from names to texts. -/
def ofJson? (v : Json) : Option FileTree := do
  let texts ← Json.mapOf? Json.text? v
  texts.entries.foldlM (fun files e => files.putText? e.1 e.2) empty

/-- The name of the files that hold a container. -/
def containerName : String := "params.bin"

/-- The content of a file: a container by its parts, and any other bytes as text. -/
def contentToJson (name : String) (content : List UInt8) : Json :=
  match if name = containerName then Container.unpack? content else none with
  | some c => c.toJson
  | none => .text (Text.ofUtf8Lossy content)

/-- The files of a tree by their names. -/
def byName (files : FileTree) : NameMap (List UInt8) :=
  .ofList (files.files.map fun f => ("/".intercalate f.1, f.2))

/-- The files that are new, changed or gone. -/
def changesToJson (before after : FileTree) : Json :=
  let old := before.byName
  let new := after.byName
  let written := new.entries.filterMap fun e =>
    if old.find? e.1 = some e.2 then none
    else some (e.1, contentToJson (Path.ofText e.1).name e.2)
  let gone := old.entries.filterMap fun e =>
    if new.contains e.1 then none else some (e.1, Json.null)
  .object (written ++ gone)

end FileTree

end RecordTables
