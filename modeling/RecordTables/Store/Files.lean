import RecordTables.Files.Tree
import RecordTables.Store.Basic
import RecordTables.Store.RecordFile

/-!
# Stores in files

A store in files keeps every record in a file of its own, named for its identifier, in the record's
directory below the root of the store; the records of a type are those below the directory of the
type's name.  The store remembers where it has seen a record last, and looks through the files of
the type when the record is no longer there.
-/

namespace RecordTables

/-- The files of a project, and what a store in them remembers. -/
structure FileStore where
  files : FileTree
  /-- Where the records of a type and a GUID were seen last, the latest first. -/
  seen : List ((String × Guid) × Path)
  deriving Inhabited

namespace FileStore

/-- A step of a store in files. -/
abbrev Run (α : Type) := Step FileStore StoreError α

/-- Files of which a store has not seen anything yet. -/
def ofFiles (files : FileTree) : FileStore := ⟨files, []⟩

/-- Remembers where a record is. -/
def remember (recordType : String) (guid : Guid) (p : Path) : Run Unit :=
  modify fun s => { s with seen := ((recordType, guid), p) :: s.seen }

/-- Forgets where a record was. -/
def forget (recordType : String) (guid : Guid) : Run Unit :=
  modify fun s => { s with seen := s.seen.filter fun e => e.1 != (recordType, guid) }

/-- Changes the files. -/
def change (f : FileTree → Option FileTree) : Run Unit :=
  Step.change .io fun s => (f s.files).map fun files => { s with files }

/-- Whether an identifier could lead out of its directory. -/
def isUnsafe (identifier : String) : Bool :=
  let cs := identifier.toList
  let rec hasDots : List Char → Bool
    | '.' :: '.' :: _ => true
    | _ :: rest => hasDots rest
    | [] => false
  cs.isEmpty || cs.contains '/' || cs.contains '\\' || hasDots cs || cs = ['.']

/-- The extension of the files of records. -/
def recordExtension : String := "ron"

/-- The file for an identifier in a directory. -/
def fileFor (root : Path) (directory identifier : String) : Except StoreError Path :=
  if isUnsafe identifier then .error (.unsafeIdentifier identifier)
  else .ok ((root.join directory).join (identifier ++ "." ++ recordExtension))

/-- The directory of a file, as it is told from the root. -/
def directoryOf (root p : Path) : String :=
  if root.parts.isPrefixOf p.parent.parts then
    "/".intercalate (p.parent.parts.drop root.parts.length)
  else ""

/-- Reads the record of a file.  The file must be named for the record. -/
def readRecord (root p : Path) (files : FileTree) : Except StoreError Record :=
  match files.readText? p with
  | none => .error .io
  | some text =>
    match (Ron.ofText? text).bind Record.ofRon? with
    | none => .error .malformed
    | some r =>
      if r.identifier = p.stem then .ok { r with directory := directoryOf root p }
      else .error .malformed

/-- Writes a record into a file. -/
def writeRecord (p : Path) (r : Record) : Run Unit := do
  change (·.makeDirectories? p.parent)
  change (·.write? p (Text.utf8 r.node.ron))

/-- The places of the record files in a directory, in the order of their names; what is in a
subdirectory stands at its place. -/
def recordPlaces (t : FileTree) : List (List String) :=
  (t.files.map (·.1)).filter fun place =>
    place.getLast?.any fun name => (Path.splitName name).2 == some recordExtension

/-- Reads the records of some places onto a set.  Records read before one that cannot be read stay
remembered. -/
def loadPlaces (root directory : Path) (recordType : String) :
    List (List String) → RecordSet → Run RecordSet
  | [], set => pure set
  | place :: rest, set => do
    let p := place.foldl Path.join directory
    match readRecord root p (← get).files with
    | .error e => throw e
    | .ok r =>
      remember recordType r.guid p
      loadPlaces root directory recordType rest (set.insert r).2

/-- The records of a type. -/
def load (root : Path) (recordType : String) : Run RecordSet := do
  let directory := root.join recordType
  let places := match (← get).files.at? directory with
    | some t => recordPlaces t
    | none => []
  loadPlaces root directory recordType places (.empty recordType)

/-- Where a record is: where it was seen last, if there still is a file, or where it is seen when
the records of its type are read again. -/
def locate (root : Path) (recordType : String) (guid : Guid) : Run Path := do
  let s ← get
  match (s.seen.lookup (recordType, guid)).filter s.files.hasFile with
  | some p => return p
  | none =>
    let _ ← load root recordType
    Step.ofOption (.notFound recordType guid) ((← get).seen.lookup (recordType, guid))

/-- Adds a record in a new file. -/
def create (root : Path) (recordType : String) (r : Record) : Run Unit := do
  let p ← fileFor root r.directory r.identifier
  if (← get).files.holds p then throw (.nameTaken recordType r.identifier)
  writeRecord p r
  remember recordType r.guid p

/-- Overwrites a record in its file, which keeps its name. -/
def update (root : Path) (recordType : String) (r : Record) : Run Unit := do
  let p ← locate root recordType r.guid
  let current ← readRecord root p (← get).files
  writeRecord p { r with identifier := current.identifier, directory := current.directory }

/-- Gives a record another identifier, and its file the name that goes with it. -/
def rename (root : Path) (recordType : String) (guid : Guid) (identifier : String) : Run Unit := do
  let p ← locate root recordType guid
  let r ← readRecord root p (← get).files
  if r.identifier = identifier then return
  let target ← fileFor root r.directory identifier
  if (← get).files.holds target then throw (.nameTaken recordType identifier)
  writeRecord target { r with identifier }
  change (·.removeFile? p)
  remember recordType guid target

/-- Takes a record and its file away. -/
def delete (root : Path) (recordType : String) (guid : Guid) : Run Unit := do
  let p ← locate root recordType guid
  change (·.removeFile? p)
  forget recordType guid

/-- The store below a root. -/
def store (root : Path) : RecordStore FileStore where
  load := load root
  create := create root
  update := update root
  rename := rename root
  delete := delete root

end FileStore

end RecordTables
