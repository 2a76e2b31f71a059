import RecordTables.Fingerprint
import RecordTables.Layout.Basic

/-!
# Data containers

A `Container` is the data of a project in the form in which programs load it: a header that tells
the schema, a pool of texts, a pool of vectors, and the rows of every table.  A row refers to texts,
vectors and other rows by number, and `nullIndex` refers to nothing.

How a container is laid down in bytes is not settled here.  A `Packing` is any way to do it that
reads back what it wrote, and whoever writes or opens packed containers is given one.
-/

namespace RecordTables

namespace Container

/-- What the elements of a vector are. -/
inductive Element where
  | scalar (kind : ScalarKind)
  /-- Numbers of texts or of rows. -/
  | index
  deriving DecidableEq, Repr, Inhabited

/-- Bytes of an element. -/
def Element.width : Element → Nat
  | scalar kind => kind.width
  | index => indexWidth

/-- A vector: its elements one behind the other. -/
structure Vector where
  element : Element
  length : UInt32
  bytes : List UInt8
  deriving DecidableEq, Repr, Inhabited

/-- The rows of a table, one behind the other, and for a table of records their GUIDs. -/
structure Table where
  name : String
  rowSize : UInt32
  rowCount : UInt32
  bytes : List UInt8
  guids : List String
  deriving DecidableEq, Repr, Inhabited

/-- The bytes of a row. -/
def Table.row? (t : Table) (row : UInt32) : Option (List UInt8) :=
  let start := row.toNat * t.rowSize.toNat
  if start + t.rowSize.toNat ≤ t.bytes.length then some ((t.bytes.drop start).take t.rowSize.toNat)
  else none

/-- The number by which containers are known. -/
def knownMagic : UInt32 := 0x50524D42

/-- The version of containers. -/
def knownVersion : UInt32 := 1

end Container

/-- What stands in front of the data. -/
structure ContainerHeader where
  magic : UInt32
  version : UInt32
  /-- The fingerprint of the schema. -/
  fingerprint : Fingerprint
  deriving DecidableEq, Repr, Inhabited

/-- The header of the containers of a schema. -/
def ContainerHeader.ofFingerprint (f : Fingerprint) : ContainerHeader :=
  ⟨Container.knownMagic, Container.knownVersion, f⟩

/-- The data of a project. -/
structure Container where
  header : ContainerHeader
  strings : List String
  vectors : List Container.Vector
  tables : List Container.Table
  deriving DecidableEq, Repr, Inhabited

/-- The last table of a name. -/
def Container.table? (c : Container) (name : String) : Option Container.Table :=
  c.tables.reverse.find? (fun t => t.name == name)

/-- A way to lay down containers in bytes. -/
structure Packing where
  pack : Container → List UInt8
  /-- The container of some bytes, if they are one. -/
  unpack? : List UInt8 → Option Container
  unpack?_pack : ∀ c, unpack? (pack c) = some c

end RecordTables
