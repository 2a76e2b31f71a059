import RecordTables.Container.Open
import RecordTables.Exchange.Basic
import RecordTables.Exchange.Packing

/-!
# Containers in exchange

A container is told by its content.  An edit takes other content in place of some of it, so that a
reader can be tried on containers that no writer makes.
-/

namespace RecordTables

/-- A fingerprint. -/
def Fingerprint.toJson (f : Fingerprint) : Json := .text f.text

/-- Reads a fingerprint. -/
def Fingerprint.ofJson? (v : Json) : Option Fingerprint :=
  v.text?.bind fun s => (Fingerprint.ofText s).toOption

/-- A number of 32 bits. -/
def Json.word32? (v : Json) : Option UInt32 := v.nat?.map UInt32.ofNat

namespace Container

/-- The elements of a vector, by their kind. -/
def Element.tag : Element → String
  | index => "index"
  | scalar kind => kind.tag

/-- Reads what the elements of a vector are. -/
def Element.ofJson? (v : Json) : Option Element :=
  v.text?.bind fun s => if s = "index" then some index else (ScalarKind.ofTag? s).map scalar

/-- A header, by its three parts. -/
def headerToJson (h : ContainerHeader) : Json :=
  .array [.nat h.magic.toNat, .nat h.version.toNat, h.fingerprint.toJson]

/-- A vector. -/
def Vector.toJson (v : Vector) : Json :=
  .array [.text v.element.tag, .nat v.length.toNat, .hexBytes v.bytes]

/-- A table. -/
def Table.toJson (t : Table) : Json :=
  .object [("name", .text t.name), ("size", .nat t.rowSize.toNat),
    ("count", .nat t.rowCount.toNat), ("rows", .hexBytes t.bytes), ("guids", .texts t.guids)]

/-- A container. -/
def toJson (c : Container) : Json :=
  .object [("magic", .nat c.header.magic.toNat), ("version", .nat c.header.version.toNat),
    ("fingerprint", c.header.fingerprint.toJson), ("strings", .texts c.strings),
    ("vectors", .array (c.vectors.map Vector.toJson)),
    ("tables", .array (c.tables.map Table.toJson))]

/-- Changes the parts of a vector that an edit tells. -/
def Vector.edit? (v : Vector) (e : Json) : Option Vector := do
  return ⟨← e.fieldOr? "element" Element.ofJson? v.element,
    ← e.fieldOr? "len" Json.word32? v.length, ← e.fieldOr? "data" Json.hexBytes? v.bytes⟩

/-- Changes the parts of a table that an edit tells. -/
def Table.edit? (t : Table) (e : Json) : Option Table := do
  return ⟨← e.fieldOr? "name" Json.text? t.name, ← e.fieldOr? "size" Json.word32? t.rowSize,
    ← e.fieldOr? "count" Json.word32? t.rowCount, ← e.fieldOr? "rows" Json.hexBytes? t.bytes,
    ← e.fieldOr? "guids" Json.texts? t.guids⟩

/-- Changes the vector whose number an edit tells. -/
def editVectors? (vectors : List Vector) (e : Json) : Option (List Vector) := do
  match ← e.optional? "vector" Json.nat? with
  | none => return vectors
  | some i => return vectors.set i (← (← vectors[i]?).edit? e)

/-- Changes, or leaves out, the first table of the name that an edit tells. -/
def editTables? (tables : List Table) (e : Json) : Option (List Table) := do
  match ← e.optional? "table" Json.text? with
  | none => return tables
  | some name =>
    let i ← tables.findIdx? (fun t => t.name == name)
    if ← e.fieldOr? "drop" Json.flag? false then return tables.eraseIdx i
    return tables.set i (← (← tables[i]?).edit? e)

/-- Changes the parts of a container that an edit tells. -/
def edit? (c : Container) (e : Json) : Option Container := do
  let h := c.header
  return ⟨⟨← e.fieldOr? "magic" Json.word32? h.magic, ← e.fieldOr? "version" Json.word32? h.version,
      ← e.fieldOr? "fingerprint" Fingerprint.ofJson? h.fingerprint⟩,
    ← e.fieldOr? "strings" Json.texts? c.strings, ← editVectors? c.vectors e,
    ← editTables? c.tables e⟩

end Container

/-- Opens exchanged bytes for a schema. -/
def OpenContainer.ofBytes (r : Registry) (bytes : List UInt8) :
    Except ContainerError OpenContainer :=
  ofPacked .plain r bytes

end RecordTables
