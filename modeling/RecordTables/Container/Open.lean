import RecordTables.Container.Error
import RecordTables.Registry
import RecordTables.Scalar.Bytes
import RecordTables.Scalar.Text
import RecordTables.Value

/-!
# Reading containers

`OpenContainer.ofPacked` opens a container for a schema: the header must be known, the fingerprint
must be that of the schema, and the tables must have the sizes of the layout.  A value is read from
the slots of its row by the steps of the storage plan, unless an override stands in its place.
Records are found by their identifier, which halves the rows that are left with each comparison.

A program may put another value in the place of one that it has loaded.  The data are not touched:
an override stands beside them, and is told by its table, its row and its property.
-/

namespace RecordTables

open Schema Container

/-! ## Overridden values -/

/-- The place of an override. -/
structure OverrideKey where
  table : String
  row : UInt32
  property : String
  deriving DecidableEq, Repr

/-- The overrides, at most one for each place. -/
structure Overrides where
  entries : List (OverrideKey × Value)
  deriving Inhabited

namespace Overrides

/-- No overrides. -/
def empty : Overrides := ⟨[]⟩

/-- The value that is put at a place. -/
def find? (o : Overrides) (key : OverrideKey) : Option Value :=
  (o.entries.find? fun e => e.1 == key).map (·.2)

/-- Takes the override away from a place. -/
def erase (o : Overrides) (key : OverrideKey) : Overrides :=
  ⟨o.entries.filter (fun e => e.1 != key)⟩

/-- Puts a value at a place. -/
def set (o : Overrides) (key : OverrideKey) (v : Value) : Overrides :=
  ⟨(key, v) :: (o.erase key).entries⟩

/-- The number of overrides. -/
def size (o : Overrides) : Nat := o.entries.length

@[simp] theorem find?_erase (o : Overrides) (key other : OverrideKey) :
    (o.erase key).find? other = if key = other then none else o.find? other := by
  simp only [find?, erase]
  induction o.entries with
  | nil => simp
  | cons e rest ih => grind

@[simp] theorem find?_set (o : Overrides) (key other : OverrideKey) (v : Value) :
    (o.set key v).find? other = if key = other then some v else o.find? other := by
  by_cases h : key = other
  · subst h; simp [find?, set]
  · have := find?_erase o key other
    simp only [find?, h, if_false] at this
    simp only [find?, set, List.find?_cons, beq_eq_false_iff_ne.2 h, h, if_false]
    exact this

end Overrides

/-! ## Open containers -/

/-- A container that fits its schema, and the overrides of its values. -/
structure OpenContainer where
  registry : Registry
  container : Container
  overrides : Overrides
  deriving Inhabited

/-- A table of an open container: its rows, its storage plan and its layout. -/
structure TableView where
  table : Container.Table
  plan : TablePlan
  layout : TableLayout
  deriving Inhabited

/-! ### Opening -/

/-- Checks the magic number and the version. -/
def ContainerHeader.check (h : ContainerHeader) : Except ContainerError Unit :=
  if h.magic ≠ knownMagic then .error (.magic h.magic)
  else if h.version ≠ knownVersion then .error (.version h.version)
  else .ok ()

/-- Checks that a table is one of the schema, and has its size. -/
def Container.Table.check (r : Registry) (t : Container.Table) : Except ContainerError Unit :=
  match r.layout.table? t.name with
  | none => .error (.unknownTable t.name)
  | some layout =>
    if layout.rowSize = t.rowSize.toNat ∧ t.bytes.length = t.rowSize.toNat * t.rowCount.toNat
    then .ok ()
    else .error (.corrupt (.layout t.name))

namespace OpenContainer

/-- Opens a container for a schema. -/
def ofContainer (r : Registry) (c : Container) : Except ContainerError OpenContainer := do
  c.header.check
  (Checkpoints.verifyData r.fingerprint (some c.header.fingerprint)).mapError .incompatible
  c.tables.forM (Container.Table.check r)
  return ⟨r, c, .empty⟩

/-- Opens a packed container for a schema. -/
def ofPacked (packing : Packing) (r : Registry) (bytes : List UInt8) :
    Except ContainerError OpenContainer :=
  match packing.unpack? bytes with
  | some c => ofContainer r c
  | none => .error .unreadable

/-- To open a packed container is to open the container. -/
@[simp] theorem ofPacked_pack (packing : Packing) (r : Registry) (c : Container) :
    ofPacked packing r (packing.pack c) = ofContainer r c := by
  rw [ofPacked, packing.unpack?_pack]

/-- A table by its name. -/
def view (c : OpenContainer) (name : String) : Except ContainerError TableView :=
  match c.container.table? name, c.registry.table? name, c.registry.layout.table? name with
  | some table, some plan, some layout => .ok ⟨table, plan, layout⟩
  | _, _, _ => .error (.unknownTable name)

/-! ### Pools -/

/-- A text by its number. -/
def string (c : OpenContainer) (i : UInt32) : Except ContainerError String :=
  match c.container.strings[i.toNat]? with
  | some s => .ok s
  | none => .error (.corrupt (.stringRange i))

/-- The bytes of each element, for elements of some width. -/
def chunks (width : Nat) : (count : Nat) → List UInt8 → List (List UInt8)
  | 0, _ => []
  | count + 1, bytes => bytes.take width :: chunks width count (bytes.drop width)

/-- The bytes of each element of a vector of the given elements; nothing is an empty vector. -/
def vector (c : OpenContainer) (i : UInt32) (element : Element) :
    Except ContainerError (List (List UInt8)) :=
  if i = nullIndex then .ok []
  else
    match c.container.vectors[i.toNat]? with
    | none => .error (.corrupt (.vectorRange i))
    | some v =>
      if v.element = element ∧ v.bytes.length = v.length.toNat * element.width
      then .ok (chunks element.width v.length.toNat v.bytes)
      else .error (.corrupt (.vectorElement i))

/-- The values of a vector of a kind. -/
def vectorScalars (c : OpenContainer) (i : UInt32) (kind : ScalarKind) :
    Except ContainerError (List Scalar) := do
  (← c.vector i (.scalar kind)).mapM fun bytes =>
    match Scalar.ofBytes? kind bytes with
    | some s => .ok s
    | none => .error (.corrupt .shortScalar)

/-- The number that bytes of an index hold. -/
def indexOf (bytes : List UInt8) : UInt32 := UInt32.ofNat (ofLittleEndian (bytes.take indexWidth))

/-- The numbers of a vector of numbers. -/
def vectorIndices (c : OpenContainer) (i : UInt32) : Except ContainerError (List UInt32) :=
  (c.vector i .index).map (·.map indexOf)

end OpenContainer

/-! ### Slots -/

namespace TableView

/-- The bytes of a slot of a row. -/
def slotBytes (t : TableView) (row : List UInt8) (slot : String) :
    Except ContainerError (List UInt8) :=
  match (t.layout.fieldIndex? slot).bind t.layout.slot? with
  | some (start, stop) =>
    if stop ≤ row.length then .ok ((row.drop start).take (stop - start))
    else .error (.corrupt (.noSlot t.layout.name slot))
  | none => .error (.corrupt (.noSlot t.layout.name slot))

/-- The number in a slot. -/
def slotIndex (t : TableView) (row : List UInt8) (slot : String) : Except ContainerError UInt32 :=
  (t.slotBytes row slot).map OpenContainer.indexOf

/-- The value of a kind in a slot. -/
def slotScalar (t : TableView) (row : List UInt8) (slot : String) (kind : ScalarKind) :
    Except ContainerError Scalar := do
  match Scalar.ofBytes? kind (← t.slotBytes row slot) with
  | some s => return s
  | none => throw (.corrupt (.shortSlot slot))

/-- The GUID of a row. -/
def guid? (t : TableView) (row : UInt32) : Option Guid := t.table.guids[row.toNat]?.map Guid.mk

end TableView

/-! ### Values -/

namespace OpenContainer

variable (c : OpenContainer)

/-- The member of an enum with a number. -/
def member (enumName : String) (s : Scalar) : Except ContainerError Value :=
  match s.toInt64?.bind fun v => (c.registry.enum? enumName).bind (·.nameOf? v) with
  | some name => .ok (.enum name)
  | none => .error (.corrupt (.notMember s.text enumName))

/-- A time value from its milliseconds. -/
def timeValue (kind : TimeKind) (s : Scalar) : Value :=
  let ms := s.toInt64?.getD 0
  match kind with
  | .duration => .duration ms
  | .dateTime => .dateTime ms

/-- A text from its number; nothing is the empty text. -/
def textValue (i : UInt32) : Except ContainerError Value :=
  if i = nullIndex then .ok (.text "") else (c.string i).map .text

/-- A key of an asset from the number of its text. -/
def assetValue (i : UInt32) : Except ContainerError Value :=
  if i = nullIndex then .ok (.asset none) else (c.string i).map fun s => .asset (some s)

/-- A reference from the row of its record. -/
def refValue (target : String) (i : UInt32) : Except ContainerError Value :=
  if i = nullIndex then .ok (.ref none)
  else do
    let t ← c.view target
    match t.guid? i with
    | some guid => return .ref (some guid)
    | none => throw (.rowRange target i t.table.rowCount)

/-- A sub-structure from its row, read by `nested`. -/
def structValue (nested : String → UInt32 → Except ContainerError Value) (table : String)
    (i : UInt32) : Except ContainerError Value :=
  if i = nullIndex then .ok .noStruct else nested table i

/-- A single value. -/
def readSingle (nested : String → UInt32 → Except ContainerError Value) (t : TableView)
    (p : PropertyPlan) (row : List UInt8) (first : String) : Except ContainerError Value :=
  match p.read with
  | .text => do c.textValue (← t.slotIndex row first)
  | .asset => do c.assetValue (← t.slotIndex row first)
  | .enum name repr => do c.member name (← t.slotScalar row first repr)
  | .scalar kind => .scalar <$> t.slotScalar row first kind
  | .time kind => timeValue kind <$> t.slotScalar row first .i64
  | .ref target => do c.refValue target (← t.slotIndex row first)
  | .embedded table => do structValue nested table (← t.slotIndex row first)
  | .components shape =>
    .composite <$> p.write.slots.mapM fun slot => t.slotScalar row slot shape.componentKind

/-- The components of element `i` from the vectors of the components. -/
def componentsAt (property : String) (arity i : Nat) (vectors : List (List Scalar)) :
    Except ContainerError Value :=
  .composite <$> vectors.zipIdx.mapM fun (vector, k) =>
    match vector[componentOffset i k arity]? with
    | some s => .ok s
    | none => .error (.corrupt (.shortComponents property))

/-- The elements of a list. -/
def readList (nested : String → UInt32 → Except ContainerError Value) (t : TableView)
    (p : PropertyPlan) (row : List UInt8) (first : String) :
    Except ContainerError (List Value) :=
  match p.read with
  | .text => do
    (← c.vectorIndices (← t.slotIndex row first)).mapM fun i => (c.string i).map .text
  | .asset => do (← c.vectorIndices (← t.slotIndex row first)).mapM c.assetValue
  | .enum name repr => do
    (← c.vectorScalars (← t.slotIndex row first) repr).mapM (c.member name)
  | .scalar kind => do return (← c.vectorScalars (← t.slotIndex row first) kind).map .scalar
  | .time kind => do
    return (← c.vectorScalars (← t.slotIndex row first) .i64).map (timeValue kind)
  | .ref target => do (← c.vectorIndices (← t.slotIndex row first)).mapM (c.refValue target)
  | .embedded table => do
    (← c.vectorIndices (← t.slotIndex row first)).mapM (structValue nested table)
  | .components shape => do
    let vectors ← p.write.slots.mapM fun slot => do
      c.vectorScalars (← t.slotIndex row slot) shape.componentKind
    let count := ((vectors.head?.map (·.length)).getD 0) / shape.arity
    (List.range count).mapM fun i => componentsAt p.property.name shape.arity i vectors

/-- The value of a property in the bytes of a row. -/
def readProperty (nested : String → UInt32 → Except ContainerError Value) (t : TableView)
    (p : PropertyPlan) (row : List UInt8) : Except ContainerError Value :=
  match p.write.slots with
  | [] => .error (.corrupt (.noSlots p.property.name))
  | first :: _ =>
    if p.isList then .list <$> c.readList nested t p row first
    else c.readSingle nested t p row first

/-- The value of a property in a row, with sub-structures read by `nested`. -/
def bakedWith (nested : String → UInt32 → Except ContainerError Value) (t : TableView)
    (row : UInt32) (property : String) : Except ContainerError Value :=
  match t.plan.property? property with
  | none => .error (.unknownProperty t.table.name property)
  | some p =>
    match t.table.row? row with
    | none => .error (.rowRange t.table.name row t.table.rowCount)
    | some bytes => c.readProperty nested t p bytes

/-- The sub-structure in a row of a table, through at most `fuel` others. -/
def readStruct : (fuel : Nat) → (table : String) → UInt32 → Except ContainerError Value
  | 0, table, _ => .error (.corrupt (.endless table))
  | fuel + 1, table, i => do
    let t ← c.view table
    let stored := t.plan.properties.filter (fun p => !p.property.isIdentifier)
    let fields ← stored.mapM fun p => do
      return (p.property.name, ← c.bakedWith (readStruct fuel) t i p.property.name)
    return .struct fields

/-- More sub-structures than can hold each other without a circle: one for every row, and one
without a slot. -/
def nestingLimit : Nat := c.container.tables.foldr (fun t n => t.rowCount.toNat + n) 1

/-- The value of a property in a row, without regard to overrides. -/
def baked (t : TableView) (row : UInt32) (property : String) : Except ContainerError Value :=
  c.bakedWith (c.readStruct c.nestingLimit) t row property

/-- The value of a property in a row: the override, if there is one. -/
def value (t : TableView) (row : UInt32) (property : String) : Except ContainerError Value :=
  match c.overrides.find? ⟨t.table.name, row, property⟩ with
  | some v => .ok v
  | none => c.baked t row property

/-- Every property of a row with its value, in the order of the schema. -/
def rowValues (t : TableView) (row : UInt32) : Except ContainerError (List (String × Value)) :=
  t.plan.properties.mapM fun p => do
    return (p.property.name, ← c.value t row p.property.name)

/-! ### Finding records -/

/-- The row with an identifier among those from `low` up to `high`. -/
def findBetween (t : TableView) (identifier : String) (low high : Nat) :
    Except ContainerError (Option UInt32) :=
  if _h : low < high then
    let mid := low + (high - low) / 2
    let property := c.registry.identifierProperty
    match c.baked t (UInt32.ofNat mid) property with
    | .error e => .error e
    | .ok (.text found) =>
      if found = identifier then .ok (some (UInt32.ofNat mid))
      else if found < identifier then findBetween t identifier (mid + 1) high
      else findBetween t identifier low mid
    | .ok _ => .error (.corrupt (.identifierNotText t.table.name property))
  else .ok none
termination_by high - low
decreasing_by all_goals omega

/-- The row of the record with an identifier. -/
def find (t : TableView) (identifier : String) : Except ContainerError (Option UInt32) :=
  c.findBetween t identifier 0 t.table.rowCount.toNat

end OpenContainer

end RecordTables
