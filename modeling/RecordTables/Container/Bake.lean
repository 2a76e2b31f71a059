import RecordTables.Container.Error
import RecordTables.Record
import RecordTables.Registry
import RecordTables.Scalar.Bytes

/-!
# Baking records into a container

`Container.bake` writes every record of a catalog into the container of a schema.  A row is written
in two passes: first every property is staged, which puts texts and vectors into their pools and
rows of sub-structures into their tables, and then the staged values fill the slots of the row.  The
rows of a record table are in the order of the identifiers; a reference becomes the row of its
record.
-/

namespace RecordTables.Container

open Schema

/-- The bytes of a number of a text, a vector or a row. -/
def indexBytes (i : UInt32) : List UInt8 := littleEndian indexWidth i.toNat

/-! ### Pools -/

/-- What has been laid down so far, besides the rows of records. -/
structure Pools where
  strings : List String
  vectors : List Vector
  /-- The rows of sub-structures, by table. -/
  subRows : NameMap (List (List UInt8))

namespace Pools

/-- Nothing has been laid down. -/
def empty : Pools := ⟨[], [], .empty⟩

/-- Lays down a text, unless it is there already. -/
def intern (p : Pools) (s : String) : UInt32 × Pools :=
  match p.strings.findIdx? (· == s) with
  | some i => (UInt32.ofNat i, p)
  | none => (UInt32.ofNat p.strings.length, { p with strings := p.strings ++ [s] })

/-- Lays down a vector. -/
def addVector (p : Pools) (element : Element) (length : Nat) (bytes : List UInt8) :
    UInt32 × Pools :=
  (UInt32.ofNat p.vectors.length,
    { p with vectors := p.vectors ++ [⟨element, UInt32.ofNat length, bytes⟩] })

/-- Lays down a vector of values of one kind; an empty one is nothing. -/
def addScalars (p : Pools) (kind : ScalarKind) (scalars : List Scalar) : UInt32 × Pools :=
  if scalars.isEmpty then (nullIndex, p)
  else p.addVector (.scalar kind) scalars.length (scalars.flatMap Scalar.bytes)

/-- Lays down a vector of numbers; an empty one is nothing. -/
def addIndices (p : Pools) (indices : List UInt32) : UInt32 × Pools :=
  if indices.isEmpty then (nullIndex, p)
  else p.addVector .index indices.length (indices.flatMap indexBytes)

/-- Lays down a row of a sub-structure. -/
def addRow (p : Pools) (table : String) (row : List UInt8) : UInt32 × Pools :=
  let rows := (p.subRows.find? table).getD []
  (UInt32.ofNat rows.length, { p with subRows := p.subRows.insert table (rows ++ [row]) })

end Pools

/-- A step of baking. -/
abbrev Baking (α : Type) := StateT Pools (Except ContainerError) α

/-- What baking looks up. -/
structure BakeSource where
  registry : Registry
  /-- The row of a record of a type. -/
  row? : (recordType : String) → Guid → Option UInt32

/-- A property of a table, to tell where a value does not fit. -/
structure Place where
  table : String
  property : String

/-- Fails because a value does not fit. -/
def Place.fail {α : Type} (place : Place) (cause : BakeMismatch) : Baking α :=
  throw (.mismatch place.table place.property cause)

/-! ### Staging values -/

/-- A value that is ready for the slots of its property. -/
inductive Staged where
  /-- One value for each slot. -/
  | scalars (values : List Scalar)
  /-- One number for every slot. -/
  | index (i : UInt32)
  /-- One number for each slot. -/
  | indices (numbers : List UInt32)

/-- The fixed-width values of a kind that make up a value. -/
def scalarsOf? (kind : ScalarKind) : Value → Option (List Scalar)
  | .scalar s => if s.kind = kind then some [s] else none
  | .duration ms | .dateTime ms => if kind = .i64 then some [.i64 ms] else none
  | .composite components =>
    if components.all (fun c => c.kind == kind) then some components else none
  | _ => none

/-- The elements of a list. -/
def itemsOf (place : Place) (v : Value) : Baking (List Value) :=
  match v.items? with
  | some items => pure items
  | none => place.fail (.expected "a list")

/-- Lays down a text or the key of an asset. -/
def stageText (place : Place) : Value → Baking UInt32
  | .text s | .asset (some s) => modifyGet (·.intern s)
  | .asset none => pure nullIndex
  | _ => place.fail (.expected "text")

/-- The values of a kind that make up a value. -/
def stageScalars (place : Place) (kind : ScalarKind) (what : String) (v : Value) :
    Baking (List Scalar) :=
  match scalarsOf? kind v with
  | some scalars => pure scalars
  | none => place.fail (.expected what)

/-- The number of a member of an enum. -/
def stageMember (src : BakeSource) (place : Place) (enumName : String) (repr : ScalarKind) :
    Value → Baking Scalar
  | .enum member =>
    match ((src.registry.enum? enumName).bind (·.valueOf? member)).bind (Scalar.ofInt64? repr) with
    | some s => pure s
    | none => place.fail (.notMember member enumName)
  | _ => place.fail (.expected enumName)

/-- The row of a referenced record. -/
def stageReference (src : BakeSource) (place : Place) (target : String) : Value → Baking UInt32
  | .ref none => pure nullIndex
  | .ref (some guid) =>
    match src.row? target guid with
    | some row => pure row
    | none => throw (.dangling place.table place.property target guid)
  | _ => place.fail (.expected s!"a {target} reference")

/-- The row of a sub-structure, written by `embed`. -/
def stageStruct (embed : String → List (String × Value) → Baking UInt32) (place : Place)
    (target : String) : Value → Baking UInt32
  | .noStruct => pure nullIndex
  | .struct fields => embed target fields
  | _ => place.fail (.expected target)

/-- The components of an element of a list of multi-component values. -/
def stageComponents (place : Place) (shape : CompositeShape) (v : Value) : Baking (List Scalar) :=
  match (scalarsOf? shape.componentKind v).filter (fun cs => cs.length == shape.arity) with
  | some components => pure components
  | none => place.fail (.expected shape.tag)

/-- The vector of component `k`: for each element as many places as there are components, of which
place `k` is taken. -/
def stridedVector (shape : CompositeShape) (k : Nat) (elements : List (List Scalar)) :
    List Scalar :=
  elements.flatMap fun components =>
    (List.replicate shape.arity (Scalar.zero shape.componentKind)).set k
      (components.getD k (Scalar.zero shape.componentKind))

/-- Stages the value of a property. -/
def stage (src : BakeSource) (embed : String → List (String × Value) → Baking UInt32)
    (place : Place) (p : PropertyPlan) (v : Value) : Baking Staged :=
  match p.prepare with
  | .inline =>
    match p.write.inlineKind with
    | none => place.fail .noInlineKind
    | some kind => .scalars <$> stageScalars place kind kind.tag v
  | .enumDiscriminant name repr => do
    return .scalars [← stageMember src place name repr v]
  | .internString => .index <$> stageText place v
  | .internStringVector => do
    let indices ← (← itemsOf place v).mapM (stageText place)
    .index <$> modifyGet (·.addIndices indices)
  | .scalarVector kind => do
    let scalars ← (← itemsOf place v).mapM (stageScalars place kind kind.tag)
    .index <$> modifyGet (·.addScalars kind scalars.flatten)
  | .enumVector name repr => do
    let scalars ← (← itemsOf place v).mapM (stageMember src place name repr)
    .index <$> modifyGet (·.addScalars repr scalars)
  | .rowIndex target => .index <$> stageReference src place target v
  | .rowIndexVector target => do
    let indices ← (← itemsOf place v).mapM (stageReference src place target)
    .index <$> modifyGet (·.addIndices indices)
  | .embedRow target => .index <$> stageStruct embed place target v
  | .embedRowVector target => do
    let indices ← (← itemsOf place v).mapM (stageStruct embed place target)
    .index <$> modifyGet (·.addIndices indices)
  | .stridedVectors shape => do
    let elements ← (← itemsOf place v).mapM (stageComponents place shape)
    if elements.isEmpty then return .indices (List.replicate shape.arity nullIndex)
    .indices <$> (List.range shape.arity).mapM fun k =>
      modifyGet (·.addScalars shape.componentKind (stridedVector shape k elements))

/-! ### Filling rows -/

/-- Puts bytes into a row, in place of those that stand from `start` on. -/
def writeAt (row : List UInt8) (start : Nat) (bytes : List UInt8) : List UInt8 :=
  row.take start ++ bytes ++ row.drop (start + bytes.length)

/-- The bytes for slot number `j` of a property. -/
def Staged.slotBytes? (staged : Staged) (j : Nat) : Option (List UInt8) :=
  match staged with
  | scalars values => values[j]?.map Scalar.bytes
  | index i => some (indexBytes i)
  | indices numbers => some (indexBytes (numbers.getD j nullIndex))

/-- Fills the slots of a property from number `j` on. -/
def fillSlots (layout : TableLayout) (place : Place) (staged : Staged) :
    (j : Nat) → (slots : List String) → (row : List UInt8) → Baking (List UInt8)
  | _, [], row => pure row
  | j, slot :: rest, row =>
    match (layout.fieldIndex? slot).bind layout.slot? with
    | none => throw (.corrupt (.noSlot layout.name slot))
    | some (start, _) =>
      match staged.slotBytes? j with
      | none => place.fail .missingComponent
      | some bytes => fillSlots layout place staged (j + 1) rest (writeAt row start bytes)

/-- Fills the slots of several properties. -/
def fillRow (layout : TableLayout) (table : String) :
    List (PropertyPlan × Staged) → (row : List UInt8) → Baking (List UInt8)
  | [], row => pure row
  | (p, staged) :: rest, row => do
    let row ← fillSlots layout ⟨table, p.property.name⟩ staged 0 p.write.slots row
    fillRow layout table rest row

/-- Writes a row.  A property without a value has its default. -/
def bakeRow (src : BakeSource) (embed : String → List (String × Value) → Baking UInt32)
    (plan : TablePlan) (layout : TableLayout) (valueOf : String → Option Value) :
    Baking (List UInt8) := do
  let staged ← plan.properties.mapM fun p =>
    let place : Place := ⟨plan.table, p.property.name⟩
    match (valueOf p.property.name).or (src.registry.default? p.property) with
    | some v => stage src embed place p v
    | none => place.fail .missingIdentifier
  fillRow layout plan.table (plan.properties.zip staged) (List.replicate layout.rowSize 0)

/-- The storage plan and the layout of a table. -/
def tableOf (r : Registry) (table : String) : Except ContainerError (TablePlan × TableLayout) :=
  match r.table? table, r.layout.table? table with
  | some plan, some layout => .ok (plan, layout)
  | _, _ => .error (.unknownTable table)

/-- Writes the row of a sub-structure into its table.  Sub-structures are nested less deep than the
value that holds them, so the depth of the value is enough `fuel`. -/
def embedWithin (src : BakeSource) :
    (fuel : Nat) → (table : String) → (fields : List (String × Value)) → Baking UInt32
  | 0, table, _ => throw (.unknownTable table)
  | fuel + 1, table, fields => do
    let (plan, layout) ← tableOf src.registry table
    let row ← bakeRow src (embedWithin src fuel) plan layout (Value.field? fields)
    modifyGet (·.addRow table row)

/-! ### The container -/

/-- The records of a type in the order of their rows. -/
def rowOrder (c : Catalog) (recordType : String) : List Record :=
  (c.setOf recordType).byIdentifier.map (·.2)

/-- The number of the last record with a GUID. -/
def rowOfGuid? (records : List Record) (guid : Guid) : Option UInt32 :=
  (records.zipIdx.reverse.find? (fun e => e.1.guid == guid)).map (fun e => UInt32.ofNat e.2)

/-- What baking a catalog looks up. -/
def BakeSource.ofCatalog (r : Registry) (c : Catalog) : BakeSource :=
  let rows := NameMap.ofList (r.recordTypes.map fun t => (t.name, rowOrder c t.name))
  ⟨r, fun recordType guid => (rows.find? recordType).bind (rowOfGuid? · guid)⟩

/-- Writes the row of a record. -/
def bakeRecord (src : BakeSource) (plan : TablePlan) (layout : TableLayout) (record : Record) :
    Baking (List UInt8) :=
  bakeRow src (embedWithin src (Value.depthOfFields record.values.entries)) plan layout fun name =>
    if name = src.registry.identifierProperty then some (.text record.identifier)
    else record.values.find? name

/-- Writes the rows of a record type. -/
def bakeRecords (src : BakeSource) (c : Catalog) (recordType : String) :
    Baking (String × List (List UInt8)) := do
  let (plan, layout) ← tableOf src.registry recordType
  let rows ← (rowOrder c recordType).mapM (bakeRecord src plan layout)
  return (recordType, rows)

/-- A table from its rows. -/
def tableOfRows (layout : TableLayout) (rows : List (List UInt8)) (guids : List String) : Table :=
  ⟨layout.name, UInt32.ofNat layout.rowSize, UInt32.ofNat rows.length, rows.flatten, guids⟩

/-- Writes every record of a catalog into the container of a schema. -/
def bake (r : Registry) (c : Catalog) : Except ContainerError Container := do
  let (recordRows, pools) ←
    (r.recordTypes.mapM fun t => bakeRecords (.ofCatalog r c) c t.name).run .empty
  let tables := r.layout.tables.map fun layout =>
    match recordRows.lookup layout.name with
    | some rows =>
      tableOfRows layout rows ((rowOrder c layout.name).map (·.guid.text))
    | none => tableOfRows layout ((pools.subRows.find? layout.name).getD []) []
  return ⟨.ofFingerprint r.fingerprint, pools.strings, pools.vectors, tables⟩

end RecordTables.Container
