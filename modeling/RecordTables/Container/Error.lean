import RecordTables.Checkpoint
import RecordTables.Container.Basic
import RecordTables.Guid

/-!
# Faults of containers
-/

namespace RecordTables

/-- Why a value does not fit its property. -/
inductive BakeMismatch where
  /-- Something else was expected. -/
  | expected (what : String)
  | missingIdentifier
  | missingComponent
  /-- The property stores no value of a fixed width. -/
  | noInlineKind
  | notMember (member enumName : String)
  deriving DecidableEq, Repr

/-- The wording of a mismatch; the value that was found is not told. -/
def BakeMismatch.detail : BakeMismatch → String
  | expected what => s!"expected {what}"
  | missingIdentifier => "identifier is missing"
  | missingComponent => "missing component"
  | noInlineKind => "inline op without a scalar kind"
  | notMember member enumName => s!"'{member}' is not a member of {enumName}"

/-- In which way a container is damaged. -/
inductive Corruption where
  /-- The rows of a table have another size than the schema says. -/
  | layout (table : String)
  | stringRange (index : UInt32)
  | vectorRange (index : UInt32)
  | vectorElement (index : UInt32)
  | shortScalar
  | shortSlot (slot : String)
  | noSlot (table slot : String)
  /-- A property takes no slots. -/
  | noSlots (property : String)
  | shortComponents (property : String)
  | notMember (scalar enumName : String)
  | identifierNotText (table property : String)
  /-- Sub-structures hold each other in a circle. -/
  | endless (table : String)
  deriving DecidableEq, Repr

/-- The wording of a damage. -/
def Corruption.detail : Corruption → String
  | layout table => s!"table '{table}' has a bad layout"
  | stringRange index => s!"string {index.toNat} out of range"
  | vectorRange index => s!"vector {index.toNat} out of range"
  | vectorElement index => s!"vector {index.toNat} has the wrong element type"
  | shortScalar => "short scalar"
  | shortSlot slot => s!"short slot {slot}"
  | noSlot table slot => s!"no slot {table}.{slot}"
  | noSlots property => s!"{property} has no slots"
  | shortComponents property => s!"{property}: short component vector"
  | notMember scalar enumName => s!"{scalar} is not a member of {enumName}"
  | identifierNotText table property => s!"{table}.{property} is not text"
  | endless table => s!"rows of '{table}' hold each other"

/-- Why a container cannot be made or read. -/
inductive ContainerError where
  /-- The bytes are no container. -/
  | unreadable
  | magic (found : UInt32)
  | version (found : UInt32)
  /-- The container belongs to another schema. -/
  | incompatible (fault : CompatibilityError)
  | unknownTable (name : String)
  | rowRange (table : String) (row length : UInt32)
  | unknownProperty (table property : String)
  | dangling (table property target : String) (guid : Guid)
  | mismatch (table property : String) (cause : BakeMismatch)
  | corrupt (damage : Corruption)
  deriving DecidableEq, Repr

/-- The wording of a fault. -/
def ContainerError.message : ContainerError → String
  | unreadable => "the bytes are no container"
  | magic found =>
    let digits (n : UInt32) := (Text.hex 8 n.toNat).toUpper
    s!"invalid magic number: expected 0x{digits Container.knownMagic}, got 0x{digits found}"
  | version found =>
    s!"unsupported blob format version {found.toNat} " ++
      s!"(this build reads {Container.knownVersion.toNat})"
  | incompatible fault => fault.message
  | unknownTable name => s!"unknown table '{name}'"
  | rowRange table row length =>
    s!"row {row.toNat} out of range for table '{table}' ({length.toNat} rows)"
  | unknownProperty table property => s!"table '{table}' has no property '{property}'"
  | dangling table property target guid =>
    s!"{table}.{property} references {target} record {guid.text}, which is not in the data set"
  | mismatch table property cause => s!"{table}.{property}: {cause.detail}"
  | corrupt damage => s!"corrupt blob: {damage.detail}"

end RecordTables
