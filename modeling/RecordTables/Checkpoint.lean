import RecordTables.Fingerprint

/-!
# Checkpoints

A project keeps the fingerprints of the schema for which its code and its data were last generated.
`Checkpoints.verify` accepts them when both are the current one, and otherwise names the first that
is not; code comes before data.
-/

namespace RecordTables

/-- The fingerprints of the last generated code and data. -/
structure Checkpoints where
  code : Option Fingerprint
  data : Option Fingerprint
  deriving DecidableEq, Repr, Inhabited

/-- Why generated artifacts do not belong to the current schema. -/
inductive CompatibilityError where
  /-- The artifact has not been generated yet. -/
  | missing (artifact : String)
  /-- The code belongs to another schema. -/
  | codeMismatch (expected found : Fingerprint)
  /-- The data belong to another schema. -/
  | dataMismatch (expected found : Fingerprint)
  deriving DecidableEq, Repr

namespace CompatibilityError

/-- The wording of a fault. -/
def message : CompatibilityError → String
  | missing artifact => s!"no {artifact} has been generated yet"
  | codeMismatch expected found =>
    s!"generated code was built for schema {found.text}, current schema is {expected.text}"
  | dataMismatch expected found =>
    s!"generated data was built for schema {found.text}, current schema is {expected.text}"

end CompatibilityError

namespace Checkpoints

/-- Checks the data alone, as a reader of data does. -/
def verifyData (current : Fingerprint) (data : Option Fingerprint) :
    Except CompatibilityError Unit :=
  match data with
  | none => .error (.missing "data")
  | some found => if found = current then .ok () else .error (.dataMismatch current found)

/-- Checks the code and then the data. -/
def verify (current : Fingerprint) (c : Checkpoints) : Except CompatibilityError Unit :=
  match c.code with
  | none => .error (.missing "code")
  | some found =>
    if found = current then verifyData current c.data else .error (.codeMismatch current found)

end Checkpoints

end RecordTables
