import RecordTables.Text.Blank

/-!
# Identity of records

A record is known by its GUID, which is given once and never used again; references between records
are held by GUID.  New records take theirs from a `GuidSupply`.
-/

namespace RecordTables

/-- The identity of a record. -/
structure Guid where
  /-- The characters of the identity. -/
  text : String
  deriving DecidableEq, Repr, Inhabited

namespace Guid

/-- The GUID of a table cell; a blank cell has none. -/
def ofCell? (cell : String) : Option Guid :=
  let text := Text.trimmed cell
  if text.isEmpty then none else some ⟨text⟩

end Guid

/-- An endless supply of GUIDs.  `next n` is the GUID handed out after `n` others. -/
structure GuidSupply where
  /-- The GUID number `n` of the supply. -/
  next : Nat → Guid
  /-- How many have been handed out. -/
  used : Nat

namespace GuidSupply

/-- Hands out one GUID. -/
def take (s : GuidSupply) : Guid × GuidSupply := (s.next s.used, { s with used := s.used + 1 })

/-- The supply `label-1`, `label-2`, … -/
def numbered (label : String) : GuidSupply := ⟨fun n => ⟨s!"{label}-{n + 1}"⟩, 0⟩

end GuidSupply

end RecordTables
