import RecordTables.Guid
import RecordTables.Scalar.Basic

/-!
# Values of properties

A record holds one `Value` for each of its properties.  Sub-structures are lists of named fields; a
name may occur more than once, and looking it up finds the first (`Value.field?`).
-/

namespace RecordTables

/-- A value of a property. -/
inductive Value where
  /-- Plain text, localizable text, or an identifier. -/
  | text (s : String)
  /-- A member of an enum, by name. -/
  | enum (member : String)
  /-- A fixed-width value. -/
  | scalar (s : Scalar)
  /-- A span of time, in milliseconds. -/
  | duration (ms : Int64)
  /-- An instant, in milliseconds from the start of 1970. -/
  | dateTime (ms : Int64)
  /-- A reference to a record, or to none. -/
  | ref (target : Option Guid)
  /-- No sub-structure. -/
  | noStruct
  /-- A sub-structure, by its fields. -/
  | struct (fields : List (String × Value))
  /-- The components of a multi-component value, in their order. -/
  | composite (components : List Scalar)
  /-- The key of an external asset, or none. -/
  | asset (key : Option String)
  /-- The elements of a list property. -/
  | list (items : List Value)
  deriving Inhabited

namespace Value

/-- The first field of a name. -/
def field? (fields : List (String × Value)) (name : String) : Option Value :=
  (fields.find? (fun f => f.1 == name)).map (·.2)

/-- The text of a value that is text or the name of an enum member. -/
def text? : Value → Option String
  | text s | enum s => some s
  | _ => none

/-- The elements of a list. -/
def items? : Value → Option (List Value)
  | list items => some items
  | _ => none

mutual

/-- How deep sub-structures and lists are nested in a value. -/
def depth : Value → Nat
  | struct fields => depthOfFields fields + 1
  | list items => depthOfItems items + 1
  | _ => 0

/-- The greatest depth among fields. -/
def depthOfFields : List (String × Value) → Nat
  | [] => 0
  | f :: rest => max f.2.depth (depthOfFields rest)

/-- The greatest depth among elements. -/
def depthOfItems : List Value → Nat
  | [] => 0
  | v :: rest => max v.depth (depthOfItems rest)

end

theorem depth_le_of_mem {v : Value} {items : List Value} (h : v ∈ items) :
    v.depth ≤ depthOfItems items := by
  induction items with
  | nil => simp at h
  | cons w rest ih =>
    rw [depthOfItems]
    rcases List.mem_cons.1 h with rfl | h
    · omega
    · have := ih h; omega

theorem depth_le_of_field? {v : Value} {name : String} {fields : List (String × Value)}
    (h : field? fields name = some v) : v.depth ≤ depthOfFields fields := by
  induction fields with
  | nil => simp [field?] at h
  | cons f rest ih =>
    rw [depthOfFields]
    by_cases hf : f.1 = name
    · simp [field?, hf] at h; subst h; omega
    · have : field? rest name = some v := by simpa [field?, hf] using h
      have := ih this; omega

end Value

end RecordTables
