import RecordTables.Exchange.Basic

/-!
# Masked GUIDs

The GUIDs of new records differ from one run to the next.  So that runs can be compared, a GUID of
thirty-two lowercase hexadecimal digits is shown by the number of its first appearance, as
`<guid-1>`, `<guid-2>`, …, and a mask stands for the GUID wherever a text is handed in.  The bytes
of rows and of vectors are shown as they are.
-/

namespace RecordTables.Mask

/-- The GUIDs that have appeared, in the order of their appearance. -/
abbrev Seen := List String

/-- The mask of the GUID at a place. -/
def mask (i : Nat) : String := "<guid-" ++ toString (i + 1) ++ ">"

/-- Whether a character is a lowercase hexadecimal digit. -/
def isDigit (c : Char) : Bool := c.isDigit || ('a' ≤ c && c ≤ 'f')

/-- The characters in runs of digits and of others. -/
def runs (cs : List Char) : List (List Char) := cs.splitBy fun a b => isDigit a == isDigit b

/-- The text of a run: a mask if it is a GUID. -/
def hideRun (seen : Seen) (run : List Char) : String × Seen :=
  let text := String.ofList run
  if run.length = 32 ∧ run.all isDigit then
    match seen.idxOf? text with
    | some i => (mask i, seen)
    | none => (mask seen.length, seen ++ [text])
  else (text, seen)

/-- A text with masks in place of the GUIDs. -/
def hideText (seen : Seen) (s : String) : String × Seen :=
  (runs s.toList).foldl (fun (done, seen) run =>
    let (shown, seen) := hideRun seen run
    (done ++ shown, seen)) ("", seen)

mutual

/-- A value with masks in place of the GUIDs, which are numbered in the order of the names of the
members. -/
def hide (seen : Seen) : Json → Json × Seen
  | .text s =>
    let (s, seen) := hideText seen s
    (.text s, seen)
  | .array items =>
    let (items, seen) := hideItems seen items
    (.array items, seen)
  | .object members =>
    let (members, seen) := hideMembers seen members
    (.object members, seen)
  | v => (v, seen)

/-- The elements of an array with masks. -/
def hideItems (seen : Seen) : List Json → List Json × Seen
  | [] => ([], seen)
  | v :: rest =>
    let (v, seen) := hide seen v
    let (rest, seen) := hideItems seen rest
    (v :: rest, seen)

/-- The members of an object with masks. -/
def hideMembers (seen : Seen) : List (String × Json) → List (String × Json) × Seen
  | [] => ([], seen)
  | m :: rest =>
    let (v, seen) := if m.1 = "rows" ∨ m.1 = "vectors" then (m.2, seen) else hide seen m.2
    let (rest, seen) := hideMembers seen rest
    ((m.1, v) :: rest, seen)

end

mutual

/-- A value whose objects have their members in the order of the names. -/
def ordered : Json → Json
  | .array items => .array (orderedItems items)
  | .object members => .object (NameMap.ofList (orderedMembers members)).entries
  | v => v

/-- The elements of an array, each in order. -/
def orderedItems : List Json → List Json
  | [] => []
  | v :: rest => ordered v :: orderedItems rest

/-- The members of an object, each in order. -/
def orderedMembers : List (String × Json) → List (String × Json)
  | [] => []
  | m :: rest => (m.1, ordered m.2) :: orderedMembers rest

end

mutual

/-- A value whose lists of changes are in the order of their texts. -/
def sortChanges : Json → Json
  | .array items => .array (sortChangesOfItems items)
  | .object members => .object (sortChangesOfMembers members)
  | v => v

/-- The elements of an array, each with its lists of changes in order. -/
def sortChangesOfItems : List Json → List Json
  | [] => []
  | v :: rest => sortChanges v :: sortChangesOfItems rest

/-- The members of an object, each with its lists of changes in order. -/
def sortChangesOfMembers : List (String × Json) → List (String × Json)
  | [] => []
  | ("regen", .array changes) :: rest =>
    ("regen", .array (changes.mergeSort fun a b => a.compact ≤ b.compact)) ::
      sortChangesOfMembers rest
  | m :: rest => (m.1, sortChanges m.2) :: sortChangesOfMembers rest

end

/-- A text cut at every occurrence of another that is not empty. -/
def cutAt (mark : List Char) : (fuel : Nat) → (part : List Char) → List Char → List (List Char)
  | 0, part, rest => [part.reverse ++ rest]
  | _ + 1, part, [] => [part.reverse]
  | fuel + 1, part, c :: rest =>
    if mark.isPrefixOf (c :: rest) then
      part.reverse :: cutAt mark fuel [] ((c :: rest).drop mark.length)
    else cutAt mark fuel (c :: part) rest

/-- A text with every occurrence of one text replaced by another, and the number of occurrences. -/
def replaceAll (source target s : String) : String × Nat :=
  if source.isEmpty then
    (String.join (s.toList.map fun c => target ++ c.toString) ++ target, s.length + 1)
  else
    let parts := cutAt source.toList (s.length + 1) [] s.toList
    (target.intercalate (parts.map String.ofList), parts.length - 1)

/-- A text with the GUIDs in place of their masks. -/
def reveal (seen : Seen) (s : String) : String :=
  seen.zipIdx.foldl (fun s (guid, i) => (replaceAll (mask i) guid s).1) s

end RecordTables.Mask
