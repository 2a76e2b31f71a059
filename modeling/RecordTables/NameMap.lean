/-!
# Maps from names, in the order of the names

Several tables of the library are shown, hashed or written in the order of their names: the cells of
a row, the values of a record, the record sets of a catalog.  `NameMap α` is the list of entries
sorted strictly by name, so the order in which entries were put in is forgotten.  Names compare by
code point, which is also the order of their UTF-8 bytes.  `find?_insert` and `find?_erase` say what
the two changes do to a look-up.
-/

namespace RecordTables

/-- A finite map from names to `α`.  The entries are strictly ascending in the name. -/
structure NameMap (α : Type) where
  /-- Name and content, in the order of the names. -/
  entries : List (String × α)
  /-- No name occurs twice, and the names ascend. -/
  sorted : entries.Pairwise (fun a b => a.1 < b.1)

namespace NameMap

variable {α β : Type}

/-- The map without entries. -/
def empty : NameMap α := ⟨[], .nil⟩

instance : EmptyCollection (NameMap α) := ⟨empty⟩

instance : Inhabited (NameMap α) := ⟨empty⟩

instance [DecidableEq α] : DecidableEq (NameMap α) := fun a b =>
  if h : a.entries = b.entries then
    isTrue (by cases a; cases b; simp_all)
  else
    isFalse (by intro e; exact h (by rw [e]))

/-! ### Insertion -/

/-- Puts an entry at its place in a sorted list, in place of an entry of the same name. -/
def insertEntry (name : String) (x : α) : List (String × α) → List (String × α)
  | [] => [(name, x)]
  | e :: rest =>
    if name < e.1 then (name, x) :: e :: rest
    else if name = e.1 then (name, x) :: rest
    else e :: insertEntry name x rest

theorem mem_insertEntry {name : String} {x : α} {p : String × α} {l : List (String × α)}
    (h : p ∈ insertEntry name x l) : p = (name, x) ∨ p ∈ l := by
  induction l with
  | nil => simpa [insertEntry] using h
  | cons e rest ih => grind [insertEntry]

theorem insertEntry_ne_nil (name : String) (x : α) (l : List (String × α)) :
    insertEntry name x l ≠ [] := by
  cases l with
  | nil => exact List.cons_ne_nil _ _
  | cons e rest =>
    unfold insertEntry
    split
    · exact List.cons_ne_nil _ _
    · split <;> exact List.cons_ne_nil _ _

theorem sorted_insertEntry (name : String) (x : α) {l : List (String × α)}
    (h : l.Pairwise (fun a b => a.1 < b.1)) :
    (insertEntry name x l).Pairwise (fun a b => a.1 < b.1) := by
  induction l with
  | nil => simp [insertEntry]
  | cons e rest ih =>
    rw [List.pairwise_cons] at h
    unfold insertEntry
    split
    · next hlt =>
      refine List.pairwise_cons.2 ⟨?_, List.pairwise_cons.2 h⟩
      intro p hp
      rcases List.mem_cons.1 hp with rfl | hp
      · exact hlt
      · exact String.lt_trans hlt (h.1 p hp)
    · next hnlt =>
      split
      · next heq =>
        refine List.pairwise_cons.2 ⟨?_, h.2⟩
        intro p hp
        simpa [heq] using h.1 p hp
      · next hne =>
        refine List.pairwise_cons.2 ⟨?_, ih h.2⟩
        intro p hp
        rcases mem_insertEntry hp with rfl | hp
        · exact Std.lt_of_le_of_ne (Std.not_lt.1 hnlt) (fun e => hne e.symm)
        · exact h.1 p hp

/-- The map with `x` under `name`, in place of what was there. -/
def insert (m : NameMap α) (name : String) (x : α) : NameMap α :=
  ⟨insertEntry name x m.entries, sorted_insertEntry name x m.sorted⟩

/-- The map of a list of entries.  Of two entries with one name the later one stays. -/
def ofList (l : List (String × α)) : NameMap α :=
  l.foldl (fun m e => m.insert e.1 e.2) empty

/-- The entries of both maps; those of `other` count where a name is in both. -/
def override (m other : NameMap α) : NameMap α :=
  other.entries.foldl (fun m e => m.insert e.1 e.2) m

/-! ### Looking up and leaving out -/

/-- The content under a name. -/
def find? (m : NameMap α) (name : String) : Option α :=
  (m.entries.find? (fun e => e.1 == name)).map (·.2)

/-- Whether there is an entry of this name. -/
def contains (m : NameMap α) (name : String) : Bool :=
  m.entries.any (fun e => e.1 == name)

/-- The map without the entry of this name. -/
def erase (m : NameMap α) (name : String) : NameMap α :=
  ⟨m.entries.filter (fun e => e.1 != name), m.sorted.filter _⟩

/-- The names, in order. -/
def names (m : NameMap α) : List String := m.entries.map (·.1)

/-- The contents, in the order of their names. -/
def values (m : NameMap α) : List α := m.entries.map (·.2)

/-- The number of entries. -/
def size (m : NameMap α) : Nat := m.entries.length

/-- Whether there is no entry. -/
def isEmpty (m : NameMap α) : Bool := m.entries.isEmpty

/-- Changes every content and keeps the names. -/
def map (f : α → β) (m : NameMap α) : NameMap β :=
  ⟨m.entries.map (fun e => (e.1, f e.2)), by
    rw [List.pairwise_map]; exact m.sorted⟩

/-! ### What the operations do to `find?` -/

@[simp] theorem find?_empty (name : String) : (empty : NameMap α).find? name = none := rfl

theorem find?_insertEntry (name other : String) (x : α) (l : List (String × α)) :
    (insertEntry name x l).find? (fun e => e.1 == other) =
      if name = other then some (name, x) else l.find? (fun e => e.1 == other) := by
  induction l with
  | nil => by_cases h : name = other <;> simp [insertEntry, h]
  | cons e rest ih => grind [insertEntry]

/-- Inserting changes the content under its own name and under no other. -/
theorem find?_insert (m : NameMap α) (name other : String) (x : α) :
    (m.insert name x).find? other = if name = other then some x else m.find? other := by
  simp only [find?, insert, find?_insertEntry]
  split <;> simp

/-- Erasing empties its own name and no other. -/
theorem find?_erase (m : NameMap α) (name other : String) :
    (m.erase name).find? other = if name = other then none else m.find? other := by
  simp only [find?, erase]
  induction m.entries with
  | nil => simp
  | cons e rest ih => grind

end NameMap

end RecordTables
