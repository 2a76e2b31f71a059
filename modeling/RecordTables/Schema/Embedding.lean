import RecordTables.Schema.Resolution

/-!
# Sub-structures that hold sub-structures

A sub-structure is stored inside its owner, so none may hold itself.  `Containment` is the graph
whose edges lead from a sub-structure to the type of each of its effective properties that is a
sub-structure and no list; `checkEmbedding` follows it from every sub-structure, in the order of
their names, and reports the first cycle it meets.
-/

namespace RecordTables.Schema

/-- For every sub-structure, the sub-structures that it holds. -/
abbrev Containment := List (String × List String)

namespace Containment

/-- The sub-structures that one holds. -/
def held (g : Containment) (name : String) : List String :=
  ((g.find? (fun e => e.1 == name)).map (·.2)).getD []

/-- How many sub-structures of the graph are not on a path. -/
def offPath (g : Containment) (path : List String) : Nat :=
  (g.map (·.1)).countP (fun n => !path.contains n)

theorem offPath_append_le (g : Containment) (path : List String) (name : String) :
    g.offPath (path ++ [name]) ≤ g.offPath path := by
  simp only [offPath]
  induction g.map (·.1) with
  | nil => simp
  | cons a l ih => grind

/-- Going on to a sub-structure that holds others and is not on the path yet leaves fewer off it. -/
theorem offPath_append_lt {g : Containment} {path : List String} {name : String}
    (hheld : g.held name ≠ []) (hp : path.contains name = false) :
    g.offPath (path ++ [name]) < g.offPath path := by
  have hmem : name ∈ g.map (·.1) := by
    simp only [held] at hheld
    cases hf : g.find? (fun e => e.1 == name) with
    | none => simp [hf] at hheld
    | some e =>
      have : e.1 = name := by simpa using List.find?_some hf
      exact List.mem_map.2 ⟨e, List.mem_of_find?_eq_some hf, this⟩
  have sub : ∀ l : List String,
      l.countP (fun n => !(path ++ [name]).contains n) ≤ l.countP (fun n => !path.contains n) := by
    intro l
    induction l with
    | nil => simp
    | cons a l ih => grind
  simp only [offPath]
  generalize g.map (·.1) = names at hmem
  induction names with
  | nil => simp at hmem
  | cons a l ih =>
    have := sub l
    rcases List.mem_cons.1 hmem with rfl | h
    · grind
    · have := ih h; grind

end Containment

/-- Follows the graph from `nodes`.  `path` leads to where they are held, `finished` are the
sub-structures already followed; the answer is those followed by then. -/
def followContainment (g : Containment) (path : List String) :
    (nodes finished : List String) → Except SchemaError (List String)
  | [], finished => .ok finished
  | node :: rest, finished =>
    if _hp : path.contains node then .error (.circularReference (closeCycle path node))
    else if finished.contains node then followContainment g path rest finished
    else
      match followContainment g (path ++ [node]) (g.held node) finished with
      | .error e => .error e
      | .ok finished => followContainment g path rest (node :: finished)
termination_by nodes => (g.offPath path, nodes.length)
decreasing_by
  · simp [Prod.lex_def]
  · rw [Prod.lex_def]
    by_cases h : g.held node = []
    · have := g.offPath_append_le path node
      simp only [h, List.length_cons, List.length_nil]
      omega
    · exact Or.inl (Containment.offPath_append_lt h (by simpa using _hp))
  · simp [Prod.lex_def]

/-- Whether a property holds a sub-structure, by its declaration. -/
def PropertyDeclaration.holdsStruct (d : Declarations) (p : PropertyDeclaration) : Bool :=
  !p.isList && (d.type? p.typeTag).any (fun t => t.kind == .struct) && (d.enum? p.typeTag).isNone

/-- The containment graph of the declared sub-structures, or the fault of one of their closures. -/
def containment (d : Declarations) (options : Options) : Except SchemaError Containment :=
  (d.types.filter (fun t => t.kind == .struct)).mapM fun t =>
    (effectiveProperties d options t).map fun properties =>
      (t.name, (properties.filter (·.holdsStruct d)).map (·.typeTag))

/-- Fails if some sub-structure holds itself. -/
def checkEmbedding (d : Declarations) (options : Options) : Except SchemaError Unit :=
  match containment d options with
  | .error e => .error e
  | .ok g =>
    (followContainment g [] ((g.map (·.1)).mergeSort (fun a b => decide (a ≤ b))) []).map
      (fun _ => ())

end RecordTables.Schema
