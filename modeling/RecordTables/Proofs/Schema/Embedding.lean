import Mathlib.Data.List.Nodup
import Mathlib.Data.List.Perm.Subperm
import RecordTables.Proofs.Schema.Resolution
import RecordTables.Schema.Embedding

/-!
# No sub-structure holds itself

Following the containment graph without meeting a circle puts the sub-structures in an order in
which each stands in front of those that it holds (`Schema.exists_ordered_of_checkEmbedding`).  The
graph has an edge for every resolved property that holds a single sub-structure
(`Schema.holdsStruct_of_resolve`), so whatever goes down from a sub-structure into those that it
holds comes to an end, and no deeper than there are sub-structures.
-/

namespace RecordTables.Schema

variable {d : Declarations} {options : Options} {owner t : TypeDeclaration}
  {p : PropertyDeclaration} {q : Property} {g : Containment}

/-! ### Following the graph -/

namespace Containment

/-- Every sub-structure of a list holds only such as stand behind it, and none is there twice. -/
inductive Ordered (g : Containment) : List String → Prop where
  | nil : Ordered g []
  | cons {node : String} {rest : List String} (hheld : ∀ n ∈ g.held node, n ∈ rest)
      (hnew : node ∉ rest) (h : Ordered g rest) : Ordered g (node :: rest)

theorem Ordered.nodup {order : List String} (h : g.Ordered order) : order.Nodup := by
  induction h with
  | nil => exact List.nodup_nil
  | cons _ hnew _ ih => exact List.nodup_cons.2 ⟨hnew, ih⟩

/-- What following the graph from some nodes leads to, given what was followed before. -/
structure Follows (g : Containment) (path nodes before after : List String) : Prop where
  ordered : g.Ordered before → g.Ordered after
  closed : ∀ names : List String, (∀ n, g.held n ⊆ names) → nodes ⊆ names → before ⊆ names →
    after ⊆ names
  /-- What leads to the nodes is not followed to its end below them. -/
  path : ∀ n ∈ path, n ∉ before → n ∉ after
  nodes : nodes ⊆ after
  before : before ⊆ after

end Containment

open Containment in
theorem follows_of_followContainment {path nodes finished finished' : List String}
    (h : followContainment g path nodes finished = .ok finished') :
    Follows g path nodes finished finished' := by
  induction path, nodes, finished using followContainment.induct (g := g)
      generalizing finished' with
  | case1 path finished =>
    rw [followContainment] at h
    rw [← Except.ok.inj h]
    exact ⟨id, fun _ _ _ => id, fun _ _ => id, List.nil_subset _, List.Subset.refl _⟩
  | case2 path node rest finished hp =>
    rw [followContainment, dif_pos hp] at h
    cases h
  | case3 path node rest finished hp hfinished ih =>
    rw [followContainment, dif_neg hp, if_pos hfinished] at h
    obtain ⟨hordered, hclosed, hpath, hnodes, hstays⟩ := ih h
    refine ⟨hordered, fun names hheld hnames => ?_, hpath, List.cons_subset.2 ⟨?_, hnodes⟩, hstays⟩
    · exact hclosed names hheld (List.cons_subset.1 hnames).2
    · exact hstays (List.contains_iff_mem.1 hfinished)
  | case4 path node rest finished hp hfinished e herror ih =>
    rw [followContainment, dif_neg hp, if_neg hfinished, herror] at h
    cases h
  | case5 path node rest finished hp hfinished below hbelow ihbelow ih =>
    rw [followContainment, dif_neg hp, if_neg hfinished, hbelow] at h
    have hunder := ihbelow hbelow
    have hrest := ih h
    -- while the node is followed it stands on the path, so it is not finished below itself
    have hnode : node ∉ below :=
      hunder.path node (List.mem_append_right _ List.mem_cons_self) fun hmem =>
        hfinished (List.contains_iff_mem.2 hmem)
    constructor
    case ordered =>
      intro hordered
      exact hrest.ordered (.cons hunder.nodes hnode (hunder.ordered hordered))
    case closed =>
      intro names hheld hnames hold
      obtain ⟨hnode, hnames⟩ := List.cons_subset.1 hnames
      refine hrest.closed names hheld hnames (List.cons_subset.2 ⟨hnode, ?_⟩)
      exact hunder.closed names hheld (hheld node) hold
    case path =>
      intro n hn hnew
      refine hrest.path n hn fun hmem => ?_
      rcases List.mem_cons.1 hmem with rfl | hmem
      · exact hp (List.contains_iff_mem.2 hn)
      · exact hunder.path n (List.mem_append_left _ hn) hnew hmem
    case nodes =>
      exact List.cons_subset.2 ⟨hrest.before List.mem_cons_self, hrest.nodes⟩
    case before =>
      exact fun n hn => hrest.before (List.mem_cons_of_mem _ (hunder.before hn))

/-! ### The graph of the declarations -/

/-- The names of the declared sub-structures. -/
def Declarations.structNames (d : Declarations) : List String :=
  (d.types.filter fun t => t.kind == .struct).map (·.name)

theorem Declarations.mem_structNames {name : String} (h : d.type? name = some t)
    (hkind : t.kind = .struct) : name ∈ d.structNames := by
  rw [← name_of_type? h]
  exact List.mem_map_of_mem
    (List.mem_filter.2 ⟨List.mem_of_find?_eq_some h, beq_iff_eq.2 hkind⟩)

/-- The nodes of the graph are the declared sub-structures. -/
theorem nodes_of_containment (h : containment d options = .ok g) :
    g.map (·.1) = d.structNames := by
  refine List.forall₂_eq_eq_eq ▸ ?_
  unfold Declarations.structNames
  rw [List.forall₂_map_left_iff, List.forall₂_map_right_iff]
  refine (mapM_eq_ok.1 h).flip.imp fun e t he => ?_
  obtain ⟨properties, -, rfl⟩ := map_eq_ok.1 he
  rfl

/-- What a node of the graph holds. -/
theorem exists_of_mem_containment (h : containment d options = .ok g)
    {e : String × List String} (he : e ∈ g) :
    ∃ t ∈ d.types, t.kind = .struct ∧ ∃ properties, effectiveProperties d options t = .ok properties ∧
      e = (t.name, (properties.filter (·.holdsStruct d)).map (·.typeTag)) := by
  obtain ⟨t, ht, he⟩ := exists_of_mem_mapM h he
  obtain ⟨ht, hkind⟩ := List.mem_filter.1 ht
  obtain ⟨properties, hproperties, rfl⟩ := map_eq_ok.1 he
  exact ⟨t, ht, beq_iff_eq.1 hkind, properties, hproperties, rfl⟩

/-- Whatever is held is a declared sub-structure. -/
theorem held_subset_structNames (h : containment d options = .ok g) (name : String) :
    g.held name ⊆ d.structNames := by
  intro m hm
  unfold Containment.held at hm
  cases hfind : g.find? fun e => e.1 == name with
  | none =>
    rw [hfind] at hm
    cases hm
  | some e =>
    rw [hfind] at hm
    obtain ⟨t, -, -, properties, -, rfl⟩ :=
      exists_of_mem_containment h (List.mem_of_find?_eq_some hfind)
    obtain ⟨p, hp, rfl⟩ := List.mem_map.1 hm
    have hholds := (List.mem_filter.1 hp).2
    unfold PropertyDeclaration.holdsStruct at hholds
    rw [Bool.and_eq_true, Bool.and_eq_true, Option.any_eq_true] at hholds
    obtain ⟨u, hu, hkind⟩ := hholds.1.2
    exact Declarations.mem_structNames hu (beq_iff_eq.1 hkind)

/-- A declared sub-structure holds what its effective properties hold. -/
theorem held_of_containment (hnames : (d.types.map (·.name)).Nodup)
    (h : containment d options = .ok g) (ht : t ∈ d.types) (hkind : t.kind = .struct)
    {properties : List PropertyDeclaration}
    (hproperties : effectiveProperties d options t = .ok properties) :
    g.held t.name = (properties.filter (·.holdsStruct d)).map (·.typeTag) := by
  have hnode : t.name ∈ g.map (·.1) := by
    rw [nodes_of_containment h]
    exact List.mem_map_of_mem (List.mem_filter.2 ⟨ht, beq_iff_eq.2 hkind⟩)
  obtain ⟨e, he, hname⟩ := List.mem_map.1 hnode
  have hsome : (g.find? fun e => e.1 == t.name).isSome = true :=
    List.find?_isSome.2 ⟨e, he, beq_iff_eq.2 hname⟩
  obtain ⟨found, hfound⟩ := Option.isSome_iff_exists.1 hsome
  obtain ⟨u, hu, -, properties', hproperties', rfl⟩ :=
    exists_of_mem_containment h (List.mem_of_find?_eq_some hfound)
  have hfoundName := List.find?_some hfound
  have hsame : u = t := List.inj_on_of_nodup_map hnames hu ht (beq_iff_eq.1 hfoundName)
  unfold Containment.held
  rw [hsame, hproperties] at hproperties'
  rw [hfound, Except.ok.inj hproperties']
  rfl

/-- **No circle.**  If no sub-structure holds itself, they have an order in which each stands in
front of those that it holds. -/
theorem exists_ordered_of_checkEmbedding {u : Unit} (h : checkEmbedding d options = .ok u) :
    ∃ g order, containment d options = .ok g ∧ g.Ordered order ∧
      ∀ name, name ∈ order ↔ name ∈ d.structNames := by
  unfold checkEmbedding at h
  split at h
  · cases h
  next g hg =>
  obtain ⟨order, horder, -⟩ := map_eq_ok.1 h
  have hfollows := follows_of_followContainment horder
  have hsorted : ∀ name, name ∈ (g.map (·.1)).mergeSort (fun a b => decide (a ≤ b)) ↔
      name ∈ d.structNames := by
    intro name
    rw [List.mem_mergeSort, nodes_of_containment hg]
  refine ⟨g, order, hg, hfollows.ordered .nil, fun name => ⟨fun hmem => ?_, fun hmem => ?_⟩⟩
  · exact hfollows.closed d.structNames (held_subset_structNames hg)
      (fun n hn => (hsorted n).1 hn) (List.nil_subset _) hmem
  · exact hfollows.nodes ((hsorted name).2 hmem)

/-- There are no more sub-structures in such an order than there are types. -/
theorem length_le_of_ordered {order : List String} (h : g.Ordered order)
    (hnames : ∀ name ∈ order, name ∈ d.structNames) : order.length ≤ d.types.length := by
  have hle := (List.subperm_of_subset h.nodup hnames).length_le
  unfold Declarations.structNames at hle
  rw [List.length_map] at hle
  exact Nat.le_trans hle (List.length_filter_le _ _)

/-! ### What is resolved to a sub-structure -/

theorem rule_of_element?_embedded {rule : Rule} {typeTag target : String}
    (h : rule.element? d options typeTag = some (.embedded target)) :
    rule = .nestedReference ∧ typeTag = target := by
  cases rule with
  | identifier => cases h
  | string | localizedText | asset =>
    dsimp only [Rule.element?] at h
    split_ifs at h
    cases h
  | enum | scalar | time | multiComponent =>
    obtain ⟨kind, -, hkind⟩ := Option.map_eq_some_iff.1 h
    cases hkind
  | nestedReference =>
    dsimp only [Rule.element?] at h
    split at h
    · cases h
    · next name parents properties ht =>
      cases h
      exact ⟨rfl, (Declarations.name_of_type? ht).symm⟩
    · cases h

/-- A type tag has the category of a sub-structure only if no enum has its name. -/
theorem elementOf?_eq_embedded {typeTag target : String}
    (h : elementOf? d options typeTag = some (.embedded target)) :
    typeTag = target ∧ d.enum? typeTag = none := by
  obtain ⟨rule, -, hrule⟩ := List.exists_of_findSome?_eq_some h
  refine ⟨(rule_of_element?_embedded hrule).2, ?_⟩
  have hsplit : Rule.unconditional ++ [.asset] = [.string, .localizedText, .enum] ++
      [.scalar, .time, .nestedReference, .multiComponent, .asset] := rfl
  unfold elementOf? at h
  rw [hsplit, List.findSome?_append] at h
  cases hfront : [Rule.string, .localizedText, .enum].findSome? (Rule.element? d options typeTag) with
  | none =>
    have henum := List.findSome?_eq_none_iff.1 hfront .enum (by decide)
    exact Option.map_eq_none_iff.1 henum
  | some vt =>
    rw [hfront, Option.some_or] at h
    obtain ⟨front, hmem, hfound⟩ := List.exists_of_findSome?_eq_some (hfront.trans h)
    rw [(rule_of_element?_embedded hfound).1] at hmem
    exact absurd hmem (by decide)

/-- **Edges of the graph.**  A property that resolves to a single sub-structure holds it by its
declaration. -/
theorem holdsStruct_of_resolve {target : String} (h : resolve d options owner p = .ok q)
    (hshape : q.shape = .single (.embedded target)) :
    p.holdsStruct d = true ∧ p.typeTag = target := by
  have helement : q.shape.element? = some (.embedded target) := by
    rw [hshape]
    rfl
  obtain ⟨u, hu, hkind⟩ := isDeclared_of_resolve h helement
  obtain ⟨-, ⟨-, hid⟩ | ⟨-, vt, hvt, hsingle⟩⟩ := resolve_eq_ok_iff.1 h
  · rw [hshape] at hid
    cases hid
  rw [hshape] at hsingle
  cases hlist : p.isList with
  | true =>
    rw [hlist] at hsingle
    cases hsingle
  | false =>
    rw [hlist] at hsingle
    obtain rfl : ValueType.embedded target = vt := Shape.single.inj hsingle
    obtain ⟨rfl, henum⟩ := elementOf?_eq_embedded hvt
    refine ⟨?_, rfl⟩
    unfold PropertyDeclaration.holdsStruct
    rw [hlist, hu, henum, Option.any_some, hkind]
    rfl

end RecordTables.Schema
