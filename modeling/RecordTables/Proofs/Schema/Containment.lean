import Mathlib
import RecordTables.Proofs.Outcome
import RecordTables.Proofs.Schema.Circles
import RecordTables.Proofs.Schema.Embedding

/-!
# Which sub-structures hold themselves

`checkEmbedding_exact`: sub-structures pass the check exactly if none holds itself, in one step or
through others (`Declarations.Holds`), and if they do not pass it, the fault names a circle.

That an accepted graph has no circle comes from the order in which the walk has left its nodes
(`Containment.Ordered.not_transGen`): every edge goes on in it, and none goes back.  That a refused
graph has one comes from the way down, which the walk keeps as its path
(`isCircle_of_followContainment`).

A property holds a sub-structure if its type tag is the name of one, and embeds it if it resolves to
it (`Declarations.Embeds`).  The rules come to the declared types only after the texts, the enums,
the scalars and the times, so a tag that is one of theirs (`IsBuiltin`) is never a sub-structure,
even if one has this name.  `checkEmbedding_builtin`: the graph that is searched for circles has the
edges of the embedding, and besides them only such as lead to a sub-structure with a built-in name.
Every circle of the embedding is found, and a circle that is reported is one of the embedding unless
a built-in name is on it.
-/

namespace RecordTables.Schema

open Relation

variable {d : Declarations} {options : Options} {t : TypeDeclaration} {g : Containment}
  {order path nodes finished : List String} {name other : String} {e : SchemaError}

/-! ### Declarations with names of their own -/

namespace Declarations

/-- What adding types and enums leads to. -/
inductive IsAssembled : Declarations → Prop where
  | empty : IsAssembled .empty
  | addType {d d' : Declarations} {t : TypeDeclaration} (h : IsAssembled d)
      (hadd : d.addType? t = some d') : IsAssembled d'
  | addEnum {d d' : Declarations} {e : EnumDeclaration} (h : IsAssembled d)
      (hadd : d.addEnum? e = some d') : IsAssembled d'

/-- No two types that were added have one name. -/
theorem IsAssembled.names (h : d.IsAssembled) : (d.types.map (·.name)).Nodup := by
  induction h with
  | empty => exact List.nodup_nil
  | @addType d d' t h hadd ih =>
    unfold addType? at hadd
    split at hadd
    · cases hadd
    next hnew =>
    obtain rfl := Option.some.inj hadd
    -- a type is added under a name that none has
    have hfree : t.name ∉ d.types.map (·.name) := by
      intro hmem
      obtain ⟨u, hu, hname⟩ := List.mem_map.1 hmem
      have hfound : (d.type? t.name).isSome = true := by
        rw [← hname]
        exact exists_type?_of_mem hu
      refine hnew ?_
      unfold isDeclared
      rw [hfound, Bool.true_or]
    rw [List.map_append, List.map_singleton, ← List.concat_eq_append]
    exact ih.concat hfree
  | addEnum h hadd ih =>
    unfold addEnum? at hadd
    split at hadd
    · cases hadd
    · obtain rfl := Option.some.inj hadd
      exact ih

/-- Each type is the one of its name. -/
theorem IsAssembled.type?_of_mem (h : d.IsAssembled) (ht : t ∈ d.types) :
    d.type? t.name = some t :=
  type?_of_nodup h.names ht

theorem isDeclared_eq_false {n : String} (h : ¬d.isDeclared n = true) :
    d.type? n = none ∧ d.enum? n = none := by
  unfold isDeclared at h
  rw [Bool.or_eq_true, not_or] at h
  exact ⟨Option.not_isSome_iff_eq_none.1 h.1, Option.not_isSome_iff_eq_none.1 h.2⟩

/-- No type and enum that were added have one name. -/
theorem IsAssembled.enum?_eq_none (h : d.IsAssembled) {n : String}
    (hn : (d.type? n).isSome = true) : d.enum? n = none := by
  induction h with
  | empty => rfl
  | @addType d d' t h hadd ih =>
    unfold addType? at hadd
    split at hadd
    · cases hadd
    next hnew =>
    obtain rfl := Option.some.inj hadd
    unfold type? at hn
    rw [List.find?_append] at hn
    cases hold : d.type? n with
    | some u => exact ih (by rw [hold]; rfl)
    | none =>
      -- the name is that of the added type, and no enum had it
      have hname : t.name = n := by
        unfold type? at hold
        rw [hold, Option.none_or, List.find?_isSome] at hn
        obtain ⟨u, hu, hname⟩ := hn
        rw [← List.mem_singleton.1 hu]
        exact beq_iff_eq.1 hname
      rw [hname] at hnew
      exact (isDeclared_eq_false hnew).2
  | @addEnum d d' e h hadd ih =>
    unfold addEnum? at hadd
    split at hadd
    · cases hadd
    next hnew =>
    obtain rfl := Option.some.inj hadd
    -- a type has the name, so the added enum has another one
    have hne : ¬(e.name == n) = true := by
      intro hname
      rw [beq_iff_eq] at hname
      rw [hname] at hnew
      have hnone := (isDeclared_eq_false hnew).1
      unfold type? at hn hnone
      rw [hnone] at hn
      cases hn
    have hlast : [e].find? (fun e => e.name == n) = none := List.find?_cons_of_neg hne
    unfold enum?
    rw [List.find?_append, hlast, Option.or_none]
    exact ih hn

/-- A sub-structure has a property that is a single sub-structure of a name, of its own or taken
over. -/
def Holds (d : Declarations) (options : Options) (name held : String) : Prop :=
  ∃ t properties p u, d.type? name = some t ∧ t.kind = .struct ∧
    effectiveProperties d options t = .ok properties ∧ p ∈ properties ∧ p.isList = false ∧
      p.typeTag = held ∧ d.type? held = some u ∧ u.kind = .struct

end Declarations

/-! ### The graph -/

namespace Containment

/-- What is held from a sub-structure of the order on is in the order. -/
theorem Ordered.mem_of_reflTransGen (h : g.Ordered order) (hname : name ∈ order)
    (hreach : ReflTransGen (fun a b => b ∈ g.held a) name other) : other ∈ order := by
  induction h generalizing name with
  | nil => cases hname
  | cons hheld _ _ ih =>
    rcases List.mem_cons.1 hname with rfl | hname
    · rcases ReflTransGen.cases_head hreach with rfl | ⟨next, hnext, hreach⟩
      · exact List.mem_cons_self
      · exact List.mem_cons_of_mem _ (ih (hheld next hnext) hreach)
    · exact List.mem_cons_of_mem _ (ih hname hreach)

/-- **No way back.**  Nothing in the order holds itself. -/
theorem Ordered.not_transGen (h : g.Ordered order) (hname : name ∈ order) :
    ¬TransGen (fun a b => b ∈ g.held a) name name := by
  induction h with
  | nil => cases hname
  | @cons node rest hheld hnew hrest ih =>
    rcases List.mem_cons.1 hname with rfl | hname
    · -- what comes next stands behind the name, and so does all that comes after it
      intro hcircle
      obtain ⟨next, hnext, hback⟩ := TransGen.head'_iff.1 hcircle
      exact hnew (hrest.mem_of_reflTransGen (hheld next hnext) hback)
    · exact ih hname

end Containment

/-- **Where the walk stops.**  It reports a circle of the graph. -/
theorem isCircle_of_followContainment
    (hleads : Leads (fun a b => b ∈ g.held a) path nodes)
    (h : followContainment g path nodes finished = .error e) :
    ∃ circle, e = .circularReference circle ∧ IsCircle (fun a b => b ∈ g.held a) circle := by
  induction path, nodes, finished using followContainment.induct (g := g) with
  | case1 path finished =>
    rw [followContainment] at h
    cases h
  | case2 path node rest finished hp =>
    rw [followContainment, dif_pos hp] at h
    obtain rfl := Except.error.inj h
    exact ⟨_, rfl, hleads.isCircle_closeCycle (List.contains_iff_mem.1 hp)⟩
  | case3 path node rest finished hp hfinished ih =>
    rw [followContainment, dif_neg hp, if_pos hfinished] at h
    exact ih hleads.tail h
  | case4 path node rest finished hp hfinished e' herror ih =>
    rw [followContainment, dif_neg hp, if_neg hfinished, herror] at h
    obtain rfl := Except.error.inj h
    have hnew : node ∉ path := mt List.contains_iff_mem.2 hp
    exact ih (hleads.append hnew fun n hn => hn) herror
  | case5 path node rest finished hp hfinished below hbelow _ ih =>
    rw [followContainment, dif_neg hp, if_neg hfinished, hbelow] at h
    exact ih hleads.tail h

/-! ### The check -/

/-- A property holds a sub-structure if its type tag is the name of one. -/
theorem holdsStruct_iff (hd : d.IsAssembled) (p : PropertyDeclaration) :
    p.holdsStruct d = true ↔
      p.isList = false ∧ ∃ u, d.type? p.typeTag = some u ∧ u.kind = .struct := by
  unfold PropertyDeclaration.holdsStruct
  rw [Bool.and_eq_true, Bool.and_eq_true, Bool.not_eq_true', Option.any_eq_true]
  constructor
  · rintro ⟨⟨hlist, u, hu, hkind⟩, -⟩
    exact ⟨hlist, u, hu, beq_iff_eq.1 hkind⟩
  · rintro ⟨hlist, u, hu, hkind⟩
    have hnone : d.enum? p.typeTag = none := hd.enum?_eq_none (by rw [hu]; rfl)
    exact ⟨⟨hlist, u, hu, beq_iff_eq.2 hkind⟩, by rw [hnone]; rfl⟩

/-- The graph has an edge wherever one sub-structure holds another. -/
theorem mem_held_iff (hd : d.IsAssembled) (hg : containment d options = .ok g) :
    other ∈ g.held name ↔ d.Holds options name other := by
  constructor
  · intro hmem
    have hheld := hmem
    unfold Containment.held at hmem
    cases hfind : g.find? fun e => e.1 == name with
    | none =>
      rw [hfind] at hmem
      cases hmem
    | some e =>
      rw [hfind] at hmem
      obtain ⟨t, ht, hkind, properties, hproperties, rfl⟩ :=
        exists_of_mem_containment hg (List.mem_of_find?_eq_some hfind)
      have hname := List.find?_some hfind
      obtain rfl : t.name = name := beq_iff_eq.1 hname
      obtain ⟨p, hp, rfl⟩ := List.mem_map.1 hmem
      obtain ⟨hp, hholds⟩ := List.mem_filter.1 hp
      obtain ⟨hlist, u, hu, hstruct⟩ := (holdsStruct_iff hd p).1 hholds
      exact ⟨t, properties, p, u, hd.type?_of_mem ht, hkind, hproperties, hp, hlist, rfl, hu, hstruct⟩
  · rintro ⟨t, properties, p, u, ht, hkind, hproperties, hp, hlist, rfl, hu, hstruct⟩
    obtain rfl : t.name = name := Declarations.name_of_type? ht
    rw [held_of_containment hd.names hg (List.mem_of_find?_eq_some ht) hkind hproperties]
    refine List.mem_map_of_mem (List.mem_filter.2 ⟨hp, ?_⟩)
    exact (holdsStruct_iff hd p).2 ⟨hlist, u, hu, hstruct⟩

/-- There is a graph if the properties of every sub-structure are found. -/
theorem exists_containment
    (heffective : ∀ t ∈ d.types, t.kind = .struct →
      ∃ properties, effectiveProperties d options t = .ok properties) :
    ∃ g, containment d options = .ok g := by
  unfold containment
  refine exists_mapM_eq_ok fun t ht => ?_
  obtain ⟨ht, hkind⟩ := List.mem_filter.1 ht
  obtain ⟨properties, hproperties⟩ := heffective t ht (beq_iff_eq.1 hkind)
  exact ⟨_, map_eq_ok.2 ⟨properties, hproperties, rfl⟩⟩

/-- **The check is exact.**  If the properties of all sub-structures are found, then the check passes
exactly if no sub-structure holds itself, in one step or through others.  If it does not pass, it
reports sub-structures of which each holds the next, from one round to the same one again. -/
theorem checkEmbedding_exact (hd : d.IsAssembled)
    (heffective : ∀ t ∈ d.types, t.kind = .struct →
      ∃ properties, effectiveProperties d options t = .ok properties) :
    (checkEmbedding d options = .ok () ↔ ∀ name, ¬TransGen (d.Holds options) name name) ∧
      ∀ e, checkEmbedding d options = .error e →
        ∃ path, e = .circularReference path ∧ IsCircle (d.Holds options) path := by
  obtain ⟨g, hg⟩ := exists_containment heffective
  -- the graph that is walked has what the declarations say is held
  have hedge : (fun a b => b ∈ g.held a) = d.Holds options := by
    funext a b
    exact propext (mem_held_iff hd hg)
  have hfault : ∀ e, checkEmbedding d options = .error e →
      ∃ path, e = .circularReference path ∧ IsCircle (d.Holds options) path := by
    intro e herror
    unfold checkEmbedding at herror
    rw [hg] at herror
    rw [← hedge]
    exact isCircle_of_followContainment (leads_nil _ _) (map_eq_error.1 herror)
  refine ⟨⟨fun hok name hcircle => ?_, fun hacyclic => ?_⟩, hfault⟩
  -- a check that passes finds an order, and a circle cannot go along an order
  · obtain ⟨g', order, hg', horder, hall⟩ := exists_ordered_of_checkEmbedding hok
    obtain rfl : g = g' := Except.ok.inj (hg.symm.trans hg')
    obtain ⟨next, ⟨t, -, -, -, ht, hkind, -⟩, -⟩ := TransGen.head'_iff.1 hcircle
    have hmem : name ∈ order := (hall name).2 (Declarations.mem_structNames ht hkind)
    rw [← hedge] at hcircle
    exact horder.not_transGen hmem hcircle
  · cases hcheck : checkEmbedding d options with
    | ok u => rfl
    | error e =>
      -- a check that fails has found a circle
      obtain ⟨path, -, hcircle⟩ := hfault e hcheck
      have hlength := hcircle.length
      obtain ⟨name, hname⟩ := List.exists_mem_of_length_pos (l := path) (by omega)
      exact absurd (hcircle.transGen hname) (hacyclic name)

/-- Names that are in order are followed as they stand. -/
theorem checkEmbedding_of_sorted (hg : containment d options = .ok g)
    (hsorted : (g.map (·.1)).Pairwise fun a b => decide (a ≤ b)) :
    checkEmbedding d options = (followContainment g [] (g.map (·.1)) []).map fun _ => () := by
  unfold checkEmbedding
  rw [hg]
  dsimp only
  rw [List.mergeSort_of_pairwise hsorted]

/-- A chest can be locked. -/
def chest : TypeDeclaration := ⟨"Chest", .struct, ["Lockable"], [⟨"gold", "i32", false⟩]⟩

/-- A lock knows many chests, or one. -/
def lock (many : Bool) : TypeDeclaration := ⟨"Lock", .struct, [], [⟨"chests", "Chest", many⟩]⟩

/-- Whatever can be locked has a lock. -/
def lockable : TypeDeclaration := ⟨"Lockable", .struct, [], [⟨"lock", "Lock", false⟩]⟩

def chestTypes (many : Bool) : Declarations := ⟨[chest, lock many, lockable], []⟩

/-- A list of chests closes no circle, and a single chest does. -/
theorem checkEmbedding_chestTypes :
    (∀ many, (chestTypes many).IsAssembled) ∧
      (∀ name, ¬TransGen ((chestTypes true).Holds .standard) name name) ∧
        ∃ path, IsCircle ((chestTypes false).Holds .standard) path := by
  have hassembled : ∀ many, (chestTypes many).IsAssembled := by
    intro many
    have hchest : Declarations.IsAssembled ⟨[chest], []⟩ := .addType .empty (t := chest) rfl
    have hlock : Declarations.IsAssembled ⟨[chest, lock many], []⟩ :=
      .addType hchest (t := lock many) rfl
    exact .addType hlock (t := lockable) rfl
  have hrun : ∀ many, (chestTypes many).types.all
      (fun t => (effectiveProperties (chestTypes many) .standard t).isOk) = true := by
    intro many
    cases many with
    | false => cbv
    | true => cbv
  have heffective : ∀ many, ∀ t ∈ (chestTypes many).types, t.kind = .struct →
      ∃ properties, effectiveProperties (chestTypes many) .standard t = .ok properties := by
    intro many t ht _
    have hok := List.all_eq_true.1 (hrun many) t ht
    cases hfound : effectiveProperties (chestTypes many) .standard t with
    | ok properties => exact ⟨properties, rfl⟩
    | error e =>
      rw [hfound] at hok
      cases hok
  refine ⟨hassembled, ?_, ?_⟩
  · have hgraph : containment (chestTypes true) .standard =
        .ok [("Chest", ["Lock"]), ("Lock", []), ("Lockable", ["Lock"])] := by cbv
    have hpass : checkEmbedding (chestTypes true) .standard = .ok () := by
      rw [checkEmbedding_of_sorted hgraph (by decide)]
      cbv
    exact (checkEmbedding_exact (hassembled true) (heffective true)).1.1 hpass
  · have hgraph : containment (chestTypes false) .standard =
        .ok [("Chest", ["Lock"]), ("Lock", ["Chest"]), ("Lockable", ["Lock"])] := by cbv
    have hrefused : checkEmbedding (chestTypes false) .standard =
        .error (.circularReference ["Chest", "Lock", "Chest"]) := by
      rw [checkEmbedding_of_sorted hgraph (by decide)]
      cbv
    obtain ⟨path, -, hcircle⟩ :=
      (checkEmbedding_exact (hassembled false) (heffective false)).2 _ hrefused
    exact ⟨path, hcircle⟩

/-! ### Sub-structures that are named like built-in types -/

variable {owner : TypeDeclaration} {p : PropertyDeclaration} {q : Property}
  {typeTag target : String}

/-- A type tag that a rule in front of the one for declared types accepts, whatever is declared. -/
def IsBuiltin (typeTag : String) : Prop :=
  typeTag = "string" ∨ typeTag = "LocalizedText" ∨ (ScalarKind.ofTag? typeTag).isSome = true ∨
    (TimeKind.ofTag? typeTag).isSome = true

instance (typeTag : String) : Decidable (IsBuiltin typeTag) :=
  inferInstanceAs (Decidable (_ ∨ _))

/-- A sub-structure has a property, of its own or taken over, that resolves to a single
sub-structure. -/
def Declarations.Embeds (d : Declarations) (options : Options) (name embedded : String) : Prop :=
  ∃ t properties p q, d.type? name = some t ∧ t.kind = .struct ∧
    effectiveProperties d options t = .ok properties ∧ p ∈ properties ∧
      resolve d options t p = .ok q ∧ q.shape = .single (.embedded embedded)

/-! ### Which tags are sub-structures -/

/-- The rules that come before the one for declared types. -/
theorem unconditional_eq : Rule.unconditional ++ [Rule.asset] =
    [.string, .localizedText, .enum, .scalar, .time] ++
      .nestedReference :: [.multiComponent, .asset] := rfl

/-- None of the rules in front accepts a tag that is not built in and is no enum. -/
theorem findSome?_eq_none_of_not_isBuiltin (hbuiltin : ¬ IsBuiltin typeTag)
    (henum : d.enum? typeTag = none) :
    [Rule.string, .localizedText, .enum, .scalar, .time].findSome?
      (Rule.element? d options typeTag) = none := by
  unfold IsBuiltin at hbuiltin
  simp only [not_or, Option.not_isSome_iff_eq_none] at hbuiltin
  obtain ⟨hstring, htext, hscalar, htime⟩ := hbuiltin
  simp [Rule.element?, hstring, htext, henum, hscalar, htime]

/-- One of the rules in front accepts a tag that is built in, and what it gives is no
sub-structure. -/
theorem exists_findSome?_of_isBuiltin (hbuiltin : IsBuiltin typeTag) :
    ∃ vt, [Rule.string, .localizedText, .enum, .scalar, .time].findSome?
      (Rule.element? d options typeTag) = some vt := by
  rw [← Option.isSome_iff_exists, List.findSome?_isSome_iff]
  rcases hbuiltin with rfl | rfl | hscalar | htime
  · exact ⟨.string, by decide, rfl⟩
  · exact ⟨.localizedText, by decide, rfl⟩
  · refine ⟨.scalar, by decide, ?_⟩
    show ((ScalarKind.ofTag? typeTag).map ValueType.scalar).isSome = true
    rw [Option.isSome_map, hscalar]
  · refine ⟨.time, by decide, ?_⟩
    show ((TimeKind.ofTag? typeTag).map ValueType.time).isSome = true
    rw [Option.isSome_map, htime]

/-- **Which tags are sub-structures.**  A tag has the category of a sub-structure if and only if
one is declared with its name, and it is neither built in nor an enum. -/
theorem elementOf?_eq_embedded_iff :
    elementOf? d options typeTag = some (.embedded typeTag) ↔
      ¬ IsBuiltin typeTag ∧ d.enum? typeTag = none ∧
        ∃ u, d.type? typeTag = some u ∧ u.kind = .struct := by
  constructor
  · intro h
    have henum := (elementOf?_eq_embedded h).2
    obtain ⟨rule, -, hrule⟩ := List.exists_of_findSome?_eq_some h
    refine ⟨fun hbuiltin => ?_, henum, isDeclared_of_element? hrule⟩
    obtain ⟨vt, hfront⟩ : ∃ vt, [Rule.string, .localizedText, .enum, .scalar, .time].findSome?
        (Rule.element? d options typeTag) = some vt := exists_findSome?_of_isBuiltin hbuiltin
    unfold elementOf? at h
    rw [unconditional_eq, List.findSome?_append, hfront, Option.some_or] at h
    -- the rule for declared types is not among those in front
    obtain ⟨front, hmem, hfound⟩ := List.exists_of_findSome?_eq_some (hfront.trans h)
    rw [(rule_of_element?_embedded hfound).1] at hmem
    exact absurd hmem (by decide)
  · rintro ⟨hbuiltin, henum, u, hu, hkind⟩
    have hnested : Rule.element? d options typeTag .nestedReference =
        some (.embedded typeTag) := by
      have hname : u.name = typeTag := Declarations.name_of_type? hu
      obtain ⟨uname, ukind, uparents, uproperties⟩ := u
      dsimp only at hkind hname
      subst hkind hname
      unfold Rule.element?
      rw [hu]
    unfold elementOf?
    rw [unconditional_eq, List.findSome?_append, findSome?_eq_none_of_not_isBuiltin hbuiltin henum,
      Option.none_or, List.findSome?_cons, hnested]

/-- A property of a sub-structure resolves to a single sub-structure if and only if it holds it by
its declaration and the tag is not built in. -/
theorem resolve_embedded_iff (hd : d.IsAssembled) (howner : owner.kind = .struct) :
    (∃ q, resolve d options owner p = .ok q ∧ q.shape = .single (.embedded target)) ↔
      p.holdsStruct d = true ∧ p.typeTag = target ∧ ¬ IsBuiltin target := by
  -- only a record has an identifier
  have hnotId : ¬ IsIdentifier options owner.kind p := by
    rintro ⟨hrecord, -⟩
    rw [howner] at hrecord
    cases hrecord
  constructor
  · rintro ⟨q, hq, hshape⟩
    obtain ⟨hholds, htag⟩ := holdsStruct_of_resolve hq hshape
    refine ⟨hholds, htag, ?_⟩
    obtain ⟨-, ⟨hid, -⟩ | ⟨-, vt, hvt, hsingle⟩⟩ := resolve_eq_ok_iff.1 hq
    · exact absurd hid hnotId
    have hlist : p.isList = false := ((holdsStruct_iff hd p).1 hholds).1
    rw [hshape, hlist] at hsingle
    -- the tag itself is resolved as the sub-structure
    have hcategory : ValueType.embedded target = vt := Shape.single.inj hsingle
    rw [← hcategory, htag] at hvt
    exact (elementOf?_eq_embedded_iff.1 hvt).1
  · rintro ⟨hholds, rfl, hbuiltin⟩
    obtain ⟨hlist, u, hu, hkind⟩ := (holdsStruct_iff hd p).1 hholds
    -- a type has the name, so no enum has it
    have henum : d.enum? p.typeTag = none := hd.enum?_eq_none (by rw [hu]; rfl)
    have hvt : elementOf? d options p.typeTag = some (.embedded p.typeTag) :=
      elementOf?_eq_embedded_iff.2 ⟨hbuiltin, henum, u, hu, hkind⟩
    refine ⟨⟨p.name, .single (.embedded p.typeTag)⟩, resolve_eq_ok_iff.2 ⟨rfl, Or.inr ?_⟩, rfl⟩
    refine ⟨hnotId, _, hvt, ?_⟩
    rw [hlist]
    rfl

/-! ### Embedding and holding -/

/-- A sub-structure embeds those that it holds, unless their names are built in. -/
theorem Declarations.embeds_iff (hd : d.IsAssembled) :
    d.Embeds options name other ↔ d.Holds options name other ∧ ¬ IsBuiltin other := by
  constructor
  · rintro ⟨t, properties, p, q, ht, hkind, hproperties, hp, hq, hshape⟩
    obtain ⟨hholds, htag, hbuiltin⟩ := (resolve_embedded_iff hd hkind).1 ⟨q, hq, hshape⟩
    obtain ⟨hlist, u, hu, hstruct⟩ := (holdsStruct_iff hd p).1 hholds
    rw [htag] at hu
    exact ⟨⟨t, properties, p, u, ht, hkind, hproperties, hp, hlist, htag, hu, hstruct⟩, hbuiltin⟩
  · rintro ⟨⟨t, properties, p, u, ht, hkind, hproperties, hp, hlist, htag, hu, hstruct⟩, hbuiltin⟩
    have hholds : p.holdsStruct d = true :=
      (holdsStruct_iff hd p).2 ⟨hlist, u, by rw [htag, hu], hstruct⟩
    obtain ⟨q, hq, hshape⟩ := (resolve_embedded_iff hd hkind).2 ⟨hholds, htag, hbuiltin⟩
    exact ⟨t, properties, p, q, ht, hkind, hproperties, hp, hq, hshape⟩

/-- Sub-structures that pass the check do not hold themselves. -/
theorem not_transGen_holds (hd : d.IsAssembled) (hok : checkEmbedding d options = .ok ()) :
    ¬ TransGen (d.Holds options) name name := by
  intro hcircle
  obtain ⟨g, order, hg, horder, hall⟩ := exists_ordered_of_checkEmbedding hok
  obtain ⟨next, ⟨t, -, -, -, ht, hkind, -⟩, -⟩ := TransGen.head'_iff.1 hcircle
  have hmem : name ∈ order := (hall name).2 (Declarations.mem_structNames ht hkind)
  have hedges : ∀ a b, d.Holds options a b → b ∈ g.held a := fun _ _ => (mem_held_iff hd hg).2
  exact horder.not_transGen hmem (TransGen.mono hedges _ _ hcircle)

/-- **What the check sees of the embedding.**  If the properties of all sub-structures are found,
then the graph of the check has an edge wherever a sub-structure embeds another, and besides only
such as lead to a sub-structure with a built-in name, which no sub-structure embeds.  If the check
does not pass, it reports a circle of this graph, which is one of the embedding unless a built-in
name is on it.  If a sub-structure embeds itself, in one step or through others, it does not pass. -/
theorem checkEmbedding_builtin (hd : d.IsAssembled)
    (heffective : ∀ t ∈ d.types, t.kind = .struct →
      ∃ properties, effectiveProperties d options t = .ok properties) :
    ∃ g, containment d options = .ok g ∧
      (∀ name other, other ∈ g.held name ↔
        d.Embeds options name other ∨ (IsBuiltin other ∧ d.Holds options name other)) ∧
      (∀ name other, d.Embeds options name other → ¬ IsBuiltin other) ∧
      (∀ e, checkEmbedding d options = .error e →
        ∃ path, e = .circularReference path ∧ IsCircle (fun a b => b ∈ g.held a) path ∧
          ((∀ name ∈ path, ¬ IsBuiltin name) → IsCircle (d.Embeds options) path)) ∧
      ∀ name, TransGen (d.Embeds options) name name →
        ∃ path, checkEmbedding d options = .error (.circularReference path) := by
  obtain ⟨g, hg⟩ := exists_containment heffective
  -- every fault is a circle of the graph
  have hfault : ∀ e, checkEmbedding d options = .error e →
      ∃ path, e = .circularReference path ∧ IsCircle (fun a b => b ∈ g.held a) path := by
    intro e herror
    unfold checkEmbedding at herror
    rw [hg] at herror
    exact isCircle_of_followContainment (leads_nil _ _) (map_eq_error.1 herror)
  refine ⟨g, hg, fun name other => ?_, fun name other h => ?_, fun e herror => ?_,
    fun name hself => ?_⟩
  · rw [mem_held_iff hd hg, Declarations.embeds_iff hd]
    by_cases hbuiltin : IsBuiltin other <;> simp [hbuiltin]
  · exact ((Declarations.embeds_iff hd).1 h).2
  · obtain ⟨path, he, hcircle⟩ := hfault e herror
    refine ⟨path, he, hcircle, fun hnone => ?_⟩
    -- beside the built-in names the edges of the graph are embeddings
    have hsteps : path.IsChain (d.Embeds options) :=
      hcircle.steps.imp_of_mem_imp fun a b _ hb hedge =>
        (Declarations.embeds_iff hd).2 ⟨(mem_held_iff hd hg).1 hedge, hnone b hb⟩
    exact ⟨hcircle.length, hcircle.closed, hcircle.nodup, hsteps⟩
  · cases hcheck : checkEmbedding d options with
    | error e =>
      obtain ⟨path, he, -⟩ := hfault e hcheck
      exact ⟨path, by rw [he]⟩
    | ok u =>
      -- every embedding is an edge, and a check that passes leaves no circle of edges
      have hholds : ∀ a b, d.Embeds options a b → d.Holds options a b :=
        fun _ _ h => ((Declarations.embeds_iff hd).1 h).1
      exact absurd (TransGen.mono hholds _ _ hself) (not_transGen_holds hd hcheck)

/-- A box holds a lid. -/
def box : TypeDeclaration := ⟨"Box", .struct, [], [⟨"lid", "Lid", false⟩, ⟨"inner", "Box", true⟩]⟩

/-- A lid has a depth. -/
def lid : TypeDeclaration := ⟨"Lid", .struct, [], [⟨"depth", "int", false⟩]⟩

/-- A sub-structure with the name of a scalar, and with a scalar. -/
def intStruct : TypeDeclaration := ⟨"int", .struct, [], [⟨"value", "int", false⟩]⟩

/-- A sub-structure that is named like a scalar is refused, although it does not embed itself. -/
theorem checkEmbedding_builtin_intStruct :
    Declarations.IsAssembled ⟨[box, lid, intStruct], []⟩ ∧
      (∀ t ∈ [box, lid, intStruct], t.kind = .struct → ∃ properties,
        effectiveProperties ⟨[box, lid, intStruct], []⟩ .standard t = .ok properties) ∧
      Declarations.Embeds ⟨[box, lid, intStruct], []⟩ .standard "Box" "Lid" ∧
      ¬ Declarations.Embeds ⟨[box, lid, intStruct], []⟩ .standard "int" "int" ∧
      checkEmbedding ⟨[box, lid, intStruct], []⟩ .standard =
        .error (.circularReference ["int", "int"]) := by
  have hbox : Declarations.IsAssembled ⟨[box], []⟩ := .addType .empty (t := box) rfl
  have hlid : Declarations.IsAssembled ⟨[box, lid], []⟩ := .addType hbox (t := lid) rfl
  have hd : Declarations.IsAssembled ⟨[box, lid, intStruct], []⟩ :=
    .addType hlid (t := intStruct) rfl
  have hgraph : containment ⟨[box, lid, intStruct], []⟩ .standard =
      .ok [("Box", ["Lid"]), ("Lid", ["int"]), ("int", ["int"])] := by cbv
  have heffective : ∀ t ∈ [box, lid, intStruct], t.kind = .struct → ∃ properties,
      effectiveProperties ⟨[box, lid, intStruct], []⟩ .standard t = .ok properties := by
    intro t ht _
    simp only [List.mem_cons, List.not_mem_nil, or_false] at ht
    rcases ht with rfl | rfl | rfl
    · exact ⟨box.properties, by cbv⟩
    · exact ⟨lid.properties, by cbv⟩
    · exact ⟨intStruct.properties, by cbv⟩
  obtain ⟨g, hg, hheld, hnot, -⟩ := checkEmbedding_builtin hd heffective
  have hsame : g = [("Box", ["Lid"]), ("Lid", ["int"]), ("int", ["int"])] :=
    Except.ok.inj (hg.symm.trans hgraph)
  have hbuiltin : IsBuiltin "int" := by decide
  refine ⟨hd, heffective, ?_, fun hself => hnot "int" "int" hself hbuiltin, ?_⟩
  · have hedge : "Lid" ∈ g.held "Box" := by
      rw [hsame]
      decide
    have hfree : ¬ IsBuiltin "Lid" := by decide
    exact ((hheld "Box" "Lid").1 hedge).resolve_right fun h => hfree h.1
  · rw [checkEmbedding_of_sorted hgraph (by decide)]
    cbv

end RecordTables.Schema
