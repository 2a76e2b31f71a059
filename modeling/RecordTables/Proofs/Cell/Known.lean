import RecordTables.Cell.Encode
import RecordTables.Proofs.Registration
import RecordTables.Proofs.Schema.Embedding

/-!
# Cells know every type

In a registry that was built every category that a property names has an arrangement of components
(`Registration.knowsCategories_of_build`): the sub-structures can be put in an order in which each
stands in front of those that it holds, so going down through as many as there are types comes to an
end.  Hence no cell of a property is refused because a type is unknown, neither when it is read
(`Cell.Context.known_decode`) nor when it is written (`Cell.Context.known_encode`).
-/

namespace RecordTables

open Schema

/-! ### Arrangements -/

/-- Every category in an arrangement is declared, and those that stand alone take one component. -/
inductive Outline.IsKnown (d : Declarations) : Outline → Prop where
  | leaf {vt : ValueType} (hdeclared : vt.IsDeclared d)
      (hleaf : Cell.Context.takesTuple vt = false) : IsKnown d (.leaf vt)
  | nested {vt : ValueType} (hdeclared : vt.IsDeclared d) : IsKnown d (.nested vt)
  | composite (shape : CompositeShape) : IsKnown d (.composite shape)
  | struct {name : String} {fields : List (String × Outline)}
      (hfields : ∀ f ∈ fields, IsKnown d f.2) : IsKnown d (.struct name fields)

namespace Registry

/-- Every category that is declared has an arrangement, and all in it is declared. -/
def KnowsCategories (r : Registry) : Prop :=
  ∀ vt : ValueType, vt.IsDeclared r.declarations →
    ∃ outline, r.outline? vt = some outline ∧ outline.IsKnown r.declarations

/-- Every sub-structure of a list is resolved, and holds single sub-structures only of those that
stand behind it. -/
inductive Nests (r : Registry) : List String → Prop where
  | nil : Nests r []
  | cons {t : ResolvedType} {rest : List String} (ht : t ∈ r.types)
      (hheld : ∀ p ∈ t.properties, ∀ target, p.shape = .single (.embedded target) → target ∈ rest)
      (h : Nests r rest) : Nests r (t.name :: rest)

section Nests

variable {r : Registry} {order : List String}

theorem outlineWithin_of_not_takesTuple (r : Registry) (fuel : Nat) {vt : ValueType}
    (h : Cell.Context.takesTuple vt = false) : r.outlineWithin fuel vt = some (.leaf vt) := by
  cases vt with
  | embedded | composite => cases h
  | _ => cases fuel <;> rfl

theorem outlineWithin_composite (r : Registry) (fuel : Nat) (shape : CompositeShape) :
    r.outlineWithin fuel (.composite shape) = some (.composite shape) := by
  cases fuel <;> rfl

/-- Only a sub-structure may have no arrangement within some steps. -/
theorem exists_outline_of_declared {fuel : Nat} {vt : ValueType} (hvt : vt.IsDeclared r.declarations)
    (h : ∀ target, vt = .embedded target → ∃ outline,
      r.outlineWithin fuel (.embedded target) = some outline ∧ outline.IsKnown r.declarations) :
    ∃ outline, r.outlineWithin fuel vt = some outline ∧ outline.IsKnown r.declarations := by
  cases htuple : Cell.Context.takesTuple vt with
  | false => exact ⟨_, outlineWithin_of_not_takesTuple r fuel htuple, .leaf hvt htuple⟩
  | true =>
    cases vt with
    | composite shape => exact ⟨_, outlineWithin_composite r fuel shape, .composite shape⟩
    | embedded target => exact h target rfl
    | _ => cases htuple

/-- The arrangement of a property of a sub-structure. -/
def propertyOutline? (r : Registry) (fuel : Nat) (p : Property) : Option (String × Outline) :=
  match p.shape with
  | .identifier => some (p.name, Outline.leaf .string)
  | .single vt => (r.outlineWithin fuel vt).map fun o => (p.name, o)
  | .list vt => some (p.name, Outline.nested vt)

theorem outlineWithin_embedded {t : ResolvedType} {name : String} (fuel : Nat)
    (ht : r.type? name = some t) : r.outlineWithin (fuel + 1) (.embedded name) =
      (t.properties.mapM (r.propertyOutline? fuel)).map (.struct name) := by
  rw [outlineWithin, ht]
  rfl

/-- **Going down comes to an end.**  A sub-structure of the order has an arrangement within as many
steps as the order is long. -/
theorem Nests.exists_outlineWithin (hr : r.IsSound) (h : r.Nests order) :
    ∀ name ∈ order, ∀ fuel, order.length ≤ fuel →
      ∃ outline, r.outlineWithin fuel (.embedded name) = some outline ∧
        outline.IsKnown r.declarations := by
  induction h with
  | nil => exact List.forall_mem_nil _
  | @cons t rest ht hheld h ih =>
    intro name hname fuel hfuel
    rw [List.length_cons] at hfuel
    rcases List.mem_cons.1 hname with rfl | hname
    · obtain ⟨fuel, rfl⟩ : ∃ n, fuel = n + 1 := ⟨fuel - 1, by omega⟩
      -- what the type holds comes later in the order, so each property has an outline with less
      -- fuel
      have hproperties : ∀ p ∈ t.properties, ∃ f, r.propertyOutline? fuel p = some f ∧
          f.2.IsKnown r.declarations := by
        intro p hp
        have hdeclared := hr.declared t ht p hp
        unfold propertyOutline?
        cases hshape : p.shape with
        | identifier => exact ⟨_, rfl, .leaf trivial rfl⟩
        | list vt => exact ⟨_, rfl, .nested (hdeclared vt (by rw [hshape]; rfl))⟩
        | single vt =>
          obtain ⟨outline, houtline, hknown⟩ : ∃ outline,
              r.outlineWithin fuel vt = some outline ∧ outline.IsKnown r.declarations :=
            exists_outline_of_declared (hdeclared vt (by rw [hshape]; rfl)) fun target hvt =>
              ih target (hheld p hp target (hvt ▸ hshape)) fuel (by omega)
          dsimp only
          rw [houtline]
          exact ⟨_, rfl, hknown⟩
      obtain ⟨fields, hfields, hknown⟩ := exists_mapM_eq_some hproperties
      rw [outlineWithin_embedded fuel (hr.type?_of_mem ht), hfields]
      exact ⟨_, rfl, .struct hknown⟩
    · exact ih name hname fuel (by omega)

theorem knowsCategories_of_nests (hr : r.IsSound) (h : r.Nests order)
    (hlength : order.length ≤ r.types.length)
    (hall : ∀ t ∈ r.types, t.kind = .struct → t.name ∈ order) : r.KnowsCategories := by
  intro vt hvt
  refine exists_outline_of_declared hvt ?_
  rintro target rfl
  obtain ⟨t, ht, rfl, hkind⟩ := hr.exists_struct hvt
  exact h.exists_outlineWithin hr _ (hall t ht hkind) _ hlength

end Nests

end Registry

/-! ### Built registries -/

namespace Registration

variable {reg : Registration} {options : Options} {r : Registry}

theorem checkEmbedding_of_build (h : reg.build options = .ok r) :
    ∃ u, checkEmbedding reg.declarations options = .ok u := by
  unfold build at h
  split_ifs at h
  obtain ⟨closed, -, h⟩ := bind_eq_ok.1 h
  obtain ⟨u, hu, -⟩ := bind_eq_ok.1 h
  exact ⟨u, mapError_eq_ok.1 hu⟩

/-- What a resolved sub-structure holds is held by its declaration. -/
theorem mem_held_of_yields {closed : List (TypeDeclaration × List PropertyDeclaration)}
    (hreg : reg.IsRegistered) (hr : reg.Yields options closed r) {g : Containment}
    (hg : containment reg.declarations options = .ok g) {t : ResolvedType} (ht : t ∈ r.types)
    (hkind : t.kind = .struct) {p : Property} (hp : p ∈ t.properties) {target : String}
    (hshape : p.shape = .single (.embedded target)) : target ∈ g.held t.name := by
  obtain ⟨c, hc, hresolves⟩ := exists_of_mem_forall₂ hr.resolves ht
  obtain ⟨hmem, heffective⟩ := mem_closures hr.closures hc
  obtain ⟨declaration, hdeclaration, hresolve⟩ := exists_of_mem_forall₂ hresolves.properties hp
  obtain ⟨hholds, rfl⟩ := holdsStruct_of_resolve hresolve hshape
  rw [hresolves.name,
    held_of_containment hreg.names hg hmem (hresolves.kind.symm.trans hkind) heffective]
  exact List.mem_map_of_mem (List.mem_filter.2 ⟨hdeclaration, hholds⟩)

/-- **Built registries know every category** that their properties can name. -/
theorem knowsCategories_of_build (hreg : reg.IsRegistered) (h : reg.build options = .ok r) :
    r.KnowsCategories := by
  have hsound := isSound_of_build hreg h
  obtain ⟨closed, hr⟩ := exists_yields_of_build h
  obtain ⟨u, hu⟩ := checkEmbedding_of_build h
  obtain ⟨g, order, hg, hordered, hnames⟩ := exists_ordered_of_checkEmbedding hu
  -- the names of the order are those of the resolved sub-structures
  have hresolved : ∀ name ∈ order, ∃ t ∈ r.types, t.name = name ∧ t.kind = .struct := by
    intro name hname
    obtain ⟨declared, hdeclared, rfl⟩ := List.mem_map.1 ((hnames name).1 hname)
    obtain ⟨hmem, hkind⟩ := List.mem_filter.1 hdeclared
    have htypes : (declared.name, declared.kind) ∈ r.types.map fun t => (t.name, t.kind) := by
      rw [hr.map_types]
      exact List.mem_map.2 ⟨declared, hmem, rfl⟩
    obtain ⟨t, ht, hsame⟩ := List.mem_map.1 htypes
    exact ⟨t, ht, congrArg Prod.fst hsame, (congrArg Prod.snd hsame).trans (beq_iff_eq.1 hkind)⟩
  -- what a sub-structure holds comes later in the order
  have hnests : r.Nests order := by
    clear hnames
    induction hordered with
    | nil => exact .nil
    | @cons node rest hheld hnew hordered ih =>
      obtain ⟨t, ht, rfl, hkind⟩ := hresolved node List.mem_cons_self
      refine .cons ht (fun p hp target hshape => ?_)
        (ih fun name hname => hresolved name (List.mem_cons_of_mem _ hname))
      exact hheld target (mem_held_of_yields hreg hr hg ht hkind hp hshape)
  refine Registry.knowsCategories_of_nests hsound hnests ?_ ?_
  -- the order is no longer than the list of types
  · have hlength := congrArg List.length hr.map_types
    rw [List.length_map, List.length_map] at hlength
    rw [hlength]
    exact length_le_of_ordered hordered fun name hname => (hnames name).1 hname
  -- each sub-structure stands in the order
  · intro t ht hkind
    have htypes : (t.name, t.kind) ∈
        reg.declarations.types.map fun t => (t.name, t.kind) := by
      rw [← hr.map_types]
      exact List.mem_map.2 ⟨t, ht, rfl⟩
    obtain ⟨declared, hdeclared, hsame⟩ := List.mem_map.1 htypes
    refine (hnames t.name).2 (List.mem_map.2 ⟨declared, List.mem_filter.2 ⟨hdeclared, ?_⟩, ?_⟩)
    · exact beq_iff_eq.2 ((congrArg Prod.snd hsame).trans hkind)
    · exact congrArg Prod.fst hsame

end Registration

/-! ### Unknown types -/

/-- The fault tells of a type or an enum that is unknown. -/
def CellError.IsUnknownType : CellError → Prop
  | unknownType _ => True
  | _ => False

namespace Cell

/-- If it fails, then not because a type is unknown. -/
abbrev Known {α : Type} (x : Except CellError α) : Prop := Avoids CellError.IsUnknownType x

theorem known_readScalar (kind : ScalarKind) (cs : List Char) : Known (readScalar kind cs) := by
  unfold readScalar
  dsimp only
  split_ifs
  · exact avoids_ok _
  · split
    · exact avoids_ok _
    · exact avoids_error id

theorem known_readDuration (cs : List Char) : Known (readDuration cs) := by
  unfold readDuration
  split
  · exact avoids_ok _
  · exact avoids_error id

theorem known_readDateTime (cs : List Char) : Known (readDateTime cs) := by
  unfold readDateTime
  split
  · exact avoids_ok _
  · exact avoids_error id

theorem known_writeDateTime (ms : Int64) : Known (writeDateTime ms) := by
  unfold writeDateTime
  split
  · exact avoids_ok _
  · exact avoids_error id

theorem known_reserve (marks text : List Char) : Known (reserve marks text) := by
  unfold reserve
  split_ifs
  · exact avoids_error id
  · exact avoids_ok _

namespace Context

variable {ctx : Context} {vt : ValueType}

/-! ### Reading -/

section Reading

variable {nested : ValueType → List Char → Except CellError Value}

theorem known_readMember {name : String}
    (h : (ValueType.enum name).IsDeclared ctx.registry.declarations) (cs : List Char) :
    Known (ctx.readMember name cs) := by
  obtain ⟨e, he⟩ := h
  unfold readMember Registry.enum?
  rw [he]
  dsimp only
  split_ifs
  · exact avoids_ok _
  · exact avoids_ok _
  · split
    · exact avoids_ok _
    · exact avoids_error id

theorem known_readLeaf (hvt : vt.IsDeclared ctx.registry.declarations)
    (hleaf : takesTuple vt = false) (cs : List Char) : Known (ctx.readLeaf vt cs) := by
  unfold readLeaf
  dsimp only
  cases vt with
  | string | localizedText | asset => exact avoids_ok _
  | enum name => exact known_readMember hvt _
  | scalar kind => exact (known_readScalar kind _).map _
  | time kind =>
    cases kind with
    | duration =>
      dsimp only
      split_ifs
      · exact avoids_ok _
      · exact (known_readDuration _).map _
    | dateTime =>
      dsimp only
      split_ifs
      · exact avoids_ok _
      · exact (known_readDateTime _).map _
  | recordRef target =>
    dsimp only
    split_ifs
    · exact avoids_ok _
    · split
      · exact avoids_ok _
      · exact avoids_error id
  | embedded | composite => cases hleaf

theorem known_nextPart (whole : List Char) (parts : List (List Char)) :
    Known (nextPart whole parts) := by
  cases parts with
  | nil => exact avoids_error id
  | cons part rest => exact avoids_ok _

theorem known_readComponents (kind : ScalarKind) (whole : List Char) (count : Nat)
    (parts : List (List Char)) : Known (readComponents kind whole count parts) := by
  induction count generalizing parts with
  | zero => exact avoids_ok _
  | succ count ih =>
    unfold readComponents
    refine (known_nextPart whole parts).bind fun next _ => ?_
    refine (known_readScalar kind _).bind fun s _ => ?_
    exact (ih next.2).bind fun rest _ => avoids_ok _

mutual

/-- No part of a known arrangement is of an unknown type if the lists among them are not. -/
theorem known_readParts (hnested : ∀ vt, vt.IsDeclared ctx.registry.declarations → ∀ cs,
      Known (nested vt cs)) (whole : List Char) :
    ∀ (outline : Outline) (parts : List (List Char)), outline.IsKnown ctx.registry.declarations →
      Known (ctx.readParts nested whole outline parts)
  | .leaf vt, parts, .leaf hvt hleaf => by
    rw [readParts]
    refine (known_nextPart whole parts).bind fun next _ => ?_
    exact (known_readLeaf hvt hleaf _).bind fun v _ => avoids_ok _
  | .nested vt, parts, .nested hvt => by
    rw [readParts]
    refine (known_nextPart whole parts).bind fun next _ => ?_
    exact (hnested vt hvt _).bind fun v _ => avoids_ok _
  | .composite shape, parts, _ => by
    rw [readParts]
    exact (known_readComponents _ whole _ parts).bind fun components _ => avoids_ok _
  | .struct _ fields, parts, .struct hfields => by
    rw [readParts]
    exact (known_readFields hnested whole fields parts hfields).bind fun values _ => avoids_ok _

/-- No field of a known arrangement is of an unknown type. -/
theorem known_readFields (hnested : ∀ vt, vt.IsDeclared ctx.registry.declarations → ∀ cs,
      Known (nested vt cs)) (whole : List Char) :
    ∀ (fields : List (String × Outline)) (parts : List (List Char)),
      (∀ f ∈ fields, f.2.IsKnown ctx.registry.declarations) →
      Known (ctx.readFields nested whole fields parts)
  | [], parts, _ => by
    rw [readFields]
    exact avoids_ok _
  | f :: rest, parts, h => by
    rw [readFields]
    refine (known_readParts hnested whole f.2 parts (h f List.mem_cons_self)).bind fun v _ => ?_
    exact (known_readFields hnested whole rest _ fun f hf => h f (List.mem_cons_of_mem _ hf)).bind
      fun values _ => avoids_ok _

end

theorem known_readOutline (hnested : ∀ vt, vt.IsDeclared ctx.registry.declarations → ∀ cs,
      Known (nested vt cs)) {outline : Outline} (h : outline.IsKnown ctx.registry.declarations)
    (cs : List Char) : Known (ctx.readOutline nested outline cs) := by
  unfold readOutline
  split
  · exact avoids_error id
  · split_ifs
    · exact (known_readParts hnested cs outline _ h).map _
    · exact avoids_error id

theorem known_readElement (hr : ctx.registry.KnowsCategories)
    (hnested : ∀ vt, vt.IsDeclared ctx.registry.declarations → ∀ cs, Known (nested vt cs))
    (hvt : vt.IsDeclared ctx.registry.declarations) (cs : List Char) :
    Known (ctx.readElement nested vt cs) := by
  unfold readElement
  split
  · next name =>
    obtain ⟨outline, houtline, hknown⟩ := hr _ hvt
    rw [houtline]
    exact known_readOutline hnested hknown cs
  · next shape => exact known_readOutline hnested (.composite shape) cs
  · next hembedded hcomposite =>
    refine known_readLeaf hvt ?_ cs
    cases vt with
    | embedded name => exact absurd rfl (hembedded name)
    | composite shape => exact absurd rfl (hcomposite shape)
    | _ => rfl

theorem known_readNested (hr : ctx.registry.KnowsCategories) (fuel : Nat) :
    ∀ vt : ValueType, vt.IsDeclared ctx.registry.declarations → ∀ cs,
      Known (ctx.readNested fuel vt cs) := by
  induction fuel with
  | zero => exact fun _ _ _ => avoids_ok _
  | succ fuel ih =>
    intro vt hvt cs
    unfold readNested
    dsimp only
    split_ifs
    · exact avoids_ok _
    · split
      · exact avoids_error id
      · split_ifs
        · exact avoids_ok _
        · split
          · exact avoids_error id
          · exact (avoids_mapM fun part _ => known_readElement hr ih hvt part).map _

/-- **Reading knows every type.** -/
theorem known_decode (hr : ctx.registry.KnowsCategories) {p : Property}
    (hp : ∀ vt, p.shape.element? = some vt → vt.IsDeclared ctx.registry.declarations)
    (cell : String) : Known (ctx.decode p cell) := by
  unfold decode
  dsimp only
  have helement (vt : ValueType) (hvt : vt.IsDeclared ctx.registry.declarations) (cs : List Char) :
      Known (ctx.readElement (ctx.readNested cell.toList.length) vt cs) :=
    known_readElement hr (known_readNested hr _) hvt cs
  cases hshape : p.shape with
  | identifier =>
    dsimp only
    split_ifs
    · exact avoids_error id
    · exact avoids_ok _
  | single vt =>
    dsimp only
    split_ifs
    · exact avoids_ok _
    · exact helement vt (hp vt (by rw [hshape]; rfl)) _
  | list vt =>
    dsimp only
    split_ifs
    · exact avoids_ok _
    · exact (avoids_mapM fun part _ => helement vt (hp vt (by rw [hshape]; rfl)) part).map _

end Reading

/-! ### Writing -/

section Writing

variable {nested : ValueType → Value → Except CellError (List Char)}

theorem known_writeLeaf (hvt : vt.IsDeclared ctx.registry.declarations) (v : Value) :
    Known (ctx.writeLeaf vt v) := by
  unfold writeLeaf
  split
  · exact avoids_ok _
  · exact avoids_ok _
  · obtain ⟨e, he⟩ := hvt
    unfold Registry.enum?
    rw [he]
    dsimp only
    split_ifs
    · exact avoids_ok _
    · exact avoids_error id
  · split_ifs
    · exact avoids_ok _
    · exact avoids_error id
  · exact avoids_ok _
  · exact (known_writeDateTime _).map _
  · exact avoids_ok _
  · split
    · exact avoids_ok _
    · exact avoids_error id
  · exact avoids_ok _
  · split_ifs
    · exact avoids_error id
    · exact avoids_ok _
  · exact avoids_error id

mutual

/-- No part of a known arrangement is of an unknown type if the lists among them are not. -/
theorem known_writeParts (hnested : ∀ vt, vt.IsDeclared ctx.registry.declarations → ∀ v,
      Known (nested vt v)) :
    ∀ (outline : Outline) (v : Value), outline.IsKnown ctx.registry.declarations →
      Known (ctx.writeParts nested outline v)
  | .leaf vt, v, .leaf hvt _ => by
    rw [writeParts]
    refine (known_writeLeaf hvt v).bind fun text _ => ?_
    exact (known_reserve _ _).bind fun part _ => avoids_ok _
  | .nested vt, v, .nested hvt => by
    rw [writeParts]
    exact (hnested vt hvt v).bind fun part _ => avoids_ok _
  | .composite shape, v, _ => by
    cases v with
    | composite components =>
      rw [writeParts]
      split_ifs
      · exact avoids_ok _
      · exact avoids_error id
    | _ => exact avoids_error id
  | .struct _ fields, v, .struct hfields => by
    cases v with
    | struct values => exact known_writeFields hnested fields values hfields
    | _ => exact avoids_error id

/-- No field of a known arrangement is of an unknown type. -/
theorem known_writeFields (hnested : ∀ vt, vt.IsDeclared ctx.registry.declarations → ∀ v,
      Known (nested vt v)) :
    ∀ (fields : List (String × Outline)) (values : List (String × Value)),
      (∀ f ∈ fields, f.2.IsKnown ctx.registry.declarations) →
      Known (ctx.writeFields nested fields values)
  | [], values, _ => by
    rw [writeFields]
    exact avoids_ok _
  | f :: rest, values, h => by
    rw [writeFields]
    refine (known_writeParts hnested f.2 _ (h f List.mem_cons_self)).bind fun parts _ => ?_
    exact (known_writeFields hnested rest values fun f hf => h f (List.mem_cons_of_mem _ hf)).bind
      fun others _ => avoids_ok _

end

theorem known_writeTuple (hr : ctx.registry.KnowsCategories)
    (hnested : ∀ vt, vt.IsDeclared ctx.registry.declarations → ∀ v, Known (nested vt v))
    (hvt : vt.IsDeclared ctx.registry.declarations) (v : Value) :
    Known (ctx.writeTuple nested vt v) := by
  obtain ⟨outline, houtline, hknown⟩ := hr vt hvt
  unfold writeTuple
  rw [houtline]
  exact (known_writeParts hnested outline v hknown).map _

theorem known_writeElement (hr : ctx.registry.KnowsCategories)
    (hnested : ∀ vt, vt.IsDeclared ctx.registry.declarations → ∀ v, Known (nested vt v))
    (hvt : vt.IsDeclared ctx.registry.declarations) (v : Value) :
    Known (ctx.writeElement nested vt v) := by
  unfold writeElement
  split_ifs
  · exact known_writeTuple hr hnested hvt v
  · exact known_writeLeaf hvt v

theorem known_writeNestedElement (hr : ctx.registry.KnowsCategories)
    (hnested : ∀ vt, vt.IsDeclared ctx.registry.declarations → ∀ v, Known (nested vt v))
    (hvt : vt.IsDeclared ctx.registry.declarations) (v : Value) :
    Known (ctx.writeNestedElement nested vt v) := by
  unfold writeNestedElement
  split_ifs
  · exact known_writeTuple hr hnested hvt v
  · exact (known_writeLeaf hvt v).bind fun text _ => known_reserve _ _

theorem known_writeNested (hr : ctx.registry.KnowsCategories) (fuel : Nat) :
    ∀ vt : ValueType, vt.IsDeclared ctx.registry.declarations → ∀ v,
      Known (ctx.writeNested fuel vt v) := by
  induction fuel with
  | zero => exact fun _ _ _ => avoids_error id
  | succ fuel ih =>
    intro vt hvt v
    unfold writeNested
    split
    · exact avoids_error id
    · exact avoids_ok _
    · refine (avoids_mapM fun item _ => known_writeNestedElement hr ih hvt item).bind
        fun parts _ => ?_
      split
      · split_ifs
        · exact avoids_error id
        · exact avoids_ok _
      · exact avoids_ok _

/-- **Writing knows every type.** -/
theorem known_encode (hr : ctx.registry.KnowsCategories) {p : Property}
    (hp : ∀ vt, p.shape.element? = some vt → vt.IsDeclared ctx.registry.declarations)
    (v : Value) : Known (ctx.encode p v) := by
  have hnested := known_writeNested hr v.depth
  refine Avoids.map ?_ _
  unfold encodeChars
  dsimp only
  split
  · split
    · exact avoids_ok _
    · exact avoids_error id
  · next name hshape =>
    -- a sub-structure that is there must not be written as a blank
    split
    · exact avoids_ok _
    · refine (known_writeTuple hr hnested (hp _ (by rw [hshape]; rfl)) v).bind fun cell _ => ?_
      split_ifs
      · exact avoids_error id
      · exact avoids_ok _
  · next vt _ hshape => exact known_writeElement hr hnested (hp _ (by rw [hshape]; rfl)) v
  · next vt hshape =>
    have hvt := hp vt (by rw [hshape]; rfl)
    split
    · exact avoids_error id
    -- nor a list that has elements
    · refine (avoids_mapM fun item _ => ?_).bind fun parts _ => ?_
      · exact (known_writeElement hr hnested hvt item).bind fun text _ => known_reserve _ _
      · split_ifs
        · exact avoids_error id
        · exact avoids_ok _

end Writing

end Context

end Cell

end RecordTables
