import Mathlib.Data.List.Nodup
import Mathlib.Tactic.SplitIfs
import RecordTables.Proofs.Outcome
import RecordTables.Schema.Resolution

/-!
# What a property resolves to

A property is the identifier of its record or has the category of its type tag
(`Schema.resolve_eq_ok_iff`).  Which category that is depends on the enums and on the names and kinds
of the types, and the options can only make the difference between the keys of assets and a failure
(`Schema.elementOf?_agree`).
-/

namespace RecordTables.Schema

variable {d d' : Declarations} {options options' : Options} {owner owner' : TypeDeclaration}
  {p : PropertyDeclaration} {q q' : Property} {typeTag : String} {vt vt' : ValueType}

/-! ### Categories -/

namespace Rule

/-- The rules that give a category to a type tag whatever the options are. -/
def unconditional : List Rule :=
  [string, localizedText, enum, scalar, time, nestedReference, multiComponent]

theorem all_eq : all = identifier :: (unconditional ++ [asset]) := rfl

end Rule

/-- The category of a type tag, given by the first rule that accepts it. -/
def elementOf? (d : Declarations) (options : Options) (typeTag : String) : Option ValueType :=
  (Rule.unconditional ++ [Rule.asset]).findSome? (Rule.element? d options typeTag)

theorem elementOf?_eq_or (d : Declarations) (options : Options) (typeTag : String) :
    elementOf? d options typeTag =
      (Rule.unconditional.findSome? (Rule.element? d options typeTag)).or
        (Rule.asset.element? d options typeTag) := by
  unfold elementOf?
  rw [List.findSome?_append, List.findSome?_singleton]

/-- Whether a property of a type of a kind is the identifier. -/
def IsIdentifier (options : Options) (owner : TypeKind) (p : PropertyDeclaration) : Prop :=
  owner = .record ∧ p.name = options.identifierProperty ∧ p.typeTag = "string" ∧ p.isList = false

instance (options : Options) (owner : TypeKind) (p : PropertyDeclaration) :
    Decidable (IsIdentifier options owner p) :=
  inferInstanceAs (Decidable (_ ∧ _))

theorem shape?_of_ne_identifier (options : Options) (owner : TypeKind) (p : PropertyDeclaration)
    {rule : Rule} (h : rule ≠ .identifier) : rule.shape? d options owner p =
      (rule.element? d options p.typeTag).map (if p.isList then .list else .single) := by
  cases rule with
  | identifier => exact absurd rfl h
  | _ => rfl

/-- The shape that the first rule gives to a property. -/
theorem first?_map_snd (d : Declarations) (options : Options) (owner : TypeKind)
    (p : PropertyDeclaration) :
    (Rule.first? d options owner p).map (·.2) =
      if IsIdentifier options owner p then some .identifier
      else (elementOf? d options p.typeTag).map (if p.isList then .list else .single) := by
  unfold Rule.first? elementOf?
  rw [List.map_findSome?, List.map_findSome?, Rule.all_eq, List.findSome?_cons]
  by_cases hid : IsIdentifier options owner p
  · have hshape : Rule.shape? d options owner p .identifier = some .identifier := if_pos hid
    rw [if_pos hid, Function.comp_apply, hshape]
    rfl
  · have hshape : Rule.shape? d options owner p .identifier = none := if_neg hid
    rw [if_neg hid, Function.comp_apply, hshape]
    dsimp only [Option.map_none]
    rw [← List.head?_filterMap, ← List.head?_filterMap]
    refine congrArg List.head? (List.filterMap_congr fun rule hrule => ?_)
    have hne : rule ≠ .identifier := by
      rintro rfl
      exact absurd hrule (by decide)
    rw [Function.comp_apply, Function.comp_apply, shape?_of_ne_identifier options owner p hne,
      Option.map_map, Option.map_map]
    rfl

/-- **What a property resolves to.** -/
theorem resolve_eq_ok_iff : resolve d options owner p = .ok q ↔ q.name = p.name ∧
    (IsIdentifier options owner.kind p ∧ q.shape = .identifier ∨
      ¬IsIdentifier options owner.kind p ∧ ∃ vt, elementOf? d options p.typeTag = some vt ∧
        q.shape = (if p.isList then Shape.list else Shape.single) vt) := by
  have hfirst := first?_map_snd d options owner.kind p
  -- the shape of a property is that of the first rule that takes it
  have hq : resolve d options owner p = .ok q ↔
      q.name = p.name ∧ (Rule.first? d options owner.kind p).map (·.2) = some q.shape := by
    unfold resolve
    obtain ⟨name, shape⟩ := q
    cases Rule.first? d options owner.kind p with
    | none => simp
    | some e => simp [eq_comm]
  rw [hq, hfirst]
  refine and_congr_right fun _ => ?_
  by_cases hid : IsIdentifier options owner.kind p
  · rw [if_pos hid]
    constructor
    · intro hshape
      exact Or.inl ⟨hid, (Option.some.inj hshape).symm⟩
    · rintro (⟨-, hshape⟩ | ⟨hno, -⟩)
      · rw [hshape]
      · exact absurd hid hno
  · rw [if_neg hid, Option.map_eq_some_iff]
    constructor
    · rintro ⟨vt, hvt, hshape⟩
      exact Or.inr ⟨hid, vt, hvt, hshape.symm⟩
    · rintro (⟨hno, -⟩ | ⟨-, vt, hvt, hshape⟩)
      · exact absurd hno hid
      · exact ⟨vt, hvt, hshape.symm⟩

/-! ### Declared categories -/

theorem Declarations.name_of_type? {name : String} {t : TypeDeclaration}
    (h : d.type? name = some t) : t.name = name := by
  unfold Declarations.type? at h
  simpa using List.find?_some h

theorem Declarations.exists_type?_of_mem {types : List TypeDeclaration} {t : TypeDeclaration}
    (ht : t ∈ types) : (types.find? fun u => u.name == t.name).isSome = true :=
  List.find?_isSome.2 ⟨t, ht, beq_iff_eq.2 rfl⟩

/-- Each type is the one of its name, if no two types have one name. -/
theorem Declarations.type?_of_nodup {t : TypeDeclaration} (hnames : (d.types.map (·.name)).Nodup)
    (ht : t ∈ d.types) : d.type? t.name = some t := by
  obtain ⟨u, hu⟩ := Option.isSome_iff_exists.1 (exists_type?_of_mem ht)
  have hsame : u = t :=
    List.inj_on_of_nodup_map hnames (List.mem_of_find?_eq_some hu) ht (name_of_type? hu)
  exact hsame ▸ hu

theorem Declarations.name_of_enum? {name : String} {e : EnumDeclaration}
    (h : d.enum? name = some e) : e.name = name := by
  unfold Declarations.enum? at h
  simpa using List.find?_some h

/-- The enum or type that a category names is declared, and its instances are what the category
says. -/
def ValueType.IsDeclared (d : Declarations) : ValueType → Prop
  | .enum name => ∃ e, d.enum? name = some e
  | .recordRef target => ∃ t, d.type? target = some t ∧ t.kind = .record
  | .embedded target => ∃ t, d.type? target = some t ∧ t.kind = .struct
  | _ => True

theorem isDeclared_of_element? {rule : Rule} (h : rule.element? d options typeTag = some vt) :
    vt.IsDeclared d := by
  cases rule with
  | identifier => cases h
  | string | localizedText | asset =>
    dsimp only [Rule.element?] at h
    split_ifs at h
    rw [← Option.some.inj h]
    trivial
  | scalar | time | multiComponent =>
    obtain ⟨kind, -, rfl⟩ := Option.map_eq_some_iff.1 h
    trivial
  | enum =>
    obtain ⟨e, he, rfl⟩ := Option.map_eq_some_iff.1 h
    exact ⟨e, by rw [Declarations.name_of_enum? he, he]⟩
  | nestedReference =>
    dsimp only [Rule.element?] at h
    split at h
    · next target parents properties ht =>
      -- the declaration that is found has the name of the tag
      have hname : target = typeTag := Declarations.name_of_type? ht
      rw [← Option.some.inj h]
      exact ⟨_, by rw [hname, ht], rfl⟩
    · next target parents properties ht =>
      have hname : target = typeTag := Declarations.name_of_type? ht
      rw [← Option.some.inj h]
      exact ⟨_, by rw [hname, ht], rfl⟩
    · cases h

/-- **Categories are declared.** -/
theorem isDeclared_of_resolve (h : resolve d options owner p = .ok q)
    (hvt : q.shape.element? = some vt) : vt.IsDeclared d := by
  obtain ⟨-, ⟨-, hshape⟩ | ⟨-, vt', hvt', hshape⟩⟩ := resolve_eq_ok_iff.1 h
  · rw [hshape] at hvt
    cases hvt
  · have hsame : vt' = vt := by
      rw [hshape] at hvt
      split_ifs at hvt <;> exact Option.some.inj hvt
    obtain ⟨rule, -, hrule⟩ := List.exists_of_findSome?_eq_some hvt'
    rw [← hsame]
    exact isDeclared_of_element? hrule

/-! ### Declarations that agree -/

/-- Declarations of the same enums, and of types of the same names and kinds. -/
structure Declarations.Agree (d d' : Declarations) : Prop where
  types : d.types.map (fun t => (t.name, t.kind)) = d'.types.map (fun t => (t.name, t.kind))
  enums : d.enums = d'.enums

theorem Declarations.Agree.type? (h : d.Agree d') (name : String) :
    (d.type? name).map (fun t => (t.name, t.kind)) =
      (d'.type? name).map fun t => (t.name, t.kind) := by
  have hfind := congrArg (List.find? fun t => t.1 == name) h.types
  rw [List.find?_map, List.find?_map] at hfind
  exact hfind

theorem Declarations.Agree.enum? (h : d.Agree d') (name : String) :
    d.enum? name = d'.enum? name := by
  unfold Declarations.enum?
  rw [h.enums]

/-- A rule that does not look at the options gives a type tag the same category. -/
theorem element?_agree (h : d.Agree d') {rule : Rule} (hrule : rule ∈ Rule.unconditional) :
    rule.element? d options typeTag = rule.element? d' options' typeTag := by
  cases rule with
  | identifier | string | localizedText | scalar | time | multiComponent => rfl
  | asset => exact absurd hrule (by decide)
  | enum =>
    unfold Rule.element?
    rw [h.enum?]
  | nestedReference =>
    have hsame := h.type? typeTag
    unfold Rule.element?
    cases hd : d.type? typeTag with
    | none =>
      rw [hd] at hsame
      rw [Option.map_eq_none_iff.1 hsame.symm]
    | some t =>
      rw [hd] at hsame
      obtain ⟨t', hd', hsame⟩ := Option.map_eq_some_iff.1 hsame.symm
      obtain ⟨name, kind, parents, properties⟩ := t
      obtain ⟨name', kind', parents', properties'⟩ := t'
      obtain ⟨rfl, rfl⟩ := Prod.mk.inj hsame
      rw [hd']
      cases kind' <;> rfl

/-- **Tags mean the same.**  If both declarations give a type tag a category, it is the same one. -/
theorem elementOf?_agree (h : d.Agree d') (hvt : elementOf? d options typeTag = some vt)
    (hvt' : elementOf? d' options' typeTag = some vt') : vt = vt' := by
  have hsame : Rule.unconditional.findSome? (Rule.element? d options typeTag) =
      Rule.unconditional.findSome? (Rule.element? d' options' typeTag) := by
    rw [← List.head?_filterMap, ← List.head?_filterMap]
    exact congrArg List.head? (List.filterMap_congr fun rule hrule => element?_agree h hrule)
  rw [elementOf?_eq_or, hsame] at hvt
  rw [elementOf?_eq_or] at hvt'
  cases hfound : Rule.unconditional.findSome? (Rule.element? d' options' typeTag) with
  | some found =>
    rw [hfound] at hvt hvt'
    exact (Option.some.inj hvt).symm.trans (Option.some.inj hvt')
  | none =>
    rw [hfound] at hvt hvt'
    unfold Rule.element? at hvt hvt'
    simp only [Option.none_or] at hvt hvt'
    split_ifs at hvt hvt'
    exact (Option.some.inj hvt).symm.trans (Option.some.inj hvt')

/-! ### What is stored -/

/-- The shape in which a property is stored: an identifier is stored like a single text. -/
def Shape.stored : Shape → Shape
  | .identifier => .single .string
  | shape => shape

/-- A property as it is stored. -/
def Property.stored (q : Property) : Property := { q with shape := q.shape.stored }

/-- A resolved property is stored in the shape that its tag asks for. -/
theorem stored_of_resolve (h : resolve d options owner p = .ok q) :
    ∃ vt, elementOf? d options p.typeTag = some vt ∧
      q.stored = ⟨p.name, (if p.isList then Shape.list else Shape.single) vt⟩ := by
  obtain ⟨name, shape⟩ := q
  obtain ⟨hname, ⟨⟨-, -, htag, hlist⟩, hshape⟩ | ⟨-, vt, hvt, hshape⟩⟩ := resolve_eq_ok_iff.1 h
  · dsimp only at hname hshape
    refine ⟨.string, by rw [htag]; rfl, ?_⟩
    rw [hlist, hname, hshape]
    rfl
  · dsimp only at hname hshape
    refine ⟨vt, hvt, ?_⟩
    rw [hname, hshape]
    split_ifs <;> rfl

/-- A property that resolves under both declarations is stored alike. -/
theorem stored_agree (h : d.Agree d') (hq : resolve d options owner p = .ok q)
    (hq' : resolve d' options' owner' p = .ok q') : q.stored = q'.stored := by
  obtain ⟨vt, hvt, hstored⟩ := stored_of_resolve hq
  obtain ⟨vt', hvt', hstored'⟩ := stored_of_resolve hq'
  rw [hstored, hstored', elementOf?_agree h hvt hvt']

/-- Unless it may be the identifier under one of them only, it resolves to the same. -/
theorem resolve_agree (h : d.Agree d') (hkind : owner.kind = owner'.kind)
    (hidentifier : owner.kind = .record → options.identifierProperty = options'.identifierProperty)
    (hq : resolve d options owner p = .ok q) (hq' : resolve d' options' owner' p = .ok q') :
    q = q' := by
  have hsame : IsIdentifier options owner.kind p ↔ IsIdentifier options' owner'.kind p := by
    unfold IsIdentifier
    rw [← hkind]
    exact and_congr_right fun hrecord => by rw [hidentifier hrecord]
  obtain ⟨name, shape⟩ := q
  obtain ⟨name', shape'⟩ := q'
  obtain ⟨hname, hshape⟩ := resolve_eq_ok_iff.1 hq
  obtain ⟨hname', hshape'⟩ := resolve_eq_ok_iff.1 hq'
  dsimp only at hname hname' hshape hshape'
  rw [Property.mk.injEq]
  refine ⟨hname.trans hname'.symm, ?_⟩
  rcases hshape with ⟨hid, rfl⟩ | ⟨hid, vt, hvt, rfl⟩
  · rcases hshape' with ⟨-, rfl⟩ | ⟨hid', -⟩
    · rfl
    · exact absurd (hsame.1 hid) hid'
  · rcases hshape' with ⟨hid', -⟩ | ⟨-, vt', hvt', rfl⟩
    · exact absurd (hsame.2 hid') hid
    · rw [elementOf?_agree h hvt hvt']

end RecordTables.Schema
