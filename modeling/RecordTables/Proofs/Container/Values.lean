import RecordTables.Proofs.Registration
import RecordTables.Record

/-!
# What a container keeps of a value

`Value.WellTyped` says of a value that it is one of a property: it is of the kind that the property
asks for, names a member of its enum, refers to a record that there is, and its fields that are
properties of its sub-structure are well typed, too.  `Value.wire` is what is read back of it from a
container: a sub-structure has its properties in their order, those without a value have their
default, and a member of an enum becomes the first of its number.
-/

namespace RecordTables

open Schema

/-! ### Well-typed values -/

/-- A value is one of the shape, and refers to records of the catalog. -/
inductive Value.WellTyped (r : Registry) (c : Catalog) : Shape → Value → Prop where
  | string (s : String) : WellTyped r c (.single .string) (.text s)
  | localizedText (s : String) : WellTyped r c (.single .localizedText) (.text s)
  | enum {name member : String} {e : EnumDeclaration} (he : r.enum? name = some e)
      (hmember : member ∈ e.members.map (·.name)) : WellTyped r c (.single (.enum name)) (.enum member)
  | scalar (s : Scalar) : WellTyped r c (.single (.scalar s.kind)) (.scalar s)
  | duration (ms : Int64) : WellTyped r c (.single (.time .duration)) (.duration ms)
  | dateTime (ms : Int64) : WellTyped r c (.single (.time .dateTime)) (.dateTime ms)
  | noRef (target : String) : WellTyped r c (.single (.recordRef target)) (.ref none)
  | ref {target : String} {record : Record} (h : record ∈ (c.setOf target).records) :
      WellTyped r c (.single (.recordRef target)) (.ref (some record.guid))
  | noStruct (target : String) : WellTyped r c (.single (.embedded target)) .noStruct
  | struct {target : String} {t : ResolvedType} {fields : List (String × Value)}
      (ht : r.type? target = some t)
      (h : ∀ p ∈ t.properties, ∀ v, field? fields p.name = some v → WellTyped r c p.shape v) :
      WellTyped r c (.single (.embedded target)) (.struct fields)
  | composite {shape : CompositeShape} {components : List Scalar}
      (hlength : components.length = shape.arity)
      (hkind : ∀ s ∈ components, s.kind = shape.componentKind) :
      WellTyped r c (.single (.composite shape)) (.composite components)
  | asset (key : Option String) : WellTyped r c (.single .asset) (.asset key)
  | list {vt : ValueType} {items : List Value}
      (h : ∀ item ∈ items, WellTyped r c (.single vt) item) : WellTyped r c (.list vt) (.list items)

/-- The stored values of all records are well typed.  Values that no property names do not matter,
and neither do those under the name of the identifier. -/
def Catalog.WellTyped (r : Registry) (c : Catalog) : Prop :=
  ∀ t ∈ r.recordTypes, ∀ record ∈ (c.setOf t.name).records, ∀ p ∈ t.valueProperties, ∀ v,
    record.values.find? p.name = some v → v.WellTyped r c p.shape

/-! ### Values in a container -/

namespace Registry

/-- The value of a property of which nothing is stored. -/
def defaultValue (r : Registry) (p : Property) : Value := (r.default? p).getD .noStruct

/-- Every property but the identifier has a default. -/
theorem exists_default? (r : Registry) {p : Property} (h : p.shape ≠ .identifier) :
    ∃ v, r.default? p = some v := by
  unfold default?
  cases hshape : p.shape with
  | identifier => exact absurd hshape h
  | single vt => exact ⟨_, rfl⟩
  | list vt => exact ⟨_, rfl⟩

/-- The first member of an enum that has the number of a member. -/
def firstMember (r : Registry) (enumName member : String) : String :=
  ((r.enum? enumName).bind fun e => (e.valueOf? member).bind e.nameOf?).getD member

end Registry

mutual

/-- The value of a shape that is read back from a container. -/
def Value.wire (r : Registry) : Value → Shape → Value
  | .struct fields, .single (.embedded target) =>
    match r.type? target with
    | some t => .struct (t.properties.map fun p => (p.name, wireField r fields p))
    | none => .struct fields
  | .list items, .list vt => .list (wireItems r items vt)
  | .enum member, .single (.enum name) => .enum (r.firstMember name member)
  | v, _ => v

/-- What is read back of the first field of the name of a property, or the default. -/
def Value.wireField (r : Registry) : List (String × Value) → Property → Value
  | [], p => r.defaultValue p
  | f :: rest, p => if f.1 = p.name then f.2.wire r p.shape else wireField r rest p

/-- What is read back of the elements of a list. -/
def Value.wireItems (r : Registry) : List Value → ValueType → List Value
  | [], _ => []
  | v :: rest, vt => v.wire r (.single vt) :: wireItems r rest vt

end

namespace Value

variable {r : Registry} {c : Catalog}

theorem wireField_eq (r : Registry) (fields : List (String × Value)) (p : Property) :
    wireField r fields p =
      ((field? fields p.name).map fun v => v.wire r p.shape).getD (r.defaultValue p) := by
  induction fields with
  | nil => rfl
  | cons f rest ih =>
    unfold wireField field?
    by_cases hname : f.1 = p.name
    · rw [if_pos hname, List.find?_cons_of_pos (by simpa using hname)]
      rfl
    · rw [if_neg hname, List.find?_cons_of_neg (by simpa using hname), ih, field?]

theorem wireItems_eq_map (r : Registry) (items : List Value) (vt : ValueType) :
    wireItems r items vt = items.map fun v => v.wire r (.single vt) := by
  induction items with
  | nil => rfl
  | cons v rest ih => rw [wireItems, ih, List.map_cons]

/-- **A sub-structure in a container** has its properties in their order. -/
theorem wire_struct {target : String} {t : ResolvedType} (ht : r.type? target = some t)
    (fields : List (String × Value)) :
    (struct fields).wire r (.single (.embedded target)) =
      .struct (t.properties.map fun p => (p.name,
        ((field? fields p.name).map fun v => v.wire r p.shape).getD (r.defaultValue p))) := by
  rw [wire, ht]
  exact congrArg struct (List.map_congr_left fun p _ => by rw [wireField_eq])

theorem wire_list (r : Registry) (items : List Value) (vt : ValueType) :
    (list items).wire r (.list vt) = .list (items.map fun v => v.wire r (.single vt)) := by
  rw [wire, wireItems_eq_map]

/-- The member of an enum that nothing is known of is the first of its number. -/
theorem firstMember_head? (r : Registry) (name : String) :
    r.firstMember name ((((r.enum? name).bind (·.members.head?)).map (·.name)).getD "") =
      (((r.enum? name).bind (·.members.head?)).map (·.name)).getD "" := by
  unfold Registry.firstMember
  cases r.enum? name with
  | none => rfl
  | some e =>
    obtain ⟨enumName, repr, members⟩ := e
    cases members with
    | nil => rfl
    | cons m members =>
      have hvalue : EnumDeclaration.valueOf? ⟨enumName, repr, m :: members⟩ m.name = some m.value := by
        simp [EnumDeclaration.valueOf?]
      have hname : EnumDeclaration.nameOf? ⟨enumName, repr, m :: members⟩ m.value = some m.name := by
        simp [EnumDeclaration.nameOf?]
      show ((EnumDeclaration.valueOf? _ m.name).bind _).getD _ = m.name
      rw [hvalue, Option.bind_some, hname]
      rfl

/-- **Defaults are kept as they are.** -/
theorem wire_default {p : Property} {v : Value} (h : r.default? p = some v) :
    v.wire r p.shape = v := by
  unfold Registry.default? at h
  cases hshape : p.shape with
  | identifier =>
    rw [hshape] at h
    cases h
  | list vt =>
    rw [hshape] at h
    rw [← Option.some.inj h]
    rfl
  | single vt =>
    rw [hshape] at h
    rw [← Option.some.inj h]
    cases vt with
    | enum name => exact congrArg Value.enum (firstMember_head? r name)
    | time kind => cases kind <;> rfl
    | _ => rfl

/-- The default of an element is well typed. -/
theorem wellTyped_defaultElement (hr : r.IsSound) {vt : ValueType}
    (hdeclared : vt.IsDeclared r.declarations) :
    (r.defaultElement vt).WellTyped r c (.single vt) := by
  cases vt with
  | string => exact .string ""
  | localizedText => exact .localizedText ""
  | scalar kind =>
    have hzero := WellTyped.scalar (r := r) (c := c) (.zero kind)
    rw [Scalar.kind_zero] at hzero
    exact hzero
  | time kind =>
    cases kind with
    | duration => exact .duration 0
    | dateTime => exact .dateTime 0
  | recordRef target => exact .noRef target
  | embedded target => exact .noStruct target
  | composite shape =>
    refine .composite shape.length_defaultComponents ?_
    cases shape <;> decide
  | asset => exact .asset none
  | enum name =>
    obtain ⟨e, he⟩ := hdeclared
    have hmem : e ∈ r.declarations.enums := List.mem_of_find?_eq_some he
    -- an enum has members, and the first is the default
    obtain ⟨m, members, hmembers⟩ := List.exists_cons_of_ne_nil
      (Registration.members_of_enumFault? (hr.enums e hmem)).1
    have hdefault : r.defaultElement (.enum name) = .enum m.name := by
      show Value.enum ((((r.declarations.enum? name).bind _).map _).getD "") = _
      rw [he, Option.bind_some, hmembers]
      rfl
    rw [hdefault]
    refine .enum he ?_
    rw [hmembers]
    exact List.mem_cons_self

/-- **Defaults are well typed.** -/
theorem wellTyped_default (hr : r.IsSound) {p : Property} {v : Value}
    (hdeclared : ∀ vt, p.shape.element? = some vt → vt.IsDeclared r.declarations)
    (h : r.default? p = some v) : v.WellTyped r c p.shape := by
  unfold Registry.default? at h
  cases hshape : p.shape with
  | identifier =>
    rw [hshape] at h
    cases h
  | list vt =>
    rw [hshape] at h
    rw [← Option.some.inj h]
    exact .list (List.forall_mem_nil _)
  | single vt =>
    rw [hshape] at h hdeclared
    rw [← Option.some.inj h]
    exact wellTyped_defaultElement hr (hdeclared vt rfl)

end Value

end RecordTables
