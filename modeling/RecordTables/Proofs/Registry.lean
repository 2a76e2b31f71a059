import RecordTables.Proofs.Layout.Assembler
import RecordTables.Proofs.Schema.Resolution
import RecordTables.Registry

/-!
# What a build gives

The registry that a build gives is laid out (`Registration.isLaidOut_of_build`): its layout is well
formed, every property of its storage plans is planned as its shape asks, and has all of its fields
in the layout.  What else is known of it is drawn from `Registration.Yields`: every type stands there
with its properties resolved (`Registration.Yields.resolves`), and what the properties name is
declared (`Registration.Yields.isDeclared`).
-/

namespace RecordTables

open Schema

/-! ### The fields of a plan -/

namespace PropertyPlan

variable {d : Declarations} {table : String} {p : Property} {f : Field}

/-- The fields of a property are fields of its table. -/
theorem table_of_mem_fieldsOf {name : String} {vt : ValueType} {isArray : Bool}
    (hf : f ∈ fieldsOf d table name vt isArray) : f.table = table := by
  cases vt with
  | composite shape =>
    obtain ⟨c, -, rfl⟩ := List.mem_map.1 hf
    rfl
  | _ => rw [List.mem_singleton.1 hf]

theorem table_of_mem_fields (hf : f ∈ (ofProperty d table p).fields) : f.table = table := by
  unfold ofProperty at hf
  split at hf
  · rw [List.mem_singleton.1 hf]
  · exact table_of_mem_fieldsOf hf
  · exact table_of_mem_fieldsOf hf

theorem property_ofProperty (d : Declarations) (table : String) (p : Property) :
    (ofProperty d table p).property = p := by
  unfold ofProperty
  split <;> rfl

/-- What is read from tables of sub-structures are sub-structures. -/
theorem element?_of_read {target : String}
    (h : (ofProperty d table p).read = .embedded target) :
    p.shape.element? = some (.embedded target) := by
  obtain ⟨name, shape⟩ := p
  cases shape with
  | identifier => cases h
  | single vt | list vt =>
    cases vt with
    | embedded target' =>
      cases h
      rfl
    | _ => cases h

/-- The slots of a plan are its fields. -/
theorem slots_ofProperty (d : Declarations) (table : String) (p : Property) :
    (ofProperty d table p).write.slots = (ofProperty d table p).fields.map (·.name) := by
  unfold ofProperty
  split <;> rfl

end PropertyPlan

/-! ### Laid out registries -/

/-- The layout is well formed, and the storage plans have their fields in it. -/
structure Registry.IsLaidOut (r : Registry) : Prop where
  layout : r.layout.WellFormed
  plan : ∀ t ∈ r.tables, ∀ q ∈ t.properties,
    q = PropertyPlan.ofProperty r.declarations t.table q.property
  field : ∀ t ∈ r.tables, ∀ q ∈ t.properties, ∀ f ∈ q.fields, f ∈ r.layout.fields

namespace Registration

theorem layOut_eq_ok {plans : List TablePlan} {l : Layout} (h : layOut plans = .ok l) :
    l = (Layout.assemble ⟨[]⟩ (plans.flatMap layoutSteps)).2 ∧
      ∀ r ∈ (Layout.assemble ⟨[]⟩ (plans.flatMap layoutSteps)).1, r = .ok () := by
  unfold layOut at h
  dsimp only at h
  split at h
  · next hfaults =>
    refine ⟨(Except.ok.inj h).symm, fun r hr => ?_⟩
    rw [List.filterMap_eq_nil_iff] at hfaults
    cases r with
    | ok u => rfl
    | error e => cases hfaults _ hr
  · cases h

theorem layOut_of_assemble {plans : List TablePlan}
    (h : ∀ r ∈ (Layout.assemble ⟨[]⟩ (plans.flatMap layoutSteps)).1, r = .ok ()) :
    layOut plans = .ok (Layout.assemble ⟨[]⟩ (plans.flatMap layoutSteps)).2 := by
  unfold layOut
  dsimp only
  split
  · rfl
  · next hfaults =>
    refine absurd (List.filterMap_eq_nil_iff.2 fun r hr => ?_) hfaults
    rw [h r hr]

/-- What is known of a registry that was built: the closures of its types, which have no names twice,
and how its parts come from them. -/
structure Yields (reg : Registration) (options : Options)
    (closed : List (TypeDeclaration × List PropertyDeclaration)) (r : Registry) : Prop where
  closures : closures reg.declarations options = .ok closed
  faults : closed.flatMap (resolutionFaults reg.declarations options) = []
  types : r.types = closed.map fun t => ⟨t.1.name, t.1.kind, t.2,
    t.2.filterMap fun p => (resolve reg.declarations options t.1 p).toOption⟩
  tables : r.tables =
    (r.types.filter (fun t => t.kind != .interface)).map (tablePlan reg.declarations)
  layout : layOut r.tables = .ok r.layout
  options : r.options = options
  declarations : r.declarations = reg.declarations
  fingerprint : r.fingerprint = .ofStream (Stream.schema closed reg.declarations.enums)

theorem exists_yields_of_build {reg : Registration} {options : Options} {r : Registry}
    (h : reg.build options = .ok r) : ∃ closed, reg.Yields options closed r := by
  unfold build at h
  split_ifs at h
  obtain ⟨closed, hclosed, h⟩ := bind_eq_ok.1 h
  obtain ⟨u, -, h⟩ := bind_eq_ok.1 h
  obtain ⟨types, htypes, h⟩ := bind_eq_ok.1 h
  obtain ⟨layout, hlayout, h⟩ := bind_eq_ok.1 h
  rw [← Except.ok.inj h]
  unfold inherit at hclosed
  unfold resolveAll at htypes
  split at hclosed
  · split at htypes
    · next hfaults =>
      refine ⟨closed, ?_, hfaults, (Except.ok.inj htypes).symm, rfl, hlayout, rfl, rfl, rfl⟩
      cases hc : Schema.closures reg.declarations options with
      | error e =>
        rw [hc] at hclosed
        cases hclosed
      | ok closed' =>
        rw [hc] at hclosed
        rw [Except.ok.inj hclosed]
    · cases htypes
  · cases hclosed

/-- A type with its effective properties, and what it is resolved to. -/
structure ResolvesTo (d : Declarations) (options : Options)
    (c : TypeDeclaration × List PropertyDeclaration) (t : ResolvedType) : Prop where
  name : t.name = c.1.name
  kind : t.kind = c.1.kind
  declarations : t.declarations = c.2
  properties : List.Forall₂ (fun p q => resolve d options c.1 p = .ok q) c.2 t.properties

/-- **Every property is resolved.** -/
theorem Yields.resolves {reg : Registration} {options : Options}
    {closed : List (TypeDeclaration × List PropertyDeclaration)} {r : Registry}
    (h : reg.Yields options closed r) :
    List.Forall₂ (ResolvesTo reg.declarations options) closed r.types := by
  have hresolve : ∀ c ∈ closed, ∀ p ∈ c.2, ∃ q, resolve reg.declarations options c.1 p = .ok q := by
    intro c hc p hp
    have hfault := List.filterMap_eq_nil_iff.1 (List.flatMap_eq_nil_iff.1 h.faults c hc) p hp
    cases hq : resolve reg.declarations options c.1 p with
    | ok q => exact ⟨q, rfl⟩
    | error e =>
      rw [hq] at hfault
      cases hfault
  rw [h.types, List.forall₂_map_right_iff, List.forall₂_same]
  intro c hc
  refine ⟨rfl, rfl, rfl, ?_⟩
  have hproperties := hresolve c hc
  dsimp only
  generalize c.2 = properties at hproperties
  induction properties with
  | nil => exact .nil
  | cons p properties ih =>
    obtain ⟨q, hq⟩ := hproperties p List.mem_cons_self
    have hoption : (resolve reg.declarations options c.1 p).toOption = some q := by rw [hq]; rfl
    simp only [List.filterMap_cons, hoption]
    exact .cons hq (ih fun p' hp' => hproperties p' (List.mem_cons_of_mem _ hp'))

section Yields

variable {reg : Registration} {options : Options} {r : Registry} {name : String}
  {closed : List (TypeDeclaration × List PropertyDeclaration)}

/-- The types of the closures are those that are declared. -/
theorem map_fst_of_closures {d : Declarations} (h : Schema.closures d options = .ok closed) :
    closed.map (·.1) = d.types := by
  refine List.forall₂_eq_eq_eq ▸ ?_
  rw [List.forall₂_map_left_iff]
  refine (mapM_eq_ok.1 h).flip.imp fun c t hc => ?_
  obtain ⟨properties, -, rfl⟩ := map_eq_ok.1 hc
  rfl

theorem Yields.map_types (h : reg.Yields options closed r) :
    r.types.map (fun t => (t.name, t.kind)) =
      reg.declarations.types.map fun t => (t.name, t.kind) := by
  rw [← map_fst_of_closures h.closures, h.types, List.map_map, List.map_map]
  rfl

/-- A declared type that has instances has a table of its name and kind. -/
theorem Yields.exists_table? (h : reg.Yields options closed r) {t : TypeDeclaration}
    (ht : reg.declarations.type? name = some t) (hkind : t.kind ≠ .interface) :
    ∃ plan, r.table? name = some plan ∧ plan.kind = t.kind := by
  have hfind := congrArg (List.find? fun t => t.1 == name) h.map_types
  rw [List.find?_map, List.find?_map] at hfind
  unfold Declarations.type? at ht
  have hdeclared : (reg.declarations.types.find? ((fun t => t.1 == name) ∘
      fun t : TypeDeclaration => (t.name, t.kind))) = some t := ht
  rw [hdeclared] at hfind
  obtain ⟨rt, hrt, hsame⟩ := Option.map_eq_some_iff.1 hfind
  obtain ⟨hname, hrtkind⟩ := Prod.mk.inj hsame
  refine ⟨tablePlan reg.declarations rt, ?_, hrtkind⟩
  unfold Registry.table?
  rw [h.tables, List.find?_map, List.find?_filter]
  refine Option.map_eq_some_iff.2 ⟨rt, ?_, rfl⟩
  obtain ⟨hrtname, front, back, hsplit, hfront⟩ := List.find?_eq_some_iff_append.1 hrt
  refine List.find?_eq_some_iff_append.2 ⟨?_, front, back, hsplit, fun x hx => ?_⟩
  · refine decide_eq_true ⟨bne_iff_ne.2 ?_, hrtname⟩
    rw [hrtkind]
    exact hkind
  · have hname : ¬(x.name == name) = true := by simpa using hfront x hx
    simp only [Bool.not_eq_true', decide_eq_false_iff_not, not_and]
    exact fun _ => hname

/-- The categories of properties are declared. -/
theorem Yields.isDeclared (h : reg.Yields options closed r) {plan : TablePlan}
    (hplan : plan ∈ r.tables) {q : PropertyPlan} (hq : q ∈ plan.properties) {vt : ValueType}
    (hvt : q.property.shape.element? = some vt) : vt.IsDeclared reg.declarations := by
  rw [h.tables] at hplan
  obtain ⟨t, ht, rfl⟩ := List.mem_map.1 hplan
  obtain ⟨p, hp, rfl⟩ := List.mem_map.1 hq
  rw [PropertyPlan.property_ofProperty] at hvt
  obtain ⟨c, -, hc⟩ := exists_of_mem_forall₂ h.resolves (List.mem_of_mem_filter ht)
  obtain ⟨declaration, -, hresolve⟩ := exists_of_mem_forall₂ hc.properties hp
  exact isDeclared_of_resolve hresolve hvt

/-- The tables that properties are read from are those of sub-structures. -/
theorem Yields.exists_table?_of_read (h : reg.Yields options closed r) {plan : TablePlan}
    (hplan : plan ∈ r.tables) {q : PropertyPlan} (hq : q ∈ plan.properties) {target : String}
    (hread : q.read = .embedded target) :
    ∃ nested, r.table? target = some nested ∧ nested.kind = .struct := by
  have hdeclared : (ValueType.embedded target).IsDeclared reg.declarations := by
    refine h.isDeclared hplan hq ?_
    rw [h.tables] at hplan
    obtain ⟨t, -, rfl⟩ := List.mem_map.1 hplan
    obtain ⟨p, -, rfl⟩ := List.mem_map.1 hq
    rw [PropertyPlan.property_ofProperty]
    exact PropertyPlan.element?_of_read hread
  obtain ⟨t, ht, hkind⟩ := hdeclared
  obtain ⟨nested, hnested, hsame⟩ := h.exists_table? ht (by rw [hkind]; decide)
  exact ⟨nested, hnested, hsame.trans hkind⟩

end Yields

/-- **Built registries are laid out.** -/
theorem isLaidOut_of_build {reg : Registration} {options : Options} {r : Registry}
    (h : reg.build options = .ok r) : r.IsLaidOut := by
  obtain ⟨closed, hr⟩ := exists_yields_of_build h
  obtain ⟨hlayout, hok⟩ := layOut_eq_ok hr.layout
  constructor
  · rw [hlayout]
    exact Layout.wellFormed_nil.assemble _
  · intro t ht q hq
    rw [hr.tables] at ht
    obtain ⟨type, -, rfl⟩ := List.mem_map.1 ht
    obtain ⟨p, -, rfl⟩ := List.mem_map.1 hq
    rw [PropertyPlan.property_ofProperty, hr.declarations]
    rfl
  · intro t ht q hq f hf
    rw [hlayout]
    refine Layout.mem_fields_assemble hok (List.mem_flatMap.2 ⟨t, ht, ?_⟩)
    exact List.mem_cons_of_mem _ (List.mem_map_of_mem (List.mem_flatMap.2 ⟨q, hq, hf⟩))

end Registration

end RecordTables
