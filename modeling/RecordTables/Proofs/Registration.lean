import RecordTables.Proofs.Registry

/-!
# Registries of registered declarations

What reaches a build comes from registering types and enums one after the other
(`Registration.IsRegistered`), so no two types have one name and every enum can be stored.  A build
checks the rest, and `Registry.IsSound` puts together what is then known of the registry
(`Registration.isSound_of_build`): the names of types, of the properties of a type and of the slots
of a table are told apart, and the identifier of a record type is its one property of that name.
-/

namespace RecordTables

open Schema

/-! ### Registered declarations -/

namespace Registration

/-- What registering types and enums leads to. -/
inductive IsRegistered : Registration → Prop where
  | empty : IsRegistered .empty
  | addType {r : Registration} (t : TypeDeclaration) (h : IsRegistered r) : IsRegistered (r.addType t)
  | addEnum {r : Registration} (e : EnumDeclaration) (h : IsRegistered r) : IsRegistered (r.addEnum e)

variable {reg : Registration}

theorem declarations_addType (r : Registration) (t : TypeDeclaration) :
    (r.addType t).declarations =
      if r.declarations.isDeclared t.name then r.declarations
      else { r.declarations with types := r.declarations.types ++ [t] } := by
  unfold addType Declarations.addType?
  cases r.declarations.isDeclared t.name <;> rfl

theorem declarations_addEnum (r : Registration) (e : EnumDeclaration) :
    (r.addEnum e).declarations =
      if (enumFault? e).isSome || r.declarations.isDeclared e.name then r.declarations
      else { r.declarations with enums := r.declarations.enums ++ [e] } := by
  unfold addEnum Declarations.addEnum?
  cases enumFault? e with
  | some reason => rfl
  | none => cases r.declarations.isDeclared e.name <;> rfl

theorem not_mem_names_of_not_isDeclared {d : Declarations} {name : String}
    (h : ¬d.isDeclared name = true) : name ∉ d.types.map (·.name) := by
  intro hmem
  obtain ⟨t, ht, hname⟩ := List.mem_map.1 hmem
  have hfound : (d.type? name).isSome := List.find?_isSome.2 ⟨t, ht, beq_iff_eq.2 hname⟩
  refine h ?_
  unfold Declarations.isDeclared
  rw [hfound, Bool.true_or]

/-- No two registered types have one name. -/
theorem IsRegistered.names (h : reg.IsRegistered) : (reg.declarations.types.map (·.name)).Nodup := by
  induction h with
  | empty => exact List.nodup_nil
  | addType t h ih =>
    rw [declarations_addType]
    split_ifs with hdeclared
    · exact ih
    · rw [List.map_append, List.map_singleton, ← List.concat_eq_append]
      exact ih.concat (not_mem_names_of_not_isDeclared hdeclared)
  | addEnum e h ih =>
    rw [declarations_addEnum]
    split_ifs
    · exact ih
    · exact ih

/-- Every registered enum can be stored. -/
theorem IsRegistered.enums (h : reg.IsRegistered) :
    ∀ e ∈ reg.declarations.enums, enumFault? e = none := by
  induction h with
  | empty => exact List.forall_mem_nil _
  | addType t h ih =>
    rw [declarations_addType]
    split_ifs
    · exact ih
    · exact ih
  | addEnum e h ih =>
    rw [declarations_addEnum]
    split_ifs with hrefused
    · exact ih
    · rw [Bool.or_eq_true, not_or, Option.not_isSome_iff_eq_none] at hrefused
      exact List.forall_mem_append.2 ⟨ih, List.forall_mem_singleton.2 hrefused.1⟩

/-! ### Enums that can be stored -/

theorem fits_of_memberFault? {repr : ScalarKind} {seen : List String} {members : List EnumMember}
    (h : memberFault? repr seen members = none) :
    ∀ m ∈ members, (Scalar.ofInt64? repr m.value).isSome := by
  induction members generalizing seen with
  | nil => exact List.forall_mem_nil _
  | cons m members ih =>
    unfold memberFault? at h
    split_ifs at h with hseen hfits
    rw [Option.isNone_iff_eq_none] at hfits
    exact List.forall_mem_cons.2 ⟨Option.isSome_iff_ne_none.2 hfits, ih h⟩

/-- An enum that can be stored has members, and the number of each fits the kind. -/
theorem members_of_enumFault? {e : EnumDeclaration} (h : enumFault? e = none) :
    e.members ≠ [] ∧ ∀ m ∈ e.members, (Scalar.ofInt64? e.repr m.value).isSome := by
  unfold enumFault? at h
  split_ifs at h with hrepr hempty
  refine ⟨fun hnil => hempty (by rw [hnil]; rfl), fits_of_memberFault? h⟩

/-! ### Effective properties -/

/-- If no name was seen before and none is repeated, this is so with a new name in front. -/
theorem nodup_cons_of_unseen {x : String} {seen names : List String}
    (hx : ¬seen.contains x = true) (h : names.Nodup ∧ ∀ name ∈ x :: seen, name ∉ names) :
    (x :: names).Nodup ∧ ∀ name ∈ seen, name ∉ x :: names := by
  obtain ⟨hnodup, hnew⟩ := h
  refine ⟨List.nodup_cons.2 ⟨hnew _ List.mem_cons_self, hnodup⟩, fun name hname hmem => ?_⟩
  rcases List.mem_cons.1 hmem with rfl | hmem
  · exact hx (List.contains_iff_mem.2 hname)
  · exact hnew name (List.mem_cons_of_mem _ hname) hmem

theorem nodup_of_repeatedNames {table : String} {seen : List String}
    {properties : List PropertyDeclaration} (h : repeatedNames table seen properties = []) :
    (properties.map (·.name)).Nodup ∧ ∀ name ∈ seen, name ∉ properties.map (·.name) := by
  induction properties generalizing seen with
  | nil => exact ⟨List.nodup_nil, fun _ _ => List.not_mem_nil⟩
  | cons p properties ih =>
    unfold repeatedNames at h
    split_ifs at h with hseen
    exact nodup_cons_of_unseen hseen (ih h)

theorem repeatedNames_eq_nil {table : String} {seen : List String}
    {properties : List PropertyDeclaration} (hnodup : (properties.map (·.name)).Nodup)
    (hnew : ∀ name ∈ seen, name ∉ properties.map (·.name)) :
    repeatedNames table seen properties = [] := by
  induction properties generalizing seen with
  | nil => rfl
  | cons p properties ih =>
    obtain ⟨hp, hnodup⟩ := List.nodup_cons.1 hnodup
    unfold repeatedNames
    rw [if_neg fun hseen => hnew _ (List.contains_iff_mem.1 hseen) List.mem_cons_self]
    refine ih hnodup (List.forall_mem_cons.2 ⟨hp, fun name hname hmem => ?_⟩)
    exact hnew name hname (List.mem_cons_of_mem _ hmem)

theorem closureFaults_eq_nil {errors : List SchemaError} {t : TypeDeclaration}
    {closure : Except SchemaError (List PropertyDeclaration)}
    (h : closureFaults errors t closure = []) :
    errors = [] ∧ ∀ properties, closure = .ok properties → repeatedNames t.name [] properties = [] := by
  cases closure with
  | ok properties =>
    obtain ⟨herrors, hrepeated⟩ := List.append_eq_nil_iff.1 h
    exact ⟨herrors, fun _ hsame => Except.ok.inj hsame ▸ hrepeated⟩
  | error e =>
    refine ⟨?_, fun _ hsame => nomatch hsame⟩
    dsimp only [closureFaults] at h
    split_ifs at h with hmem
    · exact h
    · exact (List.append_eq_nil_iff.1 h).1

theorem foldl_closureFaults_eq_nil {d : Declarations} {options : Options} {errors : List SchemaError}
    {types : List TypeDeclaration}
    (h : types.foldl (fun es t => closureFaults es t (effectiveProperties d options t)) errors = []) :
    errors = [] ∧ ∀ t ∈ types, ∀ properties, effectiveProperties d options t = .ok properties →
      repeatedNames t.name [] properties = [] := by
  induction types generalizing errors with
  | nil => exact ⟨h, List.forall_mem_nil _⟩
  | cons t types ih =>
    obtain ⟨hfirst, hothers⟩ := ih h
    obtain ⟨herrors, hrepeated⟩ := closureFaults_eq_nil hfirst
    exact ⟨herrors, List.forall_mem_cons.2 ⟨hrepeated, hothers⟩⟩

theorem mem_closures {d : Declarations} {options : Options}
    {closed : List (TypeDeclaration × List PropertyDeclaration)}
    (h : closures d options = .ok closed) {c : TypeDeclaration × List PropertyDeclaration}
    (hc : c ∈ closed) : c.1 ∈ d.types ∧ effectiveProperties d options c.1 = .ok c.2 := by
  obtain ⟨t, ht, hproperties⟩ := exists_of_mem_mapM h hc
  obtain ⟨properties, heffective, rfl⟩ := map_eq_ok.1 hproperties
  exact ⟨ht, heffective⟩

/-- **No property is there twice.** -/
theorem nodup_of_build {options : Options} {r : Registry} (h : reg.build options = .ok r)
    {t : TypeDeclaration} (ht : t ∈ reg.declarations.types) {properties : List PropertyDeclaration}
    (hproperties : effectiveProperties reg.declarations options t = .ok properties) :
    (properties.map (·.name)).Nodup := by
  unfold build at h
  split_ifs at h
  obtain ⟨closed, hclosed, -⟩ := bind_eq_ok.1 h
  unfold inherit at hclosed
  split at hclosed
  · next hnil =>
    exact (nodup_of_repeatedNames ((foldl_closureFaults_eq_nil hnil).2 t ht _ hproperties)).1
  · cases hclosed

/-- A record type has its identifier among its properties. -/
theorem exists_identifier_of_effective {d : Declarations} {options : Options} {t : TypeDeclaration}
    {properties : List PropertyDeclaration}
    (h : effectiveProperties d options t = .ok properties) (hkind : t.kind = .record) :
    ∃ p ∈ properties, IsIdentifier options t.kind p := by
  unfold effectiveProperties at h
  split at h
  · cases h
  · next found _ =>
    unfold withIdentifier at h
    rw [if_neg (by rw [hkind]; decide)] at h
    split at h
    · rw [← Except.ok.inj h]
      exact ⟨_, List.mem_cons_self, hkind, rfl, rfl, rfl⟩
    · next p hp =>
      split_ifs at h with hother
      rw [not_or, not_not, Bool.not_eq_true] at hother
      rw [← Except.ok.inj h]
      have hname := List.find?_some hp
      exact ⟨p, List.mem_of_find?_eq_some hp, hkind, beq_iff_eq.1 hname, hother.1, hother.2⟩

end Registration

/-! ### Record types -/

namespace Registry

variable {r : Registry} {t u : ResolvedType}

theorem mem_recordTypes : t ∈ r.recordTypes ↔ t ∈ r.types ∧ t.kind = .record := by
  unfold recordTypes ResolvedType.isRecord
  rw [List.mem_filter, beq_iff_eq]

/-- Record types have instances. -/
theorem kind_ne_interface (ht : t ∈ r.recordTypes) : t.kind ≠ .interface := by
  rw [(mem_recordTypes.1 ht).2]
  decide

/-- Record types and types of sub-structures are told apart by their names. -/
theorem name_ne_of_struct (hnames : (r.types.map (·.name)).Nodup) (hu : u ∈ r.recordTypes)
    (ht : t ∈ r.types) (hkind : t.kind = .struct) : u.name ≠ t.name := by
  intro hname
  obtain ⟨hmem, hrecord⟩ := mem_recordTypes.1 hu
  rw [List.inj_on_of_nodup_map hnames hmem ht hname, hkind] at hrecord
  cases hrecord

end Registry

/-! ### Sound registries -/

/-- What is known of a registry that was built. -/
structure Registry.IsSound (r : Registry) : Prop where
  /-- No two types have one name. -/
  names : (r.types.map (·.name)).Nodup
  /-- No two properties of a type have one name. -/
  propertyNames : ∀ t ∈ r.types, (t.properties.map (·.name)).Nodup
  /-- The identifier of a record type is its property of the name for identifiers. -/
  identifier : ∀ t ∈ r.types, ∀ p ∈ t.properties,
    p.shape = .identifier ↔ t.kind = .record ∧ p.name = r.identifierProperty
  /-- Every record type has an identifier. -/
  hasIdentifier : ∀ t ∈ r.types, t.kind = .record → ∃ p ∈ t.properties, p.shape = .identifier
  /-- Every type that has instances has a table in the layout. -/
  layouts : ∀ t ∈ r.types, t.kind ≠ .interface → ∃ layout, r.layout.table? t.name = some layout
  /-- There is a storage plan for every type that has instances. -/
  tables : r.tables =
    (r.types.filter (fun t => t.kind != .interface)).map (Registration.tablePlan r.declarations)
  /-- No two slots of a table have one name. -/
  slots : ∀ plan ∈ r.tables, (plan.properties.flatMap fun q => q.fields.map (·.name)).Nodup
  /-- What properties name is declared. -/
  declared : ∀ t ∈ r.types, ∀ p ∈ t.properties, ∀ vt, p.shape.element? = some vt →
    vt.IsDeclared r.declarations
  /-- The declared types are the resolved ones. -/
  resolved : r.types.map (fun t => (t.name, t.kind)) =
    r.declarations.types.map fun t => (t.name, t.kind)
  /-- Every enum can be stored. -/
  enums : ∀ e ∈ r.declarations.enums, Registration.enumFault? e = none
  /-- The registry is laid out. -/
  laidOut : r.IsLaidOut

namespace Registry.IsSound

variable {r : Registry} {t : ResolvedType} {name : String} {declared : TypeDeclaration}

/-- Types are told apart by their names. -/
theorem type?_of_mem (hr : r.IsSound) (ht : t ∈ r.types) : r.type? t.name = some t := by
  have hsome : (r.type? t.name).isSome = true :=
    List.find?_isSome.2 ⟨t, ht, beq_self_eq_true _⟩
  obtain ⟨found, hfound⟩ := Option.isSome_iff_exists.1 hsome
  have hname := List.find?_some hfound
  rw [hfound, List.inj_on_of_nodup_map hr.names (List.mem_of_find?_eq_some hfound) ht
    (beq_iff_eq.1 hname)]

/-- A declared type is resolved. -/
theorem exists_type (hr : r.IsSound) (h : r.declarations.type? name = some declared) :
    ∃ t ∈ r.types, t.name = name ∧ t.kind = declared.kind := by
  have hmem : (declared.name, declared.kind) ∈ r.types.map fun t => (t.name, t.kind) := by
    rw [hr.resolved]
    exact List.mem_map.2 ⟨declared, List.mem_of_find?_eq_some h, rfl⟩
  obtain ⟨t, ht, hsame⟩ := List.mem_map.1 hmem
  obtain ⟨hname, hkind⟩ := Prod.mk.inj hsame
  have hdeclared := List.find?_some h
  exact ⟨t, ht, hname.trans (beq_iff_eq.1 hdeclared), hkind⟩

/-- The type that a reference is declared to name is a record type. -/
theorem exists_recordType (hr : r.IsSound)
    (h : (ValueType.recordRef name).IsDeclared r.declarations) :
    ∃ t ∈ r.recordTypes, t.name = name := by
  obtain ⟨declared, hdeclared, hkind⟩ := h
  obtain ⟨t, ht, hname, hsame⟩ := hr.exists_type hdeclared
  exact ⟨t, List.mem_filter.2 ⟨ht, beq_iff_eq.2 (hsame.trans hkind)⟩, hname⟩

/-- The type that a sub-structure is declared to be is one of structs. -/
theorem exists_struct (hr : r.IsSound) (h : (ValueType.embedded name).IsDeclared r.declarations) :
    ∃ t ∈ r.types, t.name = name ∧ t.kind = .struct := by
  obtain ⟨declared, hdeclared, hkind⟩ := h
  obtain ⟨t, ht, hname, hsame⟩ := hr.exists_type hdeclared
  exact ⟨t, ht, hname, hsame.trans hkind⟩

/-- Sub-structures have no identifier. -/
theorem shape_ne_identifier (hr : r.IsSound) (ht : t ∈ r.types) (hkind : t.kind = .struct)
    {p : Property} (hp : p ∈ t.properties) : p.shape ≠ .identifier := by
  intro hid
  have hrecord := ((hr.identifier t ht p hp).1 hid).1
  rw [hkind] at hrecord
  cases hrecord

/-- The storage plan of a type that has instances. -/
theorem table?_of_mem (hr : r.IsSound) (ht : t ∈ r.types) (hkind : t.kind ≠ .interface) :
    r.table? t.name = some (Registration.tablePlan r.declarations t) := by
  have hmem : Registration.tablePlan r.declarations t ∈ r.tables := by
    rw [hr.tables]
    exact List.mem_map_of_mem (List.mem_filter.2 ⟨ht, bne_iff_ne.2 hkind⟩)
  have hnames : (r.tables.map (·.table)).Nodup := by
    rw [hr.tables, List.map_map]
    exact (List.filter_sublist.map _).nodup hr.names
  have hsome : (r.table? t.name).isSome = true :=
    List.find?_isSome.2 ⟨_, hmem, beq_self_eq_true _⟩
  obtain ⟨found, hfound⟩ := Option.isSome_iff_exists.1 hsome
  have hname := List.find?_some hfound
  rw [hfound, List.inj_on_of_nodup_map hnames (List.mem_of_find?_eq_some hfound) hmem
    (beq_iff_eq.1 hname)]

/-- Properties of a type are told apart by their names. -/
theorem property?_of_mem (hr : r.IsSound) (ht : t ∈ r.types) {p : Property}
    (hp : p ∈ t.properties) :
    (Registration.tablePlan r.declarations t).property? p.name =
      some (PropertyPlan.ofProperty r.declarations t.name p) := by
  have hsome : (t.properties.find? fun q => q.name == p.name).isSome = true :=
    List.find?_isSome.2 ⟨p, hp, beq_self_eq_true _⟩
  obtain ⟨found, hfound⟩ := Option.isSome_iff_exists.1 hsome
  have hname := List.find?_some hfound
  have hsame : found = p := List.inj_on_of_nodup_map (hr.propertyNames t ht)
    (List.mem_of_find?_eq_some hfound) hp (beq_iff_eq.1 hname)
  have hnames : (fun q : PropertyPlan => q.property.name == p.name) ∘
      PropertyPlan.ofProperty r.declarations t.name = fun q => q.name == p.name := by
    funext q
    show ((PropertyPlan.ofProperty r.declarations t.name q).property.name == p.name) = _
    rw [PropertyPlan.property_ofProperty]
  unfold TablePlan.property? Registration.tablePlan
  rw [List.find?_map, hnames, hfound, hsame]
  rfl

end Registry.IsSound

namespace Registration

variable {reg : Registration} {options : Options} {r : Registry}
  {closed : List (TypeDeclaration × List PropertyDeclaration)}

theorem ResolvesTo.map_names {d : Declarations} {c : TypeDeclaration × List PropertyDeclaration}
    {t : ResolvedType} (h : ResolvesTo d options c t) :
    t.properties.map (·.name) = c.2.map (·.name) := by
  refine List.forall₂_eq_eq_eq ▸ ?_
  rw [List.forall₂_map_left_iff, List.forall₂_map_right_iff]
  exact h.properties.flip.imp fun q p hq => (resolve_eq_ok_iff.1 hq).1

theorem fieldsOf_layoutSteps (plan : TablePlan) :
    Layout.fieldsOf (layoutSteps plan) = plan.properties.flatMap (·.fields) := by
  unfold layoutSteps Layout.fieldsOf
  rw [List.filterMap_cons, List.filterMap_map]
  exact List.filterMap_some

/-- No two slots of a table that was laid out have one name. -/
theorem nodup_slots_of_layOut {plans : List TablePlan} {l : Layout} (h : layOut plans = .ok l)
    {plan : TablePlan} (hplan : plan ∈ plans)
    (htable : ∀ q ∈ plan.properties, ∀ f ∈ q.fields, f.table = plan.table) :
    (plan.properties.flatMap fun q => q.fields.map (·.name)).Nodup := by
  have hfields : Layout.fieldsOf (plans.flatMap layoutSteps) =
      plans.flatMap fun plan => plan.properties.flatMap (·.fields) := by
    unfold Layout.fieldsOf
    rw [List.filterMap_flatMap]
    exact List.flatMap_congr fun plan _ => fieldsOf_layoutSteps plan
  have hnodup := (Layout.nodup_fieldsOf (layOut_eq_ok h).2).1
  rw [hfields, List.map_flatMap, List.nodup_flatMap] at hnodup
  have hkeys : (plan.properties.flatMap (·.fields)).map (fun f => (f.table, f.name)) =
      (plan.properties.flatMap fun q => q.fields.map (·.name)).map (Prod.mk plan.table) := by
    rw [← List.map_flatMap, List.map_map]
    refine List.map_congr_left fun f hf => ?_
    obtain ⟨q, hq, hf⟩ := List.mem_flatMap.1 hf
    rw [htable q hq f hf]
    rfl
  exact (hkeys ▸ hnodup.1 plan hplan).of_map

theorem exists_layout_of_layOut {plans : List TablePlan} {l : Layout} (h : layOut plans = .ok l)
    {plan : TablePlan} (hplan : plan ∈ plans) : ∃ layout, l.table? plan.table = some layout := by
  obtain ⟨rfl, -⟩ := layOut_eq_ok h
  have hmem : plan.table ∈ (Layout.assemble ⟨[]⟩ (plans.flatMap layoutSteps)).2.tables.map
      (·.name) :=
    Layout.mem_names_assemble (List.mem_flatMap.2 ⟨plan, hplan, List.mem_cons_self⟩)
  obtain ⟨layout, hlayout, hname⟩ := List.mem_map.1 hmem
  rw [← hname]
  exact ⟨layout, (Layout.wellFormed_nil.assemble _).table? hlayout⟩

/-- The identifier of a resolved type is what is declared as the identifier. -/
theorem isIdentifier_iff_of_resolve {d : Declarations} {owner : TypeDeclaration}
    {p : PropertyDeclaration} {q : Property} (h : resolve d options owner p = .ok q) :
    q.shape = .identifier ↔ IsIdentifier options owner.kind p := by
  obtain ⟨-, ⟨hid, hshape⟩ | ⟨hid, vt, -, hshape⟩⟩ := resolve_eq_ok_iff.1 h
  · exact iff_of_true hshape hid
  · refine iff_of_false (fun hshape' => ?_) hid
    rw [hshape] at hshape'
    split_ifs at hshape'

/-- **Registries that are built are sound.** -/
theorem isSound_of_build (hreg : reg.IsRegistered) (h : reg.build options = .ok r) : r.IsSound := by
  obtain ⟨closed, hr⟩ := exists_yields_of_build h
  have hclosure : ∀ t ∈ r.types, ∃ c ∈ closed, ResolvesTo reg.declarations options c t ∧
      (c.2.map (·.name)).Nodup ∧ effectiveProperties reg.declarations options c.1 = .ok c.2 := by
    intro t ht
    obtain ⟨c, hc, hresolves⟩ := exists_of_mem_forall₂ hr.resolves ht
    obtain ⟨hmem, heffective⟩ := mem_closures hr.closures hc
    exact ⟨c, hc, hresolves, nodup_of_build h hmem heffective, heffective⟩
  constructor
  case names =>
    have hnames : r.types.map (·.name) = reg.declarations.types.map (·.name) := by
      have hfst := congrArg (List.map Prod.fst) hr.map_types
      rw [List.map_map, List.map_map] at hfst
      exact hfst
    rw [hnames]
    exact hreg.names
  case propertyNames =>
    intro t ht
    obtain ⟨c, -, hresolves, hnodup, -⟩ := hclosure t ht
    rw [hresolves.map_names]
    exact hnodup
  case identifier =>
    intro t ht p hp
    obtain ⟨c, -, hresolves, hnodup, heffective⟩ := hclosure t ht
    obtain ⟨declaration, hdeclaration, hresolve⟩ := exists_of_mem_forall₂ hresolves.properties hp
    have hname : p.name = declaration.name := (resolve_eq_ok_iff.1 hresolve).1
    rw [isIdentifier_iff_of_resolve hresolve, Registry.identifierProperty, hr.options]
    constructor
    · intro hid
      exact ⟨hresolves.kind.trans hid.1, hname.trans hid.2.1⟩
    · rintro ⟨hkind, hidentifier⟩
      rw [hresolves.kind] at hkind
      -- of the properties of a record only the identifier has its name
      obtain ⟨first, hfirst, hid⟩ := exists_identifier_of_effective heffective hkind
      have hsame : declaration = first := by
        refine List.inj_on_of_nodup_map hnodup hdeclaration hfirst ?_
        rw [← hname, hidentifier, hid.2.1]
      rw [hsame]
      exact hid
  case hasIdentifier =>
    intro t ht hkind
    obtain ⟨c, -, hresolves, -, heffective⟩ := hclosure t ht
    rw [hresolves.kind] at hkind
    obtain ⟨declaration, hdeclaration, hid⟩ := exists_identifier_of_effective heffective hkind
    obtain ⟨p, hp, hresolve⟩ := exists_of_mem_forall₂ hresolves.properties.flip hdeclaration
    exact ⟨p, hp, (isIdentifier_iff_of_resolve hresolve).2 hid⟩
  case layouts =>
    intro t ht hkind
    refine @exists_layout_of_layOut _ _ hr.layout (tablePlan reg.declarations t) ?_
    rw [hr.tables]
    exact List.mem_map_of_mem (List.mem_filter.2 ⟨ht, bne_iff_ne.2 hkind⟩)
  case tables => rw [hr.tables, hr.declarations]
  case slots =>
    intro plan hplan
    refine nodup_slots_of_layOut hr.layout hplan fun q hq f hf => ?_
    rw [(isLaidOut_of_build h).plan plan hplan q hq] at hf
    exact PropertyPlan.table_of_mem_fields hf
  case declared =>
    intro t ht p hp vt hvt
    obtain ⟨c, -, hresolves, -, -⟩ := hclosure t ht
    obtain ⟨declaration, -, hresolve⟩ := exists_of_mem_forall₂ hresolves.properties hp
    rw [hr.declarations]
    exact isDeclared_of_resolve hresolve hvt
  case resolved => rw [hr.map_types, hr.declarations]
  case enums =>
    rw [hr.declarations]
    exact hreg.enums
  case laidOut => exact isLaidOut_of_build h

end Registration

end RecordTables
