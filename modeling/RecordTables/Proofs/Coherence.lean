import RecordTables.Proofs.Cell.Known
import RecordTables.Proofs.Container.Known
import RecordTables.Proofs.Container.ReadBack

/-!
# Registries are coherent

`Registration.build_coherent`: the parts of a registry that was built fit together
(`Registry.IsCoherent`).  The properties of a type are told apart by their names, its identifier is
where it belongs, and what it names is declared and of the right kind; every type that has instances
has one storage plan and one row layout, in which every slot is as wide as what is written to it and
read from it.  So cells, the builder of containers and their reader always find what the registry
names (`Registry.FindsAll`).

The layout is the one of the storage plans because the steps of a table only ever change the last
table of the layout (`Registration.tables_layOut`).
-/

namespace RecordTables

open Schema Container

/-! ### The layout of the storage plans -/

/-- The row layout of a storage plan. -/
def TablePlan.layout (plan : TablePlan) : TableLayout :=
  ⟨plan.table, plan.kind == .record, plan.properties.flatMap (·.fields)⟩

namespace Layout

variable {l : Layout} {name : String} {isRecord : Bool}

/-- A field that is not refused is put at the end of the last table, if that is its own. -/
theorem take_field_last (hnew : name ∉ l.tables.map (·.name)) {first : List Field} {f : Field}
    (hname : f.table = name)
    (hok : (take ⟨l.tables ++ [⟨name, isRecord, first⟩]⟩ (.field f)).1 = .ok ()) :
    (take ⟨l.tables ++ [⟨name, isRecord, first⟩]⟩ (.field f)).2 =
      ⟨l.tables ++ [⟨name, isRecord, first ++ [f]⟩]⟩ := by
  have hopen : (⟨l.tables ++ [⟨name, isRecord, first⟩]⟩ : Layout).openTable f.table false =
      ⟨l.tables ++ [⟨name, isRecord, first⟩]⟩ := by
    unfold openTable
    rw [if_pos]
    rw [List.any_append, List.any_cons, hname, beq_self_eq_true, Bool.true_or, Bool.or_true]
  rw [take_field, hopen] at hok ⊢
  split_ifs at hok ⊢
  unfold pushField
  rw [Layout.mk.injEq, List.map_append, List.map_singleton, hname, if_pos (beq_self_eq_true _)]
  refine congrArg (· ++ _) ((List.map_congr_left fun t ht => if_neg fun hsame => ?_).trans
    (List.map_id _))
  exact hnew (List.mem_map.2 ⟨t, ht, beq_iff_eq.1 hsame⟩)

/-- Fields that are not refused are put at the end of the last table, if that is their own. -/
theorem assemble_fields (hnew : name ∉ l.tables.map (·.name)) {fields : List Field}
    (hfields : ∀ f ∈ fields, f.table = name) (first : List Field)
    (hok : ∀ r ∈ (assemble ⟨l.tables ++ [⟨name, isRecord, first⟩]⟩ (fields.map Step.field)).1,
      r = .ok ()) :
    (assemble ⟨l.tables ++ [⟨name, isRecord, first⟩]⟩ (fields.map Step.field)).2 =
      ⟨l.tables ++ [⟨name, isRecord, first ++ fields⟩]⟩ := by
  induction fields generalizing first with
  | nil =>
    rw [List.append_nil]
    rfl
  | cons f fields ih =>
    rw [List.map_cons, assemble_cons] at hok ⊢
    have hlast := take_field_last hnew (hfields f List.mem_cons_self) (hok _ List.mem_cons_self)
    rw [hlast] at hok ⊢
    rw [List.append_cons first f fields]
    exact ih (fun g hg => hfields g (List.mem_cons_of_mem _ hg)) (first ++ [f]) fun r hr =>
      hok r (List.mem_cons_of_mem _ hr)

end Layout

namespace Registration

open Layout in
/-- The steps of a storage plan put its layout at the end. -/
theorem assemble_layoutSteps {l : Layout} {plan : TablePlan}
    (hnew : plan.table ∉ l.tables.map (·.name))
    (hfields : ∀ q ∈ plan.properties, ∀ f ∈ q.fields, f.table = plan.table)
    (hok : ∀ r ∈ (l.assemble (layoutSteps plan)).1, r = .ok ()) :
    (l.assemble (layoutSteps plan)).2 = ⟨l.tables ++ [plan.layout]⟩ := by
  have hopened : (l.take (.table plan.table (plan.kind == .record))).2 =
      ⟨l.tables ++ [⟨plan.table, plan.kind == .record, []⟩]⟩ := by
    refine if_neg fun hopen => hnew ?_
    obtain ⟨t, ht, hname⟩ := List.any_eq_true.1 hopen
    exact List.mem_map.2 ⟨t, ht, beq_iff_eq.1 hname⟩
  unfold layoutSteps at hok ⊢
  rw [assemble_cons, hopened] at hok ⊢
  have hall : ∀ f ∈ plan.properties.flatMap (·.fields), f.table = plan.table := by
    intro f hf
    obtain ⟨q, hq, hf⟩ := List.mem_flatMap.1 hf
    exact hfields q hq f hf
  exact assemble_fields hnew hall [] fun r hr => hok r (List.mem_cons_of_mem _ hr)

/-- The steps of several storage plans put their layouts at the end. -/
theorem assemble_flatMap_layoutSteps {plans : List TablePlan} {l : Layout}
    (hnames : (plans.map (·.table)).Nodup)
    (hnew : ∀ plan ∈ plans, plan.table ∉ l.tables.map (·.name))
    (hfields : ∀ plan ∈ plans, ∀ q ∈ plan.properties, ∀ f ∈ q.fields, f.table = plan.table)
    (hok : ∀ r ∈ (l.assemble (plans.flatMap layoutSteps)).1, r = .ok ()) :
    (l.assemble (plans.flatMap layoutSteps)).2.tables = l.tables ++ plans.map TablePlan.layout := by
  induction plans generalizing l with
  | nil => exact (List.append_nil _).symm
  | cons plan plans ih =>
    obtain ⟨hnot, hnames⟩ := List.nodup_cons.1 hnames
    rw [List.flatMap_cons, Layout.assemble_append] at hok ⊢
    have hfirst := assemble_layoutSteps (hnew plan List.mem_cons_self)
      (hfields plan List.mem_cons_self) fun r hr => hok r (List.mem_append_left _ hr)
    rw [hfirst] at hok ⊢
    rw [ih hnames (fun other hother => ?_)
      (fun other hother => hfields other (List.mem_cons_of_mem _ hother))
      (fun r hr => hok r (List.mem_append_right _ hr)), List.append_assoc]
    · rfl
    · rw [List.map_append, List.mem_append, not_or]
      refine ⟨hnew other (List.mem_cons_of_mem _ hother), fun hmem => hnot ?_⟩
      exact List.mem_map.2 ⟨other, hother, List.mem_singleton.1 hmem⟩

/-- **The layout is that of the storage plans**, table by table. -/
theorem tables_layOut {plans : List TablePlan} {l : Layout} (h : layOut plans = .ok l)
    (hnames : (plans.map (·.table)).Nodup)
    (hfields : ∀ plan ∈ plans, ∀ q ∈ plan.properties, ∀ f ∈ q.fields, f.table = plan.table) :
    l.tables = plans.map TablePlan.layout := by
  obtain ⟨rfl, hok⟩ := layOut_eq_ok h
  exact assemble_flatMap_layoutSteps hnames (fun _ _ => List.not_mem_nil) hfields hok

end Registration

/-! ### Coherent registries -/

/-- The enum can be stored: it has members, they are told apart by their names, and the number of
each fits the kind. -/
structure Schema.EnumDeclaration.IsStorable (e : EnumDeclaration) : Prop where
  members : e.members ≠ []
  names : (e.members.map (·.name)).Nodup
  fits : ∀ m ∈ e.members, (Scalar.ofInt64? e.repr m.value).isSome

namespace PropertyPlan

/-- The kind of the values that are put into the slots of a property; none if they are numbers of
texts, vectors or rows. -/
def writtenKind? (q : PropertyPlan) : Option ScalarKind :=
  match q.prepare with
  | .inline => q.write.inlineKind
  | .enumDiscriminant _ repr => some repr
  | _ => none

/-- The kind of the values that are read from the slots of a property; none if they are numbers of
texts, vectors or rows. -/
def readKind? (q : PropertyPlan) : Option ScalarKind :=
  if q.isList then none
  else
    match q.read with
    | .enum _ repr => some repr
    | .scalar kind => some kind
    | .time _ => some .i64
    | .components shape => some shape.componentKind
    | .text | .ref _ | .embedded _ | .asset => none

/-- What is written to the slots of a property is read from them, and each of them is one field of
the layout, as wide as what it holds. -/
structure Fits (q : PropertyPlan) (layout : TableLayout) : Prop where
  slots : q.write.slots ≠ [] ∧ q.write.slots = q.fields.map (·.name)
  kinds : q.writtenKind? = q.readKind? ∧ q.write.inlineKind = q.readKind?
  field : ∀ slot ∈ q.write.slots, ∃ f ∈ q.fields,
    layout.fields.filter (fun g => g.name == slot) = [f] ∧
    f.slotWidth = match q.readKind? with
      | some kind => kind.width
      | none => 4

end PropertyPlan

namespace Registry

/-- The type has one storage plan and one layout of its name, and both are parallel to its
properties. -/
structure Stores (r : Registry) (t : ResolvedType) (plan : TablePlan) (layout : TableLayout) :
    Prop where
  plans : r.tables.filter (fun u => u.table == t.name) = [plan]
  layouts : r.layout.tables.filter (fun u => u.name == t.name) = [layout]
  kind : plan.kind = t.kind ∧ layout.isRecord = t.isRecord
  properties : plan.properties.map (·.property) = t.properties
  fields : layout.fields = plan.properties.flatMap (·.fields)
  slots : ∀ q ∈ plan.properties, q.Fits layout

/-- The parts of the registry fit together. -/
structure IsCoherent (r : Registry) : Prop where
  propertyNames : ∀ t ∈ r.types, (t.properties.map (·.name)).Nodup
  /-- Record types have one identifier, and other types have none. -/
  identifiers : ∀ t ∈ r.types,
    t.properties.countP (·.isIdentifier) = if t.kind = .record then 1 else 0
  /-- The enums that properties name are declared and can be stored. -/
  enums : ∀ t ∈ r.types, ∀ p ∈ t.properties, ∀ name, p.shape.element? = some (.enum name) →
    ∃ e, r.enum? name = some e ∧ e.name = name ∧ e.IsStorable
  /-- References lead to record types. -/
  references : ∀ t ∈ r.types, ∀ p ∈ t.properties, ∀ target,
    p.shape.element? = some (.recordRef target) →
      ∃ u ∈ r.types, r.type? target = some u ∧ u.name = target ∧ u.kind = .record
  /-- What is embedded are sub-structures. -/
  embedded : ∀ t ∈ r.types, ∀ p ∈ t.properties, ∀ target,
    p.shape.element? = some (.embedded target) →
      ∃ u ∈ r.types, r.type? target = some u ∧ u.name = target ∧ u.kind = .struct
  stored : ∀ t ∈ r.types, t.kind ≠ .interface → ∃ plan layout, r.Stores t plan layout

/-- Cells, the builder of containers and their reader find what the registry names. -/
structure FindsAll (r : Registry) : Prop where
  /-- No cell of a property is refused because a type is unknown. -/
  cells : ∀ references, ∀ t ∈ r.types, ∀ p ∈ t.properties, ∀ name,
    (∀ cell, (Cell.Context.mk r references).decode p cell ≠ .error (.unknownType name)) ∧
      ∀ v, (Cell.Context.mk r references).encode p v ≠ .error (.unknownType name)
  /-- Baking misses no table and no slot, and neither does opening what was baked. -/
  bake : ∀ c, Avoids ContainerError.IsMissing (bake r c) ∧
    ∀ k, Container.bake r c = .ok k →
      Avoids ContainerError.IsMissing (OpenContainer.ofContainer r k)
  /-- Reading what was baked misses no table and no slot. -/
  read : ∀ c k o, Container.bake r c = .ok k → OpenContainer.ofContainer r k = .ok o →
    ∀ overrides, ∀ t ∈ r.types, t.kind ≠ .interface →
      ∃ view, OpenContainer.view ⟨r, k, overrides⟩ t.name = .ok view ∧
        (∀ row property, Avoids ContainerError.IsMissing
          (OpenContainer.value ⟨r, k, overrides⟩ view row property)) ∧
        ∀ identifier, Avoids ContainerError.IsMissing
          (OpenContainer.find ⟨r, k, overrides⟩ view identifier)
  /-- Reading any other container misses a table of a type only if the container does not have
  it. -/
  readOther : ∀ k o, OpenContainer.ofContainer r k = .ok o →
    ∀ overrides, ∀ t ∈ r.types, t.kind ≠ .interface →
      OpenContainer.Known ⟨r, k, overrides⟩ (OpenContainer.view ⟨r, k, overrides⟩ t.name) ∧
        ∀ view, OpenContainer.view ⟨r, k, overrides⟩ t.name = .ok view →
          (∀ row property, OpenContainer.Known ⟨r, k, overrides⟩
            (OpenContainer.value ⟨r, k, overrides⟩ view row property)) ∧
          ∀ identifier, OpenContainer.Known ⟨r, k, overrides⟩
            (OpenContainer.find ⟨r, k, overrides⟩ view identifier)

end Registry

/-! ### Built registries -/

/-- What a name tells apart is found alone by it. -/
theorem filter_eq_singleton {α β : Type} {f : α → β} {P : α → Bool} {xs : List α} {x : α}
    (hnodup : (xs.map f).Nodup) (hx : x ∈ xs) (hP : ∀ y ∈ xs, P y = true ↔ f y = f x) :
    xs.filter P = [x] := by
  induction xs with
  | nil => cases hx
  | cons y xs ih =>
    obtain ⟨hnew, hnodup⟩ := List.nodup_cons.1 hnodup
    have hothers := fun z hz => hP z (List.mem_cons_of_mem _ hz)
    rcases List.mem_cons.1 hx with rfl | hx
    · rw [List.filter_cons_of_pos ((hP _ List.mem_cons_self).2 rfl), List.filter_eq_nil_iff.2]
      intro z hz hfound
      exact hnew (List.mem_map.2 ⟨z, hz, (hothers z hz).1 hfound⟩)
    · rw [List.filter_cons_of_neg, ih hnodup hx hothers]
      intro hfound
      exact hnew ((hP y List.mem_cons_self).1 hfound ▸ List.mem_map_of_mem hx)

namespace Registration

theorem nodup_of_memberFault? {repr : ScalarKind} {seen : List String} {members : List EnumMember}
    (h : memberFault? repr seen members = none) :
    (members.map (·.name)).Nodup ∧ ∀ name ∈ seen, name ∉ members.map (·.name) := by
  induction members generalizing seen with
  | nil => exact ⟨List.nodup_nil, fun _ _ => List.not_mem_nil⟩
  | cons m members ih =>
    unfold memberFault? at h
    split_ifs at h with hseen hfits
    exact nodup_cons_of_unseen hseen (ih h)

theorem isStorable_of_enumFault? {e : EnumDeclaration} (h : enumFault? e = none) :
    e.IsStorable := by
  obtain ⟨hmembers, hfits⟩ := members_of_enumFault? h
  refine ⟨hmembers, ?_, hfits⟩
  unfold enumFault? at h
  split_ifs at h
  exact (nodup_of_memberFault? h).1

end Registration

/-- Every property fits a layout that has its fields and tells them apart. -/
theorem PropertyPlan.fits_ofProperty {d : Declarations} {table : String} {p : Property}
    {layout : TableLayout} (hnames : (layout.fields.map (·.name)).Nodup)
    (hfields : ∀ f ∈ (ofProperty d table p).fields, f ∈ layout.fields) :
    (ofProperty d table p).Fits layout := by
  -- what is written for a shape and what is read for it are of one kind
  have hkinds : (ofProperty d table p).writtenKind? = (ofProperty d table p).readKind? ∧
      (ofProperty d table p).write.inlineKind = (ofProperty d table p).readKind? := by
    obtain ⟨name, shape⟩ := p
    cases shape with
    | identifier => exact ⟨rfl, rfl⟩
    | single vt => cases vt <;> exact ⟨rfl, rfl⟩
    | list vt => cases vt <;> exact ⟨rfl, rfl⟩
  -- each shape takes at least one slot
  have hslots : (ofProperty d table p).fields ≠ [] := by
    obtain ⟨name, shape⟩ := p
    cases shape with
    | identifier => exact List.cons_ne_nil _ _
    | single vt | list vt =>
      cases vt with
      | composite shape => cases shape <;> exact List.cons_ne_nil _ _
      | _ => exact List.cons_ne_nil _ _
  refine ⟨⟨?_, slots_ofProperty d table p⟩, hkinds, fun slot hslot => ?_⟩
  · rw [slots_ofProperty]
    exact mt List.map_eq_nil_iff.1 hslots
  · rw [slots_ofProperty] at hslot
    obtain ⟨f, hf, rfl⟩ := List.mem_map.1 hslot
    -- the names of the columns differ, so the slot is found once
    refine ⟨f, hf, filter_eq_singleton hnames (hfields f hf) fun g _ => beq_iff_eq, ?_⟩
    rw [slotWidth_of_mem_fields hf, hkinds.2]
    rfl

namespace Registry

variable {r : Registry}

theorem IsSound.countP_isIdentifier (hr : r.IsSound) {t : ResolvedType} (ht : t ∈ r.types) :
    t.properties.countP (·.isIdentifier) = if t.kind = .record then 1 else 0 := by
  split_ifs with hkind
  · obtain ⟨p, hp, hshape⟩ := hr.hasIdentifier t ht hkind
    rw [List.countP_eq_length_filter,
      filter_eq_singleton (hr.propertyNames t ht) hp fun q hq => ?_]
    · rfl
    · rw [((hr.identifier t ht p hp).1 hshape).2]
      refine beq_iff_eq.trans ((hr.identifier t ht q hq).trans ?_)
      exact and_iff_right hkind
  · rw [List.countP_eq_zero]
    intro p hp hid
    exact hkind ((hr.identifier t ht p hp).1 (beq_iff_eq.1 hid)).1

theorem IsSound.exists_type? (hr : r.IsSound) {name : String} {declared : TypeDeclaration}
    (h : r.declarations.type? name = some declared) :
    ∃ u ∈ r.types, r.type? name = some u ∧ u.name = name ∧ u.kind = declared.kind := by
  obtain ⟨u, hu, rfl, hkind⟩ := hr.exists_type h
  exact ⟨u, hu, hr.type?_of_mem hu, rfl, hkind⟩

/-- A type that has instances is stored in its table. -/
theorem IsSound.stores (hr : r.IsSound) (hlayout : r.layout.tables = r.tables.map TablePlan.layout)
    {t : ResolvedType} (ht : t ∈ r.types) (hkind : t.kind ≠ .interface) :
    r.Stores t (Registration.tablePlan r.declarations t)
      (Registration.tablePlan r.declarations t).layout := by
  have hplan : Registration.tablePlan r.declarations t ∈ r.tables :=
    List.mem_of_find?_eq_some (hr.table?_of_mem ht hkind)
  -- a table plan and its layout have the same name, and no two layouts do
  have hnames : (r.tables.map (·.table)).Nodup := by
    have hsame : r.tables.map (·.table) = r.layout.tables.map (·.name) := by
      rw [hlayout, List.map_map]
      rfl
    rw [hsame]
    exact hr.laidOut.layout.names
  have hmem : (Registration.tablePlan r.declarations t).layout ∈ r.layout.tables := by
    rw [hlayout]
    exact List.mem_map_of_mem hplan
  constructor
  case plans => exact filter_eq_singleton hnames hplan fun u _ => beq_iff_eq
  case layouts =>
    exact filter_eq_singleton hr.laidOut.layout.names hmem fun u _ => beq_iff_eq
  case kind => exact ⟨rfl, rfl⟩
  case properties =>
    refine (List.map_map ..).trans ((List.map_congr_left fun p _ => ?_).trans (List.map_id _))
    exact PropertyPlan.property_ofProperty _ _ _
  case fields => rfl
  case slots =>
    intro q hq
    obtain ⟨p, -, rfl⟩ := List.mem_map.1 hq
    exact PropertyPlan.fits_ofProperty (hr.laidOut.layout.fieldNames _ hmem) fun f hf =>
      List.mem_flatMap.2 ⟨_, hq, hf⟩

theorem IsSound.isCoherent (hr : r.IsSound)
    (hlayout : r.layout.tables = r.tables.map TablePlan.layout) : r.IsCoherent := by
  constructor
  case propertyNames => exact hr.propertyNames
  case identifiers => exact fun t ht => hr.countP_isIdentifier ht
  case enums =>
    intro t ht p hp name hname
    obtain ⟨e, he⟩ := hr.declared t ht p hp _ hname
    refine ⟨e, he, Declarations.name_of_enum? he, ?_⟩
    exact Registration.isStorable_of_enumFault? (hr.enums e (List.mem_of_find?_eq_some he))
  case references =>
    intro t ht p hp target htarget
    obtain ⟨declared, hdeclared, hkind⟩ := hr.declared t ht p hp _ htarget
    rw [← hkind]
    exact hr.exists_type? hdeclared
  case embedded =>
    intro t ht p hp target htarget
    obtain ⟨declared, hdeclared, hkind⟩ := hr.declared t ht p hp _ htarget
    rw [← hkind]
    exact hr.exists_type? hdeclared
  case stored => exact fun t ht hkind => ⟨_, _, hr.stores hlayout ht hkind⟩

theorem IsSound.findsAll (hr : r.IsSound) (hknows : r.KnowsCategories) : r.FindsAll := by
  -- a container that opens has passed its checks, and overrides change none of them
  have hchecked {k : Container} {o : OpenContainer} (ho : OpenContainer.ofContainer r k = .ok o)
      (overrides : Overrides) : OpenContainer.IsChecked ⟨r, k, overrides⟩ := by
    obtain ⟨rfl, hchecked⟩ := OpenContainer.ofContainer_eq_ok ho
    exact hchecked
  constructor
  case cells =>
    intro references t ht p hp name
    have hdeclared := hr.declared t ht p hp
    constructor
    · exact fun cell hcell => Cell.Context.known_decode hknows hdeclared cell _ hcell trivial
    · exact fun v hv => Cell.Context.known_encode hknows hdeclared v _ hv trivial
  case bake =>
    exact fun c => ⟨known_bake hr c, fun k hk => OpenContainer.known_ofContainer hr.laidOut hk⟩
  case read =>
    intro c k o hk ho overrides t ht hkind
    -- baking lays down a table for each type that has instances
    have hall : ∀ u ∈ r.types, u.kind ≠ .interface → (k.table? u.name).isSome :=
      fun u hu hukind => isSome_table?_of_bake hr hk hu hukind
    obtain ⟨table, htable⟩ := Option.isSome_iff_exists.1 (hall t ht hkind)
    obtain ⟨view, hview, hshows⟩ :=
      OpenContainer.shows_of_view hr (hchecked ho overrides) ht hkind htable
    refine ⟨view, hview, fun row property => ?_, fun identifier => ?_⟩
    · exact OpenContainer.avoids_isMissing_of_known hall
        (OpenContainer.known_value hr (hchecked ho overrides) ht hshows row property)
    · exact OpenContainer.avoids_isMissing_of_known hall
        (OpenContainer.known_findBetween hr (hchecked ho overrides) ht hshows identifier _ _)
  case readOther =>
    intro k o ho overrides t ht hkind
    have ho := hchecked ho overrides
    refine ⟨OpenContainer.known_view hr ho ht hkind, fun view hview => ?_⟩
    have hshows := OpenContainer.shows_of_view_eq_ok hr ho ht hkind hview
    exact ⟨fun row property => OpenContainer.known_value hr ho ht hshows row property,
      fun identifier => OpenContainer.known_findBetween hr ho ht hshows identifier _ _⟩

end Registry

namespace Registration

variable {reg : Registration} {options : Options} {r : Registry}

/-- The layout of a registry that was built is that of its storage plans. -/
theorem tables_layout_of_build (hreg : reg.IsRegistered) (h : reg.build options = .ok r) :
    r.layout.tables = r.tables.map TablePlan.layout := by
  have hr := isSound_of_build hreg h
  obtain ⟨closed, hyields⟩ := exists_yields_of_build h
  refine tables_layOut hyields.layout ?_ fun plan hplan q hq f hf => ?_
  · rw [hr.tables, List.map_map]
    exact (List.filter_sublist.map _).nodup hr.names
  · rw [hr.laidOut.plan plan hplan q hq] at hf
    exact PropertyPlan.table_of_mem_fields hf

/-- **Built registries are coherent**, and everything finds what they name. -/
theorem build_coherent (hreg : reg.IsRegistered) (h : reg.build options = .ok r) :
    r.IsCoherent ∧ r.FindsAll := by
  have hr := isSound_of_build hreg h
  exact ⟨hr.isCoherent (tables_layout_of_build hreg h),
    hr.findsAll (knowsCategories_of_build hreg h)⟩

/-- The registry of the potions is coherent: their enum, the sub-structure in them and the references
of potions to each other are found. -/
theorem build_coherent_potions :
    potionTypes.IsRegistered ∧ potionTypes.build .standard = .ok potionRegistry ∧
      potionRegistry.IsCoherent ∧ potionRegistry.FindsAll := by
  have hreg : potionTypes.IsRegistered := .addType _ (.addType _ (.addEnum _ .empty))
  exact ⟨hreg, build_potionTypes, build_coherent hreg build_potionTypes⟩

end Registration

end RecordTables
