import RecordTables.Proofs.Container.Admission
import RecordTables.Proofs.Container.ReadBack

/-!
# What can be baked

`Registration.bake_exact`: a catalog is baked if and only if all stored values are admitted
(`Catalog.Admitted`).  A row is filled if and only if every property has words for its slots
(`Container.admits_fillRow`), so the row of a type is baked if and only if the value of every property
is admitted (`Container.admits_bakeRow`).  A sub-structure is such a row, one level further down.
-/

namespace RecordTables

open Schema

namespace Container

open Baking

/-! ### Filling rows -/

section Fill

variable {layout : TableLayout} {place : Place} {staged : Staged} {row : List UInt8} {p : Pools}
  {x : List UInt8 × Pools}

/-- Slots are filled only if there are bytes for each. -/
theorem covers_of_fillSlots {j : Nat} {slots : List String}
    (h : (fillSlots layout place staged j slots row).run p = .ok x) :
    ∀ k < slots.length, ∃ bytes, staged.slotBytes? (j + k) = some bytes := by
  induction slots generalizing j row with
  | nil => exact fun _ hk => nomatch hk
  | cons slot rest ih =>
    unfold fillSlots at h
    split at h
    · cases h
    · split at h
      · cases h
      · next bytes hbytes =>
        intro k hk
        cases k with
        | zero => exact ⟨bytes, hbytes⟩
        | succ k =>
          rw [← Nat.add_assoc, Nat.add_right_comm]
          exact ih h k (Nat.lt_of_succ_lt_succ hk)

theorem covers_of_fillRow {table : String} {filled : List (PropertyPlan × Staged)}
    (h : (fillRow layout table filled row).run p = .ok x) :
    ∀ e ∈ filled, e.2.Covers e.1.write.slots.length := by
  induction filled generalizing row p with
  | nil => exact fun _ he => nomatch he
  | cons e filled ih =>
    obtain ⟨q, staged⟩ := e
    rw [fillRow, StateT.run_bind] at h
    obtain ⟨⟨row', p'⟩, hfirst, hrest⟩ := bind_eq_ok.1 h
    refine List.forall_mem_cons.2 ⟨fun k hk => ?_, ih hrest⟩
    have hbytes := covers_of_fillSlots hfirst k hk
    rw [Nat.zero_add] at hbytes
    exact hbytes

/-- A row is filled if and only if every property fills its slots. -/
theorem admits_fillRow (hnodup : (layout.fields.map (·.name)).Nodup) {table : String}
    {filled : List (PropertyPlan × Staged)} {A : PropertyPlan → Prop}
    (hslots : ∀ e ∈ filled, e.1.write.slots = e.1.fields.map (·.name))
    (hfields : ∀ e ∈ filled, ∀ f ∈ e.1.fields, f ∈ layout.fields)
    (hnames : (filled.flatMap fun e => e.1.fields.map (·.name)).Nodup)
    (htakes : ∀ e ∈ filled, e.2.Takes e.1.fields (A e.1)) (hrow : row.length = layout.rowSize) :
    Admits (∀ e ∈ filled, A e.1) (fillRow layout table filled row) fun _ => ∀ e ∈ filled, A e.1 := by
  constructor
  case succeeds =>
    intro hall p
    obtain ⟨row', -, hrun, -⟩ := @fillRow_run _ _ hnodup table _ hslots hfields hnames
      (fun e he => (htakes e he).fills (hall e he)) hrow
    exact ⟨row', p, hrun p⟩
  case ensures =>
    intro p row' p' hrun _
    refine ⟨trivial, fun e he => (htakes e he).of_covers ?_⟩
    have hcovers := covers_of_fillRow hrun e he
    rw [hslots e he, List.length_map] at hcovers
    exact hcovers

end Fill

/-! ### Rows of a type -/

section Rows

variable {r : Registry} {c : Catalog} {t : ResolvedType} {layout : TableLayout}
  {embed : String → List (String × Value) → Baking UInt32} {depth : Nat}

/-- **A row is baked** if and only if the value of every property is taken. -/
theorem admits_bakeRow (hr : r.IsSound) (ht : t ∈ r.types) (hkind : t.kind ≠ .interface)
    (htable : tableOf r t.name = .ok (Registration.tablePlan r.declarations t, layout))
    {valueOf : String → Option Value} {A : Property → Prop}
    (hstage : ∀ p ∈ t.properties, ∃ v, (valueOf p.name).or (r.default? p) = some v ∧
      Admits (A p) (stage (.ofCatalog r c) embed ⟨t.name, p.name⟩
          (.ofProperty r.declarations t.name p) v)
        (Staged.Takes (PropertyPlan.ofProperty r.declarations t.name p).fields (A p))) :
    Admits (∀ p ∈ t.properties, A p)
      (bakeRow (.ofCatalog r c) embed (Registration.tablePlan r.declarations t) layout valueOf)
      fun _ => ∀ p ∈ t.properties, A p := by
  have hof : ∀ q ∈ (Registration.tablePlan r.declarations t).properties,
      ∃ p ∈ t.properties, PropertyPlan.ofProperty r.declarations t.name p = q :=
    fun q hq => List.mem_map.1 hq
  have hall : (∀ q ∈ (Registration.tablePlan r.declarations t).properties, A q.property) ↔
      ∀ p ∈ t.properties, A p := by
    refine List.forall_mem_map.trans (forall₂_congr fun p _ => ?_)
    rw [PropertyPlan.property_ofProperty]
  rw [← hall]
  unfold bakeRow
  -- all properties are staged first, and whether they fill their slots shows only then
  refine (admits_mapM (A := fun q : PropertyPlan => A q.property)
    (S := fun q staged => staged.Takes q.fields (A q.property)) fun q hq => ?_).bind
    fun staged htakes => ?_
  · obtain ⟨p, hp, rfl⟩ := hof q hq
    obtain ⟨v, hv, hadmits⟩ := hstage p hp
    dsimp only
    rw [PropertyPlan.property_ofProperty]
    have hdefault : (valueOf p.name).or ((BakeSource.ofCatalog r c).registry.default? p) = some v := hv
    rw [hdefault]
    exact hadmits
  have hzip : ∀ e ∈ (Registration.tablePlan r.declarations t).properties.zip staged,
      e.1 ∈ (Registration.tablePlan r.declarations t).properties :=
    fun e he => (List.of_mem_zip he).1
  have hapart := slotsApart_zip hr ht hkind htable htakes.length_eq
  refine (@admits_fillRow _ _ hapart.nodup (Registration.tablePlan r.declarations t).table _
    (fun q => A q.property) hapart.slots hapart.fields hapart.names
    (fun e he => List.forall₂_zip htakes he) List.length_replicate).mono
    (fun h e he => h e.1 (hzip e he)) fun _ h q hq => ?_
  obtain ⟨staged, hmem, -⟩ := exists_mem_zip htakes hq
  exact h _ hmem

/-- A stored value, or the default, is staged if and only if what is stored is admitted. -/
theorem exists_admits_stage (hr : r.IsSound) (hembed : EmbedsAdmitted r c embed depth)
    (ht : t ∈ r.types) {p : Property} (hp : p ∈ t.properties) (hshape : p.shape ≠ .identifier)
    {stored : Option Value} (hdepth : ∀ v, stored = some v → v.depth ≤ depth) {place : Place} :
    ∃ v, stored.or (r.default? p) = some v ∧
      Admits (∀ w, stored = some w → w.Admitted r c p.shape)
        (stage (.ofCatalog r c) embed place (.ofProperty r.declarations t.name p) v)
        (Staged.Takes (PropertyPlan.ofProperty r.declarations t.name p).fields
          (∀ w, stored = some w → w.Admitted r c p.shape)) := by
  have hdeclared := hr.declared t ht p hp
  cases stored with
  | some v =>
    simp only [Option.some.injEq, forall_eq']
    refine ⟨v, rfl, admits_stage hr hembed hshape hdeclared fun w hw => ?_⟩
    exact (depth_le_of_mem_elementsOf hw).trans (hdepth v rfl)
  | none =>
    obtain ⟨v, hv⟩ := r.exists_default? hshape
    have hdefault : (∀ w, (none : Option Value) = some w → w.Admitted r c p.shape) ↔
        v.Admitted r c p.shape :=
      ⟨fun _ => (Value.wellTyped_default hr hdeclared hv).admitted, fun _ _ h => nomatch h⟩
    rw [hdefault]
    refine ⟨v, hv, admits_stage hr hembed hshape hdeclared fun w hw => ?_⟩
    rw [depth_of_mem_elementsOf_default hv hw]
    exact Nat.zero_le _

/-- **Sub-structures are embedded** if and only if their fields are admitted. -/
theorem embedsAdmitted_embedWithin (hr : r.IsSound) (fuel : Nat) :
    EmbedsAdmitted r c (embedWithin (.ofCatalog r c) fuel) fuel := by
  induction fuel with
  | zero =>
    intro target fields _ hdepth
    rw [Value.depth] at hdepth
    omega
  | succ fuel ih =>
    intro target fields hdeclared hdepth
    rw [Value.depth] at hdepth
    obtain ⟨t, ht, rfl, hkind⟩ := hr.exists_struct hdeclared
    have hfind := hr.type?_of_mem ht
    have hinstances : t.kind ≠ .interface := by rw [hkind]; decide
    obtain ⟨layout, hlayout, htable⟩ := hr.exists_tableOf ht hinstances
    -- what the fields hold is one level less deep, so the fuel that is left is enough for it
    have hrow := @admits_bakeRow _ c _ _ _ hr ht hinstances htable _
      (fun p => ∀ w, Value.field? fields p.name = some w → w.Admitted r c p.shape) fun p hp =>
        exists_admits_stage hr ih ht hp (hr.shape_ne_identifier ht hkind hp) fun v hv =>
          (Value.depth_le_of_field? hv).trans (by omega)
    have hfields : (Value.struct fields).Admitted r c (.single (.embedded t.name)) ↔
        ∀ p ∈ t.properties, ∀ w, Value.field? fields p.name = some w → w.Admitted r c p.shape := by
      refine ⟨fun h => ?_, .struct hfind⟩
      cases h with
      | struct hfind' h =>
        obtain rfl := Option.some.inj (hfind.symm.trans hfind')
        exact h
      | words hkind _ _ => cases hkind
    rw [hfields]
    unfold embedWithin
    refine Admits.bind (admits_of_except htable) ?_
    rintro _ rfl
    exact hrow.bind fun row h => admits_modifyGet fun _ => h

end Rows

/-! ### Records -/

section Records

variable {r : Registry} {c : Catalog} {t : ResolvedType} {layout : TableLayout} {record : Record}

/-- A text for an identifier is always staged. -/
theorem admits_identifier {embed : String → List (String × Value) → Baking UInt32} {place : Place}
    {table name : String} {A : Prop} (h : A) (s : String) :
    Admits A (stage (.ofCatalog r c) embed place
        (.ofProperty r.declarations table ⟨name, .identifier⟩) (.text s))
      (Staged.Takes (PropertyPlan.ofProperty r.declarations table ⟨name, .identifier⟩).fields A) :=
  admits_index (fun _ hf => slotWidth_of_mem_fields hf) (admits_modifyGet fun _ => h)

/-- **A record is baked** if and only if its stored values are admitted. -/
theorem admits_bakeRecord (hr : r.IsSound) (ht : t ∈ r.recordTypes)
    (htable : tableOf r t.name = .ok (Registration.tablePlan r.declarations t, layout)) :
    Admits (record.Admitted r c t)
      (bakeRecord (.ofCatalog r c) (Registration.tablePlan r.declarations t) layout record)
      fun _ => record.Admitted r c t := by
  obtain ⟨hmem, hkind⟩ := Registry.mem_recordTypes.1 ht
  have hvalued (p : Property) : p.isIdentifier = false ↔ p.shape ≠ .identifier :=
    beq_eq_false_iff_ne
  -- only the values of properties other than the identifier are laid down
  have hall : record.Admitted r c t ↔ ∀ p ∈ t.properties, p.shape ≠ .identifier →
      ∀ v, record.values.find? p.name = some v → v.Admitted r c p.shape := by
    constructor
    · intro h p hp hshape
      exact h p (List.mem_filter.2 ⟨hp, by rw [(hvalued p).2 hshape]; rfl⟩)
    · intro h p hp
      obtain ⟨hp, hno⟩ := List.mem_filter.1 hp
      exact h p hp ((hvalued p).1 (Bool.not_eq_true' _ ▸ hno))
  rw [hall]
  refine admits_bakeRow hr hmem (by rw [hkind]; decide) htable fun p hp => ?_
  have hid := hr.identifier t hmem p hp
  -- the identifier is taken from the record itself, every other property from its values
  by_cases hshape : p.shape = .identifier
  · rw [registry_ofCatalog, if_pos (hid.1 hshape).2]
    refine ⟨_, rfl, ?_⟩
    obtain ⟨name, shape⟩ := p
    obtain rfl : shape = .identifier := hshape
    exact admits_identifier (fun h => absurd rfl h) _
  · rw [registry_ofCatalog, if_neg fun hname => hshape (hid.2 ⟨hkind, hname⟩)]
    simp only [ne_eq, hshape, not_false_eq_true, forall_const]
    exact exists_admits_stage hr (embedsAdmitted_embedWithin hr _) hmem hp hshape
      fun v hv => Value.depth_le_of_field? hv

/-- **The records of a type are baked** if and only if the stored values of each are admitted. -/
theorem admits_bakeRecords (hr : r.IsSound) (ht : t ∈ r.recordTypes) :
    Admits (∀ record ∈ (c.setOf t.name).records, record.Admitted r c t)
      (bakeRecords (.ofCatalog r c) c t.name)
      fun _ => ∀ record ∈ (c.setOf t.name).records, record.Admitted r c t := by
  obtain ⟨hmem, -⟩ := Registry.mem_recordTypes.1 ht
  obtain ⟨layout, hlayout, htable⟩ := hr.exists_tableOf hmem (Registry.kind_ne_interface ht)
  have hrecords : ∀ record, record ∈ (c.setOf t.name).records ↔ record ∈ rowOrder c t.name :=
    fun record => (rowOrder_perm c t.name).mem_iff.symm
  simp only [hrecords]
  unfold bakeRecords
  refine Admits.bind (admits_of_except htable) ?_
  rintro _ rfl
  refine (admits_mapM fun record _ => admits_bakeRecord hr ht htable).bind fun rows hrows => ?_
  refine admits_pure fun record hrecord => ?_
  obtain ⟨row, -, h⟩ := exists_mem_zip hrows hrecord
  exact h

end Records

/-- Baking succeeds if and only if laying down does. -/
theorem exists_bake_iff (r : Registry) (c : Catalog) :
    (∃ k, bake r c = .ok k) ↔ ∃ x, laidDown r c = .ok x := by
  constructor
  · rintro ⟨k, h⟩
    obtain ⟨x, hx, -⟩ := bind_eq_ok.1 h
    exact ⟨x, hx⟩
  · rintro ⟨⟨recordRows, p⟩, h⟩
    exact ⟨_, bake_of_laidDown h⟩

/-- The records of all types are laid down if and only if all stored values are admitted. -/
theorem admits_laidDown {r : Registry} (hr : r.IsSound) (c : Catalog) :
    Admits (c.Admitted r) (r.recordTypes.mapM fun t => bakeRecords (.ofCatalog r c) c t.name)
      (List.Forall₂ (fun t _ => ∀ record ∈ (c.setOf t.name).records, record.Admitted r c t)
        r.recordTypes) :=
  admits_mapM fun _ ht => admits_bakeRecords hr ht

/-- **A catalog of admitted values is baked.** -/
theorem exists_bake_of_admitted {r : Registry} (hr : r.IsSound) {c : Catalog} (hc : c.Admitted r) :
    ∃ k, bake r c = .ok k := by
  obtain ⟨recordRows, p, hrun⟩ := (admits_laidDown hr c).succeeds hc .empty
  exact (exists_bake_iff r c).2 ⟨_, hrun⟩

end Container

namespace Registration

open Container Baking

variable {reg : Registration} {options : Options} {r : Registry}

/-- **A catalog is baked if and only if all stored values are admitted.** -/
theorem bake_exact (hreg : reg.IsRegistered) (h : reg.build options = .ok r) (c : Catalog) :
    (∃ k, bake r c = .ok k) ↔ c.Admitted r := by
  have hr := isSound_of_build hreg h
  constructor
  · intro hbake
    obtain ⟨⟨recordRows, p⟩, hrun⟩ := (exists_bake_iff r c).1 hbake
    obtain ⟨-, hall⟩ := (admits_laidDown hr c).ensures _ _ _ hrun trivial
    intro t ht
    obtain ⟨rows, -, hrows⟩ := exists_mem_zip hall ht
    exact hrows
  · exact exists_bake_of_admitted hr

/-! ### Brews -/

/-- A potion with two numbers of drops, and the key of an asset for the note about its dose. -/
def brew : Record :=
  ⟨⟨"g1"⟩, "Brew", "", none, .ofList [("Dose",
    .struct [("Drops", .composite [.i32 3, .i32 4]), ("Note", .asset (some "bitter"))])]⟩

/-- There is one number of drops in a dose. -/
theorem not_wellTyped_of_brew {c : Catalog} {record : Record}
    (hrecord : record ∈ (c.setOf "Potion").records) (hvalues : record.values = brew.values) :
    ¬c.WellTyped potionRegistry := by
  intro h
  have hvalue := congrArg (NameMap.find? · "Dose") hvalues
  have hdose := h _ (List.mem_singleton_self _) record hrecord
    ⟨"Dose", .single (.embedded "Dose")⟩ (List.mem_cons_of_mem _ List.mem_cons_self) _
    (hvalue.trans rfl)
  cases hdose with
  | struct ht hfields =>
    obtain rfl := Option.some.inj ht
    have hdrops := hfields ⟨"Drops", .single (.scalar .i32)⟩ List.mem_cons_self _ rfl
    obtain ⟨s, hs, -⟩ := scalarsOf?_scalar hdrops
    cases hs

/-- A potion with a spot of three components. -/
def sludge : Record :=
  ⟨⟨"g2"⟩, "Sludge", "", none, .ofList [("Spots",
    .list [.composite [.f32 .one, .f32 .zero, .f32 .one]])]⟩

/-- The second number of drops is dropped, and the key is taken for a text; but the spot is refused. -/
theorem bake_exact_brew :
    potionTypes.IsRegistered ∧ potionTypes.build .standard = .ok potionRegistry ∧
      ¬Catalog.WellTyped potionRegistry (.ofList [("Potion", .ofList "Potion" [brew])]) ∧
      (∃ k, bake potionRegistry (.ofList [("Potion", .ofList "Potion" [brew])]) = .ok k) ∧
      ¬∃ k, bake potionRegistry (.ofList [("Potion", .ofList "Potion" [brew, sludge])]) = .ok k := by
  have hreg : potionTypes.IsRegistered := .addType _ (.addType _ (.addEnum _ .empty))
  refine ⟨hreg, build_potionTypes, not_wellTyped_of_brew (List.mem_singleton_self _) rfl, ?_, ?_⟩
  -- the words of two are laid down for one, so the brew is baked
  · refine (bake_exact hreg build_potionTypes _).2 fun t ht record hrecord p hp v hv => ?_
    obtain rfl := List.mem_singleton.1 ht
    obtain rfl : record = brew := List.mem_singleton.1 hrecord
    rcases List.mem_cons.1 hp with rfl | hp
    · cases hv
    rcases List.mem_cons.1 hp with rfl | hp
    · obtain rfl := Option.some.inj hv
      refine .struct rfl fun q hq w hw => ?_
      rcases List.mem_cons.1 hq with rfl | hq
      · obtain rfl : Value.composite [.i32 3, .i32 4] = w := Option.some.inj hw
        exact .words rfl (.composite (by decide)) (by decide)
      · obtain rfl := List.mem_singleton.1 hq
        obtain rfl : Value.asset (some "bitter") = w := Option.some.inj hw
        exact .asset .string _
    · rcases List.mem_cons.1 hp with rfl | hp
      · cases hv
      · obtain rfl := List.mem_singleton.1 hp
        cases hv
  -- the same words in a list are counted
  · intro hbaked
    have hspots := (bake_exact hreg build_potionTypes _).1 hbaked _ (List.mem_singleton_self _)
      sludge (List.mem_cons_of_mem _ (List.mem_singleton_self _))
      ⟨"Spots", .list (.composite .vector2)⟩
      (List.mem_cons_of_mem _ (List.mem_cons_of_mem _ (List.mem_cons_of_mem _ List.mem_cons_self)))
      _ rfl
    obtain ⟨items, hitems, h⟩ := (Value.admitted_wordList_iff rfl).1 hspots
    cases hitems
    obtain ⟨n, hmade, hcount⟩ := h _ List.mem_cons_self
    cases hmade with
    | composite _ => exact absurd (hcount .vector2 rfl) (by decide)

end Registration

end RecordTables
