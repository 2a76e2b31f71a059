import RecordTables.Proofs.Container.Embedding
import RecordTables.Proofs.Container.Opening

/-!
# Containers know every table and every slot

For a sound registry every step of baking finds the tables and slots of the properties
(`Container.known_bake`), and a container that was baked has every table.  Reading an opened
container, wherever it comes from, finds every slot too, with enough bytes in it, and it misses a
table only if the container does not have it (`OpenContainer.known_value`).
-/

namespace RecordTables

open Schema Container

/-- The fault tells of a table or a slot that is missing, or of one that is too short. -/
def ContainerError.IsMissing : ContainerError → Prop
  | unknownTable _ | corrupt (.noSlot _ _) | corrupt (.noSlots _) | corrupt (.shortSlot _) => True
  | mismatch _ _ .noInlineKind => True
  | _ => False

/-- The fault tells of something in the data that does not fit: a number, a vector or its elements,
a member or a component. -/
def ContainerError.IsUnfit : ContainerError → Prop
  | corrupt (.stringRange _) | corrupt (.vectorRange _) | corrupt (.vectorElement _) => True
  | corrupt .shortScalar | corrupt (.notMember _ _) | corrupt (.shortComponents _) => True
  | _ => False

theorem ContainerError.IsMissing.not_isUnfit {e : ContainerError} (h : e.IsMissing) :
    ¬e.IsUnfit := by
  unfold ContainerError.IsMissing at h
  split at h <;> first | exact id | exact h.elim

namespace Container

variable {α β : Type}

/-! ### Steps of baking -/

namespace Baking

variable {b : Baking α}

/-- If the step fails, then not because a table or a slot is missing. -/
def Known (b : Baking α) : Prop := ∀ p, Avoids ContainerError.IsMissing (b.run p)

theorem known_pure (x : α) : Known (pure x) := fun _ => avoids_ok _

theorem known_throw {e : ContainerError} (h : ¬e.IsMissing) : Known (throw e : Baking α) :=
  fun _ => avoids_error h

theorem known_expected (place : Place) (what : String) :
    Known (place.fail (.expected what) : Baking α) := known_throw id

theorem known_modifyGet (f : Pools → α × Pools) : Known (modifyGet f) := fun _ => avoids_ok _

theorem Known.bind {next : α → Baking β} (h : Known b)
    (hnext : ∀ p x p', b.run p = .ok (x, p') → Known (next x)) : Known (b >>= next) := by
  intro p
  rw [StateT.run_bind]
  exact (h p).bind fun x hx => hnext p x.1 x.2 hx x.2

theorem known_of_except {x : α} {next : α → Baking β} (h : Known (next x)) :
    Known ((liftM (.ok x : Except ContainerError α) : Baking α) >>= next) := fun p => h p

theorem Known.map {f : α → β} (h : Known b) : Known (f <$> b) := by
  rw [map_eq_pure_bind]
  exact h.bind fun _ x _ _ => known_pure (f x)

theorem known_mapM {f : α → Baking β} {xs : List α} (h : ∀ x ∈ xs, Known (f x)) :
    Known (xs.mapM f) := by
  induction xs with
  | nil => exact known_pure _
  | cons x xs ih =>
    rw [List.mapM_cons]
    refine (h x List.mem_cons_self).bind fun _ y _ _ => ?_
    exact (ih fun x' hx' => h x' (List.mem_cons_of_mem _ hx')).bind fun _ ys _ _ => known_pure _

end Baking

open Baking

/-! ### Staging -/

section Stage

variable {src : BakeSource} {embed : String → List (String × Value) → Baking UInt32}
  {place : Place} {v : Value} {d : Declarations} {depth : Nat}

/-- Sub-structures that are less deep are embedded without a table or a slot missing. -/
def KnownWithin (d : Declarations) (embed : String → List (String × Value) → Baking UInt32)
    (depth : Nat) : Prop :=
  ∀ target, (ValueType.embedded target).IsDeclared d → ∀ fields,
    Value.depthOfFields fields < depth → Known (embed target fields)

theorem known_stageText (place : Place) (v : Value) : Known (stageText place v) := by
  unfold stageText
  split
  · exact known_modifyGet _
  · exact known_modifyGet _
  · exact known_pure _
  · exact known_expected _ _

theorem known_stageScalars (place : Place) (kind : ScalarKind) (what : String) (v : Value) :
    Known (stageScalars place kind what v) := by
  unfold stageScalars
  split
  · exact known_pure _
  · exact known_expected _ _

theorem known_stageMember (src : BakeSource) (place : Place) (enumName : String)
    (repr : ScalarKind) (v : Value) : Known (stageMember src place enumName repr v) := by
  unfold stageMember
  split
  · split
    · exact known_pure _
    · exact known_throw id
  · exact known_expected _ _

theorem known_stageReference (src : BakeSource) (place : Place) (target : String) (v : Value) :
    Known (stageReference src place target v) := by
  unfold stageReference
  split
  · exact known_pure _
  · split
    · exact known_pure _
    · exact known_throw id
  · exact known_expected _ _

theorem known_stageStruct (hembed : KnownWithin d embed depth) {target : String}
    (htarget : (ValueType.embedded target).IsDeclared d) (place : Place)
    (hv : ∀ fields, v = .struct fields → Value.depthOfFields fields < depth) :
    Known (stageStruct embed place target v) := by
  unfold stageStruct
  split
  · exact known_pure _
  · next fields => exact hembed target htarget fields (hv fields rfl)
  · exact known_expected _ _

theorem known_stageComponents (place : Place) (shape : CompositeShape) (v : Value) :
    Known (stageComponents place shape v) := by
  unfold stageComponents
  split
  · exact known_pure _
  · exact known_expected _ _

/-- A list is staged element by element, and then as a whole. -/
theorem known_items {γ : Type} {f : Value → Baking β} {next : List β → Baking γ}
    (h : ∀ w ∈ elementsOf v, Known (f w)) (hnext : ∀ ys, Known (next ys)) :
    Known (itemsOf place v >>= fun items => items.mapM f >>= next) := by
  unfold itemsOf
  cases hitems : v.items? with
  | none => exact (known_expected place _).bind fun _ items _ hrun => nomatch hrun
  | some items =>
    have helements : elementsOf v = items := by
      cases v with
      | list items' => exact Option.some.inj hitems
      | _ => cases hitems
    refine (known_pure items).bind fun _ x _ hrun => ?_
    obtain rfl : items = x := congrArg Prod.fst (Except.ok.inj hrun)
    exact (known_mapM fun w hw => h w (helements ▸ hw)).bind fun _ ys _ _ => hnext ys

/-- **Staging** a value meets no missing table if embedding what is in it does not. -/
theorem known_stage (hembed : KnownWithin d embed depth) {p : Property}
    (hp : ∀ vt, p.shape.element? = some vt → vt.IsDeclared d)
    (hv : ∀ w ∈ elementsOf v, w.depth ≤ depth) (table : String) :
    Known (stage src embed place (.ofProperty d table p) v) := by
  -- what is staged for a list is pooled, which cannot fail
  have hindices (is : List UInt32) :
      Known (Staged.index <$> modifyGet (·.addIndices is) : Baking Staged) :=
    (known_modifyGet _).map
  have hscalars (kind : ScalarKind) (scalars : List Scalar) :
      Known (Staged.index <$> modifyGet (·.addScalars kind scalars) : Baking Staged) :=
    (known_modifyGet _).map
  -- a field of an element lies less deep than the value
  have hdepth (w : Value) (fields : List (String × Value)) (hw : w = .struct fields)
      (hmem : w ∈ elementsOf v) : Value.depthOfFields fields < depth := by
    have hle := hv w hmem
    rw [hw, Value.depth] at hle
    exact hle
  obtain ⟨name, shape⟩ := p
  cases shape with
  | identifier => exact (known_stageText place v).map
  | single vt =>
    cases vt with
    | string | localizedText | asset => exact (known_stageText place v).map
    | enum e =>
      exact (known_stageMember src place e _ v).bind fun _ s _ _ => known_pure _
    | scalar kind => exact (known_stageScalars place kind _ v).map
    | time kind => exact (known_stageScalars place .i64 _ v).map
    | recordRef target => exact (known_stageReference src place target v).map
    | embedded target =>
      refine (known_stageStruct hembed (hp _ rfl) place fun fields hfields => ?_).map
      exact hdepth v fields hfields (hfields ▸ List.mem_singleton_self _)
    | composite shape => exact (known_stageScalars place shape.componentKind _ v).map
  | list vt =>
    cases vt with
    | string | localizedText | asset =>
      exact known_items (fun w _ => known_stageText place w) hindices
    | enum e => exact known_items (fun w _ => known_stageMember src place e _ w) (hscalars _)
    | scalar kind | time kind =>
      exact known_items (fun w _ => known_stageScalars place _ _ w) fun ys => hscalars _ ys.flatten
    | recordRef target =>
      exact known_items (fun w _ => known_stageReference src place target w) hindices
    | embedded target =>
      refine known_items (fun w hw => ?_) hindices
      exact known_stageStruct hembed (hp _ rfl) place fun fields hfields => hdepth w fields hfields hw
    | composite shape =>
      refine known_items (fun w _ => known_stageComponents place shape w) fun elements => ?_
      split_ifs
      · exact known_pure _
      · exact (known_mapM fun k _ => known_modifyGet _).map

end Stage

/-! ### Rows -/

section Rows

variable {layout : TableLayout}

theorem known_fillSlots {place : Place} {staged : Staged} {fields : List Field} {j : Nat}
    {row : List UInt8} (hslots : ∀ f ∈ fields, HasSlot layout f) :
    Known (fillSlots layout place staged j (fields.map (·.name)) row) := by
  induction fields generalizing j row with
  | nil => exact known_pure _
  | cons f fields ih =>
    obtain ⟨start, hslot, -⟩ := hslots f List.mem_cons_self
    rw [List.map_cons, fillSlots, hslot]
    dsimp only
    split
    · exact known_throw id
    · exact ih fun g hg => hslots g (List.mem_cons_of_mem _ hg)

theorem known_fillRow {table : String} {filled : List (PropertyPlan × Staged)} {row : List UInt8}
    (hslots : ∀ e ∈ filled, e.1.write.slots = e.1.fields.map (·.name))
    (hfields : ∀ e ∈ filled, ∀ f ∈ e.1.fields, HasSlot layout f) :
    Known (fillRow layout table filled row) := by
  induction filled generalizing row with
  | nil => exact known_pure _
  | cons e filled ih =>
    obtain ⟨q, staged⟩ := e
    rw [fillRow, hslots _ List.mem_cons_self]
    refine (known_fillSlots (hfields _ List.mem_cons_self)).bind fun _ row' _ _ => ?_
    exact ih (fun e he => hslots e (List.mem_cons_of_mem _ he))
      fun e he => hfields e (List.mem_cons_of_mem _ he)

variable {r : Registry} {src : BakeSource} {t : ResolvedType} {depth : Nat}
  {embed : String → List (String × Value) → Baking UInt32}

/-- **A row** of a type is written without a table or a slot missing. -/
theorem known_bakeRow (hr : r.IsSound) (hsrc : src.registry = r) (ht : t ∈ r.types)
    (htable : tableOf r t.name = .ok (Registration.tablePlan r.declarations t, layout))
    (hembed : KnownWithin r.declarations embed depth) {valueOf : String → Option Value}
    (hvalues : ∀ name v, valueOf name = some v → v.depth ≤ depth) :
    Known (bakeRow src embed (Registration.tablePlan r.declarations t) layout valueOf) := by
  unfold bakeRow
  refine (known_mapM fun q hq => ?_).bind fun _ staged _ _ => known_fillRow ?_ ?_
  · obtain ⟨p, hp, rfl⟩ := List.mem_map.1 hq
    dsimp only
    rw [PropertyPlan.property_ofProperty, hsrc]
    split
    · next v hv =>
      refine known_stage hembed (hr.declared t ht p hp) (fun w hw => ?_) t.name
      rcases Option.or_eq_some_iff.1 hv with hv | ⟨-, hv⟩
      · exact (depth_le_of_mem_elementsOf hw).trans (hvalues p.name v hv)
      · rw [depth_of_mem_elementsOf_default hv hw]
        exact Nat.zero_le _
    · exact known_throw id
  · intro e he
    obtain ⟨p, -, hp⟩ := List.mem_map.1 (List.of_mem_zip he).1
    rw [← hp]
    exact PropertyPlan.slots_ofProperty _ _ _
  · intro e he f hf
    exact hasSlot_of_mem_fields hr.laidOut htable (List.of_mem_zip he).1 hf

/-- Sub-structures are embedded without a table or a slot missing. -/
theorem known_embedWithin (hr : r.IsSound) (hsrc : src.registry = r) (fuel : Nat) :
    KnownWithin r.declarations (embedWithin src fuel) fuel := by
  induction fuel with
  | zero => exact fun _ _ _ hdepth => absurd hdepth (Nat.not_lt_zero _)
  | succ fuel ih =>
    intro target hdeclared fields hdepth
    obtain ⟨t, ht, rfl, hkind⟩ := hr.exists_struct hdeclared
    obtain ⟨layout, -, htable⟩ := hr.exists_tableOf ht (by rw [hkind]; decide)
    unfold embedWithin
    rw [hsrc, htable]
    refine known_of_except ?_
    refine (known_bakeRow hr hsrc ht htable ih fun name v hv => ?_).bind fun _ row _ _ =>
      known_modifyGet _
    exact (Value.depth_le_of_field? hv).trans (Nat.lt_succ_iff.1 hdepth)

theorem known_bakeRecords (hr : r.IsSound) (hsrc : src.registry = r) (ht : t ∈ r.recordTypes)
    (c : Catalog) : Known (bakeRecords src c t.name) := by
  have hkind := Registry.kind_ne_interface ht
  obtain ⟨ht, -⟩ := Registry.mem_recordTypes.1 ht
  obtain ⟨layout, -, htable⟩ := hr.exists_tableOf ht hkind
  unfold bakeRecords
  rw [hsrc, htable]
  refine known_of_except ((known_mapM fun record _ => ?_).bind fun _ rows _ _ => known_pure _)
  unfold bakeRecord
  refine known_bakeRow hr hsrc ht htable (known_embedWithin hr hsrc _) fun name v hv => ?_
  split_ifs at hv
  · rw [← Option.some.inj hv]
    exact Nat.zero_le _
  · exact Value.depth_le_of_field? hv

/-- **Baking knows every table and every slot.** -/
theorem known_bake (hr : r.IsSound) (c : Catalog) :
    Avoids ContainerError.IsMissing (bake r c) := by
  unfold bake
  refine Avoids.bind ?_ fun baked _ => avoids_ok _
  exact known_mapM (fun t ht => known_bakeRecords hr rfl ht c) _

/-- A container that was baked has every table of its schema. -/
theorem isSome_table?_of_bake {c : Catalog} {k : Container} (hr : r.IsSound)
    (h : bake r c = .ok k) (ht : t ∈ r.types) (hkind : t.kind ≠ .interface) :
    (k.table? t.name).isSome := by
  obtain ⟨layout, hlayout⟩ := hr.layouts t ht hkind
  obtain ⟨baked, -, h⟩ := bind_eq_ok.1 h
  have hname := List.find?_some hlayout
  rw [← Except.ok.inj h]
  unfold Container.table?
  rw [List.find?_isSome]
  refine ⟨_, List.mem_reverse.2 (List.mem_map_of_mem (List.mem_of_find?_eq_some hlayout)), ?_⟩
  split
  · exact hname
  · exact hname

end Rows

end Container

/-! ### Opened containers -/

namespace OpenContainer

/-- The fault tells of a slot that is missing or too short, or of a table that is missing, unless it
is that of a type and only the container does not have it. -/
def Misses (o : OpenContainer) (e : ContainerError) : Prop :=
  e.IsMissing ∧ ∀ t ∈ o.registry.types, t.kind ≠ .interface → e = .unknownTable t.name →
    (o.container.table? t.name).isSome

/-- If it fails, then not because it misses a table or a slot. -/
abbrev Known {α : Type} (o : OpenContainer) (x : Except ContainerError α) : Prop :=
  Avoids o.Misses x

/-- The tables of the container have the sizes that the schema asks for. -/
def IsChecked (o : OpenContainer) : Prop :=
  ∀ t ∈ o.container.tables, t.check o.registry = .ok ()

theorem forM_eq_ok {α ε : Type} {f : α → Except ε Unit} {xs : List α} (h : xs.forM f = .ok ()) :
    ∀ x ∈ xs, f x = .ok () := by
  induction xs with
  | nil => exact List.forall_mem_nil _
  | cons x xs ih =>
    have hcons : (f x >>= fun _ => xs.forM f) = .ok () := h
    obtain ⟨u, hu, h⟩ := bind_eq_ok.1 hcons
    exact List.forall_mem_cons.2 ⟨hu, ih h⟩

/-- What is opened is the container, and it was checked. -/
theorem ofContainer_eq_ok {r : Registry} {k : Container} {o : OpenContainer}
    (h : ofContainer r k = .ok o) : o = ⟨r, k, .empty⟩ ∧ o.IsChecked := by
  unfold ofContainer at h
  obtain ⟨-, -, h⟩ := bind_eq_ok.1 h
  obtain ⟨-, -, h⟩ := bind_eq_ok.1 h
  obtain ⟨u, hu, h⟩ := bind_eq_ok.1 h
  obtain rfl := Except.ok.inj h
  exact ⟨rfl, forM_eq_ok hu⟩

theorem avoids_forM {α ε : Type} {bad : ε → Prop} {f : α → Except ε Unit} {xs : List α}
    (h : ∀ x ∈ xs, Avoids bad (f x)) : Avoids bad (xs.forM f) := by
  induction xs with
  | nil => exact avoids_ok _
  | cons x xs ih =>
    have hcons : Avoids bad (f x >>= fun _ => xs.forM f) :=
      (h x List.mem_cons_self).bind fun _ _ => ih fun x' hx' => h x' (List.mem_cons_of_mem _ hx')
    exact hcons

/-- **Opening** a container that was baked knows its tables. -/
theorem known_ofContainer {r : Registry} (hr : r.IsLaidOut) {c : Catalog} {k : Container}
    (h : bake r c = .ok k) : Avoids ContainerError.IsMissing (ofContainer r k) := by
  unfold ofContainer
  refine Avoids.bind ?_ fun _ _ => Avoids.bind ?_ fun _ _ =>
    (avoids_forM fun t ht => ?_).bind fun _ _ => avoids_ok _
  · unfold ContainerHeader.check
    split_ifs
    · exact avoids_error id
    · exact avoids_error id
    · exact avoids_ok _
  · cases Checkpoints.verifyData r.fingerprint (some k.header.fingerprint) with
    | error e => exact avoids_error id
    | ok u => exact avoids_ok _
  · obtain ⟨layout, hlayout, rows, guids, rfl, -⟩ := bake_tables hr h ht
    have hfind : r.layout.table? (tableOfRows layout rows guids).name = some layout :=
      hr.layout.table? hlayout
    unfold Table.check
    rw [hfind]
    dsimp only
    split_ifs
    · exact avoids_ok _
    · exact avoids_error id

variable {o : OpenContainer} {t : ResolvedType} {view : TableView}

theorem known_of_not_isMissing {α : Type} {e : ContainerError} (h : ¬e.IsMissing) :
    o.Known (.error e : Except ContainerError α) := avoids_error fun hmisses => h hmisses.1

/-- A container with all tables has none missing. -/
theorem avoids_isMissing_of_known {α : Type} {x : Except ContainerError α}
    (hall : ∀ t ∈ o.registry.types, t.kind ≠ .interface → (o.container.table? t.name).isSome)
    (h : o.Known x) : Avoids ContainerError.IsMissing x :=
  fun e he hmissing => h e he ⟨hmissing, fun t ht hkind _ => hall t ht hkind⟩

theorem known_of_isUnfit {α : Type} {x : Except ContainerError α}
    (h : Avoids (fun e => ¬e.IsUnfit) x) : o.Known x :=
  h.mono fun _ hmisses => hmisses.1.not_isUnfit

/-! #### Pools -/

theorem isUnfit_string (o : OpenContainer) (i : UInt32) :
    Avoids (fun e => ¬e.IsUnfit) (o.string i) := by
  unfold string
  split
  · exact avoids_ok _
  · exact avoids_error (not_not.2 trivial)

theorem isUnfit_vector (o : OpenContainer) (i : UInt32) (element : Element) :
    Avoids (fun e => ¬e.IsUnfit) (o.vector i element) := by
  unfold vector
  split_ifs
  · exact avoids_ok _
  · split
    · exact avoids_error (not_not.2 trivial)
    · split_ifs
      · exact avoids_ok _
      · exact avoids_error (not_not.2 trivial)

theorem isUnfit_vectorScalars (o : OpenContainer) (i : UInt32) (kind : ScalarKind) :
    Avoids (fun e => ¬e.IsUnfit) (o.vectorScalars i kind) := by
  unfold vectorScalars
  refine (isUnfit_vector o i _).bind fun parts _ => avoids_mapM fun part _ => ?_
  split
  · exact avoids_ok _
  · exact avoids_error (not_not.2 trivial)

theorem isUnfit_vectorIndices (o : OpenContainer) (i : UInt32) :
    Avoids (fun e => ¬e.IsUnfit) (o.vectorIndices i) :=
  (isUnfit_vector o i _).map _

/-! #### Views -/

/-- The view of the table of a type: its rows have their size. -/
structure Shows (o : OpenContainer) (t : ResolvedType) (view : TableView) : Prop where
  plan : view.plan = Registration.tablePlan o.registry.declarations t
  table : tableOf o.registry t.name = .ok (view.plan, view.layout)
  row : ∀ i row, view.table.row? i = some row → row.length = view.layout.rowSize

theorem shows_of_view (hr : o.registry.IsSound) (ho : o.IsChecked) (ht : t ∈ o.registry.types)
    (hkind : t.kind ≠ .interface) {table : Table} (htable : o.container.table? t.name = some table) :
    ∃ view, o.view t.name = .ok view ∧ o.Shows t view := by
  obtain ⟨layout, hlayout, hof⟩ := hr.exists_tableOf ht hkind
  refine ⟨⟨table, Registration.tablePlan o.registry.declarations t, layout⟩, ?_, rfl, hof, ?_⟩
  · unfold OpenContainer.view
    rw [htable, hr.table?_of_mem ht hkind, hlayout]
  · intro i row hrow
    unfold Container.table? at htable
    have hmem := List.mem_reverse.1 (List.mem_of_find?_eq_some htable)
    have hname := List.find?_some htable
    have hcheck := ho table hmem
    unfold Table.check at hcheck
    rw [beq_iff_eq.1 hname, hlayout] at hcheck
    dsimp only at hcheck
    split_ifs at hcheck with hsizes
    unfold Table.row? at hrow
    dsimp only at hrow
    split_ifs at hrow with hle
    rw [← Option.some.inj hrow, List.length_take_of_le, hsizes.1]
    rw [List.length_drop]
    omega

/-- **A table is missing** only if the container does not have it. -/
theorem known_view (hr : o.registry.IsSound) (ho : o.IsChecked) (ht : t ∈ o.registry.types)
    (hkind : t.kind ≠ .interface) : o.Known (o.view t.name) := by
  cases htable : o.container.table? t.name with
  | some table =>
    obtain ⟨view, hview, -⟩ := shows_of_view hr ho ht hkind htable
    rw [hview]
    exact avoids_ok _
  | none =>
    unfold OpenContainer.view
    rw [htable]
    refine avoids_error fun hmisses => ?_
    have hhas := hmisses.2 t ht hkind rfl
    rw [htable] at hhas
    cases hhas

theorem shows_of_view_eq_ok (hr : o.registry.IsSound) (ho : o.IsChecked)
    (ht : t ∈ o.registry.types) (hkind : t.kind ≠ .interface) (hview : o.view t.name = .ok view) :
    o.Shows t view := by
  cases htable : o.container.table? t.name with
  | some table =>
    obtain ⟨view', hview', hshows⟩ := shows_of_view hr ho ht hkind htable
    obtain rfl := Except.ok.inj (hview'.symm.trans hview)
    exact hshows
  | none =>
    unfold OpenContainer.view at hview
    rw [htable] at hview
    cases hview

/-! #### Slots -/

section Slots

variable {row : List UInt8} {f : Field}

theorem exists_slotBytes (hr : o.registry.IsLaidOut) (hshows : o.Shows t view)
    (hf : f ∈ view.layout.fields) (hrow : row.length = view.layout.rowSize) :
    ∃ bytes, view.slotBytes row f.name = .ok bytes ∧ bytes.length = f.slotWidth := by
  have hnodup := hr.layout.fieldNames _ (tableOf_eq_ok hshows.table).2.2.1
  refine ⟨_, TableView.slotBytes_eq hnodup hf hrow, ?_⟩
  have hle := TableLayout.slotStart_add_le hf
  rw [List.length_take_of_le]
  rw [List.length_drop]
  omega

theorem known_slotIndex (hr : o.registry.IsLaidOut) (hshows : o.Shows t view)
    (hf : f ∈ view.layout.fields) (hrow : row.length = view.layout.rowSize) :
    o.Known (view.slotIndex row f.name) := by
  obtain ⟨bytes, hbytes, -⟩ := exists_slotBytes hr hshows hf hrow
  unfold TableView.slotIndex
  rw [hbytes]
  exact avoids_ok _

theorem known_slotScalar (hr : o.registry.IsLaidOut) (hshows : o.Shows t view)
    (hf : f ∈ view.layout.fields) (hrow : row.length = view.layout.rowSize) {kind : ScalarKind}
    (hwidth : f.slotWidth = kind.width) : o.Known (view.slotScalar row f.name kind) := by
  obtain ⟨bytes, hbytes, hlength⟩ := exists_slotBytes hr hshows hf hrow
  unfold TableView.slotScalar
  rw [hbytes, ok_bind]
  unfold Scalar.ofBytes?
  rw [if_pos (by rw [hlength, hwidth])]
  exact avoids_ok _

end Slots

/-! #### Values -/

section Values

variable {nested : String → UInt32 → Except ContainerError Value} {row : List UInt8}

theorem isUnfit_member (o : OpenContainer) (name : String) (s : Scalar) :
    Avoids (fun e => ¬e.IsUnfit) (o.member name s) := by
  unfold member
  split
  · exact avoids_ok _
  · exact avoids_error (not_not.2 trivial)

theorem isUnfit_textValue (o : OpenContainer) (i : UInt32) :
    Avoids (fun e => ¬e.IsUnfit) (o.textValue i) := by
  unfold textValue
  split_ifs
  · exact avoids_ok _
  · exact (isUnfit_string o i).map _

theorem isUnfit_assetValue (o : OpenContainer) (i : UInt32) :
    Avoids (fun e => ¬e.IsUnfit) (o.assetValue i) := by
  unfold assetValue
  split_ifs
  · exact avoids_ok _
  · exact (isUnfit_string o i).map _

theorem isUnfit_componentsAt (property : String) (arity i : Nat) (vectors : List (List Scalar)) :
    Avoids (fun e => ¬e.IsUnfit) (componentsAt property arity i vectors) := by
  refine Avoids.map (avoids_mapM fun e _ => ?_) _
  dsimp only
  split
  · exact avoids_ok _
  · exact avoids_error (not_not.2 trivial)

theorem known_refValue (hr : o.registry.IsSound) (ho : o.IsChecked) {target : String}
    (htarget : (ValueType.recordRef target).IsDeclared o.registry.declarations) (i : UInt32) :
    o.Known (o.refValue target i) := by
  obtain ⟨declared, hdeclared, hkind⟩ := htarget
  obtain ⟨u, hu, rfl, hsame⟩ := hr.exists_type hdeclared
  unfold refValue
  split_ifs
  · exact avoids_ok _
  · refine (known_view hr ho hu (by rw [hsame, hkind]; decide)).bind fun view _ => ?_
    split
    · exact avoids_ok _
    · exact known_of_not_isMissing id

/-- The rows of sub-structures are read without a table or a slot missing. -/
def KnownNested (o : OpenContainer) (nested : String → UInt32 → Except ContainerError Value) :
    Prop :=
  ∀ target, (ValueType.embedded target).IsDeclared o.registry.declarations → ∀ i,
    o.Known (nested target i)

theorem known_structValue (hnested : o.KnownNested nested) {target : String}
    (htarget : (ValueType.embedded target).IsDeclared o.registry.declarations) (i : UInt32) :
    o.Known (structValue nested target i) := by
  unfold structValue
  split_ifs
  · exact avoids_ok _
  · exact hnested target htarget i

variable {name : String} {vt : ValueType}

/-- A single value is read from its slots. -/
theorem known_readSingle (hr : o.registry.IsSound) (ho : o.IsChecked) (hshows : o.Shows t view)
    (hnested : o.KnownNested nested) (hrow : row.length = view.layout.rowSize)
    (hvt : vt.IsDeclared o.registry.declarations)
    (hfields : ∀ f ∈ (PropertyPlan.ofProperty o.registry.declarations t.name
      ⟨name, .single vt⟩).fields, f ∈ view.layout.fields) :
    o.Known (o.readProperty nested view
      (.ofProperty o.registry.declarations t.name ⟨name, .single vt⟩) row) := by
  have hindex {f : Field} (hf : f ∈ view.layout.fields) :=
    known_slotIndex hr.laidOut hshows hf hrow
  have hscalar {f : Field} (hf : f ∈ view.layout.fields) {kind : ScalarKind}
      (hwidth : f.slotWidth = kind.width) := known_slotScalar hr.laidOut hshows hf hrow hwidth
  cases vt with
  | string | localizedText =>
    exact (hindex (hfields _ List.mem_cons_self)).bind fun i _ =>
      known_of_isUnfit (isUnfit_textValue o i)
  | asset =>
    exact (hindex (hfields _ List.mem_cons_self)).bind fun i _ =>
      known_of_isUnfit (isUnfit_assetValue o i)
  | enum e =>
    exact (hscalar (hfields _ List.mem_cons_self) rfl).bind fun s _ =>
      known_of_isUnfit (isUnfit_member o e s)
  | scalar kind => exact (hscalar (hfields _ List.mem_cons_self) rfl).map _
  | time kind => exact (hscalar (hfields _ List.mem_cons_self) rfl).map _
  | recordRef target =>
    exact (hindex (hfields _ List.mem_cons_self)).bind fun i _ => known_refValue hr ho hvt i
  | embedded target =>
    exact (hindex (hfields _ List.mem_cons_self)).bind fun i _ => known_structValue hnested hvt i
  | composite shape =>
    -- each component stands in a slot of its own
    have hcomponents : o.Known (Value.composite <$>
        (PropertyPlan.ofProperty o.registry.declarations t.name
          ⟨name, .single (.composite shape)⟩).write.slots.mapM fun slot =>
            view.slotScalar row slot shape.componentKind) := by
      refine Avoids.map (avoids_mapM fun slot hslot => ?_) _
      rw [PropertyPlan.slots_ofProperty] at hslot
      obtain ⟨f, hf, rfl⟩ := List.mem_map.1 hslot
      exact hscalar (hfields f hf) (slotWidth_of_mem_fields hf)
    cases shape
    all_goals exact hcomponents

/-- A list is read from the vectors that its slots name. -/
theorem known_readList (hr : o.registry.IsSound) (ho : o.IsChecked) (hshows : o.Shows t view)
    (hnested : o.KnownNested nested) (hrow : row.length = view.layout.rowSize)
    (hvt : vt.IsDeclared o.registry.declarations)
    (hfields : ∀ f ∈ (PropertyPlan.ofProperty o.registry.declarations t.name
      ⟨name, .list vt⟩).fields, f ∈ view.layout.fields) :
    o.Known (o.readProperty nested view
      (.ofProperty o.registry.declarations t.name ⟨name, .list vt⟩) row) := by
  have hindex {f : Field} (hf : f ∈ view.layout.fields) :=
    known_slotIndex hr.laidOut hshows hf hrow
  -- lists of numbers are read from a pooled vector, and each number for itself
  have hindices {f : Field} (hf : f ∈ view.layout.fields) {read : UInt32 → Except _ Value}
      (hread : ∀ i, o.Known (read i)) : o.Known (Value.list <$>
        (view.slotIndex row f.name >>= fun i => o.vectorIndices i >>= fun is => is.mapM read)) := by
    refine Avoids.map ?_ _
    refine (hindex hf).bind fun i _ => ?_
    refine (known_of_isUnfit (isUnfit_vectorIndices o i)).bind fun is _ => ?_
    exact avoids_mapM fun i _ => hread i
  -- and so are lists of scalars
  have hscalars {f : Field} (hf : f ∈ view.layout.fields) (kind : ScalarKind)
      {next : List Scalar → Except _ (List Value)} (hnext : ∀ ss, o.Known (next ss)) :
      o.Known (Value.list <$>
        (view.slotIndex row f.name >>= fun i => o.vectorScalars i kind >>= next)) := by
    refine Avoids.map ?_ _
    refine (hindex hf).bind fun i _ => ?_
    exact (known_of_isUnfit (isUnfit_vectorScalars o i kind)).bind fun ss _ => hnext ss
  cases vt with
  | string | localizedText =>
    exact hindices (hfields _ List.mem_cons_self) fun i =>
      known_of_isUnfit ((isUnfit_string o i).map _)
  | asset =>
    exact hindices (hfields _ List.mem_cons_self) fun i =>
      known_of_isUnfit (isUnfit_assetValue o i)
  | recordRef target =>
    exact hindices (hfields _ List.mem_cons_self) (known_refValue hr ho hvt)
  | embedded target =>
    exact hindices (hfields _ List.mem_cons_self) (known_structValue hnested hvt)
  | enum e =>
    exact hscalars (hfields _ List.mem_cons_self) _ fun ss =>
      avoids_mapM fun s _ => known_of_isUnfit (isUnfit_member o e s)
  | scalar kind =>
    exact hscalars (hfields _ List.mem_cons_self) kind fun ss => avoids_ok (ss.map Value.scalar)
  | time kind =>
    exact hscalars (hfields _ List.mem_cons_self) .i64 fun ss => avoids_ok (ss.map (timeValue kind))
  | composite shape =>
    -- a list of tuples has a vector for each component
    have hvectors : o.Known ((PropertyPlan.ofProperty o.registry.declarations t.name
        ⟨name, .list (.composite shape)⟩).write.slots.mapM fun slot =>
          view.slotIndex row slot >>= fun i => o.vectorScalars i shape.componentKind) := by
      refine avoids_mapM fun slot hslot => ?_
      rw [PropertyPlan.slots_ofProperty] at hslot
      obtain ⟨f, hf, rfl⟩ := List.mem_map.1 hslot
      exact (hindex (hfields f hf)).bind fun i _ => known_of_isUnfit (isUnfit_vectorScalars o i _)
    have helements (vectors : List (List Scalar)) : o.Known
        ((List.range (((vectors.head?.map (·.length)).getD 0) / shape.arity)).mapM fun i =>
          componentsAt name shape.arity i vectors) :=
      avoids_mapM fun i _ => known_of_isUnfit (isUnfit_componentsAt name shape.arity i vectors)
    have hlist := (hvectors.bind fun vectors _ => helements vectors).map Value.list
    cases shape
    all_goals exact hlist

/-- **A property** of a row is read without a table or a slot missing. -/
theorem known_readProperty (hr : o.registry.IsSound) (ho : o.IsChecked)
    (ht : t ∈ o.registry.types) (hshows : o.Shows t view) (hnested : o.KnownNested nested)
    (hrow : row.length = view.layout.rowSize) {p : Property} (hp : p ∈ t.properties) :
    o.Known (o.readProperty nested view
      (.ofProperty o.registry.declarations t.name p) row) := by
  have hfields : ∀ f ∈ (PropertyPlan.ofProperty o.registry.declarations t.name p).fields,
      f ∈ view.layout.fields := by
    have hmem : PropertyPlan.ofProperty o.registry.declarations t.name p ∈ view.plan.properties := by
      rw [hshows.plan]
      exact List.mem_map_of_mem hp
    exact fun f hf => mem_fields_of_mem_fields hr.laidOut hshows.table hmem hf
  have hdeclared := hr.declared t ht p hp
  obtain ⟨name, shape⟩ := p
  cases shape with
  | identifier =>
    exact (known_slotIndex hr.laidOut hshows (hfields _ List.mem_cons_self) hrow).bind fun i _ =>
      known_of_isUnfit (isUnfit_textValue o i)
  | single vt => exact known_readSingle hr ho hshows hnested hrow (hdeclared vt rfl) hfields
  | list vt => exact known_readList hr ho hshows hnested hrow (hdeclared vt rfl) hfields

theorem known_bakedWith (hr : o.registry.IsSound) (ho : o.IsChecked) (ht : t ∈ o.registry.types)
    (hshows : o.Shows t view) (hnested : o.KnownNested nested) (i : UInt32) (property : String) :
    o.Known (o.bakedWith nested view i property) := by
  unfold bakedWith
  split
  · exact known_of_not_isMissing id
  · next q hq =>
    split
    · exact known_of_not_isMissing id
    · next row hrow =>
      rw [hshows.plan] at hq
      obtain ⟨p, hp, rfl⟩ := List.mem_map.1 (List.mem_of_find?_eq_some hq)
      exact known_readProperty hr ho ht hshows hnested (hshows.row i row hrow) hp

/-- **Sub-structures** are read without a table or a slot missing. -/
theorem known_readStruct (hr : o.registry.IsSound) (ho : o.IsChecked) (fuel : Nat) :
    o.KnownNested (o.readStruct fuel) := by
  induction fuel with
  | zero => exact fun _ _ _ => known_of_not_isMissing id
  | succ fuel ih =>
    intro target hdeclared i
    obtain ⟨u, hu, rfl, hkind⟩ := hr.exists_struct hdeclared
    have hinstances : u.kind ≠ .interface := by
      rw [hkind]
      decide
    unfold readStruct
    refine (known_view hr ho hu hinstances).bind fun view hview => ?_
    have hshows := shows_of_view_eq_ok hr ho hu hinstances hview
    refine (avoids_mapM fun q _ => ?_).bind fun fields _ => avoids_ok _
    exact (known_bakedWith hr ho hu hshows ih i _).bind fun v _ => avoids_ok _

theorem known_baked (hr : o.registry.IsSound) (ho : o.IsChecked) (ht : t ∈ o.registry.types)
    (hshows : o.Shows t view) (i : UInt32) (property : String) :
    o.Known (o.baked view i property) :=
  known_bakedWith hr ho ht hshows (known_readStruct hr ho _) i property

/-- **Reading knows every table and every slot**, whatever overrides there are. -/
theorem known_value (hr : o.registry.IsSound) (ho : o.IsChecked) (ht : t ∈ o.registry.types)
    (hshows : o.Shows t view) (i : UInt32) (property : String) :
    o.Known (o.value view i property) := by
  unfold value
  split
  · exact avoids_ok _
  · exact known_baked hr ho ht hshows i property

/-- **Finding a record** meets no missing table or slot either. -/
theorem known_findBetween (hr : o.registry.IsSound) (ho : o.IsChecked)
    (ht : t ∈ o.registry.types) (hshows : o.Shows t view) (identifier : String) (low high : Nat) :
    o.Known (o.findBetween view identifier low high) := by
  induction hn : high - low using Nat.strong_induction_on generalizing low high with
  | _ n ih =>
    unfold findBetween
    split_ifs with hlow
    · dsimp only
      split
      · next e he => exact avoids_error (known_baked hr ho ht hshows _ _ e he)
      · split_ifs
        · exact avoids_ok _
        · exact ih _ (by omega) _ _ rfl
        · exact ih _ (by omega) _ _ rfl
      · exact known_of_not_isMissing id
    · exact avoids_ok _

end Values

end OpenContainer

end RecordTables
