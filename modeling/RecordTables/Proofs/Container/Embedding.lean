import RecordTables.Proofs.Container.Compatibility
import RecordTables.Proofs.Container.Staging

/-!
# Rows are read back

A row of a type that was baked holds the value of every property (`Container.lays_bakeRow`), and a
sub-structure is read back from its row with the values of its properties
(`Container.embeds_embedWithin`).  The fuel that a sub-structure is embedded with is its depth; it is
read within a limit of nesting, and the row that it adds leaves one more for what it holds.
-/

namespace RecordTables

open Schema

/-! ### Tables of types -/

theorem Registry.IsSound.exists_tableOf {r : Registry} (hr : r.IsSound) {t : ResolvedType}
    (ht : t ∈ r.types) (hkind : t.kind ≠ .interface) :
    ∃ layout, r.layout.table? t.name = some layout ∧
      Container.tableOf r t.name = .ok (Registration.tablePlan r.declarations t, layout) := by
  obtain ⟨layout, hlayout⟩ := hr.layouts t ht hkind
  refine ⟨layout, hlayout, ?_⟩
  unfold Container.tableOf
  rw [hr.table?_of_mem ht hkind, hlayout]

namespace Container

/-! ### Rows one behind the other -/

theorem take_drop_flatten {rows : List (List UInt8)} {row : List UInt8} {i n : Nat}
    (hsizes : ∀ row ∈ rows, row.length = n) (hi : rows[i]? = some row) :
    (rows.flatten.drop (i * n)).take n = row ∧ i * n + n ≤ rows.flatten.length := by
  induction rows generalizing i with
  | nil => cases hi
  | cons first rows ih =>
    have hfirst := hsizes first List.mem_cons_self
    rw [List.flatten_cons, List.length_append, hfirst]
    cases i with
    | zero =>
      obtain rfl := Option.some.inj hi
      rw [Nat.zero_mul, List.drop_zero, List.take_left' hfirst]
      exact ⟨rfl, by omega⟩
    | succ i =>
      obtain ⟨hrow, hle⟩ := ih (fun row hrow => hsizes row (List.mem_cons_of_mem _ hrow)) hi
      rw [Nat.succ_mul, Nat.add_comm (i * n) n, ← List.drop_drop, List.drop_left' hfirst]
      exact ⟨hrow, by omega⟩

/-- A row is found by its number. -/
theorem row?_tableOfRows {layout : TableLayout} {rows : List (List UInt8)} {guids : List String}
    {row : List UInt8} {i : Nat} (hsizes : ∀ row ∈ rows, row.length = layout.rowSize)
    (hwidth : layout.rowSize < 2 ^ 32) (hcount : rows.length < 2 ^ 32) (hi : rows[i]? = some row) :
    (tableOfRows layout rows guids).row? (UInt32.ofNat i) = some row := by
  have hrowSize : (UInt32.ofNat layout.rowSize).toNat = layout.rowSize :=
    UInt32.toNat_ofNat_of_lt' hwidth
  have hnat : (UInt32.ofNat i).toNat = i :=
    UInt32.toNat_ofNat_of_lt' ((List.getElem?_eq_some_iff.1 hi).1.trans hcount)
  obtain ⟨hrow, hle⟩ := take_drop_flatten hsizes hi
  unfold Table.row? tableOfRows
  dsimp only
  rw [hrowSize, hnat, if_pos hle, hrow]

/-! ### Rows of a type -/

section Rows

variable {r : Registry} {c : Catalog} {t : ResolvedType} {layout : TableLayout}
  {embed : String → List (String × Value) → Baking UInt32} {depth : Nat}

/-- Reading a property of the row gives its value. -/
def RowHolds (r : Registry) (t : ResolvedType) (layout : TableLayout) (value : Property → Value)
    (o : OpenContainer) (limit : Nat) (row : List UInt8) : Prop :=
  ∀ view : TableView, view.layout = layout → ∀ p ∈ t.properties,
    o.readProperty (o.readStruct limit) view (.ofProperty r.declarations t.name p) row =
      .ok (value p)

theorem exists_mem_zip {α β : Type} {R : α → β → Prop} {xs : List α} {ys : List β} {x : α}
    (h : List.Forall₂ R xs ys) (hx : x ∈ xs) : ∃ y, (x, y) ∈ xs.zip ys ∧ R x y := by
  induction h with
  | nil => cases hx
  | cons hy _ ih =>
    rcases List.mem_cons.1 hx with rfl | hx
    · exact ⟨_, List.mem_cons_self, hy⟩
    · obtain ⟨y, hmem, hxy⟩ := ih hx
      exact ⟨y, List.mem_cons_of_mem _ hmem, hxy⟩

/-- The slots that are filled with what was staged are those of different fields of the layout. -/
structure SlotsApart (layout : TableLayout) (filled : List (PropertyPlan × Staged)) : Prop where
  nodup : (layout.fields.map (·.name)).Nodup
  slots : ∀ e ∈ filled, e.1.write.slots = e.1.fields.map (·.name)
  fields : ∀ e ∈ filled, ∀ f ∈ e.1.fields, f ∈ layout.fields
  names : (filled.flatMap fun e => e.1.fields.map (·.name)).Nodup

theorem slotsApart_zip (hr : r.IsSound) (ht : t ∈ r.types) (hkind : t.kind ≠ .interface)
    (htable : tableOf r t.name = .ok (Registration.tablePlan r.declarations t, layout))
    {staged : List Staged}
    (hlength : (Registration.tablePlan r.declarations t).properties.length = staged.length) :
    SlotsApart layout ((Registration.tablePlan r.declarations t).properties.zip staged) := by
  have hplan : Registration.tablePlan r.declarations t ∈ r.tables :=
    List.mem_of_find?_eq_some (hr.table?_of_mem ht hkind)
  have hzip : ∀ e ∈ (Registration.tablePlan r.declarations t).properties.zip staged,
      e.1 ∈ (Registration.tablePlan r.declarations t).properties :=
    fun e he => (List.of_mem_zip he).1
  refine ⟨hr.laidOut.layout.fieldNames _ (tableOf_eq_ok htable).2.2.1, fun e he => ?_,
    fun e he f hf => mem_fields_of_mem_fields hr.laidOut htable (hzip e he) hf, ?_⟩
  · obtain ⟨p, -, hq⟩ := List.mem_map.1 (hzip e he)
    rw [← hq]
    exact PropertyPlan.slots_ofProperty _ _ _
  · have hslots := hr.slots _ hplan
    rw [← List.map_fst_zip (Nat.le_of_eq hlength), List.flatMap_map] at hslots
    exact hslots

/-- **A row that was baked** holds the values that are read back of what was staged. -/
theorem lays_bakeRow (hr : r.IsSound) (ht : t ∈ r.types) (hkind : t.kind ≠ .interface)
    (htable : tableOf r t.name = .ok (Registration.tablePlan r.declarations t, layout))
    {valueOf : String → Option Value} {value : Property → Value}
    (hstage : ∀ p ∈ t.properties, ∃ v, (valueOf p.name).or (r.default? p) = some v ∧
      Lays r c (stage (.ofCatalog r c) embed ⟨t.name, p.name⟩
          (.ofProperty r.declarations t.name p) v)
        (·.Fills (PropertyPlan.ofProperty r.declarations t.name p).fields)
        (ReadsBack (.ofProperty r.declarations t.name p) (value p))) :
    Lays r c (bakeRow (.ofCatalog r c) embed (Registration.tablePlan r.declarations t) layout valueOf)
      (fun row => row.length = layout.rowSize) (RowHolds r t layout value) := by
  have hof : ∀ q ∈ (Registration.tablePlan r.declarations t).properties,
      ∃ p ∈ t.properties, PropertyPlan.ofProperty r.declarations t.name p = q :=
    fun q hq => List.mem_map.1 hq
  unfold bakeRow
  refine Lays.bind (lays_mapM
    (S := fun q staged => staged.Fills q.fields)
    (T := fun o limit q staged => ReadsBack q (value q.property) o limit staged)
    fun q hq => ?_) fun staged hfills => ?_
  -- each property is staged, its value or its default
  · obtain ⟨p, hp, rfl⟩ := hof q hq
    obtain ⟨v, hv, hlays⟩ := hstage p hp
    dsimp only
    rw [PropertyPlan.property_ofProperty]
    have hdefault : (valueOf p.name).or ((BakeSource.ofCatalog r c).registry.default? p) = some v := hv
    rw [hdefault]
    exact hlays
  -- the slots lie apart, so filling one leaves what is in the others
  have hapart := slotsApart_zip hr ht hkind htable hfills.length_eq
  obtain ⟨row, hfilled, hrun, hheld⟩ := @fillRow_run _ _ hapart.nodup
    (Registration.tablePlan r.declarations t).table _ hapart.slots hapart.fields hapart.names
    (fun e he => List.forall₂_zip hfills he) List.length_replicate
  intro p
  refine ⟨row, p, hrun p, .refl p, hfilled.length, fun o limit _ hreads view hview p hp => ?_⟩
  obtain ⟨s, hmem, hread⟩ := exists_mem_zip hreads (List.mem_map_of_mem hp)
  rw [PropertyPlan.property_ofProperty] at hread
  exact hread view row (hheld view hview _ hmem)

/-- What is kept of a value that may be stored for a property. -/
def keptValue (r : Registry) (stored : Option Value) (p : Property) : Value :=
  (stored.map fun v => v.wire r p.shape).getD (r.defaultValue p)

theorem depth_of_mem_elementsOf_default {p : Property} {v w : Value} (h : r.default? p = some v)
    (hw : w ∈ elementsOf v) : w.depth = 0 := by
  unfold Registry.default? at h
  cases hshape : p.shape with
  | identifier =>
    rw [hshape] at h
    cases h
  | list vt =>
    rw [hshape] at h
    rw [← Option.some.inj h] at hw
    cases hw
  | single vt =>
    rw [hshape] at h
    rw [← Option.some.inj h] at hw
    cases vt with
    | time kind =>
      cases kind
      all_goals
        rw [List.mem_singleton.1 hw]
        rfl
    | _ =>
      rw [List.mem_singleton.1 hw]
      rfl

/-- A stored value, or the default, is staged so that it is read back. -/
theorem exists_lays_stage (hr : r.IsSound) (hembed : Embeds r c embed depth) (ht : t ∈ r.types)
    {p : Property} (hp : p ∈ t.properties) (hshape : p.shape ≠ .identifier) {stored : Option Value}
    (hstored : ∀ v, stored = some v → v.WellTyped r c p.shape ∧ v.depth ≤ depth) {place : Place} :
    ∃ v, stored.or (r.default? p) = some v ∧
      Lays r c (stage (.ofCatalog r c) embed place (.ofProperty r.declarations t.name p) v)
        (·.Fills (PropertyPlan.ofProperty r.declarations t.name p).fields)
        (ReadsBack (.ofProperty r.declarations t.name p) (keptValue r stored p)) := by
  have hdeclared := hr.declared t ht p hp
  -- a stored value is laid down as it is, a missing one as the default
  cases stored with
  | some v =>
    obtain ⟨htyped, hdepth⟩ := hstored v rfl
    refine ⟨v, rfl, lays_stage hr hembed hdeclared htyped fun w hw => ?_⟩
    exact (depth_le_of_mem_elementsOf hw).trans hdepth
  | none =>
    obtain ⟨v, hv⟩ := r.exists_default? hshape
    have hkept : keptValue r none p = v.wire r p.shape := by
      rw [Value.wire_default hv]
      unfold keptValue Registry.defaultValue
      rw [hv]
      rfl
    rw [hkept]
    refine ⟨v, hv, lays_stage hr hembed hdeclared (Value.wellTyped_default hr hdeclared hv) ?_⟩
    intro w hw
    rw [depth_of_mem_elementsOf_default hv hw]
    exact Nat.zero_le _

/-! ### Reading rows -/

section Read

variable {o : OpenContainer} {view : TableView} {i : UInt32} {row : List UInt8} {limit : Nat}
  {value : Property → Value}

theorem bakedWith_eq (hr : r.IsSound) (ht : t ∈ r.types)
    (hplan : view.plan = Registration.tablePlan r.declarations t) (hlayout : view.layout = layout)
    (hrow : view.table.row? i = some row) (hread : RowHolds r t layout value o limit row)
    {p : Property} (hp : p ∈ t.properties) :
    o.bakedWith (o.readStruct limit) view i p.name = .ok (value p) := by
  unfold OpenContainer.bakedWith
  rw [hplan, hr.property?_of_mem ht hp]
  dsimp only
  rw [hrow]
  exact hread view hlayout p hp

/-- Without overrides a property has the value that its row holds. -/
theorem get_eq (hr : r.IsSound) (ht : t ∈ r.types) (hview : o.view t.name = .ok view)
    (hplan : view.plan = Registration.tablePlan r.declarations t) (hlayout : view.layout = layout)
    (hrow : view.table.row? i = some row)
    (hread : RowHolds r t layout value o o.nestingLimit row) (hoverrides : o.overrides = .empty)
    {p : Property} (hp : p ∈ t.properties) : o.get t.name i p.name = .ok (value p) := by
  unfold OpenContainer.get
  rw [hview, ok_bind]
  unfold OpenContainer.value
  rw [hoverrides]
  exact bakedWith_eq hr ht hplan hlayout hrow hread hp

/-- A sub-structure is read with the values of its properties. -/
theorem readStruct_eq (hr : r.IsSound) (ht : t ∈ r.types) (hview : o.view t.name = .ok view)
    (hplan : view.plan = Registration.tablePlan r.declarations t) (hlayout : view.layout = layout)
    (hshapes : ∀ p ∈ t.properties, p.shape ≠ .identifier) (hrow : view.table.row? i = some row)
    (hread : RowHolds r t layout value o limit row) :
    o.readStruct (limit + 1) t.name i =
      .ok (.struct (t.properties.map fun p => (p.name, value p))) := by
  have hstored : view.plan.properties.filter (fun q => !q.property.isIdentifier) =
      t.properties.map (PropertyPlan.ofProperty r.declarations t.name) := by
    rw [hplan]
    refine List.filter_eq_self.2 (List.forall_mem_map.2 fun p hp => ?_)
    rw [PropertyPlan.property_ofProperty]
    exact Bool.not_eq_true' _ ▸ beq_eq_false_iff_ne.2 (hshapes p hp)
  unfold OpenContainer.readStruct
  rw [hview, ok_bind]
  dsimp only
  rw [hstored]
  refine bind_eq_ok.2 ⟨_, mapM_eq_ok.2 ?_, rfl⟩
  rw [List.forall₂_map_left_iff, List.forall₂_map_right_iff, List.forall₂_same]
  intro p hp
  rw [PropertyPlan.property_ofProperty, bakedWith_eq hr ht hplan hlayout hrow hread hp]
  rfl

end Read

/-! ### Sub-structures -/

/-- **Sub-structures are read back** from the rows in which they are embedded. -/
theorem embeds_embedWithin (hr : r.IsSound) (fuel : Nat) :
    Embeds r c (embedWithin (.ofCatalog r c) fuel) fuel := by
  induction fuel with
  | zero =>
    intro target fields _ _ hdepth
    rw [Value.depth] at hdepth
    omega
  | succ fuel ih =>
    intro target fields hdeclared hv hdepth
    rw [Value.depth] at hdepth
    cases hv with
    | @struct _ t _ hfind hfields =>
      have ht : t ∈ r.types := List.mem_of_find?_eq_some hfind
      have hname := List.find?_some hfind
      obtain rfl : t.name = target := beq_iff_eq.1 hname
      have hkind : t.kind = .struct := by
        obtain ⟨u, hu, huname, hukind⟩ := hr.exists_struct hdeclared
        rw [List.inj_on_of_nodup_map hr.names ht hu huname.symm, hukind]
      have hshapes : ∀ p ∈ t.properties, p.shape ≠ .identifier :=
        fun p hp => hr.shape_ne_identifier ht hkind hp
      have hinstances : t.kind ≠ .interface := by rw [hkind]; decide
      obtain ⟨layout, hlayout, htable⟩ := hr.exists_tableOf ht hinstances
      have hrow := @lays_bakeRow _ c _ _ _ hr ht hinstances htable _
        (fun p => keptValue r (Value.field? fields p.name) p) fun p hp =>
          exists_lays_stage hr ih ht hp (hshapes p hp) fun v hv =>
            ⟨hfields p hp v hv, (Value.depth_le_of_field? hv).trans (by omega)⟩
      intro p
      obtain ⟨row, p', hrun, hgrows, -, hread⟩ := hrow p
      refine ⟨UInt32.ofNat (p'.rowsOf t.name).length, (p'.addRow t.name row).2, ?_,
        hgrows.trans (p'.grows_addRow _ _), trivial, fun o limit ho => ?_⟩
      · unfold embedWithin
        rw [registry_ofCatalog, htable]
        exact bind_eq_ok.2 ⟨_, hrun, rfl⟩
      · obtain ⟨-, -, hmem, hlname⟩ := tableOf_eq_ok htable
        obtain ⟨hlimit, final, hmade, hfinal⟩ := ho
        -- the row that was added leaves one more for what it holds
        have hcount : p'.rowCount r < limit := by
          refine Nat.lt_of_lt_of_le (Pools.rowCount_addRow hmem ?_ row) (hlname ▸ hlimit)
          intro u hu
          rw [hlname]
          exact Registry.name_ne_of_struct hr.names hu ht hkind
        obtain ⟨m, rfl⟩ : ∃ m, limit = m + 1 := ⟨limit - 1, by omega⟩
        have hserves : Serves r c p' o m :=
          ⟨by omega, final, hmade, (p'.grows_addRow _ _).trans hfinal⟩
        have hadded : (final.rowsOf t.name)[(p'.rowsOf t.name).length]? = some row := by
          have hrows := hfinal.rows t.name
          rw [Pools.rowsOf_addRow, if_pos rfl] at hrows
          exact getElem?_of_prefix hrows List.getElem?_concat_length
        have hfit := hmade.fit.rowsOf t.name
        refine ⟨(toNat_index ((List.getElem?_eq_some_iff.1 hadded).1.trans hfit)).2, ?_⟩
        rw [readStruct_eq hr ht (hmade.struct t ht hkind layout hlayout) rfl rfl hshapes
          (row?_tableOfRows ?_ (hmade.widthsFit layout hmem) (hfit.trans (by omega)) hadded)
          (hread o m hserves),
          Value.wire_struct hfind]
        · rfl
        · rw [← hlname]
          exact hmade.sized layout hmem

end Rows

end Container

end RecordTables
