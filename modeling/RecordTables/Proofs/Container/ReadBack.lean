import RecordTables.Exchange.Packing
import RecordTables.Proofs.Container.Embedding

/-!
# Baked records are read back

`Registration.bake_keeps`: the records of a catalog whose values are well typed are baked, and the
container opens under the same registry and holds what is kept of them (`OpenContainer.Keeps`).  A
table has a row for every record, in the order of the identifiers, with its GUID and its identifier;
a property is read as the value that is stored for it, in the form in which containers keep values,
or as its default.

The condition is that everything fits its place in a container (`Container.Fits`): texts, vectors
and rows are numbered, and lengths and sizes are written, with four bytes.
-/

namespace RecordTables

open Schema

namespace Container

/-! ### What is laid down -/

/-- The rows of the records of each type and the pools that baking leads to. -/
def laidDown (r : Registry) (c : Catalog) :
    Except ContainerError (List (String × List (List UInt8)) × Pools) :=
  (r.recordTypes.mapM fun t => bakeRecords (.ofCatalog r c) c t.name).run .empty

/-- The table of a layout. -/
def tableOfLayout (c : Catalog) (recordRows : List (String × List (List UInt8))) (p : Pools)
    (layout : TableLayout) : Table :=
  match recordRows.lookup layout.name with
  | some rows => tableOfRows layout rows ((rowOrder c layout.name).map (·.guid.text))
  | none => tableOfRows layout (p.rowsOf layout.name) []

/-- The container of what was laid down. -/
def ofLaidDown (r : Registry) (c : Catalog) (recordRows : List (String × List (List UInt8)))
    (p : Pools) : Container :=
  ⟨.ofFingerprint r.fingerprint, p.strings, p.vectors,
    r.layout.tables.map (tableOfLayout c recordRows p)⟩

theorem bake_of_laidDown {r : Registry} {c : Catalog} {p : Pools}
    {recordRows : List (String × List (List UInt8))} (h : laidDown r c = .ok (recordRows, p)) :
    bake r c = .ok (ofLaidDown r c recordRows p) :=
  bind_eq_ok.2 ⟨_, h, rfl⟩

/-- Everything that is numbered or measured in the container of a catalog fits its place. -/
structure Fits (r : Registry) (c : Catalog) : Prop where
  /-- There are fewer texts, vectors and rows of sub-structures than numbers for them. -/
  pools : ∀ recordRows p, laidDown r c = .ok (recordRows, p) → p.Fit
  /-- There are fewer records of a type than numbers for them. -/
  records : ∀ t ∈ r.recordTypes, (c.setOf t.name).records.length < 2 ^ 32 - 1
  /-- The size of a row has four bytes. -/
  widths : r.WidthsFit

/-! ### Rows of records -/

section Records

variable {r : Registry} {c : Catalog} {t : ResolvedType} {layout : TableLayout} {record : Record}

/-- What is read of a property of a record. -/
def recordValue (r : Registry) (record : Record) (p : Property) : Value :=
  if p.shape = .identifier then .text record.identifier
  else keptValue r (record.values.find? p.name) p

theorem lays_bakeRecord (hr : r.IsSound) (hc : c.WellTyped r) (ht : t ∈ r.recordTypes)
    (htable : tableOf r t.name = .ok (Registration.tablePlan r.declarations t, layout))
    (hrecord : record ∈ (c.setOf t.name).records) :
    Lays r c (bakeRecord (.ofCatalog r c) (Registration.tablePlan r.declarations t) layout record)
      (fun row => row.length = layout.rowSize) (RowHolds r t layout (recordValue r record)) := by
  obtain ⟨hmem, hkind⟩ := Registry.mem_recordTypes.1 ht
  refine lays_bakeRow hr hmem (Registry.kind_ne_interface ht) htable fun p hp => ?_
  have hid := hr.identifier t hmem p hp
  by_cases hshape : p.shape = .identifier
  · rw [registry_ofCatalog, if_pos (hid.1 hshape).2]
    refine ⟨_, rfl, ?_⟩
    unfold recordValue
    rw [if_pos hshape]
    obtain ⟨name, shape⟩ := p
    obtain rfl : shape = .identifier := hshape
    exact lays_stage_identifier _ _
  · rw [registry_ofCatalog, if_neg fun hname => hshape (hid.2 ⟨hkind, hname⟩)]
    unfold recordValue
    rw [if_neg hshape]
    refine exists_lays_stage hr (embeds_embedWithin hr _) hmem hp hshape fun v hv => ⟨?_, ?_⟩
    · refine hc t ht record hrecord p (List.mem_filter.2 ⟨hp, ?_⟩) v hv
      exact Bool.not_eq_true' _ ▸ beq_eq_false_iff_ne.2 hshape
    · exact Value.depth_le_of_field? hv

/-- What is known of the rows of a record type. -/
structure RowsOf (r : Registry) (c : Catalog) (t : ResolvedType)
    (baked : String × List (List UInt8)) : Prop where
  name : baked.1 = t.name
  length : baked.2.length = (rowOrder c t.name).length
  sizes : ∀ layout, r.layout.table? t.name = some layout →
    ∀ row ∈ baked.2, row.length = layout.rowSize

/-- The rows of a record type hold the values of its records. -/
theorem lays_bakeRecords (hr : r.IsSound) (hc : c.WellTyped r) (ht : t ∈ r.recordTypes) :
    Lays r c (bakeRecords (.ofCatalog r c) c t.name) (RowsOf r c t) fun o limit baked =>
      ∀ layout, r.layout.table? t.name = some layout →
        List.Forall₂ (fun record row => RowHolds r t layout (recordValue r record) o limit row)
          (rowOrder c t.name) baked.2 := by
  obtain ⟨hmem, -⟩ := Registry.mem_recordTypes.1 ht
  obtain ⟨layout, hlayout, htable⟩ := hr.exists_tableOf hmem (Registry.kind_ne_interface ht)
  have hrows := @lays_mapM _ _ r c _ _ _ (rowOrder c t.name) fun record hrecord =>
    lays_bakeRecord hr hc ht htable ((rowOrder_perm c t.name).mem_iff.1 hrecord)
  unfold bakeRecords
  refine Lays.bind (A := fun x => x = (Registration.tablePlan r.declarations t, layout))
    (B := fun _ _ _ => True) (lays_of_except htable rfl fun _ _ _ => trivial) ?_
  rintro _ rfl
  refine hrows.bind fun rows hsizes => ?_
  have hsame : ∀ layout', r.layout.table? t.name = some layout' → layout' = layout :=
    fun layout' hlayout' => Option.some.inj (hlayout'.symm.trans hlayout)
  refine lays_pure ?_ fun o limit _ hread _ layout' hlayout' => ?_
  · refine ⟨rfl, hsizes.length_eq.symm, fun layout' hlayout' row hrow => ?_⟩
    obtain ⟨_, _, hsize⟩ := exists_of_mem_forall₂ hsizes hrow
    rw [hsame layout' hlayout']
    exact hsize
  · rw [hsame layout' hlayout']
    exact hread

end Records

/-! ### The container -/

section Assembly

variable {r : Registry} {c : Catalog} {p : Pools} {layout : TableLayout} {t : ResolvedType}
  {recordRows : List (String × List (List UInt8))}

theorem lookup_of_forall₂ {types : List ResolvedType}
    (h : List.Forall₂ (fun t baked => RowsOf r c t baked) types recordRows)
    (hnames : (types.map (·.name)).Nodup) {baked : String × List (List UInt8)}
    (hmem : (t, baked) ∈ types.zip recordRows) : recordRows.lookup t.name = some baked.2 := by
  induction h with
  | nil => cases hmem
  | @cons first rows types recordRows hrows hothers ih =>
    rw [List.map_cons, List.nodup_cons] at hnames
    rw [List.lookup_cons, hrows.name]
    rw [List.zip_cons_cons, List.mem_cons] at hmem
    rcases hmem with hfirst | hmem
    · obtain ⟨rfl, rfl⟩ := Prod.mk.inj hfirst
      rw [beq_self_eq_true]
    · have hne : (t.name == first.name) = false := by
        refine beq_eq_false_iff_ne.2 fun hsame => hnames.1 ?_
        rw [← hsame]
        exact List.mem_map_of_mem (List.of_mem_zip hmem).1
      rw [hne]
      exact ih hnames.2 hmem

theorem lookup_eq_none {types : List ResolvedType} {name : String}
    (h : List.Forall₂ (fun t baked => RowsOf r c t baked) types recordRows)
    (hname : ∀ t ∈ types, t.name ≠ name) : recordRows.lookup name = none := by
  induction h with
  | nil => rfl
  | @cons first rows types recordRows hrows hothers ih =>
    have hne : (name == first.name) = false :=
      beq_eq_false_iff_ne.2 (hname first List.mem_cons_self).symm
    rw [List.lookup_cons, hrows.name, hne]
    exact ih fun t ht => hname t (List.mem_cons_of_mem _ ht)

theorem name_tableOfLayout (c : Catalog) (recordRows : List (String × List (List UInt8)))
    (p : Pools) (layout : TableLayout) : (tableOfLayout c recordRows p layout).name = layout.name := by
  unfold tableOfLayout
  split <;> rfl

/-- A table of the container is found by its name. -/
theorem table?_ofLaidDown (hr : r.IsSound) (hlayout : layout ∈ r.layout.tables) :
    (ofLaidDown r c recordRows p).table? layout.name = some (tableOfLayout c recordRows p layout) := by
  have hmem : tableOfLayout c recordRows p layout ∈ (ofLaidDown r c recordRows p).tables.reverse :=
    List.mem_reverse.2 (List.mem_map_of_mem hlayout)
  have hsome : ((ofLaidDown r c recordRows p).table? layout.name).isSome = true :=
    List.find?_isSome.2 ⟨_, hmem, beq_iff_eq.2 (name_tableOfLayout c recordRows p layout)⟩
  obtain ⟨found, hfound⟩ := Option.isSome_iff_exists.1 hsome
  obtain ⟨other, hother, rfl⟩ := List.mem_map.1
    (List.mem_reverse.1 (List.mem_of_find?_eq_some hfound))
  have hname := List.find?_some hfound
  rw [beq_iff_eq, name_tableOfLayout] at hname
  rw [hfound, List.inj_on_of_nodup_map hr.laidOut.layout.names hother hlayout hname]

theorem view_ofLaidDown (hr : r.IsSound) (ht : t ∈ r.types) (hkind : t.kind ≠ .interface)
    (hlayout : r.layout.table? t.name = some layout) :
    OpenContainer.view ⟨r, ofLaidDown r c recordRows p, .empty⟩ t.name =
      .ok ⟨tableOfLayout c recordRows p layout, Registration.tablePlan r.declarations t, layout⟩ := by
  have hname := List.find?_some hlayout
  have htable := @table?_ofLaidDown _ c p _ recordRows hr
    (List.mem_of_find?_eq_some hlayout)
  rw [beq_iff_eq.1 hname] at htable
  unfold OpenContainer.view
  rw [htable, hr.table?_of_mem ht hkind, hlayout]

theorem tableOfLayout_of_record (hr : r.IsSound)
    (hrows : List.Forall₂ (RowsOf r c) r.recordTypes recordRows)
    {baked : String × List (List UInt8)} (hmem : (t, baked) ∈ r.recordTypes.zip recordRows)
    (hname : layout.name = t.name) :
    tableOfLayout c recordRows p layout =
      tableOfRows layout baked.2 ((rowOrder c t.name).map (·.guid.text)) := by
  have hnames : (r.recordTypes.map (·.name)).Nodup :=
    (List.filter_sublist.map _).nodup hr.names
  unfold tableOfLayout
  rw [hname, lookup_of_forall₂ hrows hnames hmem]

theorem tableOfLayout_of_not_record
    (hrows : List.Forall₂ (RowsOf r c) r.recordTypes recordRows)
    (hname : ∀ t ∈ r.recordTypes, t.name ≠ layout.name) :
    tableOfLayout c recordRows p layout = tableOfRows layout (p.rowsOf layout.name) [] := by
  unfold tableOfLayout
  rw [lookup_eq_none hrows hname]

/-- A table has rows of one size, and not too many. -/
theorem exists_rows (hr : r.IsSound) (hrows : List.Forall₂ (RowsOf r c) r.recordTypes recordRows)
    (hsized : p.Sized r.layout) (hfit : p.Fit)
    (hrecords : ∀ t ∈ r.recordTypes, (c.setOf t.name).records.length < 2 ^ 32 - 1)
    (hlayout : layout ∈ r.layout.tables) :
    ∃ rows guids, tableOfLayout c recordRows p layout = tableOfRows layout rows guids ∧
      rows.length < 2 ^ 32 - 1 ∧ ∀ row ∈ rows, row.length = layout.rowSize := by
  by_cases hname : ∃ t ∈ r.recordTypes, t.name = layout.name
  · obtain ⟨t, ht, hname⟩ := hname
    obtain ⟨baked, hmem, hbaked⟩ := exists_mem_zip hrows ht
    refine ⟨_, _, tableOfLayout_of_record hr hrows hmem hname.symm, ?_, hbaked.sizes layout ?_⟩
    · rw [hbaked.length, (rowOrder_perm c t.name).length_eq]
      exact hrecords t ht
    · rw [hname]
      exact hr.laidOut.layout.table? hlayout
  · refine ⟨_, _, tableOfLayout_of_not_record hrows fun t ht hsame => hname ⟨t, ht, hsame⟩, ?_, ?_⟩
    · exact hfit.rowsOf layout.name
    · exact hsized layout hlayout

/-- Within the limit of nesting there is one sub-structure for every row. -/
theorem rowCount_le_nestingLimit (hrows : List.Forall₂ (RowsOf r c) r.recordTypes recordRows)
    (hfit : p.Fit) :
    p.rowCount r ≤ OpenContainer.nestingLimit ⟨r, ofLaidDown r c recordRows p, .empty⟩ := by
  show (r.layout.tables.map _).sum ≤ (r.layout.tables.map (tableOfLayout c recordRows p)).foldr _ 1
  induction r.layout.tables with
  | nil => exact Nat.zero_le 1
  | cons layout layouts ih =>
    rw [List.map_cons, List.sum_cons, List.map_cons, List.foldr_cons]
    refine Nat.add_le_add ?_ ih
    split_ifs with hrecord
    · exact Nat.zero_le _
    · have hname : ∀ t ∈ r.recordTypes, t.name ≠ layout.name := fun t ht hsame =>
        hrecord (List.any_eq_true.2 ⟨t, ht, beq_iff_eq.2 hsame⟩)
      rw [tableOfLayout_of_not_record hrows hname]
      exact Nat.le_of_eq (toNat_index (hfit.rowsOf layout.name)).1.symm

/-- The container is made from the pools. -/
theorem madeFrom_ofLaidDown (hr : r.IsSound)
    (hrows : List.Forall₂ (RowsOf r c) r.recordTypes recordRows) (hsized : p.Sized r.layout)
    (hfit : p.Fit) (hrecords : ∀ t ∈ r.recordTypes, (c.setOf t.name).records.length < 2 ^ 32 - 1)
    (hwidths : r.WidthsFit) :
    MadeFrom r c p ⟨r, ofLaidDown r c recordRows p, .empty⟩ where
  registry := rfl
  strings := rfl
  vectors := rfl
  record := by
    intro t ht
    obtain ⟨hmem, -⟩ := Registry.mem_recordTypes.1 ht
    have hkind := Registry.kind_ne_interface ht
    obtain ⟨layout, hlayout, -⟩ := hr.exists_tableOf hmem hkind
    obtain ⟨baked, hbaked, hbakedRows⟩ := exists_mem_zip hrows ht
    have hname := List.find?_some hlayout
    -- there are as many rows as records, and one number is left for none
    have hcount : baked.2.length < 2 ^ 32 - 1 := by
      rw [hbakedRows.length, (rowOrder_perm c t.name).length_eq]
      exact hrecords t ht
    refine ⟨_, view_ofLaidDown hr hmem hkind hlayout, ?_⟩
    rw [tableOfLayout_of_record hr hrows hbaked (beq_iff_eq.1 hname), ← hbakedRows.length]
    exact ⟨rfl, (toNat_index hcount).1⟩
  struct := by
    intro t ht hkind layout hlayout
    have hname := List.find?_some hlayout
    -- the table of a sub-structure is not that of a record type
    have hne : ∀ u ∈ r.recordTypes, u.name ≠ layout.name := by
      intro u hu
      rw [beq_iff_eq.1 hname]
      exact Registry.name_ne_of_struct hr.names hu ht hkind
    rw [view_ofLaidDown hr ht (by rw [hkind]; decide) hlayout,
      tableOfLayout_of_not_record hrows hne, beq_iff_eq.1 hname]
  fit := hfit
  rowsFit := by
    intro t ht
    rw [(rowOrder_perm c t.name).length_eq]
    exact hrecords t ht
  widthsFit := hwidths
  sized := hsized

theorem rowsFit_ofLaidDown (hr : r.IsSound)
    (hrows : List.Forall₂ (RowsOf r c) r.recordTypes recordRows) (hsized : p.Sized r.layout)
    (hfit : p.Fit) (hrecords : ∀ t ∈ r.recordTypes, (c.setOf t.name).records.length < 2 ^ 32 - 1)
    (hwidths : r.WidthsFit) : (ofLaidDown r c recordRows p).RowsFit := by
  intro table htable
  obtain ⟨layout, hlayout, rfl⟩ := List.mem_map.1 htable
  obtain ⟨rows, guids, htable, hcount, hsizes⟩ :=
    exists_rows hr hrows hsized hfit hrecords hlayout
  rw [htable]
  show rows.flatten.length ≤ (UInt32.ofNat layout.rowSize).toNat * (2 ^ 32 - 1)
  rw [UInt32.toNat_ofNat_of_lt' (hwidths layout hlayout), length_flatten_of_forall hsizes]
  exact Nat.mul_le_mul_left _ (Nat.le_of_lt hcount)

end Assembly

end Container

/-! ### What containers keep -/

open Container Baking

/-- An open container holds the records of a catalog. -/
structure OpenContainer.Keeps (o : OpenContainer) (r : Registry) (c : Catalog) : Prop where
  /-- The records of a type are in the order of their identifiers. -/
  order : ∀ t ∈ r.recordTypes, (rowOrder c t.name).Perm (c.setOf t.name).records ∧
    (rowOrder c t.name).Pairwise fun a b => a.identifier ≤ b.identifier
  /-- There is a row for every record, with its GUID. -/
  rows : ∀ t ∈ r.recordTypes, ∃ view, o.view t.name = .ok view ∧
    view.table.rowCount.toNat = (rowOrder c t.name).length ∧
    ∀ i record, (rowOrder c t.name)[i]? = some record →
      view.guid? (UInt32.ofNat i) = some record.guid
  /-- The identifier of a record is read back. -/
  identifier : ∀ t ∈ r.recordTypes, ∀ i record, (rowOrder c t.name)[i]? = some record →
    o.get t.name (UInt32.ofNat i) r.identifierProperty = .ok (.text record.identifier)
  /-- The value that is stored for a property is read back, or the default of the property. -/
  values : ∀ t ∈ r.recordTypes, ∀ i record, (rowOrder c t.name)[i]? = some record →
    ∀ p ∈ t.valueProperties, o.get t.name (UInt32.ofNat i) p.name =
      .ok (((record.values.find? p.name).map fun v => v.wire r p.shape).getD (r.defaultValue p))

namespace Container

variable {r : Registry} {c : Catalog} {p : Pools} {recordRows : List (String × List (List UInt8))}

theorem exists_getElem?_of_forall₂ {α β : Type} {R : α → β → Prop} {xs : List α} {ys : List β}
    {x : α} {i : Nat} (h : List.Forall₂ R xs ys) (hx : xs[i]? = some x) :
    ∃ y, ys[i]? = some y ∧ R x y := by
  induction h generalizing i with
  | nil => cases hx
  | cons hy _ ih =>
    cases i with
    | zero => exact ⟨_, rfl, Option.some.inj hx ▸ hy⟩
    | succ i => exact ih hx

/-- A container holds the records if their rows hold the values. -/
theorem keeps_ofLaidDown (hr : r.IsSound)
    (hrows : List.Forall₂ (RowsOf r c) r.recordTypes recordRows)
    (hmade : MadeFrom r c p ⟨r, ofLaidDown r c recordRows p, .empty⟩)
    (hread : List.Forall₂ (fun t baked => ∀ layout, r.layout.table? t.name = some layout →
      List.Forall₂ (fun record row => RowHolds r t layout (recordValue r record)
        ⟨r, ofLaidDown r c recordRows p, .empty⟩
        (OpenContainer.nestingLimit ⟨r, ofLaidDown r c recordRows p, .empty⟩) row)
        (rowOrder c t.name) baked.2) r.recordTypes recordRows) :
    OpenContainer.Keeps ⟨r, ofLaidDown r c recordRows p, .empty⟩ r c := by
  -- every property of a record is read from the row that was laid down for it
  have hget : ∀ t ∈ r.recordTypes, ∀ i record, (rowOrder c t.name)[i]? = some record →
      ∀ q ∈ t.properties, OpenContainer.get ⟨r, ofLaidDown r c recordRows p, .empty⟩ t.name
        (UInt32.ofNat i) q.name = .ok (recordValue r record q) := by
    intro t ht i record hrecord q hq
    obtain ⟨hmem, -⟩ := Registry.mem_recordTypes.1 ht
    have hkind := Registry.kind_ne_interface ht
    obtain ⟨layout, hlayout, -⟩ := hr.exists_tableOf hmem hkind
    have hname := List.find?_some hlayout
    obtain ⟨baked, hbaked, hbakedRows⟩ := exists_mem_zip hrows ht
    obtain ⟨row, hrow, hholds⟩ :=
      exists_getElem?_of_forall₂ (List.forall₂_zip hread hbaked layout hlayout) hrecord
    refine get_eq hr hmem (view_ofLaidDown hr hmem hkind hlayout) rfl rfl ?_ hholds rfl hq
    rw [tableOfLayout_of_record hr hrows hbaked (beq_iff_eq.1 hname)]
    refine row?_tableOfRows (hbakedRows.sizes layout hlayout)
      (hmade.widthsFit layout (List.mem_of_find?_eq_some hlayout)) ?_ hrow
    rw [hbakedRows.length]
    exact (hmade.rowsFit t ht).trans (by omega)
  constructor
  case order =>
    exact fun t _ => ⟨rowOrder_perm c t.name, sorted_rowOrder c t.name⟩
  case rows =>
    intro t ht
    obtain ⟨view, hview, hguids, hcount⟩ := hmade.record t ht
    refine ⟨view, hview, hcount, fun i record hrecord => ?_⟩
    have hlt := (List.getElem?_eq_some_iff.1 hrecord).1.trans (hmade.rowsFit t ht)
    unfold TableView.guid?
    rw [(toNat_index hlt).1, hguids, List.getElem?_map, hrecord]
    rfl
  case identifier =>
    intro t ht i record hrecord
    obtain ⟨hmem, hkind⟩ := Registry.mem_recordTypes.1 ht
    obtain ⟨q, hq, hshape⟩ := hr.hasIdentifier t hmem hkind
    have hvalue := hget t ht i record hrecord q hq
    rw [((hr.identifier t hmem q hq).1 hshape).2] at hvalue
    rw [hvalue]
    exact congrArg Except.ok (if_pos hshape)
  case values =>
    intro t ht i record hrecord q hq
    obtain ⟨hmem, hvalued⟩ := List.mem_filter.1 hq
    rw [hget t ht i record hrecord q hmem]
    refine congrArg Except.ok (if_neg fun hshape => ?_)
    rw [Property.isIdentifier, hshape] at hvalued
    exact absurd hvalued (by decide)

end Container

namespace Registration

variable {reg : Registration} {options : Options} {r : Registry} {c : Catalog}

/-- **Baked records are read back.** -/
theorem bake_keeps (hreg : reg.IsRegistered) (h : reg.build options = .ok r) (hc : c.WellTyped r)
    (packing : Packing) :
    ∃ k, bake r c = .ok k ∧ (Fits r c →
      OpenContainer.ofPacked packing r (packing.pack k) = .ok ⟨r, k, .empty⟩ ∧
        OpenContainer.Keeps ⟨r, k, .empty⟩ r c) := by
  have hr := isSound_of_build hreg h
  obtain ⟨recordRows, p, hrun, -, hrows, hread⟩ :=
    lays_mapM (fun t ht => lays_bakeRecords (c := c) hr hc ht) .empty
  have hsized : p.Sized r.layout := by
    have hkept := Pools.isKept_sized hr.laidOut.layout
    have hensures : Ensures (Pools.Sized r.layout)
        (r.recordTypes.mapM fun t => bakeRecords (.ofCatalog r c) c t.name) fun _ => True :=
      (ensures_mapM fun t _ => bakeRecords_ensures hkept hr.laidOut rfl c t.name).mono
        fun _ _ => trivial
    exact (hensures _ _ _ hrun (Pools.sized_empty _)).1
  have hbake := bake_of_laidDown hrun
  refine ⟨_, hbake, fun hfits => ?_⟩
  have hfit := hfits.pools _ _ hrun
  have hrowsFit := rowsFit_ofLaidDown hr hrows hsized hfit hfits.records hfits.widths
  have hmade := madeFrom_ofLaidDown hr hrows hsized hfit hfits.records hfits.widths
  refine ⟨OpenContainer.ofPacked_bake packing hr.laidOut hfits.widths hbake hrowsFit, ?_⟩
  exact keeps_ofLaidDown hr hrows hmade
    (hread _ _ ⟨rowCount_le_nestingLimit hrows hfit, p, hmade, .refl p⟩)

/-! ### A potion -/

/-- Potions, their doses and their grades. -/
def potionTypes : Registration :=
  ((Registration.empty.addEnum ⟨"Grade", .u8, [⟨"Plain", 0⟩, ⟨"Base", 0⟩]⟩).addType
    ⟨"Dose", .struct, [], [⟨"Drops", "int", false⟩, ⟨"Note", "string", false⟩]⟩).addType
    ⟨"Potion", .record, [], [⟨"Grade", "Grade", false⟩, ⟨"Dose", "Dose", false⟩,
      ⟨"Cures", "Potion", true⟩, ⟨"Spots", "Vector2", true⟩]⟩

/-- The registry of the potions. -/
def potionRegistry : Registry :=
  let dose : ResolvedType := ⟨"Dose", .struct,
    [⟨"Drops", "int", false⟩, ⟨"Note", "string", false⟩],
    [⟨"Drops", .single (.scalar .i32)⟩, ⟨"Note", .single .string⟩]⟩
  let potion : ResolvedType := ⟨"Potion", .record,
    [⟨"Identifier", "string", false⟩, ⟨"Grade", "Grade", false⟩, ⟨"Dose", "Dose", false⟩,
      ⟨"Cures", "Potion", true⟩, ⟨"Spots", "Vector2", true⟩],
    [⟨"Identifier", .identifier⟩, ⟨"Grade", .single (.enum "Grade")⟩,
      ⟨"Dose", .single (.embedded "Dose")⟩, ⟨"Cures", .list (.recordRef "Potion")⟩,
      ⟨"Spots", .list (.composite .vector2)⟩]⟩
  let plans := [dose, potion].map (tablePlan potionTypes.declarations)
  { options := .standard
    declarations := potionTypes.declarations
    types := [dose, potion]
    tables := plans
    layout := ⟨plans.map fun plan =>
      ⟨plan.table, plan.kind == .record, plan.properties.flatMap (·.fields)⟩⟩
    fingerprint := ⟨0x1fed03fba4ef4130⟩ }

/-- A potion that cures itself; there is no note about its dose. -/
def tonic : Record :=
  ⟨⟨"g1"⟩, "Tonic", "", none, .ofList [("Grade", .enum "Base"),
    ("Dose", .struct [("Drops", .scalar (.i32 3))]), ("Cures", .list [.ref (some ⟨"g1"⟩)]),
    ("Spots", .list [.composite [.f32 .one, .f32 .zero]])]⟩

/-- The potions. -/
def potions : Catalog := .ofList [("Potion", .ofList "Potion" [tonic])]

set_option maxRecDepth 20000 in
theorem build_potionTypes : potionTypes.build .standard = .ok potionRegistry := by cbv

theorem wellTyped_potions : potions.WellTyped potionRegistry := by
  intro t ht record hrecord p hp v hv
  obtain rfl := List.mem_singleton.1 ht
  obtain rfl : record = tonic := List.mem_singleton.1 hrecord
  rcases List.mem_cons.1 hp with rfl | hp
  · obtain rfl : Value.enum "Base" = v := Option.some.inj hv
    exact .enum rfl (by decide)
  rcases List.mem_cons.1 hp with rfl | hp
  · obtain rfl : Value.struct [("Drops", .scalar (.i32 3))] = v := Option.some.inj hv
    refine .struct rfl fun q hq w hw => ?_
    rcases List.mem_cons.1 hq with rfl | hq
    · obtain rfl : Value.scalar (.i32 3) = w := Option.some.inj hw
      exact .scalar (.i32 3)
    · obtain rfl := List.mem_singleton.1 hq
      cases hw
  rcases List.mem_cons.1 hp with rfl | hp
  · obtain rfl : Value.list [.ref (some ⟨"g1"⟩)] = v := Option.some.inj hv
    refine .list (List.forall_mem_singleton.2 ?_)
    have htonic : tonic ∈ (potions.setOf "Potion").records := List.mem_singleton_self _
    exact .ref htonic
  · obtain rfl := List.mem_singleton.1 hp
    obtain rfl : Value.list [.composite [.f32 .one, .f32 .zero]] = v := Option.some.inj hv
    refine .list (List.forall_mem_singleton.2 ?_)
    exact .composite rfl (by decide)

theorem fits_potions : Fits potionRegistry potions where
  pools := by
    have hall : (laidDown potionRegistry potions).toOption.all (fun x => decide x.2.Fit) = true := by
      decide +kernel
    intro recordRows p hp
    rw [hp] at hall
    exact of_decide_eq_true hall
  records := by
    intro t ht
    obtain rfl := List.mem_singleton.1 ht
    decide
  widths := by
    unfold Registry.WidthsFit
    decide

/-- The grade of the potion has become the first of its number, and its dose has a note. -/
theorem bake_keeps_potions :
    potionTypes.IsRegistered ∧ potionTypes.build .standard = .ok potionRegistry ∧
      potions.WellTyped potionRegistry ∧
      ∃ k, bake potionRegistry potions = .ok k ∧ Fits potionRegistry potions ∧
        OpenContainer.ofPacked .plain potionRegistry (Packing.plain.pack k) =
          .ok ⟨potionRegistry, k, .empty⟩ ∧
        OpenContainer.Keeps ⟨potionRegistry, k, .empty⟩ potionRegistry potions ∧
        tonic.values.find? "Grade" = some (.enum "Base") ∧
        OpenContainer.get ⟨potionRegistry, k, .empty⟩ "Potion" 0 "Grade" = .ok (.enum "Plain") ∧
        OpenContainer.get ⟨potionRegistry, k, .empty⟩ "Potion" 0 "Dose" =
          .ok (.struct [("Drops", .scalar (.i32 3)), ("Note", .text "")]) := by
  have hreg : potionTypes.IsRegistered := .addType _ (.addType _ (.addEnum _ .empty))
  obtain ⟨k, hk, hkeeps⟩ := bake_keeps hreg build_potionTypes wellTyped_potions .plain
  obtain ⟨hopen, hall⟩ := hkeeps fits_potions
  have horder : rowOrder potions "Potion" = [tonic] :=
    List.perm_singleton.1 (rowOrder_perm potions "Potion")
  have hget := hall.values _ (List.mem_singleton_self _) 0 tonic (by
    rw [show rowOrder potions _ = _ from horder]
    rfl)
  exact ⟨hreg, build_potionTypes, wellTyped_potions, k, hk, fits_potions, hopen, hall, rfl,
    hget _ List.mem_cons_self, hget _ (List.mem_cons_of_mem _ List.mem_cons_self)⟩

end Registration

end RecordTables
