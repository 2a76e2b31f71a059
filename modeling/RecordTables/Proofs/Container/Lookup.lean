import RecordTables.Exchange.Packing
import RecordTables.Proofs.Container.Compatibility
import RecordTables.Proofs.Container.Known
import RecordTables.Proofs.Container.Remains

/-!
# Records are found by their identifiers

`Registration.find_exact`: in every container that was baked and opened, looking for an identifier
gives a row with that identifier if there is a record of it, and nothing otherwise; it never fails,
and overrides do not change it.  The values of the records may be of any type, as long as they are
baked.

The rows of a table are in the order of the identifiers, and each of them reads back as the one of
its record (`Container.exists_named_view`).  The search keeps what it looks for between its bounds
(`Container.Encloses`), and halves what lies between them.
-/

namespace RecordTables

open Schema

namespace Container

/-! ### Halving a sorted list -/

/-- What stands before `low` is smaller than the text, and what stands from `high` on is greater. -/
structure Encloses (names : List String) (s : String) (low high : Nat) : Prop where
  le_length : high ≤ names.length
  before : ∀ i (h : i < names.length), i < low → names[i] < s
  behind : ∀ i (h : i < names.length), high ≤ i → s < names[i]

section Encloses

variable {names : List String} {s : String} {low mid high : Nat}

theorem encloses_all (names : List String) (s : String) : Encloses names s 0 names.length where
  le_length := Nat.le_refl _
  before := fun _ _ hi => absurd hi (Nat.not_lt_zero _)
  behind := fun _ h hi => absurd h (Nat.not_lt.2 hi)

theorem getElem_le_getElem (hsorted : names.Pairwise (· ≤ ·)) {i j : Nat} (hj : j < names.length)
    (hij : i ≤ j) : names[i] ≤ names[j] := by
  rcases Nat.lt_or_eq_of_le hij with hlt | rfl
  · exact List.pairwise_iff_getElem.1 hsorted i j (by omega) hj hlt
  · exact le_refl _

theorem Encloses.above (h : Encloses names s low high) (hsorted : names.Pairwise (· ≤ ·))
    (hmid : mid < names.length) (hlt : names[mid] < s) : Encloses names s (mid + 1) high where
  le_length := h.le_length
  before := fun _ _ hi => (getElem_le_getElem hsorted hmid (Nat.le_of_lt_succ hi)).trans_lt hlt
  behind := h.behind

theorem Encloses.below (h : Encloses names s low high) (hsorted : names.Pairwise (· ≤ ·))
    (hmid : mid < names.length) (hlt : s < names[mid]) : Encloses names s low mid where
  le_length := Nat.le_of_lt hmid
  before := h.before
  behind := fun _ hi hle => hlt.trans_le (getElem_le_getElem hsorted hi hle)

/-- If nothing is left between the bounds, the text is not there. -/
theorem Encloses.notMem (h : Encloses names s low high) (hle : high ≤ low) : s ∉ names := by
  intro hmem
  obtain ⟨i, hi, rfl⟩ := List.mem_iff_getElem.1 hmem
  rcases Nat.lt_or_ge i low with hlow | hlow
  · exact lt_irrefl _ (h.before i hi hlow)
  · exact lt_irrefl _ (h.behind i hi (hle.trans hlow))

end Encloses

end Container

namespace OpenContainer

open Container

variable {o : OpenContainer} {view : TableView} {names : List String} {s : String} {low high : Nat}

theorem name_of_view {name : String} (h : o.view name = .ok view) : view.table.name = name := by
  unfold OpenContainer.view at h
  split at h
  · next table plan layout htable _ _ =>
    have hname := List.find?_some htable
    rw [← Except.ok.inj h]
    exact beq_iff_eq.1 hname
  · cases h

/-- The search ends at a row of the text, or after having seen that there is none. -/
theorem findBetween_spec (hsorted : names.Pairwise (· ≤ ·))
    (hread : ∀ i (h : i < names.length),
      o.baked view (UInt32.ofNat i) o.registry.identifierProperty = .ok (.text names[i]))
    (hbounds : Encloses names s low high) :
    (∃ i, ∃ h : i < names.length, names[i] = s ∧
      o.findBetween view s low high = .ok (some (UInt32.ofNat i))) ∨
    (s ∉ names ∧ o.findBetween view s low high = .ok none) := by
  -- on what lies between the bounds; each step keeps `Encloses` and leaves less
  induction hn : high - low using Nat.strong_induction_on generalizing low high with
  | _ n ih =>
    unfold findBetween
    split_ifs with hlow
    · have hmid : low + (high - low) / 2 < names.length := by
        have := hbounds.le_length
        omega
      dsimp only
      rw [hread _ hmid]
      dsimp only
      split_ifs with heq hlt
      · exact Or.inl ⟨_, hmid, heq, rfl⟩
      · exact ih _ (by omega) (hbounds.above hsorted hmid hlt) rfl
      · have hgt : s < names[low + (high - low) / 2] :=
          lt_of_le_of_ne (not_lt.1 hlt) (Ne.symm heq)
        exact ih _ (by omega) (hbounds.below hsorted hmid hgt) rfl
    · exact Or.inr ⟨hbounds.notMem (Nat.le_of_not_lt hlow), rfl⟩

/-- Looking for an identifier in a table gives a row of it exactly if one of the records has it. -/
structure FindsExactly (o : OpenContainer) (view : TableView) (records : List Record) : Prop where
  found : ∀ record ∈ records, ∃ row, o.find view record.identifier = .ok (some row) ∧
    row < view.table.rowCount ∧
    o.baked view row o.registry.identifierProperty = .ok (.text record.identifier)
  absent : ∀ s, (∀ record ∈ records, record.identifier ≠ s) → o.find view s = .ok none

/-- What is found under one registry is found under another that stores alike. -/
theorem FindsExactly.alike {o' : OpenContainer} {records : List Record} {name : String}
    (h : o.FindsExactly view records) (halike : o.Alike o')
    (hidentifier : o.registry.identifierProperty = o'.registry.identifierProperty)
    (hview : o.view name = .ok view) :
    ∃ view', o'.view name = .ok view' ∧ o'.FindsExactly view' records := by
  obtain ⟨e, hnone, -⟩ | ⟨t, t', hone, hother, ht, hplan, -⟩ := view_alike halike name
  · rw [hview] at hnone
    cases hnone
  obtain rfl : view = t := Except.ok.inj (hview.symm.trans hone)
  have hmem : view.plan ∈ o.registry.tables := List.mem_of_find?_eq_some hplan
  refine ⟨t', hother, ⟨fun record hrecord => ?_, fun s hs => ?_⟩⟩
  · obtain ⟨row, hfind, hrow, hbaked⟩ := h.found record hrecord
    refine ⟨row, ?_, ?_, ?_⟩
    · rw [← find_alike halike hidentifier ht hmem]
      exact hfind
    · rw [← ht.table]
      exact hrow
    · rw [← baked_alike halike ht hmem, ← hidentifier]
      exact hbaked
  · rw [← find_alike halike hidentifier ht hmem]
    exact h.absent s hs

/-- Identifiers are found if they are read back from rows in their order. -/
theorem findsExactly_of_read {records rows : List Record} (hperm : rows.Perm records)
    (hsorted : rows.Pairwise fun a b => a.identifier ≤ b.identifier)
    (hcount : view.table.rowCount.toNat = rows.length)
    (hread : ∀ i record, rows[i]? = some record →
      o.baked view (UInt32.ofNat i) o.registry.identifierProperty = .ok (.text record.identifier)) :
    o.FindsExactly view records := by
  have hnames : (rows.map (·.identifier)).Pairwise (· ≤ ·) := List.pairwise_map.2 hsorted
  have hlength : view.table.rowCount.toNat = (rows.map (·.identifier)).length := by
    rw [hcount, List.length_map]
  have hbaked : ∀ i (h : i < (rows.map (·.identifier)).length),
      o.baked view (UInt32.ofNat i) o.registry.identifierProperty =
        .ok (.text (rows.map (·.identifier))[i]) := by
    intro i h
    rw [List.length_map] at h
    rw [hread i _ (List.getElem?_eq_getElem h), List.getElem_map]
  -- the search sees the identifiers in their order
  have hspec := fun s => findBetween_spec hnames hbaked (encloses_all _ s)
  constructor
  case found =>
    intro record hrecord
    have hmem : record.identifier ∈ rows.map (·.identifier) :=
      List.mem_map_of_mem (hperm.mem_iff.2 hrecord)
    rcases hspec record.identifier with ⟨i, hi, hname, hfind⟩ | ⟨hnone, -⟩
    · refine ⟨UInt32.ofNat i, ?_, ?_, ?_⟩
      · unfold find
        rw [hlength, hfind]
      · have hlt : i < view.table.rowCount.toNat := by rw [hlength]; exact hi
        rw [UInt32.lt_iff_toNat_lt, UInt32.toNat_ofNat_of_lt' (hlt.trans (UInt32.toNat_lt _))]
        exact hlt
      · rw [hbaked i hi, hname]
    · exact absurd hmem hnone
  case absent =>
    intro s hs
    rcases hspec s with ⟨i, hi, hname, -⟩ | ⟨-, hfind⟩
    · rw [List.length_map] at hi
      rw [List.getElem_map] at hname
      exact absurd hname (hs _ (hperm.mem_iff.1 (List.getElem_mem hi)))
    · unfold find
      rw [hlength, hfind]

end OpenContainer

namespace Container

open OpenContainer

variable {r : Registry} {c : Catalog} {k : Container} {o : OpenContainer} {t : ResolvedType}
  {layout : TableLayout} {p : Property}

/-! ### Identifiers are read back -/

/-- The text whose number stands in the slot of an identifier is read. -/
theorem readProperty_identifier {final : Pools} (hpools : o.container.strings = final.strings)
    (hstrings : final.strings.length < 2 ^ 32) {s : String} {row : List UInt8}
    (hshape : p.shape = .identifier)
    (hrow : RowKeeps r t layout (StagesIdentifier s final) row) {view : TableView}
    (hview : view.layout = layout) (hp : p ∈ t.properties)
    (nested : String → UInt32 → Except ContainerError Value) :
    o.readProperty nested view (.ofProperty r.declarations t.name p) row = .ok (.text s) := by
  obtain ⟨staged, hholds, hstaged⟩ := hrow view hview p hp
  obtain ⟨n, rfl, hs⟩ := hstaged hshape
  obtain ⟨name, shape⟩ := p
  obtain rfl : shape = .identifier := hshape
  have hlt : n < 2 ^ 32 - 1 := by
    have := (List.getElem?_eq_some_iff.1 hs).1
    omega
  obtain ⟨hnat, hnull⟩ := toNat_index hlt
  have hread :
      o.readProperty nested view (.ofProperty r.declarations t.name ⟨name, .identifier⟩) row =
        (view.slotIndex row _ >>= o.textValue) := rfl
  rw [hread, slotIndex_of_holds hholds, ok_bind]
  unfold textValue OpenContainer.string
  rw [if_neg hnull, hnat, hpools, hs]
  rfl

/-- A row of a record type has room for the number of its identifier. -/
theorem rowSize_pos (hr : r.IsSound)
    (htable : tableOf r t.name = .ok (Registration.tablePlan r.declarations t, layout))
    (hp : p ∈ t.properties) (hshape : p.shape = .identifier) : 0 < layout.rowSize := by
  obtain ⟨name, shape⟩ := p
  obtain rfl : shape = .identifier := hshape
  have hplan : PropertyPlan.ofProperty r.declarations t.name ⟨name, .identifier⟩ ∈
      (Registration.tablePlan r.declarations t).properties := List.mem_map_of_mem hp
  obtain ⟨start, -, hle⟩ := hasSlot_of_mem_fields hr.laidOut htable hplan List.mem_cons_self
  have hwidth : 0 < indexWidth := by decide
  have hslot := @slotWidth_of_mem_fields r.declarations t.name ⟨name, .identifier⟩ _
    List.mem_cons_self
  rw [hslot] at hle
  exact (Nat.lt_of_lt_of_le hwidth (Nat.le_add_left _ _)).trans_le hle

/-- The rows of a table that was checked are numbered with four bytes. -/
theorem lt_of_check {rows : List (List UInt8)} {guids : List String}
    (hlayout : r.layout.table? layout.name = some layout)
    (hsizes : ∀ row ∈ rows, row.length = layout.rowSize) (hpos : 0 < layout.rowSize)
    (hcheck : (tableOfRows layout rows guids).check r = .ok ()) :
    layout.rowSize < 2 ^ 32 ∧ rows.length < 2 ^ 32 := by
  unfold Table.check tableOfRows at hcheck
  dsimp only at hcheck
  rw [hlayout] at hcheck
  dsimp only at hcheck
  split_ifs at hcheck with hsame
  obtain ⟨hwidth, hlength⟩ := hsame
  have hcount : rows.length = (UInt32.ofNat rows.length).toNat := by
    rw [← hwidth, length_flatten_of_forall hsizes] at hlength
    exact Nat.eq_of_mul_eq_mul_left hpos hlength
  exact ⟨hwidth ▸ UInt32.toNat_lt _, hcount ▸ UInt32.toNat_lt _⟩

/-- **A table of records** has a row for each of them, from which its identifier is read. -/
theorem exists_named_view (hr : r.IsSound) (hbake : bake r c = .ok k)
    (hopen : OpenContainer.ofContainer r k = .ok o) (hstrings : k.strings.length < 2 ^ 32)
    (ht : t ∈ r.recordTypes) :
    ∃ view, o.view t.name = .ok view ∧
      view.table.rowCount.toNat = (rowOrder c t.name).length ∧
      ∀ i record, (rowOrder c t.name)[i]? = some record → ∀ nested,
        o.bakedWith nested view (UInt32.ofNat i) r.identifierProperty =
          .ok (.text record.identifier) := by
  obtain ⟨hmem, hkind⟩ := Registry.mem_recordTypes.1 ht
  have hinstances := Registry.kind_ne_interface ht
  obtain ⟨layout, hlayout, htable⟩ := hr.exists_tableOf hmem hinstances
  obtain ⟨q, hq, hshape⟩ := hr.hasIdentifier t hmem hkind
  have hname : q.name = r.identifierProperty := ((hr.identifier t hmem q hq).1 hshape).2
  -- what was laid down holds the numbers of the identifiers
  obtain ⟨⟨recordRows, p⟩, hlaid, -⟩ := bind_eq_ok.1 hbake
  obtain rfl := Except.ok.inj (hbake.symm.trans (bake_of_laidDown hlaid))
  obtain ⟨-, hrows, hnames⟩ := (Baking.leaves_mapM fun t ht => leaves_bakeRecords (c := c) hr ht)
    .empty _ _ hlaid
  obtain ⟨baked, hbaked, hbakedRows⟩ := exists_mem_zip hrows ht
  have hrowNames := List.forall₂_zip (hnames p (.refl p)) hbaked layout hlayout
  -- the sizes were checked when the container was opened, so the rows can be numbered
  obtain ⟨rfl, hchecked⟩ := ofContainer_eq_ok hopen
  obtain ⟨-, -, hlayoutMem, hlayoutName⟩ := tableOf_eq_ok htable
  have hsizes := hbakedRows.sizes layout hlayout
  have hcheck := hchecked _ (List.mem_map_of_mem (f := tableOfLayout c recordRows p) hlayoutMem)
  have hview := @view_ofLaidDown _ c p layout _ recordRows hr hmem hinstances hlayout
  rw [tableOfLayout_of_record hr hrows hbaked hlayoutName] at hcheck hview
  obtain ⟨hwidth, hfits⟩ := lt_of_check (hr.laidOut.layout.table? hlayoutMem) hsizes
    (rowSize_pos hr htable hq hshape) hcheck
  have hcount : (UInt32.ofNat baked.2.length).toNat = baked.2.length :=
    UInt32.toNat_ofNat_of_lt' hfits
  refine ⟨_, hview, hcount.trans hbakedRows.length, fun i record hrecord nested => ?_⟩
  obtain ⟨row, hrow, hholds⟩ := exists_getElem?_of_forall₂ hrowNames hrecord
  -- the search reads the property of the identifier from the row at its place in the order
  unfold bakedWith
  rw [← hname, hr.property?_of_mem hmem hq]
  dsimp only
  rw [row?_tableOfRows hsizes hwidth hfits hrow]
  exact readProperty_identifier rfl hstrings hshape hholds rfl hq nested

end Container

namespace Registration

open Container

variable {reg : Registration} {options : Options} {r : Registry} {c : Catalog} {k : Container}
  {r' : Registry} {o : OpenContainer} {t : ResolvedType}

/-- **Looking for an identifier is exact** in every container that was baked, for texts that can be
numbered with four bytes.  The container may be open under any registry that stores alike and has the
same identifier property. -/
theorem find_exact (hreg : reg.IsRegistered) (h : reg.build options = .ok r)
    (hbake : bake r c = .ok k) (hstrings : k.strings.length < 2 ^ 32) (halike : r.StoresAlike r')
    (hidentifier : r.identifierProperty = r'.identifierProperty) (packing : Packing)
    (hopen : OpenContainer.ofPacked packing r' (packing.pack k) = .ok o) (overrides : Overrides)
    (ht : t ∈ r.recordTypes) :
    ∃ view, OpenContainer.view { o with overrides } t.name = .ok view ∧
      OpenContainer.FindsExactly { o with overrides } view (c.setOf t.name).records := by
  have hr := isSound_of_build hreg h
  -- the container opens under its own registry too, where its rows are known
  rw [OpenContainer.ofPacked_alike packing halike, OpenContainer.ofPacked_pack] at hopen
  obtain ⟨o₀, hown, rfl⟩ := map_eq_ok.1 hopen
  obtain ⟨view, hview, hcount, hread⟩ := exists_named_view hr hbake hown hstrings ht
  obtain ⟨rfl, -⟩ := OpenContainer.ofContainer_eq_ok hown
  have hfinds : OpenContainer.FindsExactly ⟨r, k, overrides⟩ view (c.setOf t.name).records :=
    OpenContainer.findsExactly_of_read (rowOrder_perm c t.name) (sorted_rowOrder c t.name) hcount
      fun i record hrecord => hread i record hrecord _
  exact hfinds.alike ⟨halike, rfl, rfl⟩ hidentifier hview

/-! ### Brews under another name -/

/-- The tonic, and a potion whose values are not of the types of their properties. -/
def brews : Catalog := .ofList [("Potion", .ofList "Potion" [tonic, { brew with guid := ⟨"g2"⟩ }])]

/-- The brew stands in the first row; there it is shown under another name. -/
def renamedBrew : Overrides := Overrides.empty.set ⟨"Potion", 0, "Identifier"⟩ (.text "Swig")

set_option maxRecDepth 20000 in
/-- The brew is found under the name that it was baked with, and not under the one that is shown. -/
theorem find_exact_brews :
    potionTypes.IsRegistered ∧ potionTypes.build .standard = .ok potionRegistry ∧
      ¬brews.WellTyped potionRegistry ∧
      ∃ k o view, bake potionRegistry brews = .ok k ∧ k.strings.length < 2 ^ 32 ∧
        OpenContainer.ofPacked .plain potionRegistry (Packing.plain.pack k) = .ok o ∧
        OpenContainer.view { o with overrides := renamedBrew } "Potion" = .ok view ∧
        OpenContainer.FindsExactly { o with overrides := renamedBrew } view
          (brews.setOf "Potion").records ∧
        OpenContainer.value { o with overrides := renamedBrew } view 0 "Identifier" =
          .ok (.text "Swig") ∧
        OpenContainer.find { o with overrides := renamedBrew } view "Swig" = .ok none := by
  have hreg : potionTypes.IsRegistered := .addType _ (.addType _ (.addEnum _ .empty))
  have hall : (bake potionRegistry brews).toOption.any (fun k =>
      decide (k.strings.length < 2 ^ 32) &&
      k.tables.all fun t => decide (t.bytes.length ≤ t.rowSize.toNat * (2 ^ 32 - 1))) = true := by
    cbv
  cases hbake : bake potionRegistry brews with
  | error e =>
    rw [hbake] at hall
    cases hall
  | ok k =>
    rw [hbake] at hall
    obtain ⟨hfits, hrows⟩ := Bool.and_eq_true_iff.1 hall
    have hstrings := of_decide_eq_true hfits
    have hwidths : potionRegistry.WidthsFit := by
      unfold Registry.WidthsFit
      decide
    have hopen := OpenContainer.ofPacked_bake .plain
      (isSound_of_build hreg build_potionTypes).laidOut hwidths hbake
      fun t ht => of_decide_eq_true (List.all_eq_true.1 hrows t ht)
    obtain ⟨view, hview, hfinds⟩ := find_exact hreg build_potionTypes hbake hstrings
      (.refl potionRegistry) rfl .plain hopen renamedBrew (List.mem_singleton_self _)
    have hsecond : { brew with guid := ⟨"g2"⟩ } ∈ (brews.setOf "Potion").records :=
      List.mem_cons_of_mem _ (List.mem_singleton_self _)
    have hmistyped : ¬brews.WellTyped potionRegistry := not_wellTyped_of_brew hsecond rfl
    refine ⟨hreg, build_potionTypes, hmistyped, k, _, view, rfl, hstrings, hopen, hview,
      hfinds, ?_, hfinds.absent "Swig" (by decide)⟩
    unfold OpenContainer.value
    -- the second brew is not well typed, and the catalog can be looked up all the same
    rw [OpenContainer.name_of_view hview]
    rfl

end Registration

end RecordTables
