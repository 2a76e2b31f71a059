import RecordTables.Proofs.Container.ReadBack

/-!
# The order in which records are loaded does not matter

Baking reads a catalog only through the records of each record type in the order of their
identifiers (`Container.bake_congr`).  If no two records of a type have one identifier, that order
is the same however the records were put into the catalog (`Container.rowOrder_perm_congr`), so the
container is the same to the last number of a text, and what stands in the way of baking is the
same, too (`Container.bake_perm`).
-/

namespace RecordTables

open Schema

/-- The two catalogs hold the same records of every record type. -/
def Catalog.SameRecords (r : Registry) (c c' : Catalog) : Prop :=
  ∀ t ∈ r.recordTypes, (c.setOf t.name).records.Perm (c'.setOf t.name).records

/-- No two records of a record type have one identifier. -/
def Catalog.HasIdentifiers (r : Registry) (c : Catalog) : Prop :=
  ∀ t ∈ r.recordTypes, ((c.setOf t.name).records.map (·.identifier)).Nodup

namespace Container

open Baking

variable {r : Registry} {c c' : Catalog}

/-! ### The order of rows -/

/-- Records that are told apart by their identifiers have one order. -/
theorem rowOrder_perm_congr {recordType : String}
    (hsame : (c.setOf recordType).records.Perm (c'.setOf recordType).records)
    (hnodup : ((c.setOf recordType).records.map (·.identifier)).Nodup) :
    rowOrder c recordType = rowOrder c' recordType := by
  have hperm : (rowOrder c recordType).Perm (rowOrder c' recordType) :=
    (rowOrder_perm c recordType).trans (hsame.trans (rowOrder_perm c' recordType).symm)
  refine hperm.eq_of_pairwise (fun a b ha hb hab hba => ?_) (sorted_rowOrder c recordType)
    (sorted_rowOrder c' recordType)
  -- neither record stands before the other, so they have one identifier and are one record
  have hidentifier : a.identifier = b.identifier := String.le_antisymm hab hba
  exact List.inj_on_of_nodup_map hnodup ((rowOrder_perm c recordType).mem_iff.1 ha)
    ((rowOrder_perm c recordType).mem_iff.1 (hperm.mem_iff.2 hb)) hidentifier

/-! ### What baking reads of a catalog -/

theorem ofCatalog_congr (h : ∀ t ∈ r.recordTypes, rowOrder c t.name = rowOrder c' t.name) :
    BakeSource.ofCatalog r c = BakeSource.ofCatalog r c' := by
  have hrows : (r.recordTypes.map fun t => (t.name, rowOrder c t.name)) =
      r.recordTypes.map fun t => (t.name, rowOrder c' t.name) :=
    List.map_congr_left fun t ht => by rw [h t ht]
  unfold BakeSource.ofCatalog
  rw [hrows]

theorem laidDown_congr (h : ∀ t ∈ r.recordTypes, rowOrder c t.name = rowOrder c' t.name) :
    laidDown r c = laidDown r c' := by
  have hbaked : ∀ t ∈ r.recordTypes, bakeRecords (.ofCatalog r c) c t.name =
      bakeRecords (.ofCatalog r c') c' t.name := by
    intro t ht
    unfold bakeRecords
    rw [ofCatalog_congr h, h t ht]
  unfold laidDown
  rw [mapM_congr hbaked]

/-- Whatever a step does, it ensures nothing of nothing. -/
theorem ensures_trivial {α : Type} (b : Baking α) : Ensures (fun _ => True) b fun _ => True :=
  fun _ _ _ _ _ => ⟨trivial, trivial⟩

/-- The rows that are laid down are those of record types. -/
theorem name_of_laidDown {recordRows : List (String × List (List UInt8))} {p : Pools}
    (h : laidDown r c = .ok (recordRows, p)) :
    ∀ baked ∈ recordRows, ∃ t ∈ r.recordTypes, baked.1 = t.name := by
  have hname (recordType : String) : Ensures (fun _ => True)
      (bakeRecords (.ofCatalog r c) c recordType) fun baked => baked.1 = recordType := by
    unfold bakeRecords
    exact (ensures_trivial _).bind fun _ _ => (ensures_trivial _).bind fun _ _ => ensures_pure rfl
  obtain ⟨-, hall⟩ := ensures_mapM (fun t _ => hname t.name) _ _ _ h trivial
  intro baked hbaked
  exact exists_of_mem_forall₂ hall hbaked

theorem tableOfLayout_congr (h : ∀ t ∈ r.recordTypes, rowOrder c t.name = rowOrder c' t.name)
    {recordRows : List (String × List (List UInt8))} {p : Pools}
    (hlaid : laidDown r c = .ok (recordRows, p)) (layout : TableLayout) :
    tableOfLayout c recordRows p layout = tableOfLayout c' recordRows p layout := by
  unfold tableOfLayout
  split
  · next rows hrows =>
    -- only a table of records reads the catalog, for the GUIDs of its rows
    obtain ⟨t, ht, hname⟩ := name_of_laidDown hlaid _ (mem_of_lookup hrows)
    rw [show layout.name = t.name from hname, h t ht]
  · rfl

/-- What is baked is what was laid down. -/
theorem bake_eq_map (r : Registry) (c : Catalog) :
    bake r c = (laidDown r c).map fun x => ofLaidDown r c x.1 x.2 := by
  cases h : laidDown r c with
  | error e =>
    unfold laidDown at h
    unfold bake
    rw [h]
    rfl
  | ok x => exact bake_of_laidDown h

/-- **Baking reads of a catalog** the records of the record types in the order of their rows. -/
theorem bake_congr (h : ∀ t ∈ r.recordTypes, rowOrder c t.name = rowOrder c' t.name) :
    bake r c = bake r c' := by
  rw [bake_eq_map, bake_eq_map, ← laidDown_congr h]
  cases hlaid : laidDown r c with
  | error e => rfl
  | ok x =>
    have htables : tableOfLayout c x.1 x.2 = tableOfLayout c' x.1 x.2 :=
      funext fun layout => tableOfLayout_congr h hlaid layout
    refine congrArg Except.ok ?_
    show ofLaidDown r c x.1 x.2 = ofLaidDown r c' x.1 x.2
    unfold ofLaidDown
    rw [htables]

/-- **Load order does not matter**: catalogs of the same records with distinct identifiers are baked
into the same container, or fail for the same reason. -/
theorem bake_perm (hsame : c.SameRecords r c') (hnames : c.HasIdentifiers r) :
    bake r c = bake r c' :=
  bake_congr fun t ht => rowOrder_perm_congr (hsame t ht) (hnames t ht)

end Container

namespace Registration

open Container

/-! ### Potions in two orders -/

/-- A potion that the tonic cures. -/
def elixir : Record :=
  ⟨⟨"g2"⟩, "Elixir", "", none, .ofList [("Grade", .enum "Plain"),
    ("Cures", .list [.ref (some ⟨"g1"⟩)])]⟩

/-- A potion whose grade is no member of its enum. -/
def venom (identifier : String) : Record :=
  ⟨⟨identifier⟩, identifier, "", none, .ofList [("Grade", .enum identifier)]⟩

/-- The catalog of some potions. -/
def potionsOf (records : List Record) : Catalog := .ofList [("Potion", .ofList "Potion" records)]

/-- The tonic is first in its catalog and second in its container; of two venoms the one that comes
first by its name is refused. -/
theorem bake_perm_potions :
    (potionsOf [tonic, elixir]).SameRecords potionRegistry (potionsOf [elixir, tonic]) ∧
      (potionsOf [tonic, elixir]).HasIdentifiers potionRegistry ∧
      (bake potionRegistry (potionsOf [tonic, elixir])).toOption.isSome = true ∧
      bake potionRegistry (potionsOf [tonic, elixir]) =
        bake potionRegistry (potionsOf [elixir, tonic]) ∧
      bake potionRegistry (potionsOf [venom "B", venom "A"]) =
        .error (.mismatch "Potion" "Grade" (.notMember "A" "Grade")) ∧
      bake potionRegistry (potionsOf [venom "B", venom "A"]) =
        bake potionRegistry (potionsOf [venom "A", venom "B"]) := by
  have hrecords (a b : Record) (h : a.identifier ≠ b.identifier) :
      (potionsOf [a, b]).SameRecords potionRegistry (potionsOf [b, a]) ∧
        (potionsOf [a, b]).HasIdentifiers potionRegistry := by
    constructor
    · intro t ht
      obtain rfl := List.mem_singleton.1 ht
      exact List.Perm.swap b a []
    · intro t ht
      obtain rfl := List.mem_singleton.1 ht
      show [a.identifier, b.identifier].Nodup
      rw [List.nodup_cons, List.mem_singleton]
      exact ⟨h, List.nodup_singleton _⟩
  obtain ⟨hsame, hnames⟩ := hrecords tonic elixir (by decide)
  obtain ⟨hsame', hnames'⟩ := hrecords (venom "B") (venom "A") (by decide)
  exact ⟨hsame, hnames, by cbv, bake_perm hsame hnames, by cbv, bake_perm hsame' hnames'⟩

end Registration

end RecordTables
