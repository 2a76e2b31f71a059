import Mathlib.Algebra.Group.Nat.Defs
import RecordTables.Container.Open
import RecordTables.Proofs.Container.Rows

/-!
# Opening a baked container

`OpenContainer.ofPacked_bake`: a container that was baked for a laid out registry opens under the same
registry, however it was packed, and what is opened is that container.  The condition is that its
numbers fit their places: the size of a row and the number of rows have four bytes
(`Registry.WidthsFit`, `Container.RowsFit`).
-/

namespace RecordTables

open Container Baking

variable {r : Registry} {c : Catalog} {k : Container}

/-- The size of a row of each table has four bytes. -/
def Registry.WidthsFit (r : Registry) : Prop := ∀ t ∈ r.layout.tables, t.rowSize < 2 ^ 32

/-- The number of rows of each table has four bytes. -/
def Container.RowsFit (k : Container) : Prop :=
  ∀ t ∈ k.tables, t.bytes.length ≤ t.rowSize.toNat * (2 ^ 32 - 1)

namespace Container

/-- **The tables of a baked container** are those of the layout, and their rows have its sizes. -/
theorem bake_tables (hr : r.IsLaidOut) (h : bake r c = .ok k) {t : Table} (ht : t ∈ k.tables) :
    ∃ layout ∈ r.layout.tables, ∃ rows guids,
      t = tableOfRows layout rows guids ∧ ∀ row ∈ rows, row.length = layout.rowSize := by
  obtain ⟨⟨recordRows, pools⟩, hrun, h⟩ := bind_eq_ok.1 h
  have hbaked : Ensures (Pools.Sized r.layout)
      (r.recordTypes.mapM fun t => bakeRecords (.ofCatalog r c) c t.name) fun recordRows =>
        ∀ baked ∈ recordRows, ∀ layout ∈ r.layout.tables, layout.name = baked.1 →
          ∀ row ∈ baked.2, row.length = layout.rowSize := by
    have hkept := Pools.isKept_sized hr.layout
    refine ensures_mapM_forall fun type _ => (bakeRecords_ensures hkept hr rfl c type.name).mono ?_
    intro baked hrows layout hlayout hname
    exact hrows.2 layout hlayout (hname.trans hrows.1)
  obtain ⟨hpools, hrecords⟩ := hbaked _ _ _ hrun (Pools.sized_empty _)
  rw [← Except.ok.inj h] at ht
  obtain ⟨layout, hlayout, rfl⟩ := List.mem_map.1 ht
  refine ⟨layout, hlayout, ?_⟩
  split
  · next rows hrows =>
    exact ⟨rows, _, rfl, hrecords _ (mem_of_lookup hrows) layout hlayout rfl⟩
  · exact ⟨_, _, rfl, hpools layout hlayout⟩

theorem header_of_bake (h : bake r c = .ok k) : k.header = .ofFingerprint r.fingerprint := by
  obtain ⟨baked, -, h⟩ := bind_eq_ok.1 h
  rw [← Except.ok.inj h]

theorem length_flatten_of_forall {rows : List (List UInt8)} {n : Nat}
    (h : ∀ row ∈ rows, row.length = n) : rows.flatten.length = n * rows.length := by
  induction rows with
  | nil => rfl
  | cons row rows ih =>
    rw [List.flatten_cons, List.length_append, h row List.mem_cons_self,
      ih fun row' h' => h row' (List.mem_cons_of_mem _ h'), List.length_cons, Nat.mul_succ]
    omega

/-- A baked table has the size that the schema asks for. -/
theorem check_of_bake (hr : r.IsLaidOut) (hwidth : r.WidthsFit) (h : bake r c = .ok k)
    (hrows : k.RowsFit) {t : Table} (ht : t ∈ k.tables) : t.check r = .ok () := by
  have hfits := hrows t ht
  obtain ⟨layout, hlayout, rows, guids, rfl, hsizes⟩ := bake_tables hr h ht
  have hfind : r.layout.table? (tableOfRows layout rows guids).name = some layout :=
    hr.layout.table? hlayout
  have hrowSize : (UInt32.ofNat layout.rowSize).toNat = layout.rowSize :=
    UInt32.toNat_ofNat_of_lt' (hwidth layout hlayout)
  have hlength : rows.flatten.length = layout.rowSize * rows.length :=
    length_flatten_of_forall hsizes
  -- a table without columns has no bytes, whatever its number of rows
  have hcount : layout.rowSize * (UInt32.ofNat rows.length).toNat =
      layout.rowSize * rows.length := by
    rcases Nat.eq_zero_or_pos layout.rowSize with hzero | hpos
    · rw [hzero, Nat.zero_mul, Nat.zero_mul]
    · change rows.flatten.length ≤ (UInt32.ofNat layout.rowSize).toNat * (2 ^ 32 - 1) at hfits
      rw [hrowSize, hlength] at hfits
      have hlt : rows.length < 2 ^ 32 := by
        have hle := Nat.le_of_mul_le_mul_left hfits hpos
        omega
      rw [UInt32.toNat_ofNat_of_lt' hlt]
  unfold Table.check
  rw [hfind]
  refine if_pos ⟨hrowSize.symm, ?_⟩
  show rows.flatten.length = (UInt32.ofNat layout.rowSize).toNat * (UInt32.ofNat rows.length).toNat
  rw [hrowSize, hcount, hlength]

end Container

namespace OpenContainer

/-- **Baked containers open.** -/
theorem ofPacked_bake (packing : Packing) (hr : r.IsLaidOut) (hwidth : r.WidthsFit)
    (h : bake r c = .ok k) (hrows : k.RowsFit) :
    ofPacked packing r (packing.pack k) = .ok ⟨r, k, .empty⟩ := by
  have hheader : k.header.check = .ok () := by
    rw [header_of_bake h]
    rfl
  have hfingerprint : Checkpoints.verifyData r.fingerprint (some k.header.fingerprint) =
      .ok () := by
    rw [header_of_bake h]
    exact if_pos rfl
  have htables : k.tables.forM (Table.check r) = .ok () := by
    have hcheck : ∀ t ∈ k.tables, t.check r = .ok () :=
      fun t ht => check_of_bake hr hwidth h hrows ht
    generalize k.tables = tables at hcheck
    induction tables with
    | nil => rfl
    | cons t tables ih =>
      show (do Table.check r t; tables.forM (Table.check r)) = _
      rw [hcheck t List.mem_cons_self]
      exact ih fun u hu => hcheck u (List.mem_cons_of_mem _ hu)
  rw [ofPacked_pack, ofContainer, hheader, hfingerprint, htables]
  rfl

end OpenContainer

end RecordTables
