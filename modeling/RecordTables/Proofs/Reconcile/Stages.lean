import RecordTables.Proofs.Reconcile.Links

/-!
# The stages of a matching

`Built records rows links p` says that the state `p` is made of the given links: its actions, claims
and temporary identifiers are theirs, every row is linked once or left, and no record is linked
twice.  Attaching one more link keeps it (`Built.attach`), so every stage keeps `Consistent`: a
state without errors is made of links.

What the stages achieve beyond that is said row by row, after a row is visited, and holds from then
on (`foldl_visits`): no row with a GUID is left by the second stage, and no row whose identifier is
that of a record without a row is left by the third.
-/

namespace RecordTables.Matcher.Pass

variable {records : RecordSet} {rows : List Row} {links : List Link} {p : Pass} {i : Nat}

/-! ### States made of links -/

/-- The state is made of these links. -/
structure Built (records : RecordSet) (rows : List Row) (links : List Link) (p : Pass) : Prop where
  claimed : p.claimed = links.map fun l => (l.key, l.index)
  actions : p.actions = links.filterMap Link.action?
  backfilled : p.backfilled = links.filterMap Link.backfill?
  takenNames : p.takenNames =
    rows.map (·.identifier) ++ records.records.map (·.identifier) ++
      links.filterMap Link.temporary?
  valid : ∀ l ∈ links, l.Valid records rows
  rows_perm : (links.map (·.index) ++ p.remaining).Perm (List.range rows.length)
  keys_nodup : (links.map (·.key)).Nodup
  temporaries_nodup : (links.filterMap Link.temporary?).Nodup
  temporaries_fresh : ∀ t ∈ links.filterMap Link.temporary?,
    t ∉ rows.map (·.identifier) ++ records.records.map (·.identifier)

/-- A state without errors is made of links. -/
def Consistent (records : RecordSet) (rows : List Row) (p : Pass) : Prop :=
  p.errors = [] → ∃ links, Built records rows links p

theorem built_start (records : RecordSet) (rows : List Row) :
    Built records rows [] (start records rows) where
  claimed := rfl
  actions := rfl
  backfilled := rfl
  takenNames := (List.append_nil _).symm
  valid := fun _ h => nomatch h
  rows_perm := List.Perm.refl _
  keys_nodup := List.nodup_nil
  temporaries_nodup := List.nodup_nil
  temporaries_fresh := fun _ h => nomatch h

theorem isClaimed_eq_false (h : Built records rows links p) {key : RecordKey} :
    p.isClaimed key = false ↔ key ∉ links.map (·.key) := by
  unfold isClaimed
  rw [h.claimed, List.any_map, Bool.eq_false_iff, Ne, List.any_eq_true]
  simp

theorem Built.nodup_remaining (h : Built records rows links p) : p.remaining.Nodup :=
  (List.nodup_append.1 (h.rows_perm.nodup_iff.2 List.nodup_range)).2.1

theorem Built.exists_row_of_remaining (h : Built records rows links p) (hi : i ∈ p.remaining) :
    ∃ row, rows[i]? = some row :=
  have hlt := List.mem_range.1 (h.rows_perm.mem_iff.1 (List.mem_append_right _ hi))
  ⟨rows[i], List.getElem?_eq_getElem hlt⟩

theorem filter_ne_perm {l : List Nat} (hnodup : l.Nodup) (hi : i ∈ l) :
    l.Perm (i :: l.filter (· != i)) := by
  have herase : l.filter (· != i) = l.erase i := (hnodup.erase_eq_filter i).symm
  rw [herase]
  exact List.perm_cons_erase hi

theorem filterMap_append_singleton {α β : Type} (f : α → Option β) (l : List α) (a : α) :
    (l ++ [a]).filterMap f = l.filterMap f ++ (f a).toList := by
  rw [List.filterMap_append]
  cases h : f a <;> simp [h]

/-- **One more link.** -/
theorem Built.attach (h : Built records rows links p) {l : Link} (hi : l.index ∈ p.remaining)
    (hvalid : l.Valid records rows) (hclaimed : p.isClaimed l.key = false)
    (htemporary : ∀ t ∈ l.temporary?, t ∉ p.takenNames) :
    Built records rows (links ++ [l]) (p.attach l) where
  claimed := by
    rw [List.map_append, ← h.claimed]
    rfl
  actions := by
    rw [filterMap_append_singleton, ← h.actions]
    rfl
  backfilled := by
    rw [filterMap_append_singleton, ← h.backfilled]
    rfl
  takenNames := by
    rw [filterMap_append_singleton, ← List.append_assoc, ← h.takenNames]
    rfl
  valid := by
    intro l' hl'
    rcases List.mem_append.1 hl' with hl' | hl'
    · exact h.valid l' hl'
    · exact List.mem_singleton.1 hl' ▸ hvalid
  rows_perm := by
    show ((links ++ [l]).map (·.index) ++ p.remaining.filter (· != l.index)).Perm _
    rw [List.map_append, List.append_assoc]
    refine List.Perm.trans ?_ h.rows_perm
    exact (filter_ne_perm h.nodup_remaining hi).symm.append_left _
  keys_nodup := by
    rw [List.map_append, List.map_singleton, List.nodup_append]
    refine ⟨h.keys_nodup, List.nodup_singleton _, fun key hkey key' hkey' heq => ?_⟩
    rw [heq, List.mem_singleton.1 hkey'] at hkey
    exact (isClaimed_eq_false h).1 hclaimed hkey
  temporaries_nodup := by
    rw [filterMap_append_singleton, List.nodup_append]
    refine ⟨h.temporaries_nodup, ?_, fun t ht t' ht' heq => ?_⟩
    · cases l.temporary? <;> simp
    -- the temporary name was taken by no link before
    · refine htemporary t' (by simpa using ht') ?_
      rw [h.takenNames, ← heq]
      exact List.mem_append_right _ ht
  temporaries_fresh := by
    intro t ht
    rw [filterMap_append_singleton] at ht
    rcases List.mem_append.1 ht with ht | ht
    · exact h.temporaries_fresh t ht
    -- and by no row and no record
    · have hnotMem := htemporary t (by simpa using ht)
      rw [h.takenNames] at hnotMem
      exact fun hmem => hnotMem (List.mem_append_left _ hmem)

theorem Consistent.settled (h : Consistent records rows p) (hi : i ∈ p.remaining) {p' : Pass}
    (hsettled : Settled records rows p i p') : Consistent records rows p' := by
  cases hsettled with
  | skip => exact h
  | attach l hindex hvalid hclaimed htemporary =>
    intro herrors
    obtain ⟨links, hbuilt⟩ := h herrors
    exact ⟨links ++ [l], hbuilt.attach (hindex ▸ hi) hvalid hclaimed htemporary⟩
  | fault e =>
    intro herrors
    exact absurd herrors (List.append_ne_nil_of_right_ne_nil _ (List.cons_ne_nil _ _))

/-! ### Visiting rows -/

theorem Settled.sublist {p' : Pass} (h : Settled records rows p i p') :
    p'.remaining.Sublist p.remaining := by
  cases h with
  | skip => exact List.Sublist.refl _
  | attach l _ _ _ _ => exact List.filter_sublist
  | fault e => exact List.filter_sublist

theorem Settled.mem_of_ne {p' : Pass} (h : Settled records rows p i p') {j : Nat}
    (hj : j ∈ p.remaining) (hne : j ≠ i) : j ∈ p'.remaining := by
  cases h with
  | skip => exact hj
  | attach l hindex _ _ _ => exact List.mem_filter.2 ⟨hj, by simpa [hindex] using hne⟩
  | fault e => exact List.mem_filter.2 ⟨hj, by simpa using hne⟩

theorem Settled.isClaimed {p' : Pass} (h : Settled records rows p i p') {key : RecordKey}
    (hkey : p.isClaimed key = true) : p'.isClaimed key = true := by
  cases h with
  | skip => exact hkey
  | attach l _ _ _ _ =>
    unfold Pass.isClaimed at hkey ⊢
    rw [Pass.attach, List.any_append, hkey, Bool.true_or]
  | fault e => exact hkey

/-- **Running a stage.**  What each visit keeps holds in the end, and what each visit achieves for
its row holds in the end for all rows, if no later visit undoes it. -/
theorem foldl_visits {stage : Pass → Nat → Pass} {P : Pass → Prop} {V : Pass → Nat → Prop}
    (hstage : ∀ p i, P p → i ∈ p.remaining →
      Settled records rows p i (stage p i) ∧ P (stage p i) ∧ V (stage p i) i)
    (hlater : ∀ p i p' j, Settled records rows p i p' → V p j → V p' j)
    {l : List Nat} (hnodup : l.Nodup) (hl : ∀ i ∈ l, i ∈ p.remaining) (hp : P p) :
    P (l.foldl stage p) ∧ (l.foldl stage p).remaining.Sublist p.remaining ∧
      (∀ j, V p j → V (l.foldl stage p) j) ∧ ∀ i ∈ l, V (l.foldl stage p) i := by
  induction l generalizing p with
  | nil => exact ⟨hp, List.Sublist.refl _, fun _ h => h, fun _ h => nomatch h⟩
  | cons i l ih =>
    obtain ⟨hnotMem, hnodup⟩ := List.nodup_cons.1 hnodup
    obtain ⟨hsettled, hp', hi⟩ := hstage p i hp (hl i List.mem_cons_self)
    have hl' : ∀ j ∈ l, j ∈ (stage p i).remaining := by
      intro j hj
      refine hsettled.mem_of_ne (hl j (List.mem_cons_of_mem _ hj)) ?_
      rintro rfl
      exact hnotMem hj
    obtain ⟨hP, hsub, hV, hall⟩ := ih hnodup hl' hp'
    refine ⟨hP, hsub.trans hsettled.sublist, fun j hj => hV j (hlater p i _ j hsettled hj), ?_⟩
    intro j hj
    rcases List.mem_cons.1 hj with rfl | hj
    · exact hV j hi
    · exact hall j hj

/-- A stage visits the rows that are left when it begins. -/
theorem forRemaining_visits {stage : Pass → Nat → Pass} {P : Pass → Prop} {V : Pass → Nat → Prop}
    (hstage : ∀ p i, P p → i ∈ p.remaining →
      Settled records rows p i (stage p i) ∧ P (stage p i) ∧ V (stage p i) i)
    (hlater : ∀ p i p' j, Settled records rows p i p' → V p j → V p' j)
    (hnodup : p.remaining.Nodup) (hp : P p) :
    P (forRemaining stage p) ∧ (forRemaining stage p).remaining.Sublist p.remaining ∧
      ∀ i ∈ (forRemaining stage p).remaining, V (forRemaining stage p) i := by
  obtain ⟨hP, hsub, -, hall⟩ := foldl_visits hstage hlater hnodup (fun _ h => h) hp
  exact ⟨hP, hsub, fun i hi => hall i (hsub.subset hi)⟩

/-! ### Exact matches -/

/-- Before any record is renamed, a record is linked with the row of its identifier only. -/
theorem isClaimed_of_exact (hs : records.WellFormed) (hrows : (rows.map (·.identifier)).Nodup)
    (h : Built records rows links p) (hkept : ∀ l ∈ links, l.temporary? = none) {l : Link}
    (hl : l.Valid records rows) (hnone : l.temporary? = none) (hi : l.index ∈ p.remaining) :
    p.isClaimed l.key = false := by
  rw [isClaimed_eq_false h]
  intro hmem
  obtain ⟨l', hl', hkey⟩ := List.mem_map.1 hmem
  have hvalid := h.valid l' hl'
  have hrecord : l'.record = l.record := RecordSet.eq_of_mem_entries hs (hkey ▸ hvalid.mem) hl.mem
  have hidentifier : l'.row.identifier = l.row.identifier := by
    rw [← hvalid.identifier (hkept l' hl'), ← hl.identifier hnone, hrecord]
  have hindex : l'.index = l.index :=
    index_eq_of_identifier hrows hvalid.row_eq hl.row_eq hidentifier
  have hdisjoint := List.nodup_append.1 (h.rows_perm.nodup_iff.2 List.nodup_range)
  exact hdisjoint.2.2 _ (List.mem_map_of_mem hl') _ hi hindex

/-- The first stage finds no fault, and renames no record. -/
theorem consistent_exact (hs : records.WellFormed) (hrows : (rows.map (·.identifier)).Nodup)
    (hknown : Known records rows) :
    Consistent records rows (forRemaining (matchExactly records rows) (start records rows)) ∧
      (forRemaining (matchExactly records rows) (start records rows)).remaining.Nodup := by
  have hstage : ∀ p i,
      (∃ links, Built records rows links p ∧ ∀ l ∈ links, l.temporary? = none) →
      i ∈ p.remaining →
        Settled records rows p i (matchExactly records rows p i) ∧
          (∃ links, Built records rows links (matchExactly records rows p i) ∧
            ∀ l ∈ links, l.temporary? = none) ∧ True := by
    rintro p i ⟨links, hbuilt, hkept⟩ hi
    -- an exact match links the row without a temporary name, anything else leaves it for later
    rcases matchExactly_eq hknown p i with heq | ⟨l, hindex, hvalid, hnone, heq⟩
    · rw [heq]
      exact ⟨.skip, ⟨links, hbuilt, hkept⟩, trivial⟩
    · have hclaimed := isClaimed_of_exact hs hrows hbuilt hkept hvalid hnone (hindex ▸ hi)
      have hfresh : ∀ t ∈ l.temporary?, t ∉ p.takenNames := fun t ht => by
        rw [hnone] at ht
        cases ht
      rw [heq]
      refine ⟨.attach l hindex hvalid hclaimed hfresh,
        ⟨links ++ [l], hbuilt.attach (hindex ▸ hi) hvalid hclaimed hfresh, ?_⟩, trivial⟩
      intro l' hl'
      rcases List.mem_append.1 hl' with hl' | hl'
      · exact hkept l' hl'
      · exact List.mem_singleton.1 hl' ▸ hnone
  obtain ⟨⟨links, hbuilt, -⟩, -, -⟩ := forRemaining_visits (V := fun _ _ => True) hstage
    (fun _ _ _ _ _ _ => trivial) List.nodup_range
    ⟨[], built_start records rows, fun _ h => nomatch h⟩
  exact ⟨fun _ => ⟨links, hbuilt⟩, hbuilt.nodup_remaining⟩

/-! ### Matches by GUID -/

/-- The row has no GUID. -/
def Guidless (rows : List Row) (i : Nat) : Prop := ∀ row, rows[i]? = some row → row.guid = none

/-- A visited row that is left has no GUID: else it would be linked with its record, or be at
fault. -/
theorem guidless_of_matchGuid (hknown : Known records rows)
    (hi : i ∈ (matchGuid records rows p i).remaining) : Guidless rows i := by
  rcases guid_cases hknown i with hnone | ⟨row, key, record, hrow, hguid, hkey, hrecord, -⟩
  · exact hnone
  · rw [matchGuid_of_guid hrow hguid hkey hrecord] at hi
    have hsettled : i ∉ p.remaining.filter (· != i) := by simp
    split_ifs at hi
    · exact absurd hi hsettled
    · rw [act_renameTo] at hi
      exact absurd hi hsettled

/-- The second stage leaves no row with a GUID. -/
theorem consistent_guid (hknown : Known records rows) (hp : Consistent records rows p)
    (hnodup : p.remaining.Nodup) :
    Consistent records rows (forRemaining (matchGuid records rows) p) ∧
      (forRemaining (matchGuid records rows) p).remaining.Nodup ∧
      ∀ i ∈ (forRemaining (matchGuid records rows) p).remaining, Guidless rows i := by
  obtain ⟨hP, hsub, hV⟩ := forRemaining_visits (V := fun p i => i ∈ p.remaining → Guidless rows i)
    (fun p i hp hi => ⟨matchGuid_settled hknown p i, hp.settled hi (matchGuid_settled hknown p i),
      guidless_of_matchGuid hknown⟩)
    (fun p i p' j hsettled hj hmem => hj (hsettled.sublist.subset hmem)) hnodup hp
  exact ⟨hP, hsub.nodup hnodup, fun i hi => hV i hi hi⟩

/-! ### Matches by identifier -/

/-- Any record with the identifier of the row has another row. -/
def Bespoken (records : RecordSet) (rows : List Row) (p : Pass) (i : Nat) : Prop :=
  ∀ row, rows[i]? = some row → ∀ e ∈ records.entries, e.2.identifier = row.identifier →
    p.isClaimed e.1 = true

theorem Bespoken.settled {p' : Pass} {j : Nat} (h : Bespoken records rows p i)
    (hsettled : Settled records rows p j p') : Bespoken records rows p' i :=
  fun row hrow e he hidentifier => hsettled.isClaimed (h row hrow e he hidentifier)

/-- After a row is visited, the record of its identifier has a row. -/
theorem bespoken_of_matchIdentifier (hnames : (records.records.map (·.identifier)).Nodup) :
    Bespoken records rows (matchIdentifier records rows p i) i := by
  intro row hrow e he hidentifier
  unfold matchIdentifier
  rw [hrow]
  dsimp only
  cases hkey : records.keyOfIdentifier? row.identifier with
  | none =>
    have hmem : e.2 ∈ records.records := List.mem_map_of_mem he
    exact absurd hidentifier (RecordSet.keyOfIdentifier?_eq_none.1 hkey e.2 hmem)
  | some key =>
    obtain ⟨record, hrecord, hmem, hsame⟩ := RecordSet.exists_record_of_keyOfIdentifier? hkey
    -- identifiers are distinct, so this is the entry that was found
    have hentries : (records.entries.map fun e => e.2.identifier).Nodup := by
      unfold RecordSet.records at hnames
      rwa [List.map_map] at hnames
    obtain rfl : e = (key, record) :=
      List.inj_on_of_nodup_map hentries he hmem (hidentifier.trans hsame.symm)
    rw [hrecord]
    dsimp only
    split_ifs with hclaimed
    · exact hclaimed
    · unfold Pass.isClaimed act backfill claim
      rw [List.any_append]
      simp

/-- If identifiers are distinct, the third stage leaves no row whose identifier is that of a record
without a row. -/
theorem consistent_identifier (hp : Consistent records rows p) (hnodup : p.remaining.Nodup)
    (hguidless : ∀ i ∈ p.remaining, Guidless rows i) :
    Consistent records rows (forRemaining (matchIdentifier records rows) p) ∧
      (forRemaining (matchIdentifier records rows) p).remaining.Nodup ∧
      ∀ i ∈ (forRemaining (matchIdentifier records rows) p).remaining,
        Guidless rows i ∧ ((records.records.map (·.identifier)).Nodup →
          Bespoken records rows (forRemaining (matchIdentifier records rows) p) i) := by
  obtain ⟨⟨hP, hG⟩, hsub, hV⟩ := forRemaining_visits
    (P := fun p => Consistent records rows p ∧ ∀ i ∈ p.remaining, Guidless rows i)
    (V := fun p i => (records.records.map Record.identifier).Nodup → Bespoken records rows p i)
    (fun p i hp hi => by
      have hsettled : Settled records rows p i (matchIdentifier records rows p i) :=
        matchIdentifier_settled (hp.2 i hi)
      exact ⟨hsettled, ⟨hp.1.settled hi hsettled, fun j hj =>
        hp.2 j (hsettled.sublist.subset hj)⟩, bespoken_of_matchIdentifier⟩)
    (fun _ _ _ _ hsettled hj hnames => (hj hnames).settled hsettled) hnodup ⟨hp, hguidless⟩
  exact ⟨hP, hsub.nodup hnodup, fun i hi => ⟨hG i hi, hV i hi⟩⟩

end RecordTables.Matcher.Pass
