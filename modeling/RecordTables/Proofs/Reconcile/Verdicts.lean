import RecordTables.Proofs.Reconcile.Faults

/-!
# Which record each row stands for

The stages of a matching settle one row after the other.  What they come to can be told without any
order: `mate?` is the record a row stands for, found from the other rows and the records as a whole,
`treatment` is what becomes of it, and `linkOf?` puts both together.  `exists_built_matchAll` says
that a matching without faults is made of exactly these links.
-/

namespace RecordTables.Matcher

variable {records : RecordSet} {rows : List Row}

/-! ### The record of a row -/

/-- The key and the record of a GUID. -/
def entryOfGuid? (records : RecordSet) (guid : Guid) : Option (RecordKey × Record) :=
  (records.keyOfGuid? guid).bind fun key => (records.ofGuid? guid).map (key, ·)

/-- The key and the record of an identifier. -/
def entryOfIdentifier? (records : RecordSet) (identifier : String) : Option (RecordKey × Record) :=
  (records.keyOfIdentifier? identifier).bind fun key =>
    (records.ofIdentifier? identifier).map (key, ·)

/-- Whether a row has the GUID of the record of a key. -/
def isNamed (records : RecordSet) (rows : List Row) (key : RecordKey) : Bool :=
  rows.any fun row => row.guid.bind records.keyOfGuid? == some key

/-- The record that a row names, by its GUID, or by its identifier if no row has the GUID of that
record. -/
def partner? (records : RecordSet) (rows : List Row) (row : Row) : Option (RecordKey × Record) :=
  match row.guid with
  | some guid => entryOfGuid? records guid
  | none =>
    (entryOfIdentifier? records row.identifier).filter fun e => !isNamed records rows e.1

/-- The rows that name no record. -/
def spare (records : RecordSet) (rows : List Row) : List Row :=
  rows.filter fun row => (partner? records rows row).isNone

/-- The records that no row names. -/
def orphans (records : RecordSet) (rows : List Row) : List (RecordKey × Record) :=
  records.byIdentifier.filter fun e =>
    !rows.any fun row => (partner? records rows row).any (·.1 == e.1)

/-- The record that a row stands for: the one it names, or else the only one that no row names, if
the row is the only one that names no record. -/
def mate? (records : RecordSet) (rows : List Row) (row : Row) : Option (RecordKey × Record) :=
  (partner? records rows row).or
    (if (spare records rows).length = 1 ∧ (orphans records rows).length = 1 then
      (orphans records rows).head?
    else none)

/-- The identifiers of the rows and the records. -/
def allNames (records : RecordSet) (rows : List Row) : List String :=
  rows.map (·.identifier) ++ records.records.map (·.identifier)

/-- What becomes of the record that a row stands for. -/
def treatment (records : RecordSet) (rows : List Row) (row : Row) (record : Record) : Treatment :=
  if record.identifier = row.identifier then
    if row.guid ≠ none ∧ record.contentHash = some row.contentHash then .keep else .update
  else .rename (Pass.freshName (allNames records rows) row.identifier)

/-- The link of a row with the record it stands for. -/
def linkOf? (records : RecordSet) (rows : List Row) (i : Nat) : Option Link :=
  rows[i]?.bind fun row => (mate? records rows row).map fun e =>
    ⟨i, row, e.1, e.2, treatment records rows row e.2⟩

/-! #### Rows with a GUID, and rows without -/

theorem keyOfGuid?_of_entryOfGuid? {guid : Guid} {e : RecordKey × Record}
    (h : entryOfGuid? records guid = some e) : records.keyOfGuid? guid = some e.1 := by
  obtain ⟨key, hkey, hentry⟩ := Option.bind_eq_some_iff.1 h
  obtain ⟨record, -, rfl⟩ := Option.map_eq_some_iff.1 hentry
  exact hkey

theorem mem_entries_of_entryOfIdentifier? {identifier : String} {e : RecordKey × Record}
    (h : entryOfIdentifier? records identifier = some e) :
    e ∈ records.entries ∧ e.2.identifier = identifier := by
  obtain ⟨key, hkey, hentry⟩ := Option.bind_eq_some_iff.1 h
  obtain ⟨record, hrecord, rfl⟩ := Option.map_eq_some_iff.1 hentry
  obtain ⟨record', hrecord', hmem, hname⟩ := RecordSet.exists_record_of_keyOfIdentifier? hkey
  obtain rfl := Option.some.inj (hrecord.symm.trans hrecord')
  exact ⟨hmem, hname⟩

theorem partner?_of_guid {row : Row} {guid : Guid} (hguid : row.guid = some guid) :
    partner? records rows row = entryOfGuid? records guid := by
  rw [partner?, hguid]

theorem partner?_of_keyOfGuid? {row : Row} {guid : Guid} {key : RecordKey} {record : Record}
    (hguid : row.guid = some guid) (hkey : records.keyOfGuid? guid = some key)
    (hrecord : records.ofGuid? guid = some record) :
    partner? records rows row = some (key, record) := by
  rw [partner?_of_guid hguid, entryOfGuid?, hkey, hrecord, Option.bind_some, Option.map_some]

theorem partner?_of_none {row : Row} (hguid : row.guid = none) :
    partner? records rows row =
      (entryOfIdentifier? records row.identifier).filter fun e => !isNamed records rows e.1 := by
  rw [partner?, hguid]

/-- The record that a row without a GUID names is called like it. -/
theorem identifier_of_partner? {row : Row} (hguid : row.guid = none) {e : RecordKey × Record}
    (h : partner? records rows row = some e) :
    e ∈ records.entries ∧ e.2.identifier = row.identifier := by
  rw [partner?_of_none hguid] at h
  exact mem_entries_of_entryOfIdentifier? (Option.filter_eq_some_iff.1 h).1

/-! ### Links as they should be -/

namespace Link

/-- The row of the link names the record, which is treated as it should. -/
structure Expected (records : RecordSet) (rows : List Row) (l : Link) : Prop where
  row_eq : rows[l.index]? = some l.row
  partner_eq : partner? records rows l.row = some (l.key, l.record)
  treatment_eq : l.treatment = Matcher.treatment records rows l.row l.record

variable {l : Link}

/-- A temporary identifier is a candidate for the identifier of its row. -/
theorem temporary_of_treatment (h : l.treatment = Matcher.treatment records rows l.row l.record)
    {t : String} (ht : l.temporary? = some t) : ∃ n, t = Pass.temporaryName l.row.identifier n := by
  obtain ⟨n, hn, -, -⟩ := Pass.exists_freshName (allNames records rows) l.row.identifier
  refine ⟨n, ?_⟩
  rw [← hn]
  rw [temporary?, h] at ht
  unfold Matcher.treatment at ht
  split_ifs at ht
  exact (Option.some.inj ht).symm

theorem Expected.keyAt (h : l.Expected records rows) (hguid : l.row.guid ≠ none) :
    keyAt records rows l.index = some l.key := by
  obtain ⟨guid, hguid⟩ := Option.ne_none_iff_exists'.1 hguid
  have hpartner := h.partner_eq
  rw [partner?_of_guid hguid] at hpartner
  rw [Matcher.keyAt, guidAt, h.row_eq, Option.bind_some, hguid, Option.bind_some,
    keyOfGuid?_of_entryOfGuid? hpartner]

end Link

namespace Pass

variable {links : List Link} {p : Pass} {i : Nat} {row : Row} {key : RecordKey} {record : Record}

theorem Built.index_ne (h : Built records rows links p) {l : Link} (hl : l ∈ links)
    (hi : i ∈ p.remaining) : l.index ≠ i := by
  have hdisjoint := List.nodup_append.1 (h.rows_perm.nodup_iff.2 List.nodup_range)
  exact hdisjoint.2.2 _ (List.mem_map_of_mem hl) _ hi

/-- The temporary identifiers that are taken already do not matter to another row. -/
theorem Built.freshName_eq (h : Built records rows links p)
    (hexpected : ∀ l ∈ links, l.Expected records rows) (hnodup : (rows.map (·.identifier)).Nodup)
    (hi : i ∈ p.remaining) (hrow : rows[i]? = some row) :
    freshName p.takenNames row.identifier = freshName (allNames records rows) row.identifier := by
  refine freshName_congr fun n => ?_
  rw [h.takenNames, List.mem_append]
  refine or_iff_left fun hmem => ?_
  obtain ⟨l, hl, ht⟩ := List.mem_filterMap.1 hmem
  obtain ⟨m, hm⟩ := Link.temporary_of_treatment (hexpected l hl).treatment_eq ht
  have hname : row.identifier = l.row.identifier := name_eq_of_temporaryName hm
  exact h.index_ne hl hi (index_eq_of_identifier hnodup (hexpected l hl).row_eq hrow hname.symm)

/-- The next link is as it should be. -/
theorem Built.link_treatment (key : RecordKey) (h : Built records rows links p)
    (hexpected : ∀ l ∈ links, l.Expected records rows) (hnodup : (rows.map (·.identifier)).Nodup)
    (hi : i ∈ p.remaining) (hrow : rows[i]? = some row)
    (hguid : record.identifier = row.identifier → row.guid = none) :
    (p.link i row key record).treatment = treatment records rows row record := by
  unfold link treatment
  dsimp only
  split_ifs with hname hkeep
  · exact absurd (hguid hname) hkeep.1
  · rfl
  · rw [h.freshName_eq hexpected hnodup hi hrow]

/-- If rows have different GUIDs, no row is linked with the record of the GUID of a row that is
left, as long as all links are by GUID. -/
theorem Built.isClaimed_eq_false (hs : records.WellFormed) (h : Built records rows links p)
    (hexpected : ∀ l ∈ links, l.Expected records rows) (hguids : ∀ l ∈ links, l.row.guid ≠ none)
    (hone : ∀ guid, (claimants rows guid).length ≤ 1) (hi : i ∈ p.remaining)
    (hkey : keyAt records rows i = some key) : p.isClaimed key = false := by
  rw [Pass.isClaimed_eq_false h]
  intro hmem
  obtain ⟨l, hl, rfl⟩ := List.mem_map.1 hmem
  have hlkey := (hexpected l hl).keyAt (hguids l hl)
  obtain ⟨row, guid, -, hrow, hguid, -⟩ := exists_of_keyAt hkey
  have hguidAt : guidAt rows i = some guid := by rw [guidAt, hrow, Option.bind_some, hguid]
  have htwo := two_le_length_claimants (mem_claimants.2 hguidAt)
    ((mem_claimants_iff_keyAt hs hguidAt hkey).2 hlkey) (h.index_ne hl hi).symm
  exact absurd (hone guid) (Nat.not_le.2 htwo)

/-- The state is made of links as they should be, which all satisfy a condition. -/
def Faithful (records : RecordSet) (rows : List Row) (C : Link → Prop) (p : Pass) : Prop :=
  ∃ links, Built records rows links p ∧ ∀ l ∈ links, l.Expected records rows ∧ C l

theorem Faithful.attach {C : Link → Prop} {links : List Link} {l : Link}
    (h : Built records rows links p) (hlinks : ∀ l ∈ links, l.Expected records rows ∧ C l)
    (hi : l.index ∈ p.remaining) (hvalid : l.Valid records rows) (hclaimed : p.isClaimed l.key = false)
    (htemporary : ∀ t ∈ l.temporary?, t ∉ p.takenNames) (hl : l.Expected records rows ∧ C l) :
    Faithful records rows C (p.attach l) := by
  refine ⟨links ++ [l], h.attach hi hvalid hclaimed htemporary, fun l' hl' => ?_⟩
  rcases List.mem_append.1 hl' with hl' | hl'
  · exact hlinks l' hl'
  · exact List.mem_singleton.1 hl' ▸ hl

/-- A link of the second or the third stage is as it should be. -/
theorem Faithful.attach_link {C : Link → Prop} {links : List Link}
    (h : Built records rows links p) (hlinks : ∀ l ∈ links, l.Expected records rows ∧ C l)
    (hnodup : (rows.map (·.identifier)).Nodup) (hi : i ∈ p.remaining) (hrow : rows[i]? = some row)
    (hmem : (key, record) ∈ records.entries) (hguid : ∀ g, row.guid = some g → g = record.guid)
    (hpartner : partner? records rows row = some (key, record))
    (hname : record.identifier = row.identifier → row.guid = none)
    (hclaimed : p.isClaimed key = false) (hC : C (p.link i row key record)) :
    Settled records rows p i (p.attach (p.link i row key record)) ∧
      Faithful records rows C (p.attach (p.link i row key record)) := by
  have hvalid := link_valid (p := p) hrow hmem hguid
  have htreatment := h.link_treatment key (fun l hl => (hlinks l hl).1) hnodup hi hrow hname
  exact ⟨.attach _ rfl hvalid hclaimed notMem_of_link,
    .attach h hlinks hi hvalid hclaimed notMem_of_link ⟨⟨hrow, hpartner, htreatment⟩, hC⟩⟩

/-! ### The stages -/

section Stages

variable (hs : records.WellFormed) (hone : ∀ guid, (claimants rows guid).length ≤ 1)

include hs hone

/-- The first stage makes links as they should be. -/
theorem faithful_matchExactly (hp : Faithful records rows (·.row.guid ≠ none) p)
    (hi : i ∈ p.remaining) :
    Settled records rows p i (matchExactly records rows p i) ∧
      Faithful records rows (·.row.guid ≠ none) (matchExactly records rows p i) := by
  cases hexact : isExact records rows i with
  | false =>
    rw [matchExactly_of_not_isExact hexact]
    exact ⟨.skip, hp⟩
  | true =>
    obtain ⟨links, hbuilt, hlinks⟩ := hp
    obtain ⟨key, hkey⟩ := exists_keyAt_of_isExact hexact
    obtain ⟨row, guid, record, hrow, hguid, hkeyOf, hrecord, hmem, hsame⟩ := exists_of_keyAt hkey
    obtain ⟨row', guid', record', hrow', hguid', hrecord', hname⟩ := isExact_iff.1 hexact
    obtain rfl := Option.some.inj (hrow.symm.trans hrow')
    obtain rfl := Option.some.inj (hguid.symm.trans hguid')
    obtain rfl := Option.some.inj (hrecord.symm.trans hrecord')
    -- no row before this one claims the record, as only one row has its GUID
    have hclaimed : p.isClaimed key = false := hbuilt.isClaimed_eq_false hs
      (fun l hl => (hlinks l hl).1) (fun l hl => (hlinks l hl).2) hone hi hkey
    have hpartner : partner? records rows row = some (key, record) :=
      partner?_of_keyOfGuid? hguid hkeyOf hrecord
    have hnone : ∀ t ∈ (exactLink i row key record).temporary?, t ∉ p.takenNames := by
      rw [temporary?_exactLink]
      exact fun _ h => nomatch h
    have hvalid : (exactLink i row key record).Valid records rows :=
      exactLink_valid hrow hmem (fun g hg => hsame ▸ Option.some.inj (hg.symm.trans hguid)) hname
    have hexpected : (exactLink i row key record).Expected records rows := by
      refine ⟨hrow, hpartner, ?_⟩
      have hsome : row.guid ≠ none := by rw [hguid]; exact Option.some_ne_none guid
      simp only [exactLink, treatment, if_pos hname, hsome, ne_eq, not_false_eq_true, true_and]
    rw [matchExactly_attach hrow hguid hkeyOf hrecord hname]
    exact ⟨.attach _ rfl hvalid hclaimed hnone, Faithful.attach hbuilt hlinks hi hvalid hclaimed hnone
      ⟨hexpected, hguid ▸ Option.some_ne_none guid⟩⟩

/-- The second stage makes links as they should be, of the rows that the first one left. -/
theorem faithful_matchGuid (hnodup : (rows.map (·.identifier)).Nodup)
    (hp : Faithful records rows (·.row.guid ≠ none) p)
    (hi : i ∈ p.remaining) (hexact : isExact records rows i = false) :
    Settled records rows p i (matchGuid records rows p i) ∧
      Faithful records rows (·.row.guid ≠ none) (matchGuid records rows p i) := by
  cases hkey : keyAt records rows i with
  | none =>
    rw [matchGuid_of_keyAt_none hkey]
    exact ⟨.skip, hp⟩
  | some key =>
    obtain ⟨links, hbuilt, hlinks⟩ := hp
    obtain ⟨row, guid, record, hrow, hguid, hkeyOf, hrecord, hmem, hsame⟩ := exists_of_keyAt hkey
    have hclaimed : p.isClaimed key = false := hbuilt.isClaimed_eq_false hs
      (fun l hl => (hlinks l hl).1) (fun l hl => (hlinks l hl).2) hone hi hkey
    have hpartner : partner? records rows row = some (key, record) :=
      partner?_of_keyOfGuid? hguid hkeyOf hrecord
    have hname : record.identifier ≠ row.identifier := fun hname =>
      nomatch hexact.symm.trans (isExact_iff.2 ⟨row, guid, record, hrow, hguid, hrecord, hname⟩)
    rw [matchGuid_attach hrow hguid hkeyOf hrecord hclaimed]
    exact Faithful.attach_link hbuilt hlinks hnodup hi hrow hmem
      (fun g hg => hsame ▸ Option.some.inj (hg.symm.trans hguid)) hpartner
      (fun h => absurd h hname) hclaimed (hguid ▸ Option.some_ne_none guid)

end Stages

/-- When only rows without a GUID are left, a record is claimed by the row that has its GUID, or by
another row of its identifier. -/
theorem Built.isClaimed_eq_isNamed (hs : records.WellFormed) (h : Built records rows links p)
    (hexpected : ∀ l ∈ links, l.Expected records rows) (hnodup : (rows.map (·.identifier)).Nodup)
    (hguidless : ∀ j ∈ p.remaining, Guidless rows j) (hi : i ∈ p.remaining)
    (hrow : rows[i]? = some row) (hmem : (key, record) ∈ records.entries)
    (hname : record.identifier = row.identifier) :
    p.isClaimed key = isNamed records rows key := by
  have hiff : p.isClaimed key = true ↔ ∃ l ∈ links, l.key = key := by
    rw [← Bool.not_eq_false, Pass.isClaimed_eq_false h, not_not, List.mem_map]
  rw [Bool.eq_iff_iff, hiff, isNamed, List.any_eq_true]
  constructor
  · rintro ⟨l, hl, rfl⟩
    -- a linked row names its record by the GUID, or has none and the identifier of this row
    have hl' := hexpected l hl
    cases hguid : l.row.guid with
    | some guid =>
      have hpartner := hl'.partner_eq
      rw [partner?_of_guid hguid] at hpartner
      refine ⟨l.row, List.mem_of_getElem? hl'.row_eq, ?_⟩
      rw [hguid, Option.bind_some, keyOfGuid?_of_entryOfGuid? hpartner, beq_self_eq_true]
    | none =>
      obtain ⟨hentry, hlname⟩ := identifier_of_partner? hguid hl'.partner_eq
      obtain rfl : record = l.record := RecordSet.eq_of_mem_entries hs hmem hentry
      exact absurd (index_eq_of_identifier hnodup hl'.row_eq hrow (hlname.symm.trans hname))
        (h.index_ne hl hi)
  · rintro ⟨row', hrow', hkey⟩
    obtain ⟨j, hj⟩ := List.getElem?_of_mem hrow'
    have hkeyAt : keyAt records rows j = some key := by
      rw [keyAt, guidAt, hj, Option.bind_some, beq_iff_eq.1 hkey]
    have hguid : row'.guid ≠ none := by
      intro hnone
      rw [hnone] at hkey
      cases hkey
    -- the row that names the record is linked already, since all rows that are left have no GUID
    have hrange : j ∈ links.map (·.index) ++ p.remaining :=
      h.rows_perm.mem_iff.2 (List.mem_range.2 (List.getElem?_eq_some_iff.1 hj).1)
    rcases List.mem_append.1 hrange with hmem | hmem
    · obtain ⟨l, hl, rfl⟩ := List.mem_map.1 hmem
      have hl' := hexpected l hl
      obtain rfl := Option.some.inj (hl'.row_eq.symm.trans hj)
      exact ⟨l, hl, Option.some.inj ((hl'.keyAt hguid).symm.trans hkeyAt)⟩
    · exact absurd (hguidless j hmem row' hj) hguid

/-- The third stage makes links as they should be, and leaves a row only if it names no record. -/
theorem faithful_matchIdentifier (hs : records.WellFormed)
    (hnodup : (rows.map (·.identifier)).Nodup)
    (hp : Faithful records rows (fun _ => True) p) (hguidless : ∀ j ∈ p.remaining, Guidless rows j)
    (hi : i ∈ p.remaining) :
    Settled records rows p i (matchIdentifier records rows p i) ∧
      Faithful records rows (fun _ => True) (matchIdentifier records rows p i) ∧
      (i ∈ (matchIdentifier records rows p i).remaining → ∀ row, rows[i]? = some row →
        partner? records rows row = none) := by
  obtain ⟨links, hbuilt, hlinks⟩ := hp
  obtain ⟨row, hrow⟩ := hbuilt.exists_row_of_remaining hi
  have hguid : row.guid = none := hguidless i hi row hrow
  have hpartner : partner? records rows row = _ := partner?_of_none hguid
  have hsame : ∀ row', rows[i]? = some row' → row' = row := fun row' hrow' =>
    Option.some.inj (hrow'.symm.trans hrow)
  cases hkey : records.keyOfIdentifier? row.identifier with
  | none =>
    rw [entryOfIdentifier?, hkey, Option.bind_none, Option.filter_none] at hpartner
    rw [matchIdentifier_of_none hrow hkey]
    exact ⟨.skip, ⟨links, hbuilt, hlinks⟩, fun _ row' hrow' => hsame row' hrow' ▸ hpartner⟩
  | some key =>
    obtain ⟨record, hrecord, hmem, hname⟩ := RecordSet.exists_record_of_keyOfIdentifier? hkey
    -- whether the record is claimed by now does not depend on the order of the rows
    have hnamed := hbuilt.isClaimed_eq_isNamed hs (fun l hl => (hlinks l hl).1) hnodup hguidless hi
      hrow hmem hname
    rw [entryOfIdentifier?, hkey, hrecord, Option.bind_some, Option.map_some, Option.filter_some,
      ← hnamed] at hpartner
    cases hclaimed : p.isClaimed key with
    | true =>
      rw [hclaimed, Bool.not_true, if_neg Bool.false_ne_true] at hpartner
      rw [matchIdentifier_of_identifier hrow hkey hrecord, if_pos hclaimed]
      exact ⟨.skip, ⟨links, hbuilt, hlinks⟩, fun _ row' hrow' => hsame row' hrow' ▸ hpartner⟩
    | false =>
      rw [hclaimed, Bool.not_false, if_pos rfl] at hpartner
      rw [matchIdentifier_attach hrow hguid hkey hrecord hclaimed]
      obtain ⟨hsettled, hfaithful⟩ := Faithful.attach_link (C := fun _ => True) hbuilt hlinks hnodup hi
        hrow hmem (fun g hg => nomatch hguid.symm.trans hg) hpartner (fun _ => hguid) hclaimed trivial
      -- the row is linked, so it is not among those that are left
      refine ⟨hsettled, hfaithful, fun hleft => ?_⟩
      have hgone := (List.mem_filter.1 hleft).2
      rw [show (p.link i row key record).index = i from rfl, bne_self_eq_false] at hgone
      cases hgone

/-- The state after the first three stages: the links are as they should be, and a row that is left
has no GUID and names no record. -/
theorem exists_built_stages (hs : records.WellFormed) (hfaults : tableFaults records rows = [])
    (hone : ∀ guid, (claimants rows guid).length ≤ 1) :
    ∃ links, Built records rows links (forRemaining (matchIdentifier records rows)
        (forRemaining (matchGuid records rows)
          (forRemaining (matchExactly records rows) (start records rows)))) ∧
      (∀ l ∈ links, l.Expected records rows) ∧
      ∀ i ∈ (forRemaining (matchIdentifier records rows) (forRemaining (matchGuid records rows)
          (forRemaining (matchExactly records rows) (start records rows)))).remaining,
        ∀ row, rows[i]? = some row → row.guid = none ∧ partner? records rows row = none := by
  have hnodup := nodup_of_tableFaults hfaults
  have hknown : Known records rows := fun row hrow guid hguid =>
    keyOfGuid?_of_tableFaults hfaults hrow hguid
  -- the first stage
  obtain ⟨hexact, -, -⟩ := forRemaining_visits (V := fun _ _ => True)
    (fun p i hp hi => and_assoc.1 ⟨faithful_matchExactly hs hone hp hi, trivial⟩)
    (fun _ _ _ _ _ _ => trivial) List.nodup_range
    ⟨[], built_start records rows, fun _ h => nomatch h⟩
  have hleft := remaining_exact records rows
  generalize forRemaining (matchExactly records rows) (start records rows) = p at hexact hleft ⊢
  have hpnodup : p.remaining.Nodup := hleft ▸ List.nodup_range.filter _
  have hpleft : ∀ i ∈ p.remaining, isExact records rows i = false := fun i hi => by
    rw [hleft] at hi
    exact Bool.not_eq_true' _ ▸ (List.mem_filter.1 hi).2
  -- the second stage
  obtain ⟨-, hnodupGuid, hguidless⟩ :=
    consistent_guid hknown (fun _ => hexact.imp fun _ h => h.1) hpnodup
  obtain ⟨⟨hguid, -⟩, -, -⟩ := forRemaining_visits (V := fun _ _ => True)
    (P := fun p => Faithful records rows (·.row.guid ≠ none) p ∧
      ∀ i ∈ p.remaining, isExact records rows i = false)
    (fun p i hp hi => by
      obtain ⟨hsettled, hfaithful⟩ := faithful_matchGuid hs hone hnodup hp.1 hi (hp.2 i hi)
      exact ⟨hsettled, ⟨hfaithful, fun j hj => hp.2 j (hsettled.sublist.subset hj)⟩, trivial⟩)
    (fun _ _ _ _ _ _ => trivial) hpnodup ⟨hexact, hpleft⟩
  generalize forRemaining (matchGuid records rows) p = p at hguid hnodupGuid hguidless ⊢
  -- the third stage
  have hstart : Faithful records rows (fun _ => True) p :=
    hguid.imp fun _ h => ⟨h.1, fun l hl => ⟨(h.2 l hl).1, trivial⟩⟩
  obtain ⟨⟨⟨links, hbuilt, hlinks⟩, hleft⟩, -, hnone⟩ := forRemaining_visits
    (V := fun p i => i ∈ p.remaining → ∀ row, rows[i]? = some row → partner? records rows row = none)
    (P := fun p => Faithful records rows (fun _ => True) p ∧ ∀ i ∈ p.remaining, Guidless rows i)
    (fun p i hp hi => by
      obtain ⟨hsettled, hfaithful, hnone⟩ := faithful_matchIdentifier hs hnodup hp.1 hp.2 hi
      exact ⟨hsettled, ⟨hfaithful, fun j hj => hp.2 j (hsettled.sublist.subset hj)⟩, hnone⟩)
    (fun _ _ _ _ hsettled hj hmem => hj (hsettled.sublist.subset hmem)) hnodupGuid
    ⟨hstart, hguidless⟩
  exact ⟨links, hbuilt, fun l hl => (hlinks l hl).1, fun i hi row hrow =>
    ⟨hleft i hi row hrow, hnone i hi hi row hrow⟩⟩

/-! ### What is left over -/

theorem filterMap_getElem?_range (rows : List Row) :
    (List.range rows.length).filterMap (rows[·]?) = rows := by
  induction rows with
  | nil => rfl
  | cons row rows ih =>
    rw [List.length_cons, List.range_succ_eq_map, List.filterMap_cons_some (List.getElem?_cons_zero),
      List.filterMap_map]
    exact congrArg _ ih

/-- The rows are those of the links and those that are left. -/
theorem Built.perm_rows (h : Built records rows links p) :
    rows.Perm (links.map (·.row) ++ p.remaining.filterMap (rows[·]?)) := by
  have hlinks : (links.map (·.index)).filterMap (rows[·]?) = links.map (·.row) := by
    rw [List.filterMap_map, ← List.filterMap_eq_map]
    exact List.filterMap_congr fun l hl => (h.valid l hl).row_eq
  have hperm := (h.rows_perm.filterMap (rows[·]?)).symm
  rwa [filterMap_getElem?_range, List.filterMap_append, hlinks] at hperm

variable (h : Built records rows links p) (hlinks : ∀ l ∈ links, l.Expected records rows)
  (hleft : ∀ i ∈ p.remaining, ∀ row, rows[i]? = some row →
    row.guid = none ∧ partner? records rows row = none)

include h hlinks hleft

/-- The rows that name no record are those that are left. -/
theorem Built.length_spare : (spare records rows).length = p.remaining.length := by
  have hlinked : (links.map (·.row)).filter (fun row => (partner? records rows row).isNone) = [] := by
    rw [List.filter_eq_nil_iff]
    intro row hrow
    obtain ⟨l, hl, rfl⟩ := List.mem_map.1 hrow
    rw [(hlinks l hl).partner_eq]
    exact Bool.false_ne_true
  have hothers : (p.remaining.filterMap (rows[·]?)).filter
      (fun row => (partner? records rows row).isNone) = p.remaining.filterMap (rows[·]?) := by
    rw [List.filter_eq_self]
    intro row hrow
    obtain ⟨i, hi, hrow⟩ := List.mem_filterMap.1 hrow
    rw [(hleft i hi row hrow).2, Option.isNone_none]
  have hperm := h.perm_rows.filter fun row => (partner? records rows row).isNone
  rw [List.filter_append, hlinked, hothers, List.nil_append] at hperm
  refine hperm.length_eq.trans (List.filterMap_length_eq_length.2 fun i hi => ?_)
  exact Option.isSome_iff_exists.2 (h.exists_row_of_remaining hi)

/-- The records that no row names are those without a link. -/
theorem Built.orphans_eq : orphans records rows = p.unclaimed records := by
  unfold orphans unclaimed
  refine List.filter_congr fun e _ => congrArg _ ?_
  have hiff : p.isClaimed e.1 = true ↔ ∃ l ∈ links, l.key = e.1 := by
    rw [← Bool.not_eq_false, Pass.isClaimed_eq_false h, not_not, List.mem_map]
  rw [Bool.eq_iff_iff, hiff, List.any_eq_true]
  constructor
  · rintro ⟨row, hrow, hpartner⟩
    obtain ⟨e', he', hkey⟩ := (Option.any_eq_true _ _).1 hpartner
    rcases List.mem_append.1 (h.perm_rows.mem_iff.1 hrow) with hmem | hmem
    · obtain ⟨l, hl, rfl⟩ := List.mem_map.1 hmem
      obtain rfl := Option.some.inj ((hlinks l hl).partner_eq.symm.trans he')
      exact ⟨l, hl, beq_iff_eq.1 hkey⟩
    · obtain ⟨i, hi, hrow⟩ := List.mem_filterMap.1 hmem
      exact nomatch (hleft i hi row hrow).2.symm.trans he'
  · rintro ⟨l, hl, hkey⟩
    refine ⟨l.row, List.mem_of_getElem? (hlinks l hl).row_eq, ?_⟩
    rw [(hlinks l hl).partner_eq, Option.any_some, hkey, beq_self_eq_true]

omit h hlinks hleft

theorem matchLeftover_eq_self
    (h : ¬(p.remaining.length = 1 ∧ (p.unclaimed records).length = 1)) :
    matchLeftover records rows p = p := by
  unfold matchLeftover
  split
  · next hremaining hunclaimed =>
    rw [hremaining, hunclaimed] at h
    exact absurd ⟨rfl, rfl⟩ h
  · rfl

end Pass

open Pass

theorem linkOf?_of_mate? {l : Link} (hrow : rows[l.index]? = some l.row)
    (hmate : mate? records rows l.row = some (l.key, l.record))
    (htreatment : l.treatment = treatment records rows l.row l.record) :
    linkOf? records rows l.index = some l := by
  rw [linkOf?, hrow, Option.bind_some, hmate, Option.map_some, ← htreatment]

theorem Link.Expected.linkOf? {l : Link} (h : l.Expected records rows) :
    linkOf? records rows l.index = some l := by
  refine linkOf?_of_mate? h.row_eq ?_ h.treatment_eq
  rw [mate?, h.partner_eq, Option.some_or]

/-- **What a matching comes to.**  It links each row with the record that the row stands for. -/
theorem exists_built_matchAll (hs : records.WellFormed) (hfaults : tableFaults records rows = [])
    (hone : ∀ guid, (claimants rows guid).length ≤ 1) :
    ∃ links, Built records rows links (matchAll records rows) ∧
      (∀ l ∈ links, linkOf? records rows l.index = some l) ∧
      ∀ i ∈ (matchAll records rows).remaining, linkOf? records rows i = none := by
  obtain ⟨links, hbuilt, hlinks, hleft⟩ := exists_built_stages hs hfaults hone
  unfold matchAll
  generalize forRemaining (matchIdentifier records rows) (forRemaining (matchGuid records rows)
    (forRemaining (matchExactly records rows) (start records rows))) = p at hbuilt hleft ⊢
  have hspare := hbuilt.length_spare hlinks hleft
  have horphans := hbuilt.orphans_eq hlinks hleft
  by_cases hsingle : p.remaining.length = 1 ∧ (p.unclaimed records).length = 1
  -- one row and one record are left, and they are matched with each other
  · obtain ⟨i, hremaining⟩ := List.length_eq_one_iff.1 hsingle.1
    obtain ⟨⟨key, record⟩, hunclaimed⟩ := List.length_eq_one_iff.1 hsingle.2
    have hi : i ∈ p.remaining := hremaining ▸ List.mem_singleton_self i
    obtain ⟨row, hrow⟩ := hbuilt.exists_row_of_remaining hi
    obtain ⟨hguid, hpartner⟩ := hleft i hi row hrow
    have hmem : (key, record) ∈ p.unclaimed records := hunclaimed ▸ List.mem_singleton_self _
    obtain ⟨hentry, hclaimed⟩ := List.mem_filter.1 hmem
    have htreatment : (p.link i row key record).treatment = treatment records rows row record :=
      hbuilt.link_treatment key hlinks (nodup_of_tableFaults hfaults) hi hrow fun _ => hguid
    have hmate : mate? records rows row = some (key, record) := by
      rw [mate?, hpartner, Option.none_or, if_pos ⟨hspare.trans hsingle.1, horphans ▸ hsingle.2⟩,
        horphans, hunclaimed, List.head?_cons]
    rw [matchLeftover_attach hremaining hunclaimed hrow hguid]
    refine ⟨links ++ [p.link i row key record], hbuilt.attach hi (link_valid hrow
      (List.mem_mergeSort.1 hentry) fun g hg => nomatch hguid.symm.trans hg)
      (by simpa [link] using hclaimed) notMem_of_link, fun l hl => ?_, fun j hj => ?_⟩
    · rcases List.mem_append.1 hl with hl | hl
      · exact (hlinks l hl).linkOf?
      · obtain rfl := List.mem_singleton.1 hl
        exact linkOf?_of_mate? hrow hmate htreatment
    -- no row is left then
    · obtain ⟨hj, hne⟩ := List.mem_filter.1 hj
      rw [hremaining, List.mem_singleton] at hj
      rw [hj, show (p.link i row key record).index = i from rfl, bne_self_eq_false] at hne
      cases hne
  · rw [matchLeftover_eq_self hsingle]
    refine ⟨links, hbuilt, fun l hl => (hlinks l hl).linkOf?, fun i hi => ?_⟩
    rw [linkOf?, Option.bind_eq_none_iff]
    intro row hrow
    rw [mate?, (hleft i hi row hrow).2, Option.none_or, hspare, horphans, if_neg hsingle,
      Option.map_none]

theorem index_of_linkOf? {i : Nat} {l : Link} (h : linkOf? records rows i = some l) : l.index = i := by
  obtain ⟨row, -, hmap⟩ := Option.bind_eq_some_iff.1 h
  obtain ⟨e, -, rfl⟩ := Option.map_eq_some_iff.1 hmap
  rfl

/-- The temporary identifier for a row is a candidate for the identifier of the row. -/
theorem temporary_of_linkOf? {i : Nat} {l : Link} (h : linkOf? records rows i = some l) {t : String}
    (ht : l.temporary? = some t) : ∃ n, t = Pass.temporaryName l.row.identifier n := by
  obtain ⟨row, -, hmap⟩ := Option.bind_eq_some_iff.1 h
  obtain ⟨e, -, rfl⟩ := Option.map_eq_some_iff.1 hmap
  exact Link.temporary_of_treatment rfl ht

theorem nodup_filterMap_linkOf? : ((List.range rows.length).filterMap (linkOf? records rows)).Nodup := by
  refine List.Nodup.filterMap (fun i j l hi hj => ?_) List.nodup_range
  rw [← index_of_linkOf? hi, ← index_of_linkOf? hj]

/-- **The links of a matching** are those of the rows that stand for a record, and the rows that are
left are the others. -/
theorem exists_links_perm (hs : records.WellFormed) (hfaults : tableFaults records rows = [])
    (hone : ∀ guid, (claimants rows guid).length ≤ 1) :
    ∃ links, Built records rows links (matchAll records rows) ∧
      links.Perm ((List.range rows.length).filterMap (linkOf? records rows)) ∧
      (matchAll records rows).remaining.Perm
        ((List.range rows.length).filter fun i => (linkOf? records rows i).isNone) := by
  obtain ⟨links, hbuilt, hlinks, hleft⟩ := exists_built_matchAll hs hfaults hone
  -- each row is linked, or it is left over, and never both
  have hnodup : links.Nodup := by
    have hindices := (List.nodup_append.1 (hbuilt.rows_perm.nodup_iff.2 List.nodup_range)).1
    exact hindices.of_map _
  have hcases : ∀ i, i < rows.length →
      (∃ l ∈ links, l.index = i) ∨ i ∈ (matchAll records rows).remaining := by
    intro i hi
    have hmem := hbuilt.rows_perm.mem_iff.2 (List.mem_range.2 hi)
    exact (List.mem_append.1 hmem).imp_left List.mem_map.1
  have hlt : ∀ i, (∃ l ∈ links, l.index = i) ∨ i ∈ (matchAll records rows).remaining →
      i < rows.length := fun i hi => List.mem_range.1 (hbuilt.rows_perm.mem_iff.1
        (List.mem_append.2 (hi.imp_left List.mem_map.2)))
  refine ⟨links, hbuilt, ?_, ?_⟩
  -- the links are those that the rows should have
  · refine (List.perm_ext_iff_of_nodup hnodup nodup_filterMap_linkOf?).2 fun l => ?_
    rw [List.mem_filterMap]
    constructor
    · intro hl
      exact ⟨l.index, List.mem_range.2 (hlt _ (Or.inl ⟨l, hl, rfl⟩)), hlinks l hl⟩
    · rintro ⟨i, hi, hlink⟩
      rcases hcases i (List.mem_range.1 hi) with ⟨l', hl', rfl⟩ | hmem
      · rwa [← Option.some.inj ((hlinks l' hl').symm.trans hlink)]
      · exact nomatch (hleft i hmem).symm.trans hlink
  -- the rows that are left are those that should have none
  · refine (List.perm_ext_iff_of_nodup hbuilt.nodup_remaining (List.nodup_range.filter _)).2
      fun i => ?_
    rw [List.mem_filter, List.mem_range, Option.isNone_iff_eq_none]
    constructor
    · intro hi
      exact ⟨hlt i (Or.inr hi), hleft i hi⟩
    · rintro ⟨hi, hnone⟩
      refine (hcases i hi).resolve_left ?_
      rintro ⟨l, hl, rfl⟩
      exact nomatch hnone.symm.trans (hlinks l hl)

/-- The plan of a reconciliation carries out a settlement that links just those rows that stand for a
record, each with that record. -/
theorem exists_accounts_of_linkOf? {settings : Settings} {supply supply' : GuidSupply} {plan : Plan}
    (hs : records.WellFormed) (hsupply : supply.FreshFor records)
    (h : reconcile settings supply records rows = (.ok plan, supply')) :
    ∃ s : Settlement, (∀ l, l ∈ s.links ↔ linkOf? records rows l.index = some l) ∧
      s.Accounts records rows plan ∧
      ((records.records.map (·.identifier)).Nodup → s.Settles records rows plan) ∧
        IsHome settings records s.directory ∧
        ∀ e ∈ s.created, ∃ n, supply.used ≤ n ∧ e.2 = supply.next n := by
  obtain ⟨-, hfaults, directory, -, herrors, -⟩ := reconcile_eq_ok h
  rw [(createAll_spec directory supply (matchAll records rows)).2.2.2, errors_matchAll hs hfaults]
    at herrors
  obtain ⟨links, hbuilt, hlinks, -⟩ := exists_links_perm hs hfaults (conflicts_eq_nil_iff.1 herrors)
  obtain ⟨s, rfl, haccounts⟩ := exists_accounts_of_built hs hsupply h hbuilt
  refine ⟨s, fun l => ⟨fun hl => ?_, fun hlink => hlinks.mem_iff.2 ?_⟩, haccounts⟩
  · obtain ⟨i, -, hlink⟩ := List.mem_filterMap.1 (hlinks.subset hl)
    rwa [index_of_linkOf? hlink]
  · obtain ⟨row, hrow, -⟩ := Option.bind_eq_some_iff.1 hlink
    exact List.mem_filterMap.2
      ⟨l.index, List.mem_range.2 (List.getElem?_eq_some_iff.1 hrow).1, hlink⟩

end RecordTables.Matcher
