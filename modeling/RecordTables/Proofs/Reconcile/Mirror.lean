import RecordTables.Proofs.Reconcile.Verdicts

/-!
# Rows that say what their records say

`Mirrors records rows`: each row has the GUID, the identifier and the hash of a record, and there are
no other records.  Then there is nothing to reconcile (`reconcile_of_mirrors`): the plan is empty, and
no GUID is taken from the supply.

Every row stands for the record of its GUID, whose hash is that of the row (`linkOf?_of_mirrors`), so
all links of the matching keep their records.
-/

namespace RecordTables.Matcher

open Pass

variable {records : RecordSet} {rows : List Row}

/-- Rows and records say the same of each other: the identifiers of the rows are distinct and not
blank, each row has the GUID of a record with its identifier and its hash, and there are as many rows
as records. -/
structure Mirrors (records : RecordSet) (rows : List Row) : Prop where
  length_eq : records.records.length = rows.length
  named : ∀ row ∈ rows, Text.isBlankText row.identifier = false
  distinct : (rows.map (·.identifier)).Nodup
  paired : ∀ row ∈ rows, ∃ r ∈ records.records, row.guid = some r.guid ∧
    r.identifier = row.identifier ∧ r.contentHash = some row.contentHash

namespace Mirrors

variable (h : Mirrors records rows)

include h

theorem tableFaults_eq_nil : tableFaults records rows = [] := by
  rw [tableFaults_eq_nil_iff]
  rintro (⟨row, hrow, hblank⟩ | hrepeated | ⟨row, hrow, guid, hguid, hunknown⟩)
  · simp [h.named row hrow] at hblank
  · exact hrepeated h.distinct
  · obtain ⟨r, hr, hsame, -, -⟩ := h.paired row hrow
    rw [hsame] at hguid
    apply hunknown
    rw [← Option.some.inj hguid]
    exact List.mem_map_of_mem hr

variable (hguids : (records.records.map (·.guid)).Nodup)

include hguids

/-- No two rows have one GUID: its record is called like both. -/
theorem length_claimants_le (guid : Guid) : (claimants rows guid).length ≤ 1 := by
  by_contra hmore
  obtain ⟨i, j, others, hrows⟩ : ∃ i j others, claimants rows guid = i :: j :: others := by
    match hrows : claimants rows guid with
    | [] | [_] => simp [hrows] at hmore
    | i :: j :: others => exact ⟨i, j, others, rfl⟩
  have hrecord (k : Nat) (hk : k ∈ claimants rows guid) : ∃ row r, rows[k]? = some row ∧
      r ∈ records.records ∧ r.guid = guid ∧ r.identifier = row.identifier := by
    obtain ⟨row, hrow, hguid⟩ := Option.bind_eq_some_iff.1 (mem_claimants.1 hk)
    obtain ⟨r, hr, hsame, hname, -⟩ := h.paired row (List.mem_of_getElem? hrow)
    rw [hsame] at hguid
    exact ⟨row, r, hrow, hr, Option.some.inj hguid, hname⟩
  obtain ⟨row, r, hrow, hr, hguid, hname⟩ := hrecord i (by simp [hrows])
  obtain ⟨row', r', hrow', hr', hguid', hname'⟩ := hrecord j (by simp [hrows])
  have hsame : r = r' := List.inj_on_of_nodup_map hguids hr hr' (hguid.trans hguid'.symm)
  subst hsame
  have hij : i = j := index_eq_of_identifier h.distinct hrow hrow' (hname.symm.trans hname')
  have hsorted := sorted_claimants rows guid
  rw [hrows, hij] at hsorted
  exact absurd (List.rel_of_pairwise_cons hsorted List.mem_cons_self) (Nat.lt_irrefl j)

/-- **Every row stands for the record of its GUID**, which is kept as it is. -/
theorem linkOf? {i : Nat} {row : Row} (hrow : rows[i]? = some row) :
    ∃ l, Matcher.linkOf? records rows i = some l ∧ l.treatment = .keep ∧ l.row.guid ≠ none := by
  obtain ⟨r, hr, hguid, hname, hhash⟩ := h.paired row (List.mem_of_getElem? hrow)
  obtain ⟨key, hkey⟩ : ∃ key, records.keyOfGuid? r.guid = some key := by
    rw [← Option.ne_none_iff_exists']
    intro hnone
    exact keyOfGuid?_eq_none_iff.1 hnone (List.mem_map_of_mem hr)
  have hentry : entryOfGuid? records r.guid = some (key, r) := by
    simp [entryOfGuid?, hkey, RecordSet.ofGuid?_of_mem hguids hr]
  have hmate : mate? records rows row = some (key, r) := by
    rw [mate?, partner?_of_guid hguid, hentry, Option.some_or]
  have htreatment : treatment records rows row r = .keep := by
    simp [treatment, hname, hhash, hguid]
  refine ⟨⟨i, row, key, r, .keep⟩, ?_, rfl, by simp [hguid]⟩
  rw [Matcher.linkOf?, hrow, Option.bind_some, hmate, Option.map_some, htreatment]

/-- The stages link all rows with all records, and plan nothing. -/
theorem matchAll (hs : records.WellFormed) :
    (matchAll records rows).remaining = [] ∧ (matchAll records rows).actions = [] ∧
      (matchAll records rows).backfilled = [] ∧ (matchAll records rows).unclaimed records = [] := by
  obtain ⟨links, hbuilt, hperm, hleft⟩ :=
    exists_links_perm hs h.tableFaults_eq_nil (h.length_claimants_le hguids)
  have hrow (i : Nat) (hi : i ∈ List.range rows.length) : ∃ row, rows[i]? = some row :=
    ⟨_, List.getElem?_eq_getElem (List.mem_range.1 hi)⟩
  have hremaining : (Matcher.matchAll records rows).remaining = [] := by
    refine List.Perm.eq_nil (hleft.trans (List.Perm.of_eq (List.filter_eq_nil_iff.2 ?_)))
    intro i hi
    obtain ⟨row, hrow⟩ := hrow i hi
    obtain ⟨l, hl, -, -⟩ := h.linkOf? hguids hrow
    simp [hl]
  have hlinks : ∀ l ∈ links, l.treatment = .keep ∧ l.row.guid ≠ none := by
    intro l hl
    obtain ⟨i, hi, hlink⟩ := List.mem_filterMap.1 (hperm.subset hl)
    obtain ⟨row, hrow⟩ := hrow i hi
    obtain ⟨l', hl', hkeep, hguid⟩ := h.linkOf? hguids hrow
    rw [hlink] at hl'
    rw [Option.some.inj hl']
    exact ⟨hkeep, hguid⟩
  refine ⟨hremaining, ?_, ?_, ?_⟩
  · rw [hbuilt.actions, List.filterMap_eq_nil_iff]
    intro l hl
    rw [Link.action?, (hlinks l hl).1]
  · rw [hbuilt.backfilled, List.filterMap_eq_nil_iff]
    intro l hl
    rw [Link.backfill?, if_neg (hlinks l hl).2]
  · -- there are as many links as rows, so all records are linked
    have hall := (records_perm hs hbuilt).length_eq
    have hindices := hbuilt.rows_perm.length_eq
    rw [hremaining] at hindices
    simp only [List.length_append, List.length_map, List.append_nil, List.length_range] at hall hindices
    rw [h.length_eq, hindices] at hall
    exact List.length_eq_zero_iff.1 (by omega)

end Mirrors

/-- **There is nothing to reconcile** if the rows say what their records say. -/
theorem reconcile_of_mirrors {settings : Settings} (hs : records.WellFormed)
    (hguids : (records.records.map (·.guid)).Nodup) (h : Mirrors records rows)
    (hactive : ∀ stage, settings.cancelled stage = false) (supply : GuidSupply) :
    reconcile settings supply records rows = (.ok (.empty records.recordType), supply) := by
  obtain ⟨hremaining, hactions, hbackfilled, hunclaimed⟩ := h.matchAll hguids hs
  have herrors : (matchAll records rows).errors = [] := by
    rw [errors_matchAll hs h.tableFaults_eq_nil, conflicts_eq_nil_iff]
    exact h.length_claimants_le hguids
  obtain ⟨directory, heq⟩ := reconcile_eq_of_no_faults hactive supply h.tableFaults_eq_nil
  -- no row is left for a new record, and no record for a deletion
  have hcreate : createAll directory supply (matchAll records rows) =
      (matchAll records rows, supply) := by
    rw [createAll, hremaining, List.foldl_nil]
  rw [heq, hcreate]
  simp [deleteAll, hunclaimed, hactions, hbackfilled, herrors, Plan.empty]

end RecordTables.Matcher
