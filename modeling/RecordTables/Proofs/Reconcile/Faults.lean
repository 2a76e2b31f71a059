import RecordTables.Proofs.Reconcile.Bookkeeping

/-!
# Why a reconciliation fails

Rows are at fault as a whole (`Faulty`) if an identifier is blank, if two rows share one, or if a
GUID is that of no record; `tableFaults_eq` tells all that is reported then.  Otherwise a
reconciliation fails if and only if a GUID is on several rows.  One of these rows, the keeper
(`keeper?`), stands for the record, and all others are reported (`conflicts`).

Two invariants carry this through the stages: which records are claimed after the rows of a list are
visited (`foldl_matchExactly`, `isClaimed_foldl_matchGuid`), and so which rows were at fault
(`errors_foldl_matchGuid`).  `reconcile_fails_as_due` assembles them.
-/

namespace RecordTables.Matcher

variable {records : RecordSet} {rows : List Row}

/-! ### Rows at fault as a whole -/

/-- An identifier is blank, two rows share one, or a GUID is that of no record. -/
def Faulty (records : RecordSet) (rows : List Row) : Prop :=
  (∃ row ∈ rows, Text.isBlankText row.identifier = true) ∨
    ¬(rows.map (·.identifier)).Nodup ∨
    ∃ row ∈ rows, ∃ guid, row.guid = some guid ∧ guid ∉ records.records.map (·.guid)

/-- The lines of the rows of an identifier. -/
def linesWith (rows : List Row) (identifier : String) : List Nat :=
  (rows.filter (·.identifier == identifier)).map (·.line)

/-- The identifiers of several rows that are not blank, in order. -/
def repeatedIdentifiers (rows : List Row) : List String :=
  ((linesByIdentifier rows).entries.filter (fun e => 1 < e.2.length)).map (·.1)

theorem keyOfGuid?_eq_none_iff {guid : Guid} :
    records.keyOfGuid? guid = none ↔ guid ∉ records.records.map (·.guid) := by
  unfold RecordSet.keyOfGuid?
  rw [RecordSet.findKey?_eq_none, List.mem_map, not_exists]
  simp only [beq_eq_false_iff_ne, not_and]

/-- The lines that are noted for an identifier are those of its rows, if it is not blank. -/
theorem linesOf_linesByIdentifier (rows : List Row) (identifier : String) :
    linesOf (linesByIdentifier rows) identifier =
      if Text.isBlankText identifier = true then [] else linesWith rows identifier := by
  unfold linesByIdentifier linesWith
  rw [linesOf_foldl, List.filter_filter]
  refine (List.nil_append _).trans ?_
  split_ifs with hblank
  · rw [List.map_eq_nil_iff, List.filter_eq_nil_iff]
    intro row _ h
    rw [Bool.and_eq_true, beq_iff_eq, Bool.not_eq_true'] at h
    rw [h.1, hblank] at h
    cases h.2
  · refine congrArg _ (List.filter_congr fun row _ => ?_)
    by_cases h : row.identifier = identifier
    · rw [h, Bool.eq_false_iff.2 hblank, Bool.not_false, Bool.and_true]
    · rw [beq_eq_false_iff_ne.2 h, Bool.false_and]

theorem linesOf_of_mem {m : NameMap (List Nat)} {e : String × List Nat} (h : e ∈ m.entries) :
    linesOf m e.1 = e.2 := by
  unfold linesOf
  rw [NameMap.find?_of_mem_entries h, Option.getD_some]

theorem mem_repeatedIdentifiers {identifier : String} :
    identifier ∈ repeatedIdentifiers rows ↔
      Text.isBlankText identifier = false ∧ 2 ≤ (linesWith rows identifier).length := by
  have hlines := linesOf_linesByIdentifier rows identifier
  unfold repeatedIdentifiers
  constructor
  · intro h
    obtain ⟨e, he, rfl⟩ := List.mem_map.1 h
    obtain ⟨hmem, hlength⟩ := List.mem_filter.1 he
    rw [linesOf_of_mem hmem] at hlines
    split_ifs at hlines with hblank
    · rw [hlines] at hlength
      cases hlength
    · rw [hlines] at hlength
      exact ⟨Bool.eq_false_iff.2 hblank, of_decide_eq_true hlength⟩
  · rintro ⟨hblank, hlength⟩
    rw [if_neg (Bool.eq_false_iff.1 hblank)] at hlines
    unfold linesOf at hlines
    -- the lines of an identifier are those that its entry lists
    cases hfind : (linesByIdentifier rows).find? identifier with
    | none =>
      rw [hfind, Option.getD_none] at hlines
      rw [← hlines] at hlength
      cases hlength
    | some lines =>
      rw [hfind, Option.getD_some] at hlines
      refine List.mem_map.2 ⟨(identifier, lines), List.mem_filter.2
        ⟨NameMap.mem_entries_of_find? hfind, decide_eq_true ?_⟩, rfl⟩
      rwa [hlines]

theorem sorted_repeatedIdentifiers (rows : List Row) :
    (repeatedIdentifiers rows).Pairwise (· < ·) :=
  List.pairwise_map.2 ((linesByIdentifier rows).sorted.filter _)

/-- **What is reported of rows at fault.** -/
theorem tableFaults_eq (records : RecordSet) (rows : List Row) :
    tableFaults records rows = rows.flatMap (rowFaults records) ++
      (repeatedIdentifiers rows).map fun x => .duplicateIdentifier x (linesWith rows x) := by
  unfold tableFaults
  refine congrArg _ ?_
  rw [repeatedIdentifiers, List.map_map]
  refine List.map_congr_left fun e he => ?_
  have hrepeated : e.1 ∈ repeatedIdentifiers rows := List.mem_map_of_mem he
  have hblank := Bool.eq_false_iff.1 (mem_repeatedIdentifiers.1 hrepeated).1
  have hlines := linesOf_linesByIdentifier rows e.1
  rw [if_neg hblank, linesOf_of_mem (List.mem_filter.1 he).1] at hlines
  rw [Function.comp_apply, ← hlines]

/-- What is reported of a row by itself. -/
theorem rowFaults_eq (records : RecordSet) (row : Row) :
    rowFaults records row =
      (if Text.isBlankText row.identifier then [.blankIdentifier row.line] else []) ++
        (row.guid.toList.filter (· ∉ records.records.map (·.guid))).map (.unknownGuid row.line) := by
  unfold rowFaults
  refine congrArg _ ?_
  cases row.guid with
  | none => rfl
  | some guid =>
    dsimp only [Option.toList_some]
    split_ifs with h
    · have hunknown := keyOfGuid?_eq_none_iff.1 (Option.isNone_iff_eq_none.1 h)
      rw [List.filter_cons_of_pos (by simpa using hunknown)]
      rfl
    · have hknown : ¬guid ∉ records.records.map (·.guid) := fun hunknown =>
        h (Option.isNone_iff_eq_none.2 (keyOfGuid?_eq_none_iff.2 hunknown))
      rw [List.filter_cons_of_neg (by simpa using hknown)]
      rfl

theorem rowFaults_eq_nil_iff {row : Row} :
    rowFaults records row = [] ↔ Text.isBlankText row.identifier = false ∧
      ∀ guid, row.guid = some guid → guid ∈ records.records.map (·.guid) := by
  rw [rowFaults_eq, List.append_eq_nil_iff, List.map_eq_nil_iff, List.filter_eq_nil_iff]
  refine and_congr (by simp) (forall_congr' fun guid => ?_)
  simp only [Option.mem_toList, decide_eq_true_eq, not_not]

/-- Distinct identifiers have one line each. -/
theorem length_linesWith_le (h : (rows.map (·.identifier)).Nodup) (identifier : String) :
    (linesWith rows identifier).length ≤ 1 := by
  have hcount := List.nodup_iff_count_le_one.1 h identifier
  rw [List.count, List.countP_map, List.countP_eq_length_filter] at hcount
  unfold linesWith
  rwa [List.length_map]

theorem tableFaults_eq_nil_iff : tableFaults records rows = [] ↔ ¬Faulty records rows := by
  constructor
  · rintro h (⟨row, hrow, hblank⟩ | hrepeated | ⟨row, hrow, guid, hguid, hunknown⟩)
    · exact Bool.eq_false_iff.1 (isBlankText_of_tableFaults h hrow) hblank
    · exact hrepeated (nodup_of_tableFaults h)
    · obtain ⟨key, hkey⟩ := keyOfGuid?_of_tableFaults h hrow hguid
      exact nomatch (keyOfGuid?_eq_none_iff.2 hunknown).symm.trans hkey
  · intro h
    unfold Faulty at h
    push Not at h
    obtain ⟨hblank, hnodup, hknown⟩ := h
    rw [tableFaults_eq, List.append_eq_nil_iff, List.flatMap_eq_nil_iff, List.map_eq_nil_iff]
    refine ⟨fun row hrow => rowFaults_eq_nil_iff.2
      ⟨Bool.eq_false_iff.2 (hblank row hrow), hknown row hrow⟩, ?_⟩
    refine List.eq_nil_iff_forall_not_mem.2 fun x hx => ?_
    have hlength := (mem_repeatedIdentifiers.1 hx).2
    exact absurd (length_linesWith_le hnodup x) (Nat.not_le.2 hlength)

/-! ### The rows of a GUID -/

/-- The GUID of the row of a number. -/
def guidAt (rows : List Row) (i : Nat) : Option Guid := rows[i]?.bind (·.guid)

/-- The numbers of the rows with a GUID. -/
def claimants (rows : List Row) (guid : Guid) : List Nat :=
  (List.range rows.length).filter (guidAt rows · == some guid)

/-- Whether the record of the GUID of a row is called like the row. -/
def isExact (records : RecordSet) (rows : List Row) (i : Nat) : Bool :=
  rows[i]?.any fun row => (row.guid.bind records.ofGuid?).any (·.identifier == row.identifier)

/-- The row that stands for the record of a GUID: the one that is called like it, or else the first
row with the GUID. -/
def keeper? (records : RecordSet) (rows : List Row) (guid : Guid) : Option Nat :=
  ((claimants rows guid).find? (isExact records rows)).or (claimants rows guid).head?

/-- The fault of a row whose GUID is that of another row, too. -/
def conflictAt (rows : List Row) (i : Nat) : Option ReconcileError :=
  rows[i]?.bind fun row => row.guid.map (.guidConflict · row.line)

/-- The rows with GUIDs that do not stand for the records of their GUIDs. -/
def conflicts (records : RecordSet) (rows : List Row) : List ReconcileError :=
  ((List.range rows.length).filter fun i =>
    (guidAt rows i).any (keeper? records rows · != some i)).filterMap (conflictAt rows)

theorem mem_claimants {guid : Guid} {i : Nat} : i ∈ claimants rows guid ↔ guidAt rows i = some guid := by
  unfold claimants
  rw [List.mem_filter, List.mem_range, beq_iff_eq]
  refine ⟨And.right, fun h => ⟨?_, h⟩⟩
  obtain ⟨row, hrow, -⟩ := Option.bind_eq_some_iff.1 h
  exact (List.getElem?_eq_some_iff.1 hrow).1

theorem sorted_claimants (rows : List Row) (guid : Guid) :
    (claimants rows guid).Pairwise (· < ·) :=
  List.pairwise_lt_range.filter _

/-- Two of the rows of a GUID. -/
theorem two_le_length_claimants {guid : Guid} {i j : Nat} (hi : i ∈ claimants rows guid)
    (hj : j ∈ claimants rows guid) (hne : i ≠ j) : 2 ≤ (claimants rows guid).length := by
  have hsub : [i, j].Subperm (claimants rows guid) :=
    List.subperm_of_subset (by simpa using hne) (by simp [hi, hj])
  exact hsub.length_le

/-- If no two rows have one GUID, each GUID is that of one row at most. -/
theorem length_claimants_le_one (h : (rows.filterMap (·.guid)).Nodup) (guid : Guid) :
    (claimants rows guid).length ≤ 1 := by
  rw [List.Nodup, List.pairwise_filterMap] at h
  have hsorted := sorted_claimants rows guid
  match hclaimants : claimants rows guid with
  | [] | [_] => exact Nat.le_of_ble_eq_true rfl
  | i :: j :: rest =>
    rw [hclaimants] at hsorted
    have hlt : i < j := (List.pairwise_cons.1 hsorted).1 j List.mem_cons_self
    have hrow {k : Nat} (hk : k ∈ i :: j :: rest) : ∃ row, rows[k]? = some row ∧ row.guid = some guid :=
      Option.bind_eq_some_iff.1 (mem_claimants.1 (hclaimants ▸ hk))
    obtain ⟨row, hi, hguid⟩ := hrow List.mem_cons_self
    obtain ⟨row', hj, hguid'⟩ := hrow (List.mem_cons_of_mem _ List.mem_cons_self)
    obtain ⟨hi', rfl⟩ := List.getElem?_eq_some_iff.1 hi
    obtain ⟨hj', rfl⟩ := List.getElem?_eq_some_iff.1 hj
    exact absurd rfl (List.pairwise_iff_getElem.1 h i j hi' hj' hlt guid hguid guid hguid')

/-- A row is called like the record of its GUID. -/
theorem isExact_iff {i : Nat} : isExact records rows i = true ↔
    ∃ row guid record, rows[i]? = some row ∧ row.guid = some guid ∧
      records.ofGuid? guid = some record ∧ record.identifier = row.identifier := by
  unfold isExact
  simp only [Option.any_eq_true, Option.bind_eq_some_iff, beq_iff_eq]
  constructor
  · rintro ⟨row, hrow, record, ⟨guid, hguid, hrecord⟩, hname⟩
    exact ⟨row, guid, record, hrow, hguid, hrecord, hname⟩
  · rintro ⟨row, guid, record, hrow, hguid, hrecord, hname⟩
    exact ⟨row, hrow, record, ⟨guid, hguid, hrecord⟩, hname⟩

/-- Only one row of a GUID is called like its record. -/
theorem eq_of_isExact (hnodup : (rows.map (·.identifier)).Nodup) {guid : Guid} {i j : Nat}
    (hi : i ∈ claimants rows guid) (hj : j ∈ claimants rows guid)
    (hei : isExact records rows i = true) (hej : isExact records rows j = true) : i = j := by
  obtain ⟨row, g, record, hrow, hg, hrecord, hname⟩ := isExact_iff.1 hei
  obtain ⟨row', g', record', hrow', hg', hrecord', hname'⟩ := isExact_iff.1 hej
  rw [mem_claimants, guidAt, hrow, Option.bind_some, hg] at hi
  rw [mem_claimants, guidAt, hrow', Option.bind_some, hg'] at hj
  obtain rfl := Option.some.inj hi
  obtain rfl := Option.some.inj hj
  obtain rfl := Option.some.inj (hrecord.symm.trans hrecord')
  exact index_eq_of_identifier hnodup hrow hrow' (hname.symm.trans hname')

/-- **The keeper of a GUID.** -/
theorem keeper?_eq_some_iff (hnodup : (rows.map (·.identifier)).Nodup) {guid : Guid} {i : Nat}
    (hi : i ∈ claimants rows guid) :
    keeper? records rows guid = some i ↔ isExact records rows i = true ∨
      ∀ j ∈ claimants rows guid, isExact records rows j = false ∧ i ≤ j := by
  unfold keeper?
  cases hfind : (claimants rows guid).find? (isExact records rows) with
  | some k =>
    have hk := List.mem_of_find?_eq_some hfind
    have hexact := List.find?_some hfind
    rw [Option.some_or, Option.some.injEq]
    constructor
    · rintro rfl
      exact Or.inl hexact
    · rintro (h | h)
      -- two exact rows of one record would have one identifier
      · exact eq_of_isExact hnodup hk hi hexact h
      · exact nomatch (h k hk).1.symm.trans hexact
  | none =>
    have hnone : ∀ j ∈ claimants rows guid, isExact records rows j = false := fun j hj =>
      Bool.eq_false_iff.2 (List.find?_eq_none.1 hfind j hj)
    -- without an exact row the first one keeps the record
    have hsorted := sorted_claimants rows guid
    rw [Option.none_or]
    cases hlist : claimants rows guid with
    | nil => exact nomatch hlist ▸ hi
    | cons k rest =>
      rw [hlist] at hi hnone hsorted
      have hfirst := (List.pairwise_cons.1 hsorted).1
      rw [List.head?_cons, Option.some.injEq]
      constructor
      · rintro rfl
        refine Or.inr fun j hj => ⟨hnone j hj, ?_⟩
        rcases List.mem_cons.1 hj with rfl | hj
        · exact Nat.le_refl _
        · exact Nat.le_of_lt (hfirst j hj)
      · rintro (h | h)
        · exact nomatch (hnone i hi).symm.trans h
        · have hle := (h k List.mem_cons_self).2
          rcases List.mem_cons.1 hi with rfl | hi
          · rfl
          · exact absurd (hfirst i hi) (Nat.not_lt.2 hle)

/-- Some row with the GUID is its keeper. -/
theorem exists_keeper (records : RecordSet) {guid : Guid} (h : claimants rows guid ≠ []) :
    ∃ i ∈ claimants rows guid, keeper? records rows guid = some i := by
  unfold keeper?
  cases hfind : (claimants rows guid).find? (isExact records rows) with
  | some k => exact ⟨k, List.mem_of_find?_eq_some hfind, Option.some_or⟩
  | none => exact ⟨(claimants rows guid).head h, List.head_mem h, List.head?_eq_some_head h⟩

/-! ### Which records are claimed -/

/-- The key of the record of the GUID of a row. -/
def keyAt (records : RecordSet) (rows : List Row) (i : Nat) : Option RecordKey :=
  (guidAt rows i).bind records.keyOfGuid?

theorem exists_of_keyAt {i : Nat} {key : RecordKey} (h : keyAt records rows i = some key) :
    ∃ row guid record, rows[i]? = some row ∧ row.guid = some guid ∧
      records.keyOfGuid? guid = some key ∧ records.ofGuid? guid = some record ∧
      (key, record) ∈ records.entries ∧ record.guid = guid := by
  obtain ⟨guid, hguid, hkey⟩ := Option.bind_eq_some_iff.1 h
  obtain ⟨row, hrow, hrowGuid⟩ := Option.bind_eq_some_iff.1 hguid
  obtain ⟨record, hrecord, hmem, hsame⟩ := RecordSet.exists_record_of_keyOfGuid? hkey
  exact ⟨row, guid, record, hrow, hrowGuid, hkey, hrecord, hmem, hsame⟩

theorem keyAt_eq_none {i : Nat} (h : keyAt records rows i = none) {row : Row} {guid : Guid}
    (hrow : rows[i]? = some row) (hguid : row.guid = some guid) :
    records.keyOfGuid? guid = none := by
  rwa [keyAt, guidAt, hrow, Option.bind_some, hguid, Option.bind_some] at h

/-- Rows of one record have one GUID. -/
theorem guidAt_eq_of_keyAt (hs : records.WellFormed) {i j : Nat} {key : RecordKey}
    (hi : keyAt records rows i = some key) (hj : keyAt records rows j = some key) :
    guidAt rows i = guidAt rows j := by
  obtain ⟨row, guid, record, hrow, hguid, -, -, hmem, hsame⟩ := exists_of_keyAt hi
  obtain ⟨row', guid', record', hrow', hguid', -, -, hmem', hsame'⟩ := exists_of_keyAt hj
  obtain rfl := RecordSet.eq_of_mem_entries hs hmem hmem'
  rw [guidAt, guidAt, hrow, hrow', Option.bind_some, Option.bind_some, hguid, hguid', ← hsame,
    ← hsame']

/-- A row that is called like the record of its GUID has the key of that record. -/
theorem exists_keyAt_of_isExact {i : Nat} (h : isExact records rows i = true) :
    ∃ key, keyAt records rows i = some key := by
  obtain ⟨row, guid, record, hrow, hguid, hrecord, -⟩ := isExact_iff.1 h
  rw [keyAt, guidAt, hrow, Option.bind_some, hguid, Option.bind_some, ← Option.isSome_iff_exists,
    ← Option.ne_none_iff_isSome, Ne, keyOfGuid?_eq_none_iff, not_not]
  have hmem := List.mem_reverse.1 (List.mem_of_find?_eq_some hrecord)
  exact List.mem_map.2 ⟨record, hmem, by simpa using List.find?_some hrecord⟩

namespace Pass

variable {p : Pass} {i : Nat} {key : RecordKey}

/-- A row that is not called like its record is left by the first stage. -/
theorem matchExactly_of_not_isExact (h : isExact records rows i = false) :
    matchExactly records rows p i = p := by
  cases hkey : keyAt records rows i with
  | none =>
    unfold matchExactly
    split
    · next line identifier guid hash cells hrow =>
      rw [keyAt_eq_none hkey hrow rfl]
    · rfl
  | some key =>
    obtain ⟨row, guid, record, hrow, hguid, hkey, hrecord, -⟩ := exists_of_keyAt hkey
    rw [matchExactly_of_guid hrow hguid hkey hrecord, if_neg]
    intro hname
    exact nomatch h.symm.trans (isExact_iff.2 ⟨row, guid, record, hrow, hguid, hrecord, hname⟩)

/-- A row that is called like its record claims it in the first stage. -/
theorem matchExactly_of_isExact (h : isExact records rows i = true)
    (hkey : keyAt records rows i = some key) :
    ∃ actions, matchExactly records rows p i = { p.claim i key with actions := actions } := by
  obtain ⟨row, guid, record, hrow, hguid, hkey, hrecord, -⟩ := exists_of_keyAt hkey
  obtain ⟨row', guid', record', hrow', hguid', hrecord', hname⟩ := isExact_iff.1 h
  obtain rfl := Option.some.inj (hrow.symm.trans hrow')
  obtain rfl := Option.some.inj (hguid.symm.trans hguid')
  obtain rfl := Option.some.inj (hrecord.symm.trans hrecord')
  rw [matchExactly_of_guid hrow hguid hkey hrecord, if_pos hname]
  split_ifs
  · exact ⟨_, rfl⟩
  · exact ⟨_, rfl⟩

/-- A row without a record of its GUID is left by the second stage. -/
theorem matchGuid_of_keyAt_none (h : keyAt records rows i = none) :
    matchGuid records rows p i = p := by
  unfold matchGuid
  split
  · next line identifier guid hash cells hrow =>
    rw [keyAt_eq_none h hrow rfl]
  · rfl

/-- In the second stage, a row whose record is claimed is at fault. -/
theorem matchGuid_of_isClaimed (hkey : keyAt records rows i = some key)
    (hclaimed : p.isClaimed key = true) :
    matchGuid records rows p i =
      { p.settle i with errors := p.errors ++ (conflictAt rows i).toList } := by
  obtain ⟨row, guid, record, hrow, hguid, hkey, hrecord, -⟩ := exists_of_keyAt hkey
  rw [matchGuid_of_guid hrow hguid hkey hrecord, if_pos hclaimed, conflictAt, hrow,
    Option.bind_some, hguid]
  rfl

/-- In the second stage, a row whose record is not claimed claims it. -/
theorem matchGuid_of_not_isClaimed (hkey : keyAt records rows i = some key)
    (hclaimed : p.isClaimed key = false) :
    ∃ takenNames actions, matchGuid records rows p i =
      { p.claim i key with takenNames := takenNames, actions := actions } := by
  obtain ⟨row, guid, record, hrow, hguid, hkey, hrecord, -⟩ := exists_of_keyAt hkey
  rw [matchGuid_of_guid hrow hguid hkey hrecord, if_neg (Bool.eq_false_iff.1 hclaimed)]
  unfold renameTo
  split_ifs
  · exact ⟨_, _, rfl⟩
  · exact ⟨_, _, rfl⟩

theorem isClaimed_claim (p : Pass) (i : Nat) (key key' : RecordKey) :
    (p.claim i key).isClaimed key' = (p.isClaimed key' || key == key') := by
  unfold isClaimed claim settle
  rw [List.any_append]
  simp

/-! #### The first stage -/

theorem isClaimed_matchExactly (p : Pass) (i : Nat) (key : RecordKey) :
    (matchExactly records rows p i).isClaimed key =
      (p.isClaimed key || isExact records rows i && keyAt records rows i == some key) := by
  cases hexact : isExact records rows i with
  | false => rw [matchExactly_of_not_isExact hexact, Bool.false_and, Bool.or_false]
  | true =>
    obtain ⟨key', hkey⟩ := exists_keyAt_of_isExact hexact
    obtain ⟨actions, heq⟩ := matchExactly_of_isExact (p := p) hexact hkey
    rw [heq, hkey, Bool.true_and]
    exact isClaimed_claim p i key' key

theorem errors_matchExactly (p : Pass) (i : Nat) :
    (matchExactly records rows p i).errors = p.errors := by
  cases hexact : isExact records rows i with
  | false => rw [matchExactly_of_not_isExact hexact]
  | true =>
    obtain ⟨key', hkey⟩ := exists_keyAt_of_isExact hexact
    obtain ⟨actions, heq⟩ := matchExactly_of_isExact (p := p) hexact hkey
    rw [heq]
    rfl

theorem remaining_matchExactly (p : Pass) (i : Nat) :
    (matchExactly records rows p i).remaining =
      p.remaining.filter fun j => !(j == i && isExact records rows j) := by
  cases hexact : isExact records rows i with
  | false =>
    rw [matchExactly_of_not_isExact hexact, List.filter_eq_self.2]
    intro j _
    by_cases hj : j = i
    · rw [hj, hexact, Bool.and_false, Bool.not_false]
    · rw [beq_eq_false_iff_ne.2 hj, Bool.false_and, Bool.not_false]
  | true =>
    obtain ⟨key', hkey⟩ := exists_keyAt_of_isExact hexact
    obtain ⟨actions, heq⟩ := matchExactly_of_isExact (p := p) hexact hkey
    rw [heq]
    refine List.filter_congr fun j _ => ?_
    by_cases hj : j = i
    · rw [hj, hexact, bne_self_eq_false, beq_self_eq_true, Bool.and_true, Bool.not_true]
    · rw [beq_eq_false_iff_ne.2 hj, bne_iff_ne.2 hj, Bool.false_and, Bool.not_false]

/-- **What the first stage claims and leaves.** -/
theorem foldl_matchExactly (p : Pass) (l : List Nat) :
    (∀ key, (l.foldl (matchExactly records rows) p).isClaimed key =
      (p.isClaimed key ||
        l.any fun j => isExact records rows j && keyAt records rows j == some key)) ∧
    (l.foldl (matchExactly records rows) p).errors = p.errors ∧
    (l.foldl (matchExactly records rows) p).remaining =
      p.remaining.filter fun j => !(l.contains j && isExact records rows j) := by
  induction l generalizing p with
  | nil => simp
  | cons i l ih =>
    obtain ⟨hclaimed, herrors, hremaining⟩ := ih (matchExactly records rows p i)
    rw [List.foldl_cons]
    refine ⟨fun key => ?_, ?_, ?_⟩
    · rw [hclaimed, isClaimed_matchExactly, List.any_cons, Bool.or_assoc]
    · rw [herrors, errors_matchExactly]
    · rw [hremaining, remaining_matchExactly, List.filter_filter]
      refine List.filter_congr fun j _ => ?_
      rw [List.contains_cons]
      cases isExact records rows j <;> cases l.contains j <;> simp

/-! #### The second stage -/

theorem isClaimed_matchGuid (p : Pass) (i : Nat) (key : RecordKey) :
    (matchGuid records rows p i).isClaimed key =
      (p.isClaimed key || keyAt records rows i == some key) := by
  cases hkey : keyAt records rows i with
  | none => 
    rw [matchGuid_of_keyAt_none hkey]
    exact (Bool.or_false _).symm
  | some key' =>
    cases hclaimed : p.isClaimed key' with
    | true =>
      rw [matchGuid_of_isClaimed hkey hclaimed]
      show p.isClaimed key = _
      by_cases hsame : key' = key
      · rw [← hsame, hclaimed, Bool.true_or]
      · have hne : (some key' == some key) = false := beq_eq_false_iff_ne.2 (by simpa using hsame)
        rw [hne, Bool.or_false]
    | false =>
      obtain ⟨takenNames, actions, heq⟩ := matchGuid_of_not_isClaimed hkey hclaimed
      rw [heq]
      exact isClaimed_claim p i key' key

theorem errors_matchGuid (p : Pass) (i : Nat) :
    (matchGuid records rows p i).errors = p.errors ++
      if (keyAt records rows i).any p.isClaimed then (conflictAt rows i).toList else [] := by
  cases hkey : keyAt records rows i with
  | none =>
    rw [matchGuid_of_keyAt_none hkey]
    exact (List.append_nil _).symm
  | some key =>
    rw [Option.any_some]
    cases hclaimed : p.isClaimed key with
    | true => rw [matchGuid_of_isClaimed hkey hclaimed, if_pos rfl]
    | false =>
      obtain ⟨takenNames, actions, heq⟩ := matchGuid_of_not_isClaimed hkey hclaimed
      rw [heq, if_neg Bool.false_ne_true, List.append_nil]
      rfl

theorem isClaimed_foldl_matchGuid (p : Pass) (l : List Nat) (key : RecordKey) :
    (l.foldl (matchGuid records rows) p).isClaimed key =
      (p.isClaimed key || l.any (keyAt records rows · == some key)) := by
  induction l generalizing p with
  | nil => simp
  | cons i l ih => rw [List.foldl_cons, ih, isClaimed_matchGuid, List.any_cons, Bool.or_assoc]

/-- Whether the record of a row is claimed by the time the row is visited, in a state or by a row of
the list that comes before. -/
def isLate (records : RecordSet) (rows : List Row) (p : Pass) (l : List Nat) (i : Nat) : Bool :=
  (keyAt records rows i).any fun key =>
    p.isClaimed key || l.any fun j => decide (j < i) && keyAt records rows j == some key

theorem isLate_append_of_le {l : List Nat} {j : Nat} (h : j ≤ i) :
    isLate records rows p (l ++ [i]) j = isLate records rows p l j := by
  unfold isLate
  simp only [List.any_append, List.any_cons, decide_eq_false (Nat.not_lt.2 h), Bool.false_and,
    List.any_nil, Bool.or_false]

theorem isLate_append_self {l : List Nat} (h : ∀ j ∈ l, j < i) :
    isLate records rows p (l ++ [i]) i =
      (keyAt records rows i).any (l.foldl (matchGuid records rows) p).isClaimed := by
  rw [isLate_append_of_le (Nat.le_refl i)]
  unfold isLate
  congr 1
  funext key
  rw [isClaimed_foldl_matchGuid]
  refine congrArg _ (Bool.eq_iff_iff.2 ?_)
  rw [List.any_eq_true, List.any_eq_true]
  refine exists_congr fun j => and_congr_right fun hj => ?_
  rw [decide_eq_true (h j hj), Bool.true_and]

/-- **Which rows are at fault in the second stage**: those whose record was claimed in the first
one, or by a row before. -/
theorem errors_foldl_matchGuid (p : Pass) {l : List Nat} (hsorted : l.Pairwise (· < ·)) :
    (l.foldl (matchGuid records rows) p).errors =
      p.errors ++ (l.filter (isLate records rows p l)).filterMap (conflictAt rows) := by
  induction l using List.reverseRecOn with
  | nil => exact (List.append_nil _).symm
  | append_singleton l i ih =>
    obtain ⟨hsorted, -, hlast⟩ := List.pairwise_append.1 hsorted
    have hlt : ∀ j ∈ l, j < i := fun j hj => hlast j hj i (List.mem_singleton_self i)
    have hothers : l.filter (isLate records rows p (l ++ [i])) = l.filter (isLate records rows p l) :=
      List.filter_congr fun j hj => isLate_append_of_le (Nat.le_of_lt (hlt j hj))
    rw [List.foldl_append, List.foldl_cons, List.foldl_nil, errors_matchGuid, ih hsorted,
      List.filter_append, List.filterMap_append, List.append_assoc, hothers,
      ← isLate_append_self hlt]
    refine congrArg (fun late => p.errors ++ (_ ++ late)) ?_
    cases hlate : isLate records rows p (l ++ [i]) i with
    | false => rw [List.filter_cons_of_neg (by rw [hlate]; exact Bool.false_ne_true)]; rfl
    | true =>
      rw [List.filter_cons_of_pos hlate]
      cases h : conflictAt rows i <;> simp [h]

/-! #### Both stages -/

/-- The state when the second stage begins. -/
theorem remaining_exact (records : RecordSet) (rows : List Row) :
    (forRemaining (matchExactly records rows) (start records rows)).remaining =
      (List.range rows.length).filter fun i => !isExact records rows i := by
  refine (foldl_matchExactly _ _).2.2.trans (List.filter_congr fun i hi => ?_)
  rw [List.contains_iff_mem.2 hi, Bool.true_and]

theorem isClaimed_exact (records : RecordSet) (rows : List Row) (key : RecordKey) :
    (forRemaining (matchExactly records rows) (start records rows)).isClaimed key =
      (List.range rows.length).any fun j =>
        isExact records rows j && keyAt records rows j == some key :=
  ((foldl_matchExactly _ _).1 key).trans (Bool.false_or _)

/-- The rows of the GUID of a row are those of its record. -/
theorem mem_claimants_iff_keyAt (hs : records.WellFormed) {guid : Guid}
    (hguid : guidAt rows i = some guid) (hkey : keyAt records rows i = some key) {j : Nat} :
    j ∈ claimants rows guid ↔ keyAt records rows j = some key := by
  rw [mem_claimants]
  constructor
  · intro hj
    rw [← hkey, keyAt, keyAt, hj, hguid]
  · intro hj
    rw [guidAt_eq_of_keyAt hs hj hkey, hguid]

/-- A row is late if its record is claimed by a row of the first stage, or by a row before. -/
theorem isLate_exact_iff (hs : records.WellFormed) {guid : Guid} (hguid : guidAt rows i = some guid)
    (hkey : keyAt records rows i = some key) :
    isLate records rows (forRemaining (matchExactly records rows) (start records rows))
        ((List.range rows.length).filter fun i => !isExact records rows i) i = true ↔
      ∃ j ∈ claimants rows guid, isExact records rows j = true ∨ j < i := by
  unfold isLate
  rw [hkey, Option.any_some, isClaimed_exact, Bool.or_eq_true, List.any_eq_true, List.any_eq_true]
  simp only [mem_claimants_iff_keyAt hs hguid hkey, List.mem_filter, Bool.and_eq_true, beq_iff_eq,
    decide_eq_true_iff, Bool.not_eq_true']
  constructor
  · rintro (⟨j, -, hexact, hj⟩ | ⟨j, -, hlt, hj⟩)
    · exact ⟨j, hj, Or.inl hexact⟩
    · exact ⟨j, hj, Or.inr hlt⟩
  · rintro ⟨j, hj, hcase⟩
    have hrange : j ∈ List.range rows.length :=
      (List.mem_filter.1 ((mem_claimants_iff_keyAt hs hguid hkey).2 hj)).1
    cases hexact : isExact records rows j with
    | true => exact Or.inl ⟨j, hrange, hexact, hj⟩
    | false =>
      refine Or.inr ⟨j, ⟨hrange, hexact⟩, hcase.resolve_left (Bool.eq_false_iff.1 hexact), hj⟩

/-- **The faults of the second stage** are those of the rows that are not keepers. -/
theorem errors_guid (hs : records.WellFormed) (hfaults : tableFaults records rows = []) :
    (forRemaining (matchGuid records rows)
      (forRemaining (matchExactly records rows) (start records rows))).errors =
        conflicts records rows := by
  have hnodup := nodup_of_tableFaults hfaults
  have hsorted : ((List.range rows.length).filter fun i => !isExact records rows i).Pairwise
      (· < ·) := List.pairwise_lt_range.filter _
  have herrors : (forRemaining (matchExactly records rows) (start records rows)).errors = [] :=
    (foldl_matchExactly _ _).2.1
  rw [forRemaining, remaining_exact, errors_foldl_matchGuid _ hsorted, herrors, List.nil_append,
    List.filter_filter, conflicts]
  refine congrArg _ (List.filter_congr fun i _ => ?_)
  -- row by row: a row is late if it is not the one that keeps the record
  cases hguid : guidAt rows i with
  | none =>
    have hkey : keyAt records rows i = none := by rw [keyAt, hguid, Option.bind_none]
    rw [isLate, hkey, Option.any_none, Option.any_none, Bool.false_and]
  | some guid =>
    obtain ⟨row, hrow, hrowGuid⟩ := Option.bind_eq_some_iff.1 hguid
    obtain ⟨key, hkeyOf⟩ := keyOfGuid?_of_tableFaults hfaults (List.mem_of_getElem? hrow) hrowGuid
    have hkey : keyAt records rows i = some key := by
      rw [keyAt, hguid, Option.bind_some, hkeyOf]
    rw [Option.any_some, Bool.eq_iff_iff, Bool.and_eq_true, bne_iff_ne, Ne,
      keeper?_eq_some_iff hnodup (mem_claimants.2 hguid), isLate_exact_iff hs hguid hkey,
      Bool.not_eq_true']
    push Not
    simp only [Bool.not_eq_true]
    constructor
    · rintro ⟨⟨j, hj, hcase⟩, hexact⟩
      exact ⟨hexact, j, hj, fun h => hcase.resolve_left (Bool.eq_false_iff.1 h)⟩
    · rintro ⟨hexact, j, hj, hcase⟩
      refine ⟨⟨j, hj, ?_⟩, hexact⟩
      cases h : isExact records rows j with
      | true => exact Or.inl rfl
      | false => exact Or.inr (hcase h)

/-- **Only GUIDs of several rows are in conflict.**  Whenever the second stage finds the record of a
row claimed, another row has the GUID. -/
theorem two_le_claimants_of_isClaimed (hs : records.WellFormed) {l₁ l₂ : List Nat}
    (hvisited : (forRemaining (matchExactly records rows) (start records rows)).remaining =
      l₁ ++ i :: l₂)
    {guid : Guid} (hguid : guidAt rows i = some guid) (hkey : keyAt records rows i = some key)
    (hclaimed : (l₁.foldl (matchGuid records rows)
      (forRemaining (matchExactly records rows) (start records rows))).isClaimed key = true) :
    2 ≤ (claimants rows guid).length := by
  have hiff := fun j => mem_claimants_iff_keyAt hs hguid hkey (j := j)
  rw [remaining_exact] at hvisited
  have hi : i ∈ (List.range rows.length).filter fun i => !isExact records rows i :=
    hvisited ▸ List.mem_append_right _ List.mem_cons_self
  -- another row has claimed the record
  obtain ⟨j, hj, hne⟩ : ∃ j ∈ claimants rows guid, j ≠ i := by
    rw [isClaimed_foldl_matchGuid, isClaimed_exact, Bool.or_eq_true, List.any_eq_true,
      List.any_eq_true] at hclaimed
    rcases hclaimed with ⟨j, -, hj⟩ | ⟨j, hmem, hj⟩
    · rw [Bool.and_eq_true, beq_iff_eq] at hj
      refine ⟨j, (hiff j).2 hj.2, ?_⟩
      rintro rfl
      have hexact := (List.mem_filter.1 hi).2
      rw [hj.1] at hexact
      cases hexact
    · refine ⟨j, (hiff j).2 (beq_iff_eq.1 hj), ?_⟩
      rintro rfl
      have hnodup : (l₁ ++ j :: l₂).Nodup := hvisited ▸ List.nodup_range.filter _
      exact (List.nodup_append.1 hnodup).2.2 j hmem j List.mem_cons_self rfl
  exact two_le_length_claimants ((hiff i).2 hkey) hj (Ne.symm hne)

/-! #### The other stages -/

theorem errors_matchIdentifier (p : Pass) (i : Nat) :
    (matchIdentifier records rows p i).errors = p.errors := by
  unfold matchIdentifier
  split
  · split
    · split_ifs <;> rfl
    · rfl
  · rfl

theorem errors_renameTo (p : Pass) (record : Record) (identifier : String) :
    (p.renameTo record identifier).2.errors = p.errors := by
  unfold renameTo
  split_ifs <;> rfl

theorem errors_matchLeftover (p : Pass) : (matchLeftover records rows p).errors = p.errors := by
  unfold matchLeftover
  split
  · split
    · exact errors_renameTo _ _ _
    · rfl
  · rfl

theorem errors_forRemaining_matchIdentifier (p : Pass) :
    (forRemaining (matchIdentifier records rows) p).errors = p.errors := by
  unfold forRemaining
  generalize p.remaining = l
  induction l generalizing p with
  | nil => rfl
  | cons i l ih => rw [List.foldl_cons, ih, errors_matchIdentifier]

/-- The faults of all stages. -/
theorem errors_matchAll (hs : records.WellFormed) (hfaults : tableFaults records rows = []) :
    (matchAll records rows).errors = conflicts records rows := by
  rw [matchAll, errors_matchLeftover, errors_forRemaining_matchIdentifier, errors_guid hs hfaults]

end Pass

/-! ### How a reconciliation ends -/

open Pass

variable {settings : Settings}

theorem checkpoint_of_active (hactive : ∀ stage, settings.cancelled stage = false)
    (stage : ReconcileStage) : settings.checkpoint stage = .ok () :=
  if_neg (Bool.eq_false_iff.1 (hactive stage))

/-- Rows at fault are reported. -/
theorem reconcile_of_faults (hactive : ∀ stage, settings.cancelled stage = false)
    (supply : GuidSupply) (hfaults : tableFaults records rows ≠ []) :
    (reconcile settings supply records rows).1 = .error (tableFaults records rows) := by
  unfold reconcile
  simp only [checkpoint_of_active hactive]
  rw [if_pos hfaults]
  rfl

theorem errors_createAll (directory : String) (supply : GuidSupply) (p : Pass) :
    (deleteAll records (createAll directory supply p).1).errors = p.errors :=
  (createAll_spec directory supply p).2.2.2

/-- Otherwise the rows that are left get new records, and the records that are left are deleted. -/
theorem reconcile_eq_of_no_faults (hactive : ∀ stage, settings.cancelled stage = false)
    (supply : GuidSupply) (hfaults : tableFaults records rows = []) :
    ∃ directory, reconcile settings supply records rows =
      let (p, supply') := createAll directory supply (matchAll records rows)
      if (deleteAll records p).errors ≠ [] then (.error (deleteAll records p).errors, supply')
      else (.ok ⟨records.recordType, (deleteAll records p).actions, (deleteAll records p).backfilled,
        !(p.unclaimed records).isEmpty⟩, supply') := by
  unfold reconcile
  simp only [checkpoint_of_active hactive]
  rw [if_neg (not_not.2 hfaults)]
  exact ⟨_, rfl⟩

/-- The faults of the stages are reported, or there is a plan. -/
theorem reconcile_of_no_faults (hactive : ∀ stage, settings.cancelled stage = false)
    (supply : GuidSupply) (hfaults : tableFaults records rows = []) :
    ((matchAll records rows).errors ≠ [] →
      (reconcile settings supply records rows).1 = .error (matchAll records rows).errors) ∧
    ((matchAll records rows).errors = [] →
      ∃ plan, (reconcile settings supply records rows).1 = .ok plan) := by
  obtain ⟨directory, heq⟩ := reconcile_eq_of_no_faults hactive supply hfaults
  dsimp only at heq
  rw [errors_createAll] at heq
  refine ⟨fun herrors => ?_, fun herrors => ?_⟩
  · rw [heq, if_pos herrors]
  · rw [heq, if_neg (not_not.2 herrors)]
    exact ⟨_, rfl⟩

/-- Whether an error is that several rows have this GUID. -/
def isConflictOf (guid : Guid) : ReconcileError → Bool
  | .guidConflict guid' _ => guid' == guid
  | _ => false

/-- The errors are one for each row whose GUID is that of several rows, in the order of the rows, but
for one row of each GUID: the one that is called like the record of the GUID, or else the first. -/
structure ReportsConflicts (records : RecordSet) (rows : List Row) (errors : List ReconcileError) :
    Prop where
  order : errors.Sublist ((List.range rows.length).filterMap (conflictAt rows))
  conflict : ∀ e ∈ errors, ∃ guid, isConflictOf guid e = true ∧ 2 ≤ (claimants rows guid).length
  each : ∀ guid, 2 ≤ (claimants rows guid).length → ∃ keeper ∈ claimants rows guid,
    (isExact records rows keeper = true ∨
      (∀ i ∈ claimants rows guid, isExact records rows i = false) ∧
        (claimants rows guid).head? = some keeper) ∧
    errors.filter (isConflictOf guid) =
      ((claimants rows guid).erase keeper).filterMap (conflictAt rows) ∧
    (errors.filter (isConflictOf guid)).length = (claimants rows guid).length - 1

theorem conflictAt_eq_some_iff {i : Nat} {e : ReconcileError} :
    conflictAt rows i = some e ↔ ∃ row guid, rows[i]? = some row ∧ row.guid = some guid ∧
      e = .guidConflict guid row.line := by
  unfold conflictAt
  simp only [Option.bind_eq_some_iff, Option.map_eq_some_iff]
  constructor
  · rintro ⟨row, hrow, guid, hguid, rfl⟩
    exact ⟨row, guid, hrow, hguid, rfl⟩
  · rintro ⟨row, guid, hrow, hguid, rfl⟩
    exact ⟨row, hrow, guid, hguid, rfl⟩

/-- The conflicts of a GUID are those of its rows. -/
theorem filter_isConflictOf (l : List Nat) (guid : Guid) :
    (l.filterMap (conflictAt rows)).filter (isConflictOf guid) =
      (l.filter (guidAt rows · == some guid)).filterMap (conflictAt rows) := by
  induction l with
  | nil => rfl
  | cons i l ih =>
    cases hconflict : conflictAt rows i with
    | none =>
      rw [List.filterMap_cons_none hconflict, ih, List.filter_cons]
      split_ifs
      · rw [List.filterMap_cons_none hconflict]
      · rfl
    | some e =>
      obtain ⟨row, guid', hrow, hguid, rfl⟩ := conflictAt_eq_some_iff.1 hconflict
      have hguidAt : guidAt rows i = some guid' := by rw [guidAt, hrow, Option.bind_some, hguid]
      rw [List.filterMap_cons_some hconflict, List.filter_cons, List.filter_cons, hguidAt]
      by_cases hsame : guid' = guid
      · rw [if_pos (by simp [isConflictOf, hsame]), if_pos (by simp [hsame]),
          List.filterMap_cons_some hconflict, ih]
      · rw [if_neg (by simp [isConflictOf, hsame]), if_neg (by simp [hsame]), ih]

/-- **All rows of a GUID are reported but its keeper.** -/
theorem reportsConflicts_conflicts (records : RecordSet) (rows : List Row) :
    ReportsConflicts records rows (conflicts records rows) where
  order := List.filter_sublist.filterMap _
  conflict := by
    intro e he
    obtain ⟨i, hi, hconflict⟩ := List.mem_filterMap.1 he
    obtain ⟨guid, hguid, hkeeper⟩ := (Option.any_eq_true _ _).1 (List.mem_filter.1 hi).2
    obtain ⟨row, guid', hrow, hrowGuid, rfl⟩ := conflictAt_eq_some_iff.1 hconflict
    -- the row that keeps the record is another one, so there are two
    have hmem : i ∈ claimants rows guid := mem_claimants.2 hguid
    obtain ⟨keeper, hk, hkeeperOf⟩ := exists_keeper records (List.ne_nil_of_mem hmem)
    rw [guidAt, hrow, Option.bind_some, hrowGuid] at hguid
    obtain rfl := Option.some.inj hguid
    refine ⟨guid', beq_self_eq_true _, two_le_length_claimants hmem hk ?_⟩
    rintro rfl
    rw [hkeeperOf, bne_self_eq_false] at hkeeper
    cases hkeeper
  each := by
    intro guid htwo
    have hne : claimants rows guid ≠ [] := List.ne_nil_of_length_pos (by omega)
    obtain ⟨keeper, hmem, hkeeper⟩ := exists_keeper records hne
    -- the conflicts of the GUID are those of the other rows that claim it
    have hothers : (conflicts records rows).filter (isConflictOf guid) =
        ((claimants rows guid).erase keeper).filterMap (conflictAt rows) := by
      have hrows : (claimants rows guid).Nodup := List.nodup_range.filter _
      rw [conflicts, filter_isConflictOf, hrows.erase_eq_filter, claimants, List.filter_filter,
        List.filter_filter]
      refine congrArg _ (List.filter_congr fun i _ => ?_)
      by_cases hguid : guidAt rows i = some guid
      · rw [hguid, Option.any_some, hkeeper, beq_self_eq_true, Bool.true_and, Bool.and_true,
          Bool.eq_iff_iff, bne_iff_ne, bne_iff_ne, Ne, Option.some.injEq, eq_comm]
      · rw [beq_eq_false_iff_ne.2 hguid, Bool.false_and, Bool.and_false]
    refine ⟨keeper, hmem, ?_, hothers, ?_⟩
    · unfold keeper? at hkeeper
      cases hfind : (claimants rows guid).find? (isExact records rows) with
      | some k =>
        rw [hfind, Option.some_or] at hkeeper
        exact Or.inl (Option.some.inj hkeeper ▸ List.find?_some hfind)
      | none =>
        rw [hfind, Option.none_or] at hkeeper
        exact Or.inr ⟨fun i hi => Bool.eq_false_iff.2 (List.find?_eq_none.1 hfind i hi), hkeeper⟩
    · rw [hothers, List.filterMap_length_eq_length.2, List.length_erase_of_mem hmem]
      intro i hi
      obtain ⟨row, hrow, hguid⟩ :=
        Option.bind_eq_some_iff.1 (mem_claimants.1 (List.mem_of_mem_erase hi))
      exact Option.isSome_iff_exists.2 ⟨_, conflictAt_eq_some_iff.2 ⟨row, guid, hrow, hguid, rfl⟩⟩

theorem conflicts_eq_nil_iff :
    conflicts records rows = [] ↔ ∀ guid, (claimants rows guid).length ≤ 1 := by
  have hreports := reportsConflicts_conflicts records rows
  constructor
  · intro hnil guid
    by_contra htwo
    obtain ⟨keeper, -, -, -, hlength⟩ := hreports.each guid (by omega)
    rw [hnil, List.filter_nil, List.length_nil] at hlength
    omega
  · intro hone
    refine List.eq_nil_iff_forall_not_mem.2 fun e he => ?_
    obtain ⟨guid, -, htwo⟩ := hreports.conflict e he
    exact absurd (hone guid) (Nat.not_le.2 htwo)

/-- There is a plan for rows that are not at fault and do not share GUIDs. -/
theorem exists_plan (hs : records.WellFormed) (hactive : ∀ stage, settings.cancelled stage = false)
    (supply : GuidSupply) (hfaulty : ¬Faulty records rows)
    (hguids : (rows.filterMap (·.guid)).Nodup) :
    ∃ plan, (reconcile settings supply records rows).1 = .ok plan := by
  have hfaults := tableFaults_eq_nil_iff.2 hfaulty
  refine (reconcile_of_no_faults hactive supply hfaults).2 ?_
  rw [errors_matchAll hs hfaults]
  exact conflicts_eq_nil_iff.2 (length_claimants_le_one hguids)

/-- **When a reconciliation fails, and what it reports.**  Rows at fault are reported one by one, and
then each repeated identifier with the lines of its rows.  Otherwise it fails if and only if a GUID
is that of several rows, and reports all of these but one.  The second stage finds the record of a
row claimed only if another row has its GUID. -/
theorem reconcile_fails_as_due (hs : records.WellFormed)
    (hactive : ∀ stage, settings.cancelled stage = false) (supply : GuidSupply) (rows : List Row) :
    (Faulty records rows → ∃ repeated : List String, repeated.Pairwise (· < ·) ∧
      (∀ x, x ∈ repeated ↔ Text.isBlankText x = false ∧ 2 ≤ (linesWith rows x).length) ∧
      (reconcile settings supply records rows).1 = .error (
        (rows.flatMap fun row =>
          (if Text.isBlankText row.identifier then [.blankIdentifier row.line] else []) ++
            (row.guid.toList.filter (· ∉ records.records.map (·.guid))).map
              (.unknownGuid row.line)) ++
        repeated.map fun x => .duplicateIdentifier x (linesWith rows x))) ∧
    (¬Faulty records rows →
      ((∃ errors, (reconcile settings supply records rows).1 = .error errors) ↔
        ∃ guid, 2 ≤ (claimants rows guid).length) ∧
      ∀ errors, (reconcile settings supply records rows).1 = .error errors →
        ReportsConflicts records rows errors) ∧
    ∀ l₁ i l₂ guid key,
      (forRemaining (matchExactly records rows) (start records rows)).remaining = l₁ ++ i :: l₂ →
      guidAt rows i = some guid → records.keyOfGuid? guid = some key →
      (l₁.foldl (matchGuid records rows)
        (forRemaining (matchExactly records rows) (start records rows))).isClaimed key = true →
      2 ≤ (claimants rows guid).length := by
  refine ⟨fun hfaulty => ?_, fun hfaulty => ?_, ?_⟩
  -- the faults of the table are reported before any row is matched
  · have hfaults : tableFaults records rows ≠ [] := fun h => tableFaults_eq_nil_iff.1 h hfaulty
    refine ⟨repeatedIdentifiers rows, sorted_repeatedIdentifiers rows,
      fun x => mem_repeatedIdentifiers, ?_⟩
    rw [reconcile_of_faults hactive supply hfaults, tableFaults_eq, funext (rowFaults_eq records)]
  · have hfaults := tableFaults_eq_nil_iff.2 hfaulty
    obtain ⟨hfail, hplan⟩ := reconcile_of_no_faults hactive supply hfaults
    rw [errors_matchAll hs hfaults] at hfail hplan
    -- a table without faults fails at the conflicts, or not at all
    by_cases hnil : conflicts records rows = []
    · obtain ⟨plan, hok⟩ := hplan hnil
      rw [hok]
      refine ⟨iff_of_false (fun ⟨_, h⟩ => nomatch h) ?_, fun _ h => nomatch h⟩
      rintro ⟨guid, htwo⟩
      exact absurd (conflicts_eq_nil_iff.1 hnil guid) (Nat.not_le.2 htwo)
    · rw [hfail hnil]
      refine ⟨iff_of_true ⟨_, rfl⟩ ?_, ?_⟩
      · by_contra hnone
        rw [not_exists] at hnone
        exact hnil (conflicts_eq_nil_iff.2 fun guid => Nat.le_of_lt_succ (Nat.not_le.1 (hnone guid)))
      · intro errors herrors
        obtain rfl := Except.error.inj herrors
        exact reportsConflicts_conflicts records rows
  · intro l₁ i l₂ guid key hvisited hguid hkey hclaimed
    have hkeyAt : keyAt records rows i = some key := by
      rw [keyAt, hguid, Option.bind_some, hkey]
    exact two_le_claimants_of_isClaimed hs hvisited hguid hkeyAt hclaimed

/-! ### Three rows for one coin -/

/-- Three rows with the GUID of one coin; the second is called like it. -/
def claimedRows : List Row :=
  [⟨2, "Pearl", some ⟨"g1"⟩, "c", ∅⟩, ⟨3, "Coin", some ⟨"g1"⟩, "d", ∅⟩,
    ⟨4, "Ring", some ⟨"g1"⟩, "e", ∅⟩]

/-- The first and the third of the rows are reported. -/
theorem reconcile_fails_as_due_hoard :
    (reconcile .standard Execution.unarySupply hoard claimedRows).1 =
        .error [.guidConflict ⟨"g1"⟩ 2, .guidConflict ⟨"g1"⟩ 4] ∧
      ReportsConflicts hoard claimedRows [.guidConflict ⟨"g1"⟩ 2, .guidConflict ⟨"g1"⟩ 4] := by
  have hresult : (reconcile .standard Execution.unarySupply hoard claimedRows).1 =
      .error [.guidConflict ⟨"g1"⟩ 2, .guidConflict ⟨"g1"⟩ 4] := by decide +kernel
  have hfaultless : ¬Faulty hoard claimedRows := tableFaults_eq_nil_iff.1 (by decide +kernel)
  exact ⟨hresult, ((reconcile_fails_as_due (RecordSet.wellFormed_ofList _ _) (fun _ => rfl)
    Execution.unarySupply claimedRows).2.1 hfaultless).2 _ hresult⟩

end RecordTables.Matcher
