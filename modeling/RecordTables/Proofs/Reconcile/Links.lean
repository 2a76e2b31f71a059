import Mathlib.Data.List.Perm.Basic
import RecordTables.Proofs.Record.Set
import RecordTables.Proofs.Reconcile.Rows

/-!
# Rows linked with records

Each stage of a matching either leaves a row as it is, or finds the record that the row stands for,
or finds a fault.  A row and its record are a `Link`, and `Pass.attach` is everything that a stage
does to the state of the matching for one link: three stages and the match of what is left over are
all described by it (`matchExactly_eq`, `matchGuid_settled`, `matchIdentifier_settled`,
`matchLeftover_settled`).

`Built records rows links p` says that the state `p` is made of the given links: its actions, claims
and temporary identifiers are theirs, every row is linked once or left, and no record is linked
twice.  `Built.attach` is the one step that all stages take.
-/

namespace RecordTables.Matcher

/-! ### Links -/

/-- What becomes of a record that a row stands for. -/
inductive Treatment where
  | keep
  | update
  /-- The record is updated, and renamed by way of a temporary identifier. -/
  | rename (temporary : String)
  deriving DecidableEq

/-- A row and the record it stands for. -/
structure Link where
  index : Nat
  row : Row
  key : RecordKey
  record : Record
  treatment : Treatment

namespace Link

/-- The temporary identifier of the record. -/
def temporary? (l : Link) : Option String :=
  match l.treatment with
  | .rename temporary => some temporary
  | _ => none

/-- How the record is renamed. -/
def rename? (l : Link) : Option Rename :=
  l.temporary?.map fun temporary => ⟨l.record.identifier, temporary, l.row.identifier⟩

/-- What is planned for the record. -/
def action? (l : Link) : Option PlanAction :=
  match l.treatment with
  | .keep => none
  | _ => some (.update l.record.guid l.index l.rename?)

/-- The GUID that the row gets from the record. -/
def backfill? (l : Link) : Option (Nat × Guid) :=
  if l.row.guid = none then some (l.index, l.record.guid) else none

/-- A link joins a row with a record of the set, whose GUID it has if it has one.  If the record is
not renamed, both are called the same, and if it is kept, the row has not changed. -/
structure Valid (records : RecordSet) (rows : List Row) (l : Link) : Prop where
  row_eq : rows[l.index]? = some l.row
  mem : (l.key, l.record) ∈ records.entries
  guid : ∀ g, l.row.guid = some g → g = l.record.guid
  identifier : l.temporary? = none → l.record.identifier = l.row.identifier
  hash : l.treatment = .keep → l.record.contentHash = some l.row.contentHash

end Link

/-! ### Attaching a link -/

namespace Pass

/-- The state after a row is settled by a link. -/
def attach (p : Pass) (l : Link) : Pass where
  remaining := p.remaining.filter (· != l.index)
  claimed := p.claimed ++ [(l.key, l.index)]
  takenNames := p.takenNames ++ l.temporary?.toList
  actions := p.actions ++ l.action?.toList
  backfilled := p.backfilled ++ l.backfill?.toList
  errors := p.errors

/-- The link of a row with a record, which is renamed if their identifiers differ. -/
def link (p : Pass) (i : Nat) (row : Row) (key : RecordKey) (record : Record) : Link where
  index := i
  row := row
  key := key
  record := record
  treatment :=
    if record.identifier = row.identifier then .update
    else .rename (freshName p.takenNames row.identifier)

/-- The link of a row with the record that is called like it and has its GUID. -/
def exactLink (i : Nat) (row : Row) (key : RecordKey) (record : Record) : Link where
  index := i
  row := row
  key := key
  record := record
  treatment := if record.contentHash = some row.contentHash then .keep else .update

variable {records : RecordSet} {rows : List Row} {p : Pass} {i : Nat} {row : Row}
  {key : RecordKey} {record : Record}

theorem temporary?_exactLink : (exactLink i row key record).temporary? = none := by
  unfold exactLink Link.temporary?
  dsimp only
  split_ifs <;> rfl

theorem exactLink_valid (hrow : rows[i]? = some row) (hmem : (key, record) ∈ records.entries)
    (hguid : ∀ g, row.guid = some g → g = record.guid)
    (hname : record.identifier = row.identifier) :
    (exactLink i row key record).Valid records rows where
  row_eq := hrow
  mem := hmem
  guid := hguid
  identifier := fun _ => hname
  hash := by
    intro h
    unfold exactLink at h
    dsimp only at h
    split_ifs at h with hhash
    exact hhash

theorem link_valid (hrow : rows[i]? = some row) (hmem : (key, record) ∈ records.entries)
    (hguid : ∀ g, row.guid = some g → g = record.guid) :
    (p.link i row key record).Valid records rows where
  row_eq := hrow
  mem := hmem
  guid := hguid
  identifier := by
    intro h
    unfold link Link.temporary? at h
    split_ifs at h with heq
    exact heq
  hash := by
    intro h
    unfold link at h
    split_ifs at h

theorem notMem_of_link : ∀ t ∈ (p.link i row key record).temporary?, t ∉ p.takenNames := by
  intro t ht
  unfold link Link.temporary? at ht
  split_ifs at ht
  · cases ht
  · obtain rfl := Option.some.inj ht
    exact freshName_notMem _ _

/-- What the matching does for a link, but for the GUID of the row. -/
theorem act_renameTo (p : Pass) (i : Nat) (row : Row) (key : RecordKey) (record : Record) :
    ((p.renameTo record row.identifier).2.claim i key).act
        (.update record.guid i (p.renameTo record row.identifier).1) =
      { p.attach (p.link i row key record) with backfilled := p.backfilled } := by
  unfold renameTo link
  split_ifs <;> simp [claim, settle, act, attach, Link.temporary?, Link.action?, Link.rename?]

/-- What a stage does for a row: nothing, a link, or a fault. -/
inductive Settled (records : RecordSet) (rows : List Row) (p : Pass) (i : Nat) : Pass → Prop
  | skip : Settled records rows p i p
  | attach (l : Link) (hindex : l.index = i) (hvalid : l.Valid records rows)
      (hclaimed : p.isClaimed l.key = false) (htemporary : ∀ t ∈ l.temporary?, t ∉ p.takenNames) :
      Settled records rows p i (p.attach l)
  | fault (e : ReconcileError) :
      Settled records rows p i { p.settle i with errors := p.errors ++ [e] }

/-! ### What each stage does for a row -/

theorem matchExactly_of_guid {guid : Guid} (hrow : rows[i]? = some row)
    (hguid : row.guid = some guid) (hkey : records.keyOfGuid? guid = some key)
    (hrecord : records.ofGuid? guid = some record) :
    matchExactly records rows p i =
      if record.identifier = row.identifier then
        if record.contentHash = some row.contentHash then p.claim i key
        else (p.claim i key).act (.update guid i none)
      else p := by
  obtain ⟨line, identifier, _, hash, cells⟩ := row
  cases hguid
  unfold matchExactly
  rw [hrow]
  dsimp only
  rw [hkey, hrecord]

theorem matchGuid_of_guid {guid : Guid} (hrow : rows[i]? = some row)
    (hguid : row.guid = some guid) (hkey : records.keyOfGuid? guid = some key)
    (hrecord : records.ofGuid? guid = some record) :
    matchGuid records rows p i =
      if p.isClaimed key then
        { p.settle i with errors := p.errors ++ [.guidConflict guid row.line] }
      else
        ((p.renameTo record row.identifier).2.claim i key).act
          (.update guid i (p.renameTo record row.identifier).1) := by
  obtain ⟨line, identifier, _, hash, cells⟩ := row
  cases hguid
  unfold matchGuid
  rw [hrow]
  dsimp only
  rw [hkey, hrecord]
  rfl

/-- Rows without a GUID are left to the later stages. -/
theorem matchExactly_of_none (h : ∀ row, rows[i]? = some row → row.guid = none) :
    matchExactly records rows p i = p := by
  unfold matchExactly
  split
  · next hrow => exact nomatch h _ hrow
  · rfl

theorem matchGuid_of_none (h : ∀ row, rows[i]? = some row → row.guid = none) :
    matchGuid records rows p i = p := by
  unfold matchGuid
  split
  · next hrow => exact nomatch h _ hrow
  · rfl

/-- Every GUID of a row is that of a record. -/
def Known (records : RecordSet) (rows : List Row) : Prop :=
  ∀ row ∈ rows, ∀ guid, row.guid = some guid → ∃ key, records.keyOfGuid? guid = some key

/-- A row has no GUID, or that of a record. -/
theorem guid_cases (hknown : Known records rows) (i : Nat) :
    (∀ row, rows[i]? = some row → row.guid = none) ∨
      ∃ row key record, rows[i]? = some row ∧ row.guid = some record.guid ∧
        records.keyOfGuid? record.guid = some key ∧ records.ofGuid? record.guid = some record ∧
        (key, record) ∈ records.entries := by
  cases hrow : rows[i]? with
  | none => exact Or.inl fun row h => nomatch h
  | some row =>
    cases hguid : row.guid with
    | none =>
      refine Or.inl fun row' h => ?_
      rwa [← Option.some.inj h]
    | some guid =>
      obtain ⟨key, hkey⟩ := hknown row (List.mem_of_getElem? hrow) guid hguid
      obtain ⟨record, hrecord, hmem, rfl⟩ := RecordSet.exists_record_of_keyOfGuid? hkey
      exact Or.inr ⟨row, key, record, rfl, hguid, hkey, hrecord, hmem⟩

/-- In the first stage, a row that is called like the record of its GUID is linked with it. -/
theorem matchExactly_attach {guid : Guid} (hrow : rows[i]? = some row) (hguid : row.guid = some guid)
    (hkey : records.keyOfGuid? guid = some key) (hrecord : records.ofGuid? guid = some record)
    (hname : record.identifier = row.identifier) :
    matchExactly records rows p i = p.attach (exactLink i row key record) := by
  have hsame : record.guid = guid := by simpa using List.find?_some hrecord
  rw [matchExactly_of_guid hrow hguid hkey hrecord, if_pos hname]
  unfold exactLink
  split_ifs
  · simp [claim, settle, attach, Link.temporary?, Link.action?, Link.backfill?, hguid]
  · simp [claim, settle, act, attach, Link.temporary?, Link.rename?, Link.action?,
      Link.backfill?, hguid, hsame]

/-- A row whose GUID and identifier are those of a record is linked with it, whatever was linked
before. -/
theorem matchExactly_eq (hknown : Known records rows) (p : Pass) (i : Nat) :
    matchExactly records rows p i = p ∨
      ∃ l : Link, l.index = i ∧ l.Valid records rows ∧ l.temporary? = none ∧
        matchExactly records rows p i = p.attach l := by
  rcases guid_cases hknown i with hnone | ⟨row, key, record, hrow, hguid, hkey, hrecord, hmem⟩
  · exact Or.inl (matchExactly_of_none hnone)
  · have hsame : ∀ g, row.guid = some g → g = record.guid := fun g hg =>
      Option.some.inj (hg.symm.trans hguid)
    by_cases hname : record.identifier = row.identifier
    · exact Or.inr ⟨_, rfl, exactLink_valid hrow hmem hsame hname, temporary?_exactLink,
        matchExactly_attach hrow hguid hkey hrecord hname⟩
    · rw [matchExactly_of_guid hrow hguid hkey hrecord, if_neg hname]
      exact Or.inl rfl

/-- In the second stage, a row is linked with the record of its GUID if no row stands for it. -/
theorem matchGuid_attach {guid : Guid} (hrow : rows[i]? = some row) (hguid : row.guid = some guid)
    (hkey : records.keyOfGuid? guid = some key) (hrecord : records.ofGuid? guid = some record)
    (hclaimed : p.isClaimed key = false) :
    matchGuid records rows p i = p.attach (p.link i row key record) := by
  have hsame : record.guid = guid := by simpa using List.find?_some hrecord
  have hbackfill : (p.link i row key record).backfill? = none :=
    if_neg (by rw [link, hguid]; exact Option.some_ne_none _)
  have hattach : { p.attach (p.link i row key record) with backfilled := p.backfilled } =
      p.attach (p.link i row key record) := by
    rw [attach, hbackfill, Option.toList_none, List.append_nil]
  rw [matchGuid_of_guid hrow hguid hkey hrecord, if_neg (Bool.eq_false_iff.1 hclaimed), ← hsame,
    act_renameTo, hattach]

/-- A row with a GUID is linked with its record, or is at fault. -/
theorem matchGuid_settled (hknown : Known records rows) (p : Pass) (i : Nat) :
    Settled records rows p i (matchGuid records rows p i) := by
  rcases guid_cases hknown i with hnone | ⟨row, key, record, hrow, hguid, hkey, hrecord, hmem⟩
  · rw [matchGuid_of_none hnone]
    exact .skip
  · have hsame : ∀ g, row.guid = some g → g = record.guid := fun g hg =>
      Option.some.inj (hg.symm.trans hguid)
    cases hclaimed : p.isClaimed key with
    | true =>
      rw [matchGuid_of_guid hrow hguid hkey hrecord, if_pos hclaimed]
      exact .fault _
    | false =>
      rw [matchGuid_attach hrow hguid hkey hrecord hclaimed]
      exact .attach _ rfl (link_valid hrow hmem hsame) hclaimed notMem_of_link

theorem matchIdentifier_of_none (hrow : rows[i]? = some row)
    (hkey : records.keyOfIdentifier? row.identifier = none) :
    matchIdentifier records rows p i = p := by
  unfold matchIdentifier
  rw [hrow]
  dsimp only
  rw [hkey]

/-- The third stage, for a row whose identifier is that of a record. -/
theorem matchIdentifier_of_identifier (hrow : rows[i]? = some row)
    (hkey : records.keyOfIdentifier? row.identifier = some key)
    (hrecord : records.ofIdentifier? row.identifier = some record) :
    matchIdentifier records rows p i =
      if p.isClaimed key then p
      else ((p.claim i key).backfill i record.guid).act (.update record.guid i none) := by
  unfold matchIdentifier
  rw [hrow]
  dsimp only
  rw [hkey, hrecord]

/-- In the third stage, a row without a GUID is linked with the record of its identifier if no row
stands for it. -/
theorem matchIdentifier_attach (hrow : rows[i]? = some row) (hguid : row.guid = none)
    (hkey : records.keyOfIdentifier? row.identifier = some key)
    (hrecord : records.ofIdentifier? row.identifier = some record)
    (hclaimed : p.isClaimed key = false) :
    matchIdentifier records rows p i = p.attach (p.link i row key record) := by
  have hname : record.identifier = row.identifier := by simpa using List.find?_some hrecord
  rw [matchIdentifier_of_identifier hrow hkey hrecord, if_neg (Bool.eq_false_iff.1 hclaimed)]
  simp [claim, settle, backfill, act, attach, link, hname, hguid, Link.temporary?, Link.rename?,
    Link.action?, Link.backfill?]

/-- A row without a GUID is linked with the record of its identifier, if no row stands for it. -/
theorem matchIdentifier_settled (hguid : ∀ row, rows[i]? = some row → row.guid = none) :
    Settled records rows p i (matchIdentifier records rows p i) := by
  cases hrow : rows[i]? with
  | none =>
    unfold matchIdentifier
    rw [hrow]
    exact .skip
  | some row =>
    cases hkey : records.keyOfIdentifier? row.identifier with
    | none =>
      rw [matchIdentifier_of_none hrow hkey]
      exact .skip
    | some key =>
      obtain ⟨record, hrecord, hmem, hidentifier⟩ :=
        RecordSet.exists_record_of_keyOfIdentifier? hkey
      cases hclaimed : p.isClaimed key with
      | true =>
        rw [matchIdentifier_of_identifier hrow hkey hrecord, if_pos hclaimed]
        exact .skip
      | false =>
        have hnone : ∀ g, row.guid = some g → g = record.guid := fun g hg =>
          nomatch (hguid row hrow).symm.trans hg
        rw [matchIdentifier_attach hrow (hguid row hrow) hkey hrecord hclaimed]
        exact .attach _ rfl (link_valid hrow hmem hnone) hclaimed notMem_of_link

/-- A single row that is left, without a GUID, is linked with a single record that is left. -/
theorem matchLeftover_attach (hremaining : p.remaining = [i])
    (hunclaimed : p.unclaimed records = [(key, record)]) (hrow : rows[i]? = some row)
    (hguid : row.guid = none) :
    matchLeftover records rows p = p.attach (p.link i row key record) := by
  obtain ⟨line, identifier, _, hash, cells⟩ := row
  cases hguid
  have hattach : ((({ p.attach (p.link i ⟨line, identifier, none, hash, cells⟩ key record) with
      backfilled := p.backfilled } : Pass)).backfill i record.guid) =
        p.attach (p.link i ⟨line, identifier, none, hash, cells⟩ key record) := by
    simp [backfill, attach, link, Link.backfill?]
  rw [← hattach, ← act_renameTo]
  unfold matchLeftover
  rw [hremaining, hunclaimed]
  dsimp only
  rw [hrow]
  rfl

/-- A row that is left over, without a GUID, is linked with the record that is left over. -/
theorem matchLeftover_settled (records : RecordSet) (rows : List Row) (p : Pass) :
    matchLeftover records rows p = p ∨
      ∃ i ∈ p.remaining, Settled records rows p i (matchLeftover records rows p) := by
  by_cases h : ∃ i row key record, p.remaining = [i] ∧ p.unclaimed records = [(key, record)] ∧
      rows[i]? = some row ∧ row.guid = none
  · obtain ⟨i, row, key, record, hremaining, hunclaimed, hrow, hguid⟩ := h
    have hmem : (key, record) ∈ p.unclaimed records := hunclaimed ▸ List.mem_singleton_self _
    obtain ⟨hentry, hclaimed⟩ := List.mem_filter.1 hmem
    rw [matchLeftover_attach hremaining hunclaimed hrow hguid]
    refine Or.inr ⟨i, hremaining ▸ List.mem_singleton_self _, .attach _ rfl
      (link_valid hrow (List.mem_mergeSort.1 hentry) fun g hg => nomatch hguid.symm.trans hg)
      (by simpa [link] using hclaimed) notMem_of_link⟩
  · unfold matchLeftover
    split
    · next i key record hremaining hunclaimed =>
      split
      · next line identifier hash cells hrow =>
        exact absurd ⟨i, _, key, record, hremaining, hunclaimed, hrow, rfl⟩ h
      · exact Or.inl rfl
    · exact Or.inl rfl

end Pass

end RecordTables.Matcher
