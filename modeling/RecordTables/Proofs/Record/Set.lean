import Mathlib.Data.List.Perm.Basic
import Mathlib.Data.List.Nodup
import RecordTables.Proofs.NameMap
import RecordTables.Record

/-!
# Sets of records

`WellFormed` is what every set keeps that is built with the operations of `RecordSet`: no key is
given twice, and the vacated slots are known.  For such sets `entries_insert`, `entries_modify_perm`
and `entries_remove_perm` tell the entries afterwards, up to the order of the slots, which depends on
the slots that were vacated before.

`exists_record_of_keyOfGuid?` and `exists_record_of_keyOfIdentifier?` say that the two look-ups for
one GUID, or one identifier, find the key and the record of one entry.

A catalog that was put together set by set has each set under its type (`Catalog.Keyed`), and what
identifiers name with it are its records (`Catalog.exists_of_guid?`).  With the references to a list of
entries, an identifier names the entry that has it, if there is only one
(`References.guid?_ofEntries_append_of_mem`).
-/

namespace RecordTables.RecordSet

/-! ### Slots -/

theorem perm_filterMap_set_some {α : Type} {slots : List (Option α)} {i : Nat}
    (h : slots[i]? = some none) (a : α) :
    List.Perm ((slots.set i (some a)).filterMap id) (a :: slots.filterMap id) := by
  induction slots generalizing i with
  | nil => cases h
  | cons slot slots ih =>
    cases i with
    | zero =>
      obtain rfl : slot = none := Option.some.inj h
      exact List.Perm.refl _
    | succ i =>
      rw [List.getElem?_cons_succ] at h
      cases slot with
      | none => exact ih h
      | some b => exact ((ih h).cons b).trans (List.Perm.swap a b _)

theorem perm_filterMap_set_none {α : Type} {slots : List (Option α)} {i : Nat} {a : α}
    (h : slots[i]? = some (some a)) :
    List.Perm (slots.filterMap id) (a :: (slots.set i none).filterMap id) := by
  induction slots generalizing i with
  | nil => cases h
  | cons slot slots ih =>
    cases i with
    | zero =>
      obtain rfl : slot = some a := Option.some.inj h
      exact List.Perm.refl _
    | succ i =>
      rw [List.getElem?_cons_succ] at h
      cases slot with
      | none => exact ih h
      | some b => exact ((ih h).cons b).trans (List.Perm.swap a b _)

/-! ### Well-formed sets -/

/-- What the operations keep: the keys are distinct and smaller than the next one, and the vacated
slots are empty. -/
structure WellFormed (s : RecordSet) : Prop where
  keys_nodup : (s.entries.map (·.1)).Nodup
  key_lt : ∀ e ∈ s.entries, e.1.serial < s.nextKey.serial
  vacated_nodup : s.vacated.Nodup
  vacated_none : ∀ i ∈ s.vacated, s.slots[i]? = some none

theorem wellFormed_empty (recordType : String) : (empty recordType).WellFormed where
  keys_nodup := List.nodup_nil
  key_lt := fun _ h => nomatch h
  vacated_nodup := List.nodup_nil
  vacated_none := fun _ h => nomatch h

variable {s : RecordSet}

theorem eq_of_mem_entries (hs : s.WellFormed) {key : RecordKey} {r r' : Record}
    (h : (key, r) ∈ s.entries) (h' : (key, r') ∈ s.entries) : r = r' :=
  congrArg Prod.snd (List.inj_on_of_nodup_map hs.keys_nodup h h' rfl)

/-! ### Putting a record in -/

theorem insert_of_vacated_nil (h : s.vacated = []) (r : Record) :
    (s.insert r).2 = { s with
      slots := s.slots ++ [some (s.nextKey, r)], nextKey := ⟨s.nextKey.serial + 1⟩ } := by
  unfold insert
  rw [h]

theorem insert_of_vacated_cons {slot : Nat} {rest : List Nat} (h : s.vacated = slot :: rest)
    (r : Record) :
    (s.insert r).2 = { s with
      slots := s.slots.set slot (some (s.nextKey, r)), vacated := rest,
      nextKey := ⟨s.nextKey.serial + 1⟩ } := by
  unfold insert
  rw [h]

/-- The entries after a record is put in. -/
theorem entries_insert (hs : s.WellFormed) (r : Record) :
    List.Perm (s.insert r).2.entries ((s.nextKey, r) :: s.entries) := by
  cases hvacated : s.vacated with
  | nil =>
    rw [insert_of_vacated_nil hvacated]
    show List.Perm ((s.slots ++ [some (s.nextKey, r)]).filterMap id) _
    rw [List.filterMap_append]
    exact List.perm_append_comm
  | cons slot rest =>
    rw [insert_of_vacated_cons hvacated]
    exact perm_filterMap_set_some (hs.vacated_none slot (hvacated ▸ List.mem_cons_self)) _

theorem nextKey_insert (r : Record) : (s.insert r).2.nextKey = ⟨s.nextKey.serial + 1⟩ := by
  unfold insert
  split <;> rfl

theorem recordType_insert (r : Record) : (s.insert r).2.recordType = s.recordType := by
  unfold insert
  split <;> rfl

theorem WellFormed.insert (hs : s.WellFormed) (r : Record) : (s.insert r).2.WellFormed where
  keys_nodup := by
    rw [((entries_insert hs r).map _).nodup_iff, List.map_cons, List.nodup_cons]
    refine ⟨fun hmem => ?_, hs.keys_nodup⟩
    obtain ⟨e, he, hkey⟩ := List.mem_map.1 hmem
    exact Nat.lt_irrefl _ (hkey ▸ hs.key_lt e he)
  key_lt := by
    intro e he
    rw [nextKey_insert]
    rcases List.mem_cons.1 ((entries_insert hs r).mem_iff.1 he) with rfl | he
    · exact Nat.lt_succ_self _
    · exact Nat.lt_succ_of_lt (hs.key_lt e he)
  vacated_nodup := by
    have hnodup := hs.vacated_nodup
    cases hvacated : s.vacated with
    | nil =>
      rw [insert_of_vacated_nil hvacated]
      exact hnodup
    | cons slot rest =>
      rw [insert_of_vacated_cons hvacated]
      exact (List.nodup_cons.1 (hvacated ▸ hnodup)).2
  vacated_none := by
    cases hvacated : s.vacated with
    | nil =>
      rw [insert_of_vacated_nil hvacated]
      intro i hi
      exact nomatch (hvacated ▸ hi : i ∈ [])
    | cons slot rest =>
      rw [insert_of_vacated_cons hvacated]
      intro i hi
      -- the vacated slots differ, so the one that is filled is none of the others
      have hne : slot ≠ i := by
        rintro rfl
        exact (List.nodup_cons.1 (hvacated ▸ hs.vacated_nodup)).1 hi
      show (s.slots.set slot _)[i]? = some none
      rw [List.getElem?_set_ne hne]
      exact hs.vacated_none i (hvacated ▸ List.mem_cons_of_mem _ hi)

theorem wellFormed_ofList (recordType : String) (records : List Record) :
    (ofList recordType records).WellFormed := by
  unfold ofList
  generalize empty recordType = s, wellFormed_empty recordType = hs
  induction records generalizing s with
  | nil => exact hs
  | cons r records ih => exact ih _ (hs.insert r)

/-! ### Changing a record -/

theorem entries_modify (s : RecordSet) (key : RecordKey) (change : Record → Record) :
    (s.modify key change).entries =
      s.entries.map fun e => if e.1 = key then (e.1, change e.2) else e := by
  show (s.slots.map _).filterMap id = (s.slots.filterMap id).map _
  rw [List.filterMap_map, List.map_filterMap]
  rfl

theorem keys_modify (s : RecordSet) (key : RecordKey) (change : Record → Record) :
    (s.modify key change).entries.map (·.1) = s.entries.map (·.1) := by
  rw [entries_modify, List.map_map]
  refine List.map_congr_left fun e _ => ?_
  show (if e.1 = key then (e.1, change e.2) else e).1 = e.1
  split <;> rfl

theorem WellFormed.modify (hs : s.WellFormed) (key : RecordKey) (change : Record → Record) :
    (s.modify key change).WellFormed where
  keys_nodup := by
    rw [keys_modify]
    exact hs.keys_nodup
  key_lt := by
    intro e he
    have hmem : e.1 ∈ s.entries.map (·.1) := keys_modify s key change ▸ List.mem_map_of_mem he
    obtain ⟨e', he', hkey⟩ := List.mem_map.1 hmem
    exact hkey ▸ hs.key_lt e' he'
  vacated_nodup := hs.vacated_nodup
  vacated_none := by
    intro i hi
    show (s.slots.map _)[i]? = some none
    rw [List.getElem?_map, hs.vacated_none i hi]
    rfl

/-- The entries after a record is changed. -/
theorem entries_modify_perm (hs : s.WellFormed) {key : RecordKey} {r : Record}
    {rest : List (RecordKey × Record)} (h : List.Perm s.entries ((key, r) :: rest))
    (change : Record → Record) :
    List.Perm (s.modify key change).entries ((key, change r) :: rest) := by
  have hnotMem : key ∉ rest.map (·.1) := by
    have hnodup := (h.map (·.1)).nodup_iff.1 hs.keys_nodup
    exact (List.nodup_cons.1 hnodup).1
  have hrest : rest.map (fun e => if e.1 = key then (e.1, change e.2) else e) = rest := by
    conv_rhs => rw [← List.map_id rest]
    refine List.map_congr_left fun e he => if_neg fun hkey => hnotMem ?_
    exact hkey ▸ List.mem_map_of_mem he
  rw [entries_modify]
  refine (h.map _).trans ?_
  rw [List.map_cons, if_pos rfl, hrest]

/-! ### Taking a record out -/

/-- A record that is in the set leaves its slot empty. -/
theorem exists_slot_of_mem (hs : s.WellFormed) {key : RecordKey} {r : Record}
    (h : (key, r) ∈ s.entries) :
    ∃ i, s.slots[i]? = some (some (key, r)) ∧
      (s.remove key).2 = { s with slots := s.slots.set i none, vacated := i :: s.vacated } := by
  have hslot : some (key, r) ∈ s.slots := by
    obtain ⟨slot, hmem, rfl⟩ := List.mem_filterMap.1 h
    exact hmem
  have hsome : (s.slot? key).isSome = true := by
    unfold slot?
    rw [List.findIdx?_isSome, List.any_eq_true]
    exact ⟨_, hslot, by simp⟩
  obtain ⟨i, hi⟩ := Option.isSome_iff_exists.1 hsome
  obtain ⟨hlt, hkey, -⟩ := List.findIdx?_eq_some_iff_getElem.1 hi
  refine ⟨i, ?_, ?_⟩
  · rw [List.getElem?_eq_getElem hlt]
    cases hentry : s.slots[i] with
    | none => rw [hentry] at hkey; cases hkey
    | some e =>
      rw [hentry] at hkey
      obtain rfl : e.1 = key := by simpa using hkey
      have hmem : e ∈ s.entries := List.mem_filterMap.2 ⟨some e, hentry ▸ List.getElem_mem hlt, rfl⟩
      rw [eq_of_mem_entries hs h hmem]
  · unfold remove
    rw [hi]

/-- The entries after a record is taken out. -/
theorem entries_remove_perm (hs : s.WellFormed) {key : RecordKey} {r : Record}
    {rest : List (RecordKey × Record)} (h : List.Perm s.entries ((key, r) :: rest)) :
    List.Perm (s.remove key).2.entries rest := by
  obtain ⟨i, hi, hremove⟩ := exists_slot_of_mem hs (h.mem_iff.2 List.mem_cons_self)
  rw [hremove]
  exact (List.perm_cons _).1 ((perm_filterMap_set_none hi).symm.trans h)

theorem WellFormed.remove (hs : s.WellFormed) {key : RecordKey} {r : Record}
    (h : (key, r) ∈ s.entries) : (s.remove key).2.WellFormed := by
  obtain ⟨i, hi, hremove⟩ := exists_slot_of_mem hs h
  rw [hremove]
  have hperm := perm_filterMap_set_none hi
  exact
  { keys_nodup := by
      have hnodup := (hperm.map (·.1)).nodup_iff.1 hs.keys_nodup
      exact (List.nodup_cons.1 hnodup).2
    key_lt := fun e he => hs.key_lt e (hperm.mem_iff.2 (List.mem_cons_of_mem _ he))
    vacated_nodup := by
      refine List.nodup_cons.2 ⟨fun hmem => ?_, hs.vacated_nodup⟩
      exact nomatch (hs.vacated_none i hmem).symm.trans hi
    vacated_none := by
      intro j hj
      have hlt : i < s.slots.length := (List.getElem?_eq_some_iff.1 hi).1
      show (s.slots.set i none)[j]? = some none
      by_cases hij : i = j
      · rw [← hij, List.getElem?_set_self hlt]
      · rw [List.getElem?_set_ne hij]
        exact hs.vacated_none j ((List.mem_cons.1 hj).resolve_left fun h => hij h.symm) }

/-! ### Looking records up -/

/-- A look-up by a condition finds the key and the record of one entry that satisfies it. -/
theorem exists_record_of_findKey? {p : Record → Bool} {key : RecordKey}
    (h : s.findKey? p = some key) :
    ∃ r, s.records.reverse.find? p = some r ∧ (key, r) ∈ s.entries ∧ p r = true := by
  unfold findKey? at h
  obtain ⟨e, he, rfl⟩ := Option.map_eq_some_iff.1 h
  have hp := List.find?_some he
  refine ⟨e.2, ?_, List.mem_reverse.1 (List.mem_of_find?_eq_some he), hp⟩
  unfold records
  rw [← List.map_reverse, List.find?_map]
  exact Option.map_eq_some_iff.2 ⟨e, he, rfl⟩

theorem findKey?_eq_none {p : Record → Bool} :
    s.findKey? p = none ↔ ∀ r ∈ s.records, p r = false := by
  unfold findKey? records
  rw [Option.map_eq_none_iff, List.find?_eq_none, List.forall_mem_map]
  simp only [List.mem_reverse, Bool.not_eq_true]

theorem exists_record_of_keyOfGuid? {guid : Guid} {key : RecordKey}
    (h : s.keyOfGuid? guid = some key) :
    ∃ r, s.ofGuid? guid = some r ∧ (key, r) ∈ s.entries ∧ r.guid = guid := by
  obtain ⟨r, hr, hmem, hguid⟩ := exists_record_of_findKey? h
  exact ⟨r, hr, hmem, by simpa using hguid⟩

theorem exists_record_of_keyOfIdentifier? {identifier : String} {key : RecordKey}
    (h : s.keyOfIdentifier? identifier = some key) :
    ∃ r, s.ofIdentifier? identifier = some r ∧ (key, r) ∈ s.entries ∧
      r.identifier = identifier := by
  obtain ⟨r, hr, hmem, hidentifier⟩ := exists_record_of_findKey? h
  exact ⟨r, hr, hmem, by simpa using hidentifier⟩

theorem keyOfIdentifier?_eq_none {identifier : String} :
    s.keyOfIdentifier? identifier = none ↔ ∀ r ∈ s.records, r.identifier ≠ identifier := by
  unfold keyOfIdentifier?
  rw [findKey?_eq_none]
  simp only [beq_eq_false_iff_ne]

theorem keyOfGuid?_eq_none {guid : Guid} :
    s.keyOfGuid? guid = none ↔ ∀ r ∈ s.records, r.guid ≠ guid := by
  unfold keyOfGuid?
  rw [findKey?_eq_none]
  simp only [beq_eq_false_iff_ne]

/-- The key of the GUID of a record, if no other record has it. -/
theorem keyOfGuid?_of_perm {key : RecordKey} {r : Record} {rest : List (RecordKey × Record)}
    (h : List.Perm s.entries ((key, r) :: rest)) (hrest : ∀ e ∈ rest, e.2.guid ≠ r.guid) :
    s.keyOfGuid? r.guid = some key := by
  cases hkey : s.keyOfGuid? r.guid with
  | none =>
    have hmem : r ∈ s.records := List.mem_map.2 ⟨(key, r), h.mem_iff.2 List.mem_cons_self, rfl⟩
    simpa using findKey?_eq_none.1 hkey r hmem
  | some key' =>
    obtain ⟨r', -, hmem, hguid⟩ := exists_record_of_keyOfGuid? hkey
    rcases List.mem_cons.1 (h.mem_iff.1 hmem) with heq | hmem
    · rw [(Prod.mk.inj heq).1]
    · exact absurd hguid (hrest _ hmem)

/-- The record of a GUID, if GUIDs are distinct. -/
theorem ofGuid?_of_mem (hguids : (s.records.map (·.guid)).Nodup) {r : Record}
    (hr : r ∈ s.records) : s.ofGuid? r.guid = some r := by
  unfold ofGuid?
  cases hfind : s.records.reverse.find? (fun r' => r'.guid == r.guid) with
  | none => simpa using List.find?_eq_none.1 hfind r (List.mem_reverse.2 hr)
  | some r' =>
    have hmem := List.mem_reverse.1 (List.mem_of_find?_eq_some hfind)
    have hguid : r'.guid = r.guid := by simpa using List.find?_some hfind
    rw [List.inj_on_of_nodup_map hguids hmem hr hguid]

/-! ### The order of the identifiers -/

theorem byIdentifier_perm (s : RecordSet) : s.byIdentifier.Perm s.entries := List.mergeSort_perm _ _

/-- No record comes after one of a greater identifier. -/
theorem sorted_byIdentifier (s : RecordSet) :
    s.byIdentifier.Pairwise fun a b => a.2.identifier ≤ b.2.identifier := by
  have hsorted := @List.pairwise_mergeSort _
    (fun a b : RecordKey × Record => decide (a.2.identifier ≤ b.2.identifier))
    (fun a b c hab hbc => decide_eq_true
      (String.le_trans (of_decide_eq_true hab) (of_decide_eq_true hbc)))
    (fun a b => by
      rw [Bool.or_eq_true, decide_eq_true_iff, decide_eq_true_iff]
      exact String.le_total _ _) s.entries
  exact hsorted.imp fun h => of_decide_eq_true h

end RecordTables.RecordSet

/-! ### References to the records of catalogs -/

namespace RecordTables

variable {recordType identifier : String} {guid : Guid}

namespace References

variable {entries front back : List ReferenceEntry}

/-- Whether an entry is for an identifier. -/
def isFor (recordType identifier : String) (e : ReferenceEntry) : Bool :=
  e.recordType == recordType && e.identifier == identifier

theorem isFor_iff {e : ReferenceEntry} :
    isFor recordType identifier e = true ↔ e.recordType = recordType ∧ e.identifier = identifier := by
  unfold isFor
  rw [Bool.and_eq_true, beq_iff_eq, beq_iff_eq]

theorem guid?_ofEntries (entries : List ReferenceEntry) (recordType identifier : String) :
    (ofEntries entries).guid? recordType identifier =
      (entries.reverse.find? (isFor recordType identifier)).map (·.guid) := rfl

/-- If all entries at the end that are for an identifier have one GUID, it names that. -/
theorem guid?_ofEntries_append_of_mem (h : ⟨recordType, identifier, guid⟩ ∈ back)
    (hone : ∀ guid', ⟨recordType, identifier, guid'⟩ ∈ back → guid' = guid) :
    (ofEntries (front ++ back)).guid? recordType identifier = some guid := by
  rw [guid?_ofEntries, List.reverse_append, List.find?_append]
  cases hfind : back.reverse.find? (isFor recordType identifier) with
  | none =>
    have hnone := List.find?_eq_none.1 hfind _ (List.mem_reverse.2 h)
    exact absurd (isFor_iff.2 ⟨rfl, rfl⟩) hnone
  | some e =>
    have hmem := List.mem_reverse.1 (List.mem_of_find?_eq_some hfind)
    obtain ⟨rfl, rfl⟩ := isFor_iff.1 (List.find?_some hfind)
    exact congrArg some (hone e.guid hmem)

/-- Entries for other identifiers make no difference. -/
theorem guid?_ofEntries_append_of_notMem
    (h : ∀ guid', (⟨recordType, identifier, guid'⟩ : ReferenceEntry) ∉ back) :
    (ofEntries (front ++ back)).guid? recordType identifier =
      (ofEntries front).guid? recordType identifier := by
  have hfind : back.reverse.find? (isFor recordType identifier) = .none := by
    refine List.find?_eq_none.2 fun e he hfor => ?_
    obtain ⟨rfl, rfl⟩ := isFor_iff.1 hfor
    exact h e.guid (List.mem_reverse.1 he)
  rw [guid?_ofEntries, guid?_ofEntries, List.reverse_append, List.find?_append, hfind,
    Option.none_or]

/-- What entries say of an identifier, they also say behind others. -/
theorem guid?_ofEntries_append (h : (ofEntries back).guid? recordType identifier = some guid) :
    (ofEntries (front ++ back)).guid? recordType identifier = some guid := by
  obtain ⟨e, hfind, hguid⟩ := Option.map_eq_some_iff.1 h
  rw [guid?_ofEntries, List.reverse_append, List.find?_append, show back.reverse.find?
    (isFor recordType identifier) = some e from hfind, Option.some_or, Option.map_some, hguid]

theorem mem_of_guid?_ofEntries (h : (ofEntries entries).guid? recordType identifier = some guid) :
    ⟨recordType, identifier, guid⟩ ∈ entries := by
  obtain ⟨e, hfind, rfl⟩ := Option.map_eq_some_iff.1 h
  obtain ⟨rfl, rfl⟩ := isFor_iff.1 (List.find?_some hfind)
  exact List.mem_reverse.1 (List.mem_of_find?_eq_some hfind)

/-- An identifier names something if there is an entry for it. -/
theorem isSome_guid?_ofEntries : ((ofEntries entries).guid? recordType identifier).isSome = true ↔
    ∃ guid, ⟨recordType, identifier, guid⟩ ∈ entries := by
  constructor
  · intro h
    obtain ⟨guid, hguid⟩ := Option.isSome_iff_exists.1 h
    exact ⟨guid, mem_of_guid?_ofEntries hguid⟩
  · rintro ⟨guid, hmem⟩
    rw [guid?_ofEntries, Option.isSome_map, List.find?_isSome]
    exact ⟨_, List.mem_reverse.2 hmem, isFor_iff.2 ⟨rfl, rfl⟩⟩

end References

namespace Catalog

variable {c : Catalog} {set : RecordSet}

/-- Each set stands under its type. -/
def Keyed (c : Catalog) : Prop := ∀ e ∈ c.entries, e.1 = e.2.recordType

theorem keyed_empty : Keyed NameMap.empty := fun _ he => nomatch he

theorem Keyed.insertSet (h : c.Keyed) (set : RecordSet) : (c.insertSet set).Keyed := by
  intro e he
  rcases NameMap.mem_insertEntry he with rfl | he
  · rfl
  · exact h e he

theorem setOf_insertSet (c : Catalog) (set : RecordSet) (recordType : String) :
    (c.insertSet set).setOf recordType =
      if set.recordType = recordType then set else c.setOf recordType := by
  unfold insertSet setOf
  rw [NameMap.find?_insert]
  split_ifs <;> rfl

theorem Keyed.find?_of_mem (h : c.Keyed) (hset : set ∈ NameMap.values c) :
    NameMap.find? c set.recordType = some set := by
  obtain ⟨e, he, rfl⟩ := List.mem_map.1 hset
  rw [← h e he]
  exact NameMap.find?_of_mem_entries he

theorem setOf_of_find? (h : NameMap.find? c recordType = some set) : c.setOf recordType = set := by
  unfold setOf
  rw [h]
  rfl

theorem setOf_mem_values (h : (NameMap.find? c recordType).isSome) :
    c.setOf recordType ∈ NameMap.values c := by
  obtain ⟨set, hset⟩ := Option.isSome_iff_exists.1 h
  rw [setOf_of_find? hset]
  exact List.mem_map_of_mem (NameMap.mem_entries_of_find? hset)

/-- A type with records is in the catalog. -/
theorem find?_of_mem_records {r : Record} (hr : r ∈ (c.setOf recordType).records) :
    NameMap.find? c recordType = some (c.setOf recordType) := by
  cases hfind : NameMap.find? c recordType with
  | none =>
    unfold setOf at hr
    rw [hfind] at hr
    cases hr
  | some set => rw [setOf_of_find? hfind]

theorem Keyed.setOf_of_mem (h : c.Keyed) (hset : set ∈ NameMap.values c) :
    c.setOf set.recordType = set := setOf_of_find? (h.find?_of_mem hset)

theorem Keyed.recordType_setOf (h : c.Keyed) (recordType : String) :
    (c.setOf recordType).recordType = recordType := by
  unfold setOf
  cases hfind : NameMap.find? c recordType with
  | none => rfl
  | some set => exact (h _ (NameMap.mem_entries_of_find? hfind)).symm

/-- The sets of a catalog are of different types. -/
theorem Keyed.nodup_types (h : c.Keyed) : ((NameMap.values c).map (·.recordType)).Nodup := by
  have hnames : (NameMap.values c).map (·.recordType) = c.entries.map (·.1) := by
    unfold NameMap.values
    rw [List.map_map]
    exact List.map_congr_left fun e he => (h e he).symm
  rw [hnames]
  exact List.pairwise_map.2 (c.sorted.imp fun hlt => Std.ne_of_lt hlt)

/-- The set of a type with records is in the catalog. -/
theorem mem_values_of_mem_records {r : Record} (hr : r ∈ (c.setOf recordType).records) :
    c.setOf recordType ∈ NameMap.values c :=
  setOf_mem_values (Option.isSome_of_eq_some (find?_of_mem_records hr))

/-- **What an identifier names** is the record that has it. -/
theorem exists_of_guid? (h : c.references.guid? recordType identifier = some guid) :
    ∃ r ∈ (c.setOf recordType).records, r.identifier = identifier ∧ r.guid = guid := by
  obtain ⟨r, hr, rfl⟩ := Option.map_eq_some_iff.1 h
  obtain ⟨set, hset, hr⟩ := Option.bind_eq_some_iff.1 hr
  refine ⟨r, ?_, beq_iff_eq.1 (List.find?_some hr :), rfl⟩
  rw [setOf_of_find? hset]
  exact List.mem_reverse.1 (List.mem_of_find?_eq_some hr)

/-- The identifier of a record names a record. -/
theorem exists_guid?_of_mem {r : Record} (hr : r ∈ (c.setOf recordType).records) :
    ∃ guid, c.references.guid? recordType r.identifier = some guid := by
  have hfound : ((c.setOf recordType).ofIdentifier? r.identifier).isSome :=
    List.find?_isSome.2 ⟨r, List.mem_reverse.2 hr, beq_iff_eq.2 rfl⟩
  obtain ⟨found, hfound⟩ := Option.isSome_iff_exists.1 hfound
  refine ⟨found.guid, ?_⟩
  unfold references
  dsimp only
  rw [find?_of_mem_records hr, Option.bind_some, hfound, Option.map_some]

end Catalog

end RecordTables
