import RecordTables.Proofs.Record.Set
import RecordTables.Proofs.Store.Serves
import RecordTables.Store.Memory

/-!
# What the store in memory does

`Holds c₀ recordType l c` says that the catalog `c` holds the records `l` of one type, in some order,
and for all other types what `c₀` holds.  Each step of the store is described on the one record that
it is about, in front of all others: `rename_answers`, `update_answers`, `create_answers` and
`delete_answers` tell when the step is not refused and which records there are afterwards.  So the
store in memory serves the records of a type without ever failing (`MemoryStore.serves`).
-/

namespace RecordTables

namespace Catalog

theorem setOf_insert (c : Catalog) (recordType other : String) (s : RecordSet) :
    setOf (NameMap.insert c recordType s) other =
      if recordType = other then s else c.setOf other := by
  unfold setOf
  rw [NameMap.find?_insert]
  split <;> rfl

end Catalog

namespace MemoryStore

open Catalog Step

variable {c₀ c : Catalog} {recordType : String} {r : Record} {l l' : List Record}

/-- The catalog holds these records of one type, and for other types what `c₀` holds. -/
structure Holds (c₀ : Catalog) (recordType : String) (l : List Record) (c : Catalog) : Prop where
  wellFormed : (c.setOf recordType).WellFormed
  records : (c.setOf recordType).records.Perm l
  others : ∀ other, other ≠ recordType → c.setOf other = c₀.setOf other

theorem Holds.perm (h : Holds c₀ recordType l c) (hperm : l.Perm l') :
    Holds c₀ recordType l' c :=
  { h with records := h.records.trans hperm }

/-- A set in the place of the set of its type. -/
theorem Holds.insert (h : Holds c₀ recordType l c) {s : RecordSet} (hs : s.WellFormed)
    (hrecords : s.records.Perm l') : Holds c₀ recordType l' (NameMap.insert c recordType s) where
  wellFormed := by
    rw [setOf_insert, if_pos rfl]
    exact hs
  records := by
    rw [setOf_insert, if_pos rfl]
    exact hrecords
  others := by
    intro other hne
    rw [setOf_insert, if_neg (Ne.symm hne)]
    exact h.others other hne

/-- The entry of the record in front. -/
theorem exists_entries_of_perm {s : RecordSet} (h : s.records.Perm (r :: l)) :
    ∃ key rest, s.entries.Perm ((key, r) :: rest) ∧ (rest.map Prod.snd).Perm l := by
  obtain ⟨⟨key, r'⟩, hmem, rfl⟩ := List.mem_map.1 (h.mem_iff.2 List.mem_cons_self)
  obtain ⟨front, back, hentries⟩ := List.append_of_mem hmem
  have hperm : s.entries.Perm ((key, r') :: (front ++ back)) := by
    rw [hentries]
    exact List.perm_middle
  refine ⟨key, front ++ back, hperm, (List.perm_cons r').1 ?_⟩
  exact (hperm.map Prod.snd).symm.trans h

/-- A step on one record, once the record is found. -/
theorem withRecord_answers {guid : Guid} {act : RecordSet → RecordKey → Except StoreError RecordSet}
    {key : RecordKey} {s : RecordSet} (hkey : (c.setOf recordType).keyOfGuid? guid = some key)
    (hact : act (c.setOf recordType) key = .ok s) :
    (withRecord recordType guid act).Answers c () (NameMap.insert c recordType s) := by
  unfold withRecord
  refine answers_get_bind.2 ?_
  dsimp only
  rw [hkey]
  dsimp only
  rw [hact]
  exact answers_modify.2 rfl

/-- A step on one record, if no record has the GUID. -/
theorem withRecord_fails {guid : Guid} {act : RecordSet → RecordKey → Except StoreError RecordSet}
    (hguid : guid ∉ (c.setOf recordType).records.map (·.guid)) :
    (withRecord recordType guid act).Fails c (.notFound recordType guid) c := by
  have hnone : (c.setOf recordType).keyOfGuid? guid = none :=
    RecordSet.keyOfGuid?_eq_none.2 fun r hr heq => hguid (List.mem_map.2 ⟨r, hr, heq⟩)
  unfold withRecord
  refine fails_get_bind.2 ?_
  dsimp only
  rw [hnone]
  exact fails_throw.2 ⟨rfl, rfl⟩

/-- Changing the record in front keeps the others. -/
theorem records_modify_perm {s : RecordSet} (hs : s.WellFormed) {key : RecordKey}
    {rest : List (RecordKey × Record)} (hentries : s.entries.Perm ((key, r) :: rest))
    (hrest : (rest.map Prod.snd).Perm l) (change : Record → Record) :
    (s.modify key change).records.Perm (change r :: l) :=
  ((RecordSet.entries_modify_perm hs hentries change).map Prod.snd).trans (hrest.cons _)

section OneRecord

variable (h : Holds c₀ recordType (r :: l) c) (hguid : r.guid ∉ l.map (·.guid))

include h hguid

/-- The record in front is found by its GUID. -/
theorem exists_key_of_holds :
    ∃ key rest, (c.setOf recordType).entries.Perm ((key, r) :: rest) ∧
      (rest.map Prod.snd).Perm l ∧ (c.setOf recordType).keyOfGuid? r.guid = some key := by
  obtain ⟨key, rest, hentries, hrest⟩ := exists_entries_of_perm h.records
  refine ⟨key, rest, hentries, hrest, RecordSet.keyOfGuid?_of_perm hentries fun e he heq => ?_⟩
  exact hguid (List.mem_map.2 ⟨e.2, hrest.mem_iff.1 (List.mem_map_of_mem he), heq⟩)

/-- A record can be renamed to what no other record is called. -/
theorem rename_answers {identifier : String} (hfree : identifier ∉ l.map (·.identifier)) :
    ∃ c', (store.rename recordType r.guid identifier).Answers c () c' ∧
      Holds c₀ recordType ({ r with identifier := identifier } :: l) c' := by
  obtain ⟨key, rest, hentries, hrest, hkey⟩ := exists_key_of_holds h hguid
  have hperm := records_modify_perm h.wellFormed hentries hrest
    fun old => { old with identifier := identifier }
  show ∃ c', (rename recordType r.guid identifier).Answers c () c' ∧ _
  unfold rename
  refine ⟨_, withRecord_answers hkey ?_, h.insert (h.wellFormed.modify key _) hperm⟩
  cases hother : (c.setOf recordType).keyOfIdentifier? identifier with
  | none => rfl
  | some other =>
    -- only the record itself can have the identifier already
    obtain ⟨r', -, hmem, hidentifier⟩ := RecordSet.exists_record_of_keyOfIdentifier? hother
    rcases List.mem_cons.1 (hentries.mem_iff.1 hmem) with heq | hmem
    · exact if_pos (Prod.mk.inj heq).1
    · refine absurd (List.mem_map.2 ⟨r', hrest.mem_iff.1 (List.mem_map_of_mem hmem), ?_⟩) hfree
      exact hidentifier

/-- A record cannot be renamed to what another record is called. -/
theorem rename_fails_of_taken {identifier : String} (hself : r.identifier ≠ identifier)
    (htaken : identifier ∈ l.map (·.identifier)) :
    (store.rename recordType r.guid identifier).Fails c (.nameTaken recordType identifier) c := by
  obtain ⟨key, rest, hentries, hrest, hkey⟩ := exists_key_of_holds h hguid
  show (rename recordType r.guid identifier).Fails c _ c
  unfold rename withRecord
  refine fails_get_bind.2 ?_
  dsimp only
  rw [hkey]
  dsimp only
  cases hother : (c.setOf recordType).keyOfIdentifier? identifier with
  | none =>
    obtain ⟨r', hr', hidentifier⟩ := List.mem_map.1 htaken
    refine absurd hidentifier (RecordSet.keyOfIdentifier?_eq_none.1 hother r' ?_)
    exact h.records.mem_iff.2 (List.mem_cons_of_mem _ hr')
  | some other =>
    obtain ⟨r', -, hmem, hidentifier⟩ := RecordSet.exists_record_of_keyOfIdentifier? hother
    have hne : other ≠ key := by
      rintro rfl
      have hsame := RecordSet.eq_of_mem_entries h.wellFormed hmem
        (hentries.mem_iff.2 List.mem_cons_self)
      exact hself (hsame ▸ hidentifier)
    dsimp only
    rw [if_neg hne]
    exact fails_throw.2 ⟨rfl, rfl⟩

/-- A record that is there can be overwritten, and keeps its identifier. -/
theorem update_answers (record : Record) (hrecord : record.guid = r.guid) :
    ∃ c', (store.update recordType record).Answers c () c' ∧
      Holds c₀ recordType ({ record with identifier := r.identifier } :: l) c' := by
  obtain ⟨key, rest, hentries, hrest, hkey⟩ := exists_key_of_holds h hguid
  have hperm := records_modify_perm h.wellFormed hentries hrest
    fun old => { record with identifier := old.identifier }
  rw [← hrecord] at hkey
  show ∃ c', (update recordType record).Answers c () c' ∧ _
  unfold update
  exact ⟨_, withRecord_answers hkey rfl, h.insert (h.wellFormed.modify key _) hperm⟩

/-- A record that is there can be taken away. -/
theorem delete_answers :
    ∃ c', (store.delete recordType r.guid).Answers c () c' ∧ Holds c₀ recordType l c' := by
  obtain ⟨key, rest, hentries, hrest, hkey⟩ := exists_key_of_holds h hguid
  show ∃ c', (delete recordType r.guid).Answers c () c' ∧ _
  unfold delete
  refine ⟨_, withRecord_answers hkey rfl, h.insert
    (h.wellFormed.remove (hentries.mem_iff.2 List.mem_cons_self)) ?_⟩
  exact ((RecordSet.entries_remove_perm h.wellFormed hentries).map Prod.snd).trans hrest

end OneRecord

/-- A record can be added if no record is called like it. -/
theorem create_answers (h : Holds c₀ recordType l c) (record : Record)
    (hfree : record.identifier ∉ l.map (·.identifier)) :
    ∃ c', (store.create recordType record).Answers c () c' ∧
      Holds c₀ recordType (record :: l) c' := by
  have hnone : (c.setOf recordType).keyOfIdentifier? record.identifier = none := by
    rw [RecordSet.keyOfIdentifier?_eq_none]
    intro r hr heq
    exact hfree (List.mem_map.2 ⟨r, h.records.mem_iff.1 hr, heq⟩)
  refine ⟨NameMap.insert c recordType ((c.setOf recordType).insert record).2, ?_,
    h.insert (h.wellFormed.insert record) ?_⟩
  · unfold Answers
    show outcome (create recordType record) c = _
    unfold create
    rw [outcome_bind]
    show outcome (if ((c.setOf recordType).keyOfIdentifier? record.identifier).isSome then _ else _ :
      Step Catalog StoreError Unit) c = _
    rw [hnone]
    rfl
  · exact ((RecordSet.entries_insert h.wellFormed record).map Prod.snd).trans (h.records.cons record)

/-- A record cannot be added if a record is called like it. -/
theorem create_fails_of_taken {record : Record}
    (htaken : record.identifier ∈ (c.setOf recordType).records.map (·.identifier)) :
    (store.create recordType record).Fails c (.nameTaken recordType record.identifier) c := by
  have hsome : ((c.setOf recordType).keyOfIdentifier? record.identifier).isSome = true := by
    rw [Option.isSome_iff_ne_none, ne_eq, RecordSet.keyOfIdentifier?_eq_none]
    intro hnone
    obtain ⟨r, hr, heq⟩ := List.mem_map.1 htaken
    exact hnone r hr heq
  show (create recordType record).Fails c _ c
  unfold create
  refine fails_get_bind.2 ?_
  dsimp only
  rw [if_pos hsome]
  exact fails_bind.2 (Or.inl (fails_throw.2 ⟨rfl, rfl⟩))

/-- **The store in memory** has a place for every record, and never fails. -/
theorem serves (c₀ : Catalog) (recordType : String) :
    store.Serves recordType (Holds c₀ recordType) (fun _ => True) fun _ => False where
  perm := Holds.perm
  rename := by
    intro r l c identifier h hguid hfree
    obtain ⟨c', hrename, hholds⟩ := rename_answers h hguid hfree
    exact hrename.yields hholds
  update := by
    intro r record l c h hguid hsame _
    obtain ⟨c', hupdate, hholds⟩ := update_answers h hguid record hsame
    exact hupdate.yields hholds
  create := by
    intro record l c h _ _ hfree
    obtain ⟨c', hcreate, hholds⟩ := create_answers h record hfree
    exact hcreate.yields hholds
  delete := by
    intro r l c h hguid
    obtain ⟨c', hdelete, hholds⟩ := delete_answers h hguid
    exact hdelete.yields hholds

end MemoryStore

end RecordTables
