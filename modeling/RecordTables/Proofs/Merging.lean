import RecordTables.Proofs.Regen

/-!
# Merging pending states

Pending states merge in any order and grouping (`RegenState.merge_lawful`).

The laws do not come from cases on the states.  `RegenState.Sums states s` describes the state of
several states together without merging any of them: everything is needed if one of them needs it or
two of them disagree about a record, and otherwise the changes of all are pending.  There is only one
such state (`Sums.unique`), it does not depend on order and repetition (`Sums.congr`), and merging
leads to it (`Sums.merge`).  So two ways of merging the same states come to the same.
-/

namespace RecordTables

/-! ### Sets of changes -/

namespace ChangeSet

variable {s s' other : ChangeSet} {recordType : String} {guid : Guid} {kind kind' : ChangeKind}

theorem mem_toList : (recordType, guid, kind) ∈ s.toList ↔ s.find? recordType guid = some kind := by
  constructor
  · intro hmem
    obtain ⟨t, ht, hmem⟩ := List.mem_flatMap.1 hmem
    obtain ⟨e, he, heq⟩ := List.mem_map.1 hmem
    cases heq
    unfold find?
    rw [NameMap.find?_of_mem_entries ht, Option.bind_some]
    exact NameMap.find?_of_mem_entries he
  · intro h
    obtain ⟨changes, hchanges, hkind⟩ := Option.bind_eq_some_iff.1 h
    exact List.mem_flatMap.2 ⟨_, NameMap.mem_entries_of_find? hchanges,
      List.mem_map.2 ⟨_, NameMap.mem_entries_of_find? hkind, rfl⟩⟩

/-- A type that is there has a changed record. -/
theorem exists_of_byType {changes : NameMap ChangeKind}
    (h : s.byType.find? recordType = some changes) :
    ∃ guid kind, s.find? recordType guid = some kind := by
  have hfilled := s.isFilled _ (NameMap.mem_entries_of_find? h)
  obtain ⟨e, he⟩ := List.exists_mem_of_ne_nil _ hfilled
  refine ⟨⟨e.1⟩, e.2, ?_⟩
  unfold find?
  rw [h, Option.bind_some]
  exact NameMap.find?_of_mem_entries he

/-- **Two sets of changes are equal** if they tell the same of every record. -/
theorem ext_find? (h : ∀ recordType guid, s.find? recordType guid = s'.find? recordType guid) :
    s = s' := by
  have hsub {s s' : ChangeSet} (h : ∀ recordType guid, s.find? recordType guid =
      s'.find? recordType guid) (recordType : String) {changes : NameMap ChangeKind}
      (hchanges : s.byType.find? recordType = some changes) :
      s'.byType.find? recordType = some changes := by
    -- the other set knows the type, because it knows one of its records
    obtain ⟨guid, kind, hkind⟩ := exists_of_byType hchanges
    rw [h] at hkind
    obtain ⟨changes', hchanges', -⟩ := Option.bind_eq_some_iff.1 hkind
    have hsame : changes = changes' := by
      apply NameMap.ext_find?
      intro name
      have hname := h recordType ⟨name⟩
      unfold find? at hname
      rwa [hchanges, hchanges'] at hname
    rw [hchanges', hsame]
  have hbyType : s.byType = s'.byType := by
    apply NameMap.ext_find?
    intro recordType
    cases hs : s.byType.find? recordType with
    | some changes => exact (hsub h recordType hs).symm
    | none =>
      cases hs' : s'.byType.find? recordType with
      | none => rfl
      | some changes =>
        have hcontra := hsub (fun recordType guid => (h recordType guid).symm) recordType hs'
        rw [hs] at hcontra
        cases hcontra
  cases s
  cases s'
  obtain rfl := hbyType
  rfl

/-- Adding a change adds nothing else. -/
theorem find?_record? (h : s.record? recordType guid kind = some s') {recordType' : String}
    {guid' : Guid} : s'.find? recordType' guid' = some kind' ↔
      s.find? recordType' guid' = some kind' ∨
        (recordType', guid', kind') = (recordType, guid, kind) := by
  unfold record? at h
  split at h
  · next existing hexisting =>
    split_ifs at h with hsame
    rw [← Option.some.inj h]
    refine ⟨Or.inl, ?_⟩
    rintro (hold | heq)
    · exact hold
    · cases heq
      rw [hexisting, hsame]
  · next hnone =>
    rw [← Option.some.inj h, find?_put]
    split_ifs with hkey
    · obtain ⟨rfl, rfl⟩ := hkey
      simp [hnone, eq_comm]
    · refine ⟨Or.inl, ?_⟩
      rintro (hold | heq)
      · exact hold
      · cases heq
        exact absurd ⟨rfl, rfl⟩ hkey

/-- A change is refused only if the record has another one. -/
theorem exists_of_record?_eq_none (h : s.record? recordType guid kind = none) :
    ∃ existing, s.find? recordType guid = some existing ∧ existing ≠ kind := by
  unfold record? at h
  split at h
  · next existing hexisting =>
    split_ifs at h with hsame
    exact ⟨existing, hexisting, hsame⟩
  · cases h

/-- What is found when the changes of a list were added one after the other. -/
theorem find?_of_foldlM {changes : List (String × Guid × ChangeKind)}
    (h : changes.foldlM (fun s change => s.record? change.1 change.2.1 change.2.2) s = some s') :
    s'.find? recordType guid = some kind ↔
      s.find? recordType guid = some kind ∨ (recordType, guid, kind) ∈ changes := by
  induction changes generalizing s with
  | nil =>
    rw [← Option.some.inj h]
    simp
  | cons change changes ih =>
    rw [List.foldlM_cons] at h
    obtain ⟨s₁, hrecord, hrest⟩ := Option.bind_eq_some_iff.1 h
    rw [ih hrest, find?_record? hrecord, List.mem_cons, or_assoc]

/-- If the changes of a list cannot all be added, two of them disagree, or one with the set. -/
theorem exists_of_foldlM_eq_none {changes : List (String × Guid × ChangeKind)}
    (h : changes.foldlM (fun s change => s.record? change.1 change.2.1 change.2.2) s = none) :
    ∃ recordType guid kind kind', kind ≠ kind' ∧
      (s.find? recordType guid = some kind ∨ (recordType, guid, kind) ∈ changes) ∧
      (recordType, guid, kind') ∈ changes := by
  induction changes generalizing s with
  | nil => cases h
  | cons change changes ih =>
    rw [List.foldlM_cons] at h
    cases hrecord : s.record? change.1 change.2.1 change.2.2 with
    | none =>
      obtain ⟨existing, hexisting, hne⟩ := exists_of_record?_eq_none hrecord
      exact ⟨_, _, existing, change.2.2, hne, Or.inl hexisting, List.mem_cons_self⟩
    | some s₁ =>
      rw [hrecord] at h
      obtain ⟨recordType, guid, kind, kind', hne, hfirst, hsecond⟩ := ih h
      rw [find?_record? hrecord, or_assoc, ← List.mem_cons] at hfirst
      exact ⟨recordType, guid, kind, kind', hne, hfirst, List.mem_cons_of_mem _ hsecond⟩

/-- **The union** of two sets tells what either of them tells. -/
theorem find?_of_union? (h : s.union? other = some s') :
    s'.find? recordType guid = some kind ↔
      s.find? recordType guid = some kind ∨ other.find? recordType guid = some kind := by
  rw [find?_of_foldlM h, mem_toList]

/-- Two sets have no union only if they disagree about a record. -/
theorem exists_of_union?_eq_none (h : s.union? other = none) :
    ∃ recordType guid kind kind', kind ≠ kind' ∧ s.find? recordType guid = some kind ∧
      other.find? recordType guid = some kind' := by
  obtain ⟨recordType, guid, kind, kind', hne, hfirst, hsecond⟩ := exists_of_foldlM_eq_none h
  rw [mem_toList] at hfirst hsecond
  rcases hfirst with hfirst | hfirst
  · exact ⟨recordType, guid, kind, kind', hne, hfirst, hsecond⟩
  · rw [hfirst] at hsecond
    exact absurd (Option.some.inj hsecond) hne

end ChangeSet

/-! ### Several states together -/

namespace RegenState

variable {s s' t u : RegenState} {states states' : List RegenState} {recordType : String} {guid : Guid}
  {kind kind' : ChangeKind}

/-- A change of a record is pending. -/
def Tells (s : RegenState) (recordType : String) (guid : Guid) (kind : ChangeKind) : Prop :=
  match s with
  | incremental changes => changes.find? recordType guid = some kind
  | upToDate | full => False

theorem Tells.unique (h : s.Tells recordType guid kind) (h' : s.Tells recordType guid kind') :
    kind = kind' := by
  cases s with
  | incremental changes =>
    rw [Tells] at h h'
    exact Option.some.inj (h.symm.trans h')
  | upToDate => exact h.elim
  | full => exact h.elim

/-- Two of the states tell different changes of one record. -/
def Disagree (states : List RegenState) : Prop :=
  ∃ recordType guid kind kind', kind ≠ kind' ∧
    (∃ s ∈ states, s.Tells recordType guid kind) ∧ ∃ s ∈ states, s.Tells recordType guid kind'

/-- What several states are together. -/
structure Sums (states : List RegenState) (s : RegenState) : Prop where
  isProper : s.IsProper
  /-- Everything is needed if a state needs it, or two states disagree. -/
  full : s = full ↔ full ∈ states ∨ Disagree states
  /-- Otherwise the changes of all states are pending, and no others. -/
  tells : s ≠ RegenState.full → ∀ recordType guid kind, s.Tells recordType guid kind ↔
    ∃ t ∈ states, t.Tells recordType guid kind
  /-- Without changes nothing is needed. -/
  upToDate : s = upToDate ↔ ∀ t ∈ states, t = upToDate

theorem Disagree.mono (h : Disagree states) (hsub : states ⊆ states') : Disagree states' := by
  obtain ⟨recordType, guid, kind, kind', hne, ⟨s, hs, hkind⟩, t, ht, hkind'⟩ := h
  exact ⟨recordType, guid, kind, kind', hne, ⟨s, hsub hs, hkind⟩, t, hsub ht, hkind'⟩

theorem not_disagree_singleton (s : RegenState) : ¬Disagree [s] := by
  rintro ⟨recordType, guid, kind, kind', hne, ⟨t, ht, hkind⟩, u, hu, hkind'⟩
  rw [List.mem_singleton.1 ht] at hkind
  rw [List.mem_singleton.1 hu] at hkind'
  exact hne (hkind.unique hkind')

namespace Sums

/-- **There is only one state** that several states are together. -/
theorem unique (h : Sums states s) (h' : Sums states s') : s = s' := by
  by_cases hfull : s = RegenState.full
  · rw [hfull, h'.full.2 (h.full.1 hfull)]
  have hfull' : s' ≠ RegenState.full := fun hs' => hfull (h.full.2 (h'.full.1 hs'))
  by_cases hnone : s = RegenState.upToDate
  · rw [hnone, h'.upToDate.2 (h.upToDate.1 hnone)]
  have hnone' : s' ≠ RegenState.upToDate := fun hs' => hnone (h.upToDate.2 (h'.upToDate.1 hs'))
  cases s with
  | full => exact absurd rfl hfull
  | upToDate => exact absurd rfl hnone
  | incremental changes =>
    cases s' with
    | full => exact absurd rfl hfull'
    | upToDate => exact absurd rfl hnone'
    | incremental changes' =>
      refine congrArg incremental (ChangeSet.ext_find? fun recordType guid => ?_)
      apply Option.ext
      intro kind
      have htells := h.tells hfull recordType guid kind
      rw [← h'.tells hfull' recordType guid kind] at htells
      exact htells

/-- Neither the order nor the number of times that a state is there counts. -/
theorem congr (h : Sums states s) (hmem : ∀ t, t ∈ states ↔ t ∈ states') : Sums states' s := by
  have hsub : states ⊆ states' := fun t ht => (hmem t).1 ht
  have hsub' : states' ⊆ states := fun t ht => (hmem t).2 ht
  refine ⟨h.isProper, ?_, fun hne recordType guid kind => ?_, ?_⟩
  · rw [h.full, hmem]
    exact or_congr_right ⟨fun hd => hd.mono hsub, fun hd => hd.mono hsub'⟩
  · simp only [h.tells hne, hmem]
  · simp only [h.upToDate, hmem]

theorem nil : Sums [] RegenState.upToDate where
  isProper := trivial
  full := by
    refine iff_of_false (fun h => nomatch h) ?_
    rintro (hmem | ⟨_, _, _, _, _, ⟨_, hmem, _⟩, _⟩) <;> cases hmem
  tells := fun _ _ _ _ => iff_of_false id fun ⟨_, hmem, _⟩ => nomatch hmem
  upToDate := iff_of_true rfl (List.forall_mem_nil _)

theorem singleton (h : s.IsProper) : Sums [s] s where
  isProper := h
  full := by
    rw [or_iff_left (not_disagree_singleton s), List.mem_singleton, eq_comm]
  tells := fun _ _ _ _ => by
    simp only [List.mem_singleton, exists_eq_left]
  upToDate := by
    simp only [List.mem_singleton, forall_eq]

end Sums

/-! ### Merging -/

theorem merge_full (s : RegenState) : s.merge full = full := by
  cases s <;> rfl

theorem merge_upToDate (s : RegenState) : s.merge upToDate = s := by
  cases s <;> rfl

theorem upToDate_merge (s : RegenState) : upToDate.merge s = s := by
  cases s <;> rfl

/-- Two states together need everything if one does, or if they disagree. -/
theorem merge_eq_full (h : s.merge t = full) :
    s = full ∨ t = full ∨ ∃ recordType guid kind kind', kind ≠ kind' ∧
      s.Tells recordType guid kind ∧ t.Tells recordType guid kind' := by
  cases s with
  | full => exact Or.inl rfl
  | upToDate =>
    rw [upToDate_merge] at h
    exact Or.inr (Or.inl h)
  | incremental changes =>
    cases t with
    | full => exact Or.inr (Or.inl rfl)
    | upToDate => cases h
    | incremental changes' =>
      rw [merge] at h
      split at h
      · unfold ofChanges at h
        split_ifs at h
      · next hnone => exact Or.inr (Or.inr (ChangeSet.exists_of_union?_eq_none hnone))

/-- What two states tell together, unless everything is needed. -/
theorem tells_merge (h : s.merge t ≠ full) : (s.merge t).Tells recordType guid kind ↔
    s.Tells recordType guid kind ∨ t.Tells recordType guid kind := by
  cases s with
  | full => exact absurd rfl h
  | upToDate =>
    rw [upToDate_merge]
    exact (or_iff_right id).symm
  | incremental changes =>
    cases t with
    | full => exact absurd rfl h
    | upToDate => exact (or_iff_left id).symm
    | incremental changes' =>
      rw [merge] at h ⊢
      split at h
      · next union hunion =>
        have htells : union.find? recordType guid = some kind ↔
            changes.find? recordType guid = some kind ∨
              changes'.find? recordType guid = some kind := ChangeSet.find?_of_union? hunion
        unfold ofChanges
        split_ifs with hempty
        · -- an empty union tells nothing
          refine iff_of_false id fun hsome => ?_
          have hfalse := ChangeSet.isEmpty_of_find? (htells.2 hsome)
          rw [hempty] at hfalse
          cases hfalse
        · exact htells
      · exact absurd rfl h

/-- **Merging** leads to what the states of both sides are together. -/
theorem Sums.merge (h : Sums states s) (h' : Sums states' t) :
    Sums (states ++ states') (s.merge t) := by
  have htells : s.merge t ≠ RegenState.full → ∀ recordType guid kind,
      (s.merge t).Tells recordType guid kind ↔
        ∃ u ∈ states ++ states', u.Tells recordType guid kind := by
    intro hne recordType guid kind
    have hs : s ≠ RegenState.full := by
      rintro rfl
      exact hne rfl
    have ht : t ≠ RegenState.full := by
      rintro rfl
      exact hne (merge_full s)
    rw [tells_merge hne, h.tells hs, h'.tells ht]
    simp only [List.mem_append, or_and_right, exists_or]
  refine ⟨h.isProper.merge h'.isProper, ⟨fun hfull => ?_, fun hstates => ?_⟩, htells, ?_⟩
  · have hleft (hs : s = RegenState.full) : RegenState.full ∈ states ++ states' ∨
        Disagree (states ++ states') :=
      (h.full.1 hs).imp (List.mem_append_left _) fun hd => hd.mono (List.subset_append_left _ _)
    have hright (ht : t = RegenState.full) : RegenState.full ∈ states ++ states' ∨
        Disagree (states ++ states') :=
      (h'.full.1 ht).imp (List.mem_append_right _) fun hd => hd.mono (List.subset_append_right _ _)
    by_cases hs : s = RegenState.full
    · exact hleft hs
    by_cases ht : t = RegenState.full
    · exact hright ht
    -- neither side needs everything, so they disagree with each other
    obtain hs' | ht' | ⟨recordType, guid, kind, kind', hne, hkind, hkind'⟩ := merge_eq_full hfull
    · exact absurd hs' hs
    · exact absurd ht' ht
    · obtain ⟨u, hu, hukind⟩ := (h.tells hs _ _ _).1 hkind
      obtain ⟨v, hv, hvkind⟩ := (h'.tells ht _ _ _).1 hkind'
      exact Or.inr ⟨recordType, guid, kind, kind', hne,
        ⟨u, List.mem_append_left _ hu, hukind⟩, v, List.mem_append_right _ hv, hvkind⟩
  · by_contra hne
    rcases hstates with hmem | ⟨recordType, guid, kind, kind', hkinds, hfirst, hsecond⟩
    · rcases List.mem_append.1 hmem with hmem | hmem
      · rw [h.full.2 (Or.inl hmem)] at hne
        exact hne rfl
      · rw [h'.full.2 (Or.inl hmem)] at hne
        exact hne (merge_full s)
    · exact hkinds (((htells hne _ _ _).2 hfirst).unique ((htells hne _ _ _).2 hsecond))
  · rw [merge_eq_upToDate h.isProper, h.upToDate, h'.upToDate]
    exact List.forall_mem_append.symm

/-! ### Any order and grouping -/

/-- A way to merge states: nothing, one state, or what two ways come to. -/
inductive Grouping where
  | nothing
  | state (s : RegenState)
  | together (left right : Grouping)

namespace Grouping

/-- The states that are merged, from left to right. -/
def leaves : Grouping → List RegenState
  | nothing => []
  | state s => [s]
  | together left right => left.leaves ++ right.leaves

/-- The state that comes out. -/
def merged : Grouping → RegenState
  | nothing => .upToDate
  | state s => s
  | together left right => left.merged.merge right.merged

/-- Every grouping comes to what its states are together. -/
theorem sums_merged (g : Grouping) (h : ∀ s ∈ g.leaves, s.IsProper) : Sums g.leaves g.merged := by
  induction g with
  | nothing => exact Sums.nil
  | state s => exact Sums.singleton (h s List.mem_cons_self)
  | together left right ihleft ihright =>
    have hleft := ihleft fun s hs => h s (List.mem_append_left _ hs)
    have hright := ihright fun s hs => h s (List.mem_append_right _ hs)
    exact hleft.merge hright

end Grouping

/-- **Pending states merge in any order and grouping.**  Merging states whose sets of changes are not
empty is associative, commutative and idempotent, a state that is up to date adds nothing, and one that
needs everything takes all in.  Any states, merged in any order and grouping, come to what they are
together. -/
theorem merge_lawful {g : Grouping} (hs : s.IsProper) (ht : t.IsProper) (hu : u.IsProper)
    (hg : g.leaves.Perm states) (hstates : ∀ s ∈ states, s.IsProper) :
    (s.merge t).merge u = s.merge (t.merge u) ∧ s.merge t = t.merge s ∧ s.merge s = s ∧
      (upToDate.merge s = s ∧ s.merge upToDate = s) ∧ (full.merge s = full ∧ s.merge full = full) ∧
      Sums states g.merged := by
  have hone := Sums.singleton hs
  have htwo := Sums.singleton ht
  have hthree := Sums.singleton hu
  have hgroup : Sums g.leaves g.merged :=
    g.sums_merged fun s hmem => hstates s (hg.mem_iff.1 hmem)
  refine ⟨?_, ?_, ?_, ⟨upToDate_merge s, merge_upToDate s⟩, ⟨rfl, merge_full s⟩, ?_⟩
  · have hleft : Sums [s, t, u] ((s.merge t).merge u) := (hone.merge htwo).merge hthree
    exact hleft.unique (hone.merge (htwo.merge hthree))
  · have hswap : Sums [s, t] (t.merge s) := (htwo.merge hone).congr fun _ => by
      simp [or_comm]
    exact (hone.merge htwo).unique hswap
  · have htwice : Sums [s] (s.merge s) := (hone.merge hone).congr fun _ => by simp
    exact htwice.unique hone
  · exact hgroup.congr fun _ => hg.mem_iff

/-- A coin was created. -/
def coinCreated : RegenState := incremental (ChangeSet.empty.put "Item" ⟨"g1"⟩ .created)

/-- A gem was updated. -/
def gemUpdated : RegenState := incremental (ChangeSet.empty.put "Item" ⟨"g2"⟩ .updated)

/-- The coin was renamed. -/
def coinRenamed : RegenState := incremental (ChangeSet.empty.put "Item" ⟨"g1"⟩ (.renamed "Penny"))

/-- The changes of the coin are apart from each other in the list, but not in the grouping. -/
def coinGrouping : Grouping :=
  .together (.state gemUpdated) (.together (.state coinCreated) (.state coinRenamed))

theorem merge_lawful_coins :
    coinCreated.IsProper ∧ gemUpdated.IsProper ∧ coinRenamed.IsProper ∧
      coinGrouping.leaves.Perm [coinCreated, gemUpdated, coinRenamed] ∧
      coinCreated.merge gemUpdated ≠ full ∧ coinGrouping.merged = full ∧
      (coinCreated.merge gemUpdated).merge coinRenamed =
        coinCreated.merge (gemUpdated.merge coinRenamed) ∧
      coinCreated.merge gemUpdated = gemUpdated.merge coinCreated ∧
      coinCreated.merge coinCreated = coinCreated ∧
      Sums [coinCreated, gemUpdated, coinRenamed] coinGrouping.merged := by
  have hcreated : coinCreated.IsProper := by rfl
  have hupdated : gemUpdated.IsProper := by rfl
  have hrenamed : coinRenamed.IsProper := by rfl
  have hperm : coinGrouping.leaves.Perm [coinCreated, gemUpdated, coinRenamed] :=
    List.Perm.swap _ _ _
  have hstates : ∀ s ∈ [coinCreated, gemUpdated, coinRenamed], s.IsProper := by
    simp only [List.forall_mem_cons]
    exact ⟨hcreated, hupdated, hrenamed, List.forall_mem_nil _⟩
  obtain ⟨hassoc, hcomm, hidem, -, -, hsums⟩ :=
    merge_lawful hcreated hupdated hrenamed hperm hstates
  exact ⟨hcreated, hupdated, hrenamed, hperm, by decide, by decide, hassoc, hcomm, hidem, hsums⟩

end RegenState

end RecordTables
