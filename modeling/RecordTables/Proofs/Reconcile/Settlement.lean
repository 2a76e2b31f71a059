import RecordTables.Proofs.Outcome
import RecordTables.Proofs.Reconcile.Stages

/-!
# What a plan settles

`Settlement` is what a reconciliation decides: the links between rows and records, the rows that get
new records, and the records to delete.  `Accounts` says that a plan consists of the actions of a
settlement which accounts for every row and every record once, and
`exists_accounts_of_reconcile` that the plan of every reconciliation does.  If the identifiers of the
records are distinct, no new record is called like one that is deleted (`Settles`,
`exists_settlement_of_reconcile`).
-/

namespace RecordTables

/-- The GUIDs to come are distinct, and none is that of a record. -/
structure GuidSupply.FreshFor (supply : GuidSupply) (records : RecordSet) : Prop where
  distinct : ∀ m n, supply.used ≤ m → supply.used ≤ n → supply.next m = supply.next n → m = n
  unused : ∀ n, supply.used ≤ n → supply.next n ∉ records.records.map (·.guid)

/-- What is left of a supply when GUIDs have been handed out. -/
structure GuidSupply.IsRestOf (supply' supply : GuidSupply) : Prop where
  next : supply'.next = supply.next
  used : supply.used ≤ supply'.used

theorem GuidSupply.IsRestOf.refl (supply : GuidSupply) : supply.IsRestOf supply :=
  ⟨rfl, Nat.le_refl _⟩

theorem GuidSupply.IsRestOf.trans {supply supply' supply'' : GuidSupply}
    (h' : supply''.IsRestOf supply') (h : supply'.IsRestOf supply) : supply''.IsRestOf supply :=
  ⟨h'.next.trans h.next, h.used.trans h'.used⟩

/-- What is left of new GUIDs is new. -/
theorem GuidSupply.FreshFor.rest {supply supply' : GuidSupply} {records : RecordSet}
    (h : supply.FreshFor records) (hrest : supply'.IsRestOf supply) :
    supply'.FreshFor records where
  distinct := by
    rw [hrest.next]
    exact fun m n hm hn => h.distinct m n (hrest.used.trans hm) (hrest.used.trans hn)
  unused := by
    rw [hrest.next]
    exact fun n hn => h.unused n (hrest.used.trans hn)

namespace Matcher

/-- Where new records may be kept: in the directory of their type, in the default directory, or where
a record is. -/
def IsHome (settings : Settings) (records : RecordSet) (directory : String) : Prop :=
  directory = records.recordType ∨ settings.defaultDirectory = some directory ∨
    ∃ r ∈ records.records, r.directory = directory

/-! ### Settlements -/

/-- The decisions of a reconciliation. -/
structure Settlement where
  links : List Link
  /-- The rows that get new records, with their GUIDs. -/
  created : List (Nat × Guid)
  /-- Where the new records are kept. -/
  directory : String
  deleted : List Record

namespace Settlement

/-- The actions for rows that get new records. -/
def creations (s : Settlement) : List PlanAction :=
  s.created.map fun e => .create e.1 e.2 s.directory

/-- The actions for records to delete. -/
def deletions (s : Settlement) : List PlanAction := s.deleted.map fun r => .delete r.guid

/-- The actions that carry a settlement out. -/
def actions (s : Settlement) : List PlanAction :=
  s.links.filterMap Link.action? ++ (s.creations ++ s.deletions)

/-- The plan carries out the settlement, which accounts for every row and every record once.  A
temporary identifier is nobody's, and a row with a new record has no GUID. -/
structure Accounts (s : Settlement) (records : RecordSet) (rows : List Row) (plan : Plan) :
    Prop where
  recordType : plan.recordType = records.recordType
  actions : plan.actions = s.actions
  backfilled : plan.backfilled = s.links.filterMap Link.backfill?
  forceFull : plan.forceFull = !s.deleted.isEmpty
  valid : ∀ l ∈ s.links, l.Valid records rows
  rows_perm : (s.links.map (·.index) ++ s.created.map (·.1)).Perm (List.range rows.length)
  records_perm : (s.links.map (·.record) ++ s.deleted).Perm records.records
  identifiers_nodup : (rows.map (·.identifier)).Nodup
  temporaries_nodup : (s.links.filterMap Link.temporary?).Nodup
  temporaries_fresh : ∀ t ∈ s.links.filterMap Link.temporary?,
    t ∉ rows.map (·.identifier) ++ records.records.map (·.identifier)
  created_nodup : (s.created.map (·.2)).Nodup
  created_fresh : ∀ e ∈ s.created, e.2 ∉ records.records.map (·.guid)
  created_guidless : ∀ e ∈ s.created, ∀ row, rows[e.1]? = some row → row.guid = none

/-- Moreover, no record that is deleted is called like a row with a new record. -/
structure Settles (s : Settlement) (records : RecordSet) (rows : List Row) (plan : Plan) : Prop
    extends s.Accounts records rows plan where
  created_free : ∀ e ∈ s.created, ∀ row, rows[e.1]? = some row →
    ∀ r ∈ s.deleted, r.identifier ≠ row.identifier

end Settlement

namespace Pass

variable {records : RecordSet} {rows : List Row} {links : List Link} {p : Pass}

/-! ### New records -/

/-- The GUIDs that rows get from a supply. -/
def assign (supply : GuidSupply) : List Nat → List (Nat × Guid)
  | [] => []
  | i :: rest => (i, supply.take.1) :: assign supply.take.2 rest

theorem map_fst_assign (supply : GuidSupply) (l : List Nat) :
    (assign supply l).map (·.1) = l := by
  induction l generalizing supply with
  | nil => rfl
  | cons i l ih => rw [assign, List.map_cons, ih]

theorem exists_of_mem_assign {supply : GuidSupply} {l : List Nat} {e : Nat × Guid}
    (h : e ∈ assign supply l) : e.1 ∈ l ∧ ∃ n, supply.used ≤ n ∧ e.2 = supply.next n := by
  induction l generalizing supply with
  | nil => cases h
  | cons i l ih =>
    rcases List.mem_cons.1 h with rfl | h
    · exact ⟨List.mem_cons_self, supply.used, Nat.le_refl _, rfl⟩
    · obtain ⟨hmem, n, hn, hguid⟩ := ih h
      exact ⟨List.mem_cons_of_mem _ hmem, n, Nat.le_of_succ_le hn, hguid⟩

theorem nodup_assign {supply : GuidSupply} (l : List Nat)
    (h : ∀ m n, supply.used ≤ m → supply.used ≤ n → supply.next m = supply.next n → m = n) :
    ((assign supply l).map (·.2)).Nodup := by
  induction l generalizing supply with
  | nil => exact List.nodup_nil
  | cons i l ih =>
    rw [assign, List.map_cons, List.nodup_cons]
    constructor
    · intro hmem
      obtain ⟨e, he, hguid⟩ := List.mem_map.1 hmem
      obtain ⟨-, n, hn, hnext⟩ := exists_of_mem_assign he
      -- the others come later in the supply
      have hsame : n = supply.used :=
        h n supply.used (Nat.le_of_succ_le hn) (Nat.le_refl _) (hnext.symm.trans hguid)
      exact Nat.not_succ_le_self _ (hsame ▸ hn)
    · exact ih fun m n hm hn => h m n (Nat.le_of_succ_le hm) (Nat.le_of_succ_le hn)

/-- What planning new records changes. -/
theorem createAll_spec (directory : String) (supply : GuidSupply) (p : Pass) :
    (createAll directory supply p).1.actions =
        p.actions ++ (assign supply p.remaining).map (fun e => .create e.1 e.2 directory) ∧
      (createAll directory supply p).1.claimed = p.claimed ∧
      (createAll directory supply p).1.backfilled = p.backfilled ∧
      (createAll directory supply p).1.errors = p.errors := by
  unfold createAll
  generalize p.remaining = l
  induction l generalizing p supply with
  | nil => exact ⟨(List.append_nil _).symm, rfl, rfl, rfl⟩
  | cons i l ih =>
    rw [List.foldl_cons]
    obtain ⟨hactions, hclaimed, hbackfilled, herrors⟩ :=
      ih supply.take.2 ((p.settle i).act (.create i supply.take.1 directory))
    refine ⟨hactions.trans ?_, hclaimed, hbackfilled, herrors⟩
    exact List.append_assoc _ _ _

/-- GUIDs are handed out in order. -/
theorem isRestOf_createAll (directory : String) (supply : GuidSupply) (p : Pass) :
    (createAll directory supply p).2.IsRestOf supply := by
  unfold createAll
  generalize p.remaining = l
  induction l generalizing p supply with
  | nil => exact GuidSupply.IsRestOf.refl supply
  | cons i l ih =>
    rw [List.foldl_cons]
    exact (ih supply.take.2 _).trans ⟨rfl, Nat.le_succ _⟩

/-- A directory is borrowed from a record. -/
theorem exists_of_borrowedDirectory? {directory : String}
    (h : p.borrowedDirectory? records = some directory) :
    ∃ r ∈ records.records, r.directory = directory := by
  unfold borrowedDirectory? at h
  dsimp only at h
  obtain ⟨r, hr, rfl⟩ := Option.map_eq_some_iff.1 (Option.filter_eq_some_iff.1 h).1
  obtain ⟨claim, -, hr⟩ := Option.bind_eq_some_iff.1 hr
  obtain ⟨e, he, rfl⟩ := Option.map_eq_some_iff.1 hr
  exact ⟨e.2, List.mem_map_of_mem (List.mem_of_find?_eq_some he), rfl⟩

/-- New records are kept where they may be. -/
theorem isHome_directory (settings : Settings) (records : RecordSet) (p : Pass) :
    IsHome settings records (((p.borrowedDirectory? records).or settings.defaultDirectory).getD
      records.recordType) := by
  cases hborrowed : p.borrowedDirectory? records with
  | some directory => exact Or.inr (Or.inr (exists_of_borrowedDirectory? hborrowed))
  | none =>
    rw [Option.none_or]
    cases hdefault : settings.defaultDirectory with
    | some directory => exact Or.inr (Or.inl hdefault)
    | none => exact Or.inl rfl

/-! ### Records without a row -/

theorem unclaimed_congr {p' : Pass} (h : p'.claimed = p.claimed) :
    p'.unclaimed records = p.unclaimed records := by
  unfold unclaimed isClaimed
  rw [h]

/-- The linked records and the records without a row are all records. -/
theorem records_perm (hs : records.WellFormed) (h : Built records rows links p) :
    (links.map (·.record) ++ (p.unclaimed records).map (·.2)).Perm records.records := by
  have hentries : records.entries.Nodup := List.Nodup.of_map _ hs.keys_nodup
  have hlinks : (links.map fun l => (l.key, l.record)).Nodup := by
    refine List.Nodup.of_map (·.1) ?_
    rw [List.map_map]
    exact h.keys_nodup
  -- what is claimed is what the links have
  have hclaimed : (links.map fun l => (l.key, l.record)).Perm
      (records.entries.filter fun e => p.isClaimed e.1) := by
    refine (List.perm_ext_iff_of_nodup hlinks (hentries.filter _)).2 fun e => ?_
    have hiff : ¬p.isClaimed e.1 = false ↔ ¬e.1 ∉ links.map (·.key) := (isClaimed_eq_false h).not
    rw [Bool.not_eq_false, not_not] at hiff
    rw [List.mem_filter, hiff]
    constructor
    · intro hmem
      obtain ⟨l, hl, rfl⟩ := List.mem_map.1 hmem
      exact ⟨(h.valid l hl).mem, List.mem_map_of_mem hl⟩
    · rintro ⟨hmem, hkey⟩
      obtain ⟨l, hl, hkey⟩ := List.mem_map.1 hkey
      have hrecord : l.record = e.2 :=
        RecordSet.eq_of_mem_entries hs (h.valid l hl).mem (hkey ▸ hmem)
      exact List.mem_map.2 ⟨l, hl, Prod.ext hkey hrecord⟩
  have hunclaimed : (p.unclaimed records).Perm (records.entries.filter fun e => !p.isClaimed e.1) :=
    (List.mergeSort_perm _ _).filter _
  -- a record is claimed or it is not
  have hall := (hclaimed.append hunclaimed).trans (List.filter_append_perm _ _)
  have hmap := hall.map Prod.snd
  rw [List.map_append, List.map_map] at hmap
  exact hmap

end Pass

/-! ### Reconciliations -/

open Pass

variable {records : RecordSet} {rows : List Row}

/-- The state after the stages that link rows with records. -/
def matchAll (records : RecordSet) (rows : List Row) : Pass :=
  matchLeftover records rows
    (forRemaining (matchIdentifier records rows)
      (forRemaining (matchGuid records rows)
        (forRemaining (matchExactly records rows) (start records rows))))

/-- The stages link rows with records, and leave only rows that need new records. -/
theorem matchAll_spec (hs : records.WellFormed) (hfaults : tableFaults records rows = []) :
    Consistent records rows (matchAll records rows) ∧
      ∀ i ∈ (matchAll records rows).remaining,
        Guidless rows i ∧ ((records.records.map (·.identifier)).Nodup →
          Bespoken records rows (matchAll records rows) i) := by
  have hknown : Known records rows := fun row hrow guid hguid =>
    keyOfGuid?_of_tableFaults hfaults hrow hguid
  obtain ⟨hexact, hnodup⟩ := consistent_exact hs (nodup_of_tableFaults hfaults) hknown
  obtain ⟨hguid, hnodup, hguidless⟩ := consistent_guid hknown hexact hnodup
  obtain ⟨hidentifier, -, hleft⟩ := consistent_identifier hguid hnodup hguidless
  unfold matchAll
  generalize forRemaining (matchIdentifier records rows)
    (forRemaining (matchGuid records rows)
      (forRemaining (matchExactly records rows) (start records rows))) = p at hidentifier hleft
  rcases matchLeftover_settled records rows p with heq | ⟨i, hi, hsettled⟩
  · rw [heq]
    exact ⟨hidentifier, hleft⟩
  · refine ⟨hidentifier.settled hi hsettled, fun j hj => ?_⟩
    obtain ⟨hjguid, hjname⟩ := hleft j (hsettled.sublist.subset hj)
    exact ⟨hjguid, fun hnames => (hjname hnames).settled hsettled⟩

theorem checkpoint_eq_ok {settings : Settings} {stage : ReconcileStage} {u : Unit}
    (h : settings.checkpoint stage = .ok u) : settings.cancelled stage = false := by
  unfold Settings.checkpoint at h
  split_ifs at h with hcancelled
  exact Bool.eq_false_iff.2 hcancelled

/-- A reconciliation that makes a plan is not called off and finds no fault, and the plan is what the
stages come to. -/
theorem reconcile_eq_ok {settings : Settings} {supply supply' : GuidSupply} {plan : Plan}
    (h : reconcile settings supply records rows = (.ok plan, supply')) :
    (∀ stage, settings.cancelled stage = false) ∧ tableFaults records rows = [] ∧ ∃ directory,
      IsHome settings records directory ∧
      (createAll directory supply (matchAll records rows)).1.errors = [] ∧
        plan.recordType = records.recordType ∧
        plan.actions =
          (deleteAll records (createAll directory supply (matchAll records rows)).1).actions ∧
        plan.backfilled = (createAll directory supply (matchAll records rows)).1.backfilled ∧
        plan.forceFull =
          !((createAll directory supply (matchAll records rows)).1.unclaimed records).isEmpty := by
  unfold reconcile at h
  dsimp only at h
  split at h
  · cases h
  · next p hmatched =>
    obtain ⟨_, hpreValidation, hmatched⟩ := bind_eq_ok.1 hmatched
    split_ifs at hmatched with hfaults
    · cases hmatched
    · obtain ⟨_, hexactMatch, hmatched⟩ := bind_eq_ok.1 hmatched
      obtain ⟨_, hguidMatch, hmatched⟩ := bind_eq_ok.1 hmatched
      obtain ⟨_, hidentifierMatch, hmatched⟩ := bind_eq_ok.1 hmatched
      obtain ⟨_, hcreate, hmatched⟩ := bind_eq_ok.1 hmatched
      obtain rfl : matchAll records rows = p := Except.ok.inj hmatched
      split at h
      · cases h
      · next hdelete =>
        split_ifs at h with herrors
        · cases h
        -- all stages have passed their checkpoints, so the plan is that of the last one
        · obtain ⟨rfl, -⟩ : _ = plan ∧ _ := by
            rw [Prod.mk.injEq, Except.ok.injEq] at h
            exact h
          have hactive : ∀ stage, settings.cancelled stage = false
            | .preValidation => checkpoint_eq_ok hpreValidation
            | .exactMatch => checkpoint_eq_ok hexactMatch
            | .guidMatch => checkpoint_eq_ok hguidMatch
            | .identifierMatch => checkpoint_eq_ok hidentifierMatch
            | .create => checkpoint_eq_ok hcreate
            | .delete => checkpoint_eq_ok hdelete
          exact ⟨hactive, not_not.1 hfaults, _, isHome_directory settings records _,
            not_not.1 herrors, rfl, rfl, rfl, rfl⟩

/-- What a matching settles with its links: the rows that remain have new records, and the records that
are unclaimed are deleted. -/
def Settlement.ofPass (records : RecordSet) (supply : GuidSupply) (directory : String)
    (links : List Link) (p : Pass) : Settlement :=
  ⟨links, assign supply p.remaining, directory, (p.unclaimed records).map (·.2)⟩

/-- The plan of a reconciliation does what its matching settles. -/
theorem plan_of_built {settings : Settings} {supply supply' : GuidSupply} {plan : Plan}
    (h : reconcile settings supply records rows = (.ok plan, supply')) {links : List Link}
    (hbuilt : Built records rows links (matchAll records rows)) :
    ∃ directory, IsHome settings records directory ∧ plan.recordType = records.recordType ∧
      plan.actions =
        (Settlement.ofPass records supply directory links (matchAll records rows)).actions ∧
      plan.backfilled = links.filterMap Link.backfill? ∧
      plan.forceFull = !((matchAll records rows).unclaimed records).isEmpty := by
  obtain ⟨-, -, directory, hhome, -, htype, hactions, hbackfilled, hforce⟩ := reconcile_eq_ok h
  obtain ⟨hactions', hclaimed, hbackfilled', -⟩ :=
    createAll_spec directory supply (matchAll records rows)
  have hunclaimed : (createAll directory supply (matchAll records rows)).1.unclaimed records =
      (matchAll records rows).unclaimed records := unclaimed_congr hclaimed
  refine ⟨directory, hhome, htype, ?_, ?_, ?_⟩
  · rw [hactions, deleteAll, hunclaimed, hactions', hbuilt.actions, Settlement.actions,
      Settlement.ofPass, Settlement.deletions, List.append_assoc, List.map_map]
    rfl
  · rw [hbackfilled, hbackfilled', hbuilt.backfilled]
  · rw [hforce, hunclaimed]

/-- The plan of a reconciliation carries out a settlement with the links of the matching. -/
theorem exists_accounts_of_built {settings : Settings} {supply supply' : GuidSupply} {plan : Plan}
    (hs : records.WellFormed) (hsupply : supply.FreshFor records)
    (h : reconcile settings supply records rows = (.ok plan, supply')) {links : List Link}
    (hbuilt : Built records rows links (matchAll records rows)) :
    ∃ s : Settlement, s.links = links ∧ s.Accounts records rows plan ∧
      ((records.records.map (·.identifier)).Nodup → s.Settles records rows plan) ∧
        IsHome settings records s.directory ∧
        ∀ e ∈ s.created, ∃ n, supply.used ≤ n ∧ e.2 = supply.next n := by
  obtain ⟨-, hfaults, -⟩ := reconcile_eq_ok h
  obtain ⟨directory, hhome, htype, hactions, hbackfilled, hforce⟩ := plan_of_built h hbuilt
  obtain ⟨-, hleft⟩ := matchAll_spec hs hfaults
  -- the pass itself is a settlement, and the plan carries it out
  have haccounts : Settlement.Accounts
      (.ofPass records supply directory links (matchAll records rows)) records rows plan :=
  { recordType := htype
    actions := hactions
    backfilled := hbackfilled
    forceFull := by rw [hforce, Settlement.ofPass, List.isEmpty_map]
    valid := hbuilt.valid
    rows_perm := by
      rw [Settlement.ofPass, map_fst_assign]
      exact hbuilt.rows_perm
    records_perm := records_perm hs hbuilt
    identifiers_nodup := nodup_of_tableFaults hfaults
    temporaries_nodup := hbuilt.temporaries_nodup
    temporaries_fresh := hbuilt.temporaries_fresh
    created_nodup := nodup_assign _ hsupply.distinct
    created_fresh := by
      intro e he
      obtain ⟨-, n, hn, hguid⟩ := exists_of_mem_assign he
      rw [hguid]
      exact hsupply.unused n hn
    created_guidless := fun e he => (hleft e.1 (exists_of_mem_assign he).1).1 }
  refine ⟨_, rfl, haccounts, fun hnames => { haccounts with created_free := ?_ }, hhome,
    fun e he => (exists_of_mem_assign he).2⟩
  -- a row that is created has the identifier of no record that is deleted
  intro e he row hrow r hr hidentifier
  obtain ⟨⟨key, r'⟩, hmem, rfl⟩ := List.mem_map.1 hr
  obtain ⟨hentry, hfree⟩ := List.mem_filter.1 hmem
  have hclaim := (hleft e.1 (exists_of_mem_assign he).1).2 hnames row hrow (key, r')
    (List.mem_mergeSort.1 hentry) hidentifier
  rw [hclaim] at hfree
  cases hfree

/-- **What a reconciliation settles.**  Its plan carries out a settlement of all rows and records, and
the GUIDs of new records are of the supply. -/
theorem exists_accounts_of_reconcile {settings : Settings} {supply supply' : GuidSupply}
    {plan : Plan} (hs : records.WellFormed) (hsupply : supply.FreshFor records)
    (h : reconcile settings supply records rows = (.ok plan, supply')) :
    ∃ s : Settlement, s.Accounts records rows plan ∧
      ((records.records.map (·.identifier)).Nodup → s.Settles records rows plan) ∧
        IsHome settings records s.directory ∧
        ∀ e ∈ s.created, ∃ n, supply.used ≤ n ∧ e.2 = supply.next n := by
  obtain ⟨-, hfaults, directory, -, herrors, -⟩ := reconcile_eq_ok h
  have herrors' := (createAll_spec directory supply (matchAll records rows)).2.2.2
  obtain ⟨links, hbuilt⟩ := (matchAll_spec hs hfaults).1 (herrors'.symm.trans herrors)
  obtain ⟨s, -, h⟩ := exists_accounts_of_built hs hsupply h hbuilt
  exact ⟨s, h⟩

/-- With distinct identifiers, no new record is called like one that is deleted. -/
theorem exists_settlement_of_reconcile {settings : Settings} {supply supply' : GuidSupply}
    {plan : Plan} (hs : records.WellFormed)
    (hnames : (records.records.map (·.identifier)).Nodup) (hsupply : supply.FreshFor records)
    (h : reconcile settings supply records rows = (.ok plan, supply')) :
    ∃ s : Settlement, s.Settles records rows plan := by
  obtain ⟨s, -, hsettles, -⟩ := exists_accounts_of_reconcile hs hsupply h
  exact ⟨s, hsettles hnames⟩

/-! ### Reconciliations in a row -/

/-- A reconciliation takes GUIDs from the supply in order. -/
theorem isRestOf_of_reconcile (settings : Settings) (supply : GuidSupply) (records : RecordSet)
    (rows : List Row) : (reconcile settings supply records rows).2.IsRestOf supply := by
  unfold reconcile
  dsimp only
  split
  · exact GuidSupply.IsRestOf.refl supply
  · split
    · exact isRestOf_createAll _ _ _
    · split_ifs <;> exact isRestOf_createAll _ _ _

theorem checkpoint_avoids (settings : Settings) (stage : ReconcileStage) :
    Avoids (· = []) (settings.checkpoint stage) := by
  unfold Settings.checkpoint
  split_ifs
  · exact avoids_error (List.cons_ne_nil _ _)
  · exact avoids_ok ()

/-- A reconciliation that fails tells an error. -/
theorem ne_nil_of_reconcile {settings : Settings} {supply supply' : GuidSupply}
    {errors : List ReconcileError}
    (h : reconcile settings supply records rows = (.error errors, supply')) : errors ≠ [] := by
  have hstart : ∀ {β : Type} {f : Unit → Except (List ReconcileError) β} (stage : ReconcileStage),
      Avoids (· = []) (f ()) → Avoids (· = []) (settings.checkpoint stage >>= f) :=
    fun stage hf => (checkpoint_avoids settings stage).bind fun _ _ => hf
  unfold reconcile at h
  dsimp only at h
  split at h
  · next errors' hmatched =>
    obtain rfl := Except.error.inj (congrArg Prod.fst h)
    refine (?_ : Avoids (· = []) _) _ hmatched
    refine hstart _ ?_
    split_ifs with hfaults
    · exact Avoids.bind (x := .error (tableFaults records rows)) (avoids_error hfaults)
        fun u hu => nomatch hu
    · exact hstart _ (hstart _ (hstart _ (hstart _ (avoids_ok _))))
  · split at h
    · next hcancelled =>
      obtain rfl := Except.error.inj (congrArg Prod.fst h)
      exact checkpoint_avoids _ _ _ hcancelled
    · split_ifs at h with herrors
      · obtain rfl := Except.error.inj (congrArg Prod.fst h)
        exact herrors
      · cases congrArg Prod.fst h

end Matcher

end RecordTables
