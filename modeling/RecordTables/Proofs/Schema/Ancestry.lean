import RecordTables.Proofs.Outcome
import RecordTables.Proofs.Schema.Circles
import RecordTables.Proofs.Schema.Resolution

/-!
# Whose properties a type takes over

`effectiveProperties_exact`: the properties of a declared type are found exactly if all that can be
reached from it through parents is declared and on no circle (`Declarations.IsClosed`), but for the
check of the identifier of a record type.  They are those of its ancestors, and then its own, and
every fault tells of a circle, of an undeclared parent (`InheritanceFault`) or of an identifier
(`IdentifierFault`) that there is.

The order of the ancestors is described without the walk that finds them.  A `Lineage` is what the
walk would list if it did not remember whom it has met: above each name its own ancestors, as often
as they are reached.  The walk lists every name where the lineage has it first
(`collected_of_collectAncestors`).  What it has met by then is `Settled`: unless a name is on the way
down, its lineage has been met, too, and keeps off the way.
-/

namespace RecordTables.Schema

open Relation

variable {d : Declarations} {options : Options} {owner t : TypeDeclaration}
  {path names lineage visited : List String} {name : String}

/-! ### Ancestors -/

namespace Declarations

/-- A declared type names another among its parents. -/
def TakesOver (d : Declarations) (heir parent : String) : Prop :=
  ∃ t, d.type? heir = some t ∧ parent ∈ t.parents

/-- All that can be reached from a name through parents is a declared type, and not its own
ancestor. -/
structure IsClosed (d : Declarations) (name : String) : Prop where
  declared : ∀ n, ReflTransGen d.TakesOver name n → ∃ t, d.type? n = some t
  acyclic : ∀ n, ReflTransGen d.TakesOver name n → ¬TransGen d.TakesOver n n

/-- The ancestors of names and the names themselves, depth first: in front of each name stand its own
ancestors, in the order in which parents are named.  What is reached in several ways is listed as
often. -/
inductive Lineage (d : Declarations) : (names lineage : List String) → Prop where
  | nil : Lineage d [] []
  | cons {name : String} {t : TypeDeclaration} {rest above beside : List String}
      (ht : d.type? name = some t) (habove : Lineage d t.parents above)
      (hbeside : Lineage d rest beside) : Lineage d (name :: rest) (above ++ name :: beside)

/-- What a declared name takes over from is reached through its parents. -/
theorem exists_parent_of_transGen {n : String} (ht : d.type? name = some t)
    (h : TransGen d.TakesOver name n) : ∃ parent ∈ t.parents, ReflTransGen d.TakesOver parent n := by
  obtain ⟨parent, ⟨u, hu, hparent⟩, hreach⟩ := TransGen.head'_iff.1 h
  obtain rfl : t = u := Option.some.inj (ht.symm.trans hu)
  exact ⟨parent, hparent, hreach⟩

namespace Lineage

/-- **A lineage lists what can be reached**, and nothing else. -/
theorem mem_iff (h : d.Lineage names lineage) {n : String} :
    n ∈ lineage ↔ ∃ name ∈ names, ReflTransGen d.TakesOver name n := by
  induction h with
  | nil => simp
  | @cons name t rest above beside ht _ _ ihabove ihbeside =>
    rw [List.mem_append, List.mem_cons, ihabove, ihbeside]
    constructor
    · rintro (⟨parent, hparent, hreach⟩ | rfl | ⟨other, hother, hreach⟩)
      · exact ⟨name, List.mem_cons_self, .head ⟨t, ht, hparent⟩ hreach⟩
      · exact ⟨n, List.mem_cons_self, .refl⟩
      · exact ⟨other, List.mem_cons_of_mem _ hother, hreach⟩
    · rintro ⟨other, hother, hreach⟩
      rcases List.mem_cons.1 hother with rfl | hother
      · rcases reflTransGen_iff_eq_or_transGen.1 hreach with rfl | hreach
        · exact Or.inr (Or.inl rfl)
        · exact Or.inl (exists_parent_of_transGen ht hreach)
      · exact Or.inr (Or.inr ⟨other, hother, hreach⟩)

theorem declared (h : d.Lineage names lineage) {n : String} (hn : n ∈ lineage) :
    ∃ t, d.type? n = some t := by
  induction h with
  | nil => cases hn
  | cons ht _ _ ihabove ihbeside =>
    rcases List.mem_append.1 hn with hn | hn
    · exact ihabove hn
    · rcases List.mem_cons.1 hn with rfl | hn
      · exact ⟨_, ht⟩
      · exact ihbeside hn

/-- The lineage of one name ends with it, in front of those beside it. -/
theorem append {first beside rest : List String} (hfirst : d.Lineage [name] first)
    (hrest : d.Lineage rest beside) : d.Lineage (name :: rest) (first ++ beside) := by
  cases hfirst with
  | cons ht habove hnone =>
    cases hnone
    rw [List.append_assoc]
    exact .cons ht habove hrest

/-- Whoever is in a lineage has a lineage of its own, which is no longer. -/
theorem exists_of_mem (h : d.Lineage names lineage) {n : String} (hn : n ∈ lineage) :
    ∃ own, d.Lineage [n] own ∧ own.length ≤ lineage.length := by
  induction h with
  | nil => cases hn
  | @cons name t rest above beside ht habove hbeside ihabove ihbeside =>
    rw [List.length_append, List.length_cons]
    rcases List.mem_append.1 hn with hn | hn
    · obtain ⟨own, hown, hle⟩ := ihabove hn
      exact ⟨own, hown, by omega⟩
    · rcases List.mem_cons.1 hn with rfl | hn
      · refine ⟨_, .cons ht habove .nil, ?_⟩
        rw [List.length_append, List.length_singleton]
        omega
      · obtain ⟨own, hown, hle⟩ := ihbeside hn
        exact ⟨own, hown, by omega⟩

theorem unique {lineage' : List String} (h : d.Lineage names lineage)
    (h' : d.Lineage names lineage') : lineage = lineage' := by
  induction h generalizing lineage' with
  | nil =>
    cases h'
    rfl
  | cons ht _ _ ihabove ihbeside =>
    cases h' with
    | cons ht' habove' hbeside' =>
      obtain rfl := Option.some.inj (ht.symm.trans ht')
      rw [ihabove habove', ihbeside hbeside']

/-- **Nobody with a lineage is on a circle**: the lineage would be longer than itself. -/
theorem not_transGen (h : d.Lineage [name] lineage) : ¬TransGen d.TakesOver name name := by
  intro hcircle
  cases h with
  | cons ht habove hnone =>
    cases hnone
    have hmem := habove.mem_iff.2 (exists_parent_of_transGen ht hcircle)
    obtain ⟨own, hown, hle⟩ := habove.exists_of_mem hmem
    have hsame := congrArg List.length (hown.unique (.cons ht habove .nil))
    rw [List.length_append, List.length_singleton] at hsame
    omega

/-- Whoever has a lineage is closed. -/
theorem isClosed (h : d.Lineage [name] lineage) : d.IsClosed name := by
  have hmem : ∀ n, ReflTransGen d.TakesOver name n → n ∈ lineage := fun n hreach =>
    h.mem_iff.2 ⟨name, List.mem_singleton_self _, hreach⟩
  constructor
  case declared => exact fun n hreach => h.declared (hmem n hreach)
  case acyclic =>
    intro n hreach
    obtain ⟨own, hown, -⟩ := h.exists_of_mem (hmem n hreach)
    exact hown.not_transGen

end Lineage

end Declarations

/-! ### Ancestors in front -/

/-- In front of each name stands all that it leads to, unless it was there before. -/
def Grounded (leads : String → String → Prop) : (before names : List String) → Prop
  | _, [] => True
  | before, name :: rest => (∀ n, leads name n → n ∈ before) ∧ Grounded leads (name :: before) rest

namespace Grounded

variable {leads : String → String → Prop} {before before' rest : List String}

theorem mono (h : Grounded leads before names) (hle : before ⊆ before') :
    Grounded leads before' names := by
  induction names generalizing before before' with
  | nil => trivial
  | cons name names ih =>
    obtain ⟨hname, hrest⟩ := h
    exact ⟨fun n hn => hle (hname n hn), ih hrest (List.cons_subset_cons name hle)⟩

theorem append (h : Grounded leads before names) (hrest : Grounded leads (names ++ before) rest) :
    Grounded leads before (names ++ rest) := by
  induction names generalizing before with
  | nil => exact hrest
  | cons name names ih =>
    refine ⟨h.1, ih h.2 (hrest.mono fun n hn => ?_)⟩
    simp only [List.mem_append, List.mem_cons] at hn ⊢
    tauto

/-- Names that were there before can be left out. -/
theorem filter {p : String → Bool} (h : Grounded leads before names)
    (hp : ∀ n, p n = false → n ∈ before) : Grounded leads before (names.filter p) := by
  induction names generalizing before with
  | nil => trivial
  | cons name names ih =>
    cases hkeep : p name with
    | true =>
      rw [List.filter_cons_of_pos hkeep]
      exact ⟨h.1, ih h.2 fun n hn => List.mem_cons_of_mem _ (hp n hn)⟩
    | false =>
      rw [List.filter_cons_of_neg (by rw [hkeep]; exact Bool.false_ne_true)]
      have hrest : Grounded leads before names := h.2.mono fun n hn => by
        rcases List.mem_cons.1 hn with rfl | hn
        · exact hp n hkeep
        · exact hn
      exact ih hrest hp

/-- Repetitions can be left out. -/
theorem eraseDups (h : Grounded leads before names) : Grounded leads before names.eraseDups := by
  induction hn : names.length using Nat.strong_induction_on generalizing before names with
  | _ n ih =>
    cases names with
    | nil => trivial
    | cons name names =>
      rw [List.eraseDups_cons]
      have hlength : (names.filter fun m => !m == name).length < n := by
        rw [← hn, List.length_cons]
        exact Nat.lt_succ_of_le (List.length_filter_le _ _)
      refine ⟨h.1, ih _ hlength (h.2.filter fun m hm => ?_) rfl⟩
      rw [Bool.not_eq_false', beq_iff_eq] at hm
      exact hm ▸ List.mem_cons_self

theorem mem_of_append (h : Grounded leads before (names ++ name :: rest)) {n : String}
    (hn : leads name n) : n ∈ before ∨ n ∈ names := by
  induction names generalizing before with
  | nil => exact Or.inl (h.1 n hn)
  | cons first names ih =>
    rcases ih h.2 with hmem | hmem
    · rcases List.mem_cons.1 hmem with rfl | hmem
      · exact Or.inr List.mem_cons_self
      · exact Or.inl hmem
    · exact Or.inr (List.mem_cons_of_mem _ hmem)

end Grounded

/-- In a lineage all ancestors of a name stand in front of it. -/
theorem Declarations.Lineage.grounded (h : d.Lineage names lineage) (before : List String) :
    Grounded (TransGen d.TakesOver) before lineage := by
  induction h generalizing before with
  | nil => trivial
  | cons ht habove _ ihabove ihbeside =>
    refine (ihabove before).append ⟨fun n hn => ?_, ihbeside _⟩
    exact List.mem_append_left _ (habove.mem_iff.2 (exists_parent_of_transGen ht hn))

theorem nodup_eraseDups (names : List String) : names.eraseDups.Nodup := by
  induction hn : names.length using Nat.strong_induction_on generalizing names with
  | _ n ih =>
    cases names with
    | nil => exact List.nodup_nil
    | cons name names =>
      rw [List.eraseDups_cons]
      have hlength : (names.filter fun m => !m == name).length < n := by
        rw [← hn, List.length_cons]
        exact Nat.lt_succ_of_le (List.length_filter_le _ _)
      refine List.nodup_cons.2 ⟨fun hmem => ?_, ih _ hlength _ rfl⟩
      rw [List.mem_eraseDups, List.mem_filter, beq_self_eq_true] at hmem
      exact Bool.false_ne_true hmem.2

/-! ### The walk -/

/-- The properties that a declared type does not take over from others. -/
def Declarations.ownProperties (d : Declarations) (name : String) : List PropertyDeclaration :=
  ((d.type? name).map (·.properties)).getD []

section Walk

variable {from? : String} {rest : List String} {found found' : Ancestry} {e : SchemaError}

theorem collectAncestors_onPath (h : name ∈ path) :
    collectAncestors d path from? (name :: rest) found =
      .error (.circularInheritance (closeCycle path name)) := by
  rw [collectAncestors, dif_pos (List.contains_iff_mem.2 h)]

theorem collectAncestors_visited (hpath : name ∉ path) (h : name ∈ found.visited) :
    collectAncestors d path from? (name :: rest) found =
      collectAncestors d path from? rest found := by
  rw [collectAncestors, dif_neg (mt List.contains_iff_mem.1 hpath),
    if_pos (List.contains_iff_mem.2 h)]

theorem collectAncestors_undeclared (hpath : name ∉ path) (h : name ∉ found.visited)
    (ht : d.type? name = none) :
    collectAncestors d path from? (name :: rest) found = .error (.unknownType from? name) := by
  rw [collectAncestors, dif_neg (mt List.contains_iff_mem.1 hpath),
    if_neg (mt List.contains_iff_mem.1 h)]
  split
  · rfl
  · next parent hparent =>
    rw [ht] at hparent
    cases hparent

/-- Going up to a new parent, and then on to those beside it. -/
theorem collectAncestors_declared (hpath : name ∉ path) (h : name ∉ found.visited)
    (ht : d.type? name = some t) :
    collectAncestors d path from? (name :: rest) found =
      (collectAncestors d (path ++ [name]) name t.parents
        { found with visited := name :: found.visited }) >>= fun found =>
          collectAncestors d path from? rest
            { found with properties := found.properties ++ t.properties } := by
  rw [collectAncestors, dif_neg (mt List.contains_iff_mem.1 hpath),
    if_neg (mt List.contains_iff_mem.1 h)]
  split
  · next hnone =>
    rw [ht] at hnone
    cases hnone
  · next parent hparent =>
    obtain rfl : t = parent := Option.some.inj (ht.symm.trans hparent)
    cases collectAncestors d (path ++ [name]) name t.parents
      { found with visited := name :: found.visited } <;> rfl

/-- Unless it is on the way, whoever was met was met with all of its ancestors, and none of them is
on the way. -/
def Settled (d : Declarations) (path visited : List String) : Prop :=
  ∀ n ∈ visited, n ∉ path →
    ∃ lineage, d.Lineage [n] lineage ∧ ∀ m ∈ lineage, m ∈ visited ∧ m ∉ path

/-- Going up to a new name leaves those settled that were. -/
theorem Settled.append (h : Settled d path visited) (hnew : name ∉ visited) :
    Settled d (path ++ [name]) (name :: visited) := by
  intro n hn hoff
  rw [List.mem_append, List.mem_singleton, not_or] at hoff
  obtain ⟨lineage, hlineage, hmet⟩ := h n ((List.mem_cons.1 hn).resolve_left hoff.2) hoff.1
  refine ⟨lineage, hlineage, fun m hm => ⟨List.mem_cons_of_mem _ (hmet m hm).1, ?_⟩⟩
  rw [List.mem_append, List.mem_singleton, not_or]
  refine ⟨(hmet m hm).2, ?_⟩
  rintro rfl
  exact hnew (hmet m hm).1

/-- Coming back from a name settles it, too. -/
theorem Settled.of_append {above : List String} (h : Settled d (path ++ [name]) visited)
    (hname : name ∉ path) (ht : d.type? name = some t) (habove : d.Lineage t.parents above)
    (hmet : ∀ m ∈ above, m ∈ visited ∧ m ∉ path ++ [name]) : Settled d path visited := by
  have hoff : ∀ {m}, m ∉ path ++ [name] → m ∉ path := mt (List.mem_append_left _)
  intro n hn hpath
  by_cases hself : n = name
  · subst hself
    refine ⟨_, .cons ht habove .nil, fun m hm => ?_⟩
    rcases List.mem_append.1 hm with hm | hm
    · exact ⟨(hmet m hm).1, hoff (hmet m hm).2⟩
    · obtain rfl := List.mem_singleton.1 hm
      exact ⟨hn, hname⟩
  · obtain ⟨lineage, hlineage, hall⟩ := h n hn (by simp [hpath, hself])
    exact ⟨lineage, hlineage, fun m hm => ⟨(hall m hm).1, hoff (hall m hm).2⟩⟩

/-- What a walk over the ancestors of some names has found, when it comes to its end. -/
structure Collected (d : Declarations) (path names : List String) (found found' : Ancestry)
    (lineage : List String) : Prop where
  isLineage : d.Lineage names lineage
  /-- None of them is on the way. -/
  offPath : ∀ n ∈ lineage, n ∉ path
  visited : ∀ n, n ∈ found'.visited ↔ n ∈ found.visited ∨ n ∈ lineage
  /-- The properties of each that was not met before, where the lineage has it first. -/
  properties : found'.properties =
    found.properties ++ (lineage.removeAll found.visited).eraseDups.flatMap d.ownProperties
  settled : Settled d path found'.visited

/-- The new names of a lineage: first the new ancestors of a new name, then the name, then what is
new beside it. -/
theorem eraseDups_removeAll_append {above beside met : List String} (hnew : name ∉ visited)
    (habove : name ∉ above) (hmet : ∀ n, n ∈ met ↔ n ∈ name :: visited ∨ n ∈ above) :
    ((above ++ name :: beside).removeAll visited).eraseDups =
      (above.removeAll (name :: visited)).eraseDups ++
        name :: (beside.removeAll met).eraseDups := by
  have hsame : above.removeAll visited = above.removeAll (name :: visited) := by
    refine List.filter_congr fun n hn => ?_
    have hne : n ≠ name := by
      rintro rfl
      exact habove hn
    simp [hne]
  have hkept : (name :: beside).removeAll visited = name :: beside.removeAll visited := by
    unfold List.removeAll
    rw [List.filter_cons_of_pos (by simpa using hnew)]
  have hfirst : (name :: beside.removeAll visited).removeAll (above.removeAll visited) =
      name :: (beside.removeAll visited).removeAll (above.removeAll visited) := by
    unfold List.removeAll
    rw [List.filter_cons_of_pos (by simp [habove])]
  have hsplit : (above ++ name :: beside).removeAll visited =
      above.removeAll visited ++ (name :: beside).removeAll visited := List.filter_append ..
  -- beside the name, what is left is neither met before, nor above, nor the name
  have hlast : ((beside.removeAll visited).removeAll (above.removeAll visited)).filter
      (fun m => !m == name) = beside.removeAll met := by
    unfold List.removeAll
    rw [List.filter_filter, List.filter_filter]
    refine List.filter_congr fun n _ => ?_
    have hn := hmet n
    rw [Bool.eq_iff_iff]
    simp only [Bool.and_eq_true, Bool.not_eq_true', List.elem_eq_mem, decide_eq_false_iff_not,
      List.mem_filter, List.mem_cons, beq_eq_false_iff_ne, hn]
    tauto
  rw [hsplit, hkept, List.eraseDups_append, hfirst, List.eraseDups_cons, hlast, hsame]

/-- A name that was met with all of its ancestors adds nothing. -/
theorem Collected.of_met {own : List String} (hown : d.Lineage [name] own)
    (hmet : ∀ m ∈ own, m ∈ found.visited ∧ m ∉ path)
    (h : Collected d path rest found found' lineage) :
    Collected d path (name :: rest) found found' (own ++ lineage) := by
  constructor
  case isLineage => exact hown.append h.isLineage
  case offPath =>
    intro n hn
    rcases List.mem_append.1 hn with hn | hn
    · exact (hmet n hn).2
    · exact h.offPath n hn
  case visited =>
    intro n
    have hold : n ∈ own → n ∈ found.visited := fun hn => (hmet n hn).1
    rw [h.visited, List.mem_append]
    tauto
  case properties =>
    have hold : own.removeAll found.visited = [] :=
      List.filter_eq_nil_iff.2 fun n hn => by simp [(hmet n hn).1]
    have hsplit : (own ++ lineage).removeAll found.visited =
        own.removeAll found.visited ++ lineage.removeAll found.visited := List.filter_append ..
    rw [h.properties, hsplit, hold, List.nil_append]
  case settled => exact h.settled

/-- A new name is found behind its ancestors, and in front of those beside it. -/
theorem Collected.cons {found₁ : Ancestry} {above beside : List String} (hoff : name ∉ path)
    (hnew : name ∉ found.visited) (ht : d.type? name = some t)
    (habove : Collected d (path ++ [name]) t.parents
      { found with visited := name :: found.visited } found₁ above)
    (hbeside : Collected d path rest
      { found₁ with properties := found₁.properties ++ t.properties } found' beside) :
    Collected d path (name :: rest) found found' (above ++ name :: beside) := by
  constructor
  case isLineage => exact .cons ht habove.isLineage hbeside.isLineage
  case offPath =>
    intro n hn
    rcases List.mem_append.1 hn with hn | hn
    · exact mt (List.mem_append_left _) (habove.offPath n hn)
    · rcases List.mem_cons.1 hn with rfl | hn
      · exact hoff
      · exact hbeside.offPath n hn
  case visited =>
    intro n
    rw [hbeside.visited, habove.visited, List.mem_append, List.mem_cons, List.mem_cons]
    tauto
  case properties =>
    -- the name is on the way while its ancestors are found, so it is none of them
    have hout : name ∉ above := fun hn =>
      habove.offPath name hn (List.mem_append_right _ (List.mem_singleton_self _))
    have hown : d.ownProperties name = t.properties := by
      unfold Declarations.ownProperties
      rw [ht]
      rfl
    rw [hbeside.properties, habove.properties,
      eraseDups_removeAll_append hnew hout habove.visited, List.flatMap_append,
      List.flatMap_cons, hown]
    simp only [List.append_assoc]
  case settled => exact hbeside.settled

/-- **What a walk finds.** -/
theorem collected_of_collectAncestors (hsettled : Settled d path found.visited)
    (h : collectAncestors d path from? names found = .ok found') :
    ∃ lineage, Collected d path names found found' lineage := by
  induction path, from?, names, found using collectAncestors.induct (d := d)
      generalizing found' with
  | case1 path from? found =>
    rw [collectAncestors] at h
    obtain rfl := Except.ok.inj h
    exact ⟨[], .nil, by simp, by simp, by simp [List.removeAll], hsettled⟩
  | case2 path from? name rest found hpath =>
    rw [collectAncestors_onPath (List.contains_iff_mem.1 hpath)] at h
    cases h
  | case3 path from? name rest found hpath hvisited ih =>
    have hoff : name ∉ path := mt List.contains_iff_mem.2 hpath
    have hmem : name ∈ found.visited := List.contains_iff_mem.1 hvisited
    rw [collectAncestors_visited hoff hmem] at h
    -- a name that was met before had its lineage settled then
    obtain ⟨own, hown, hmet⟩ := hsettled name hmem hoff
    obtain ⟨lineage, hrest⟩ := ih hsettled h
    exact ⟨own ++ lineage, hrest.of_met hown hmet⟩
  | case4 path from? name rest found hpath hvisited ht =>
    rw [collectAncestors_undeclared (mt List.contains_iff_mem.2 hpath)
      (mt List.contains_iff_mem.2 hvisited) ht] at h
    cases h
  | case5 path from? name rest found hpath hvisited parent ht e herror ih =>
    rw [collectAncestors_declared (mt List.contains_iff_mem.2 hpath)
      (mt List.contains_iff_mem.2 hvisited) ht, herror] at h
    cases h
  | case6 path from? name rest found hpath hvisited parent ht found₁ hfound₁ ihabove ihbeside =>
    have hoff : name ∉ path := mt List.contains_iff_mem.2 hpath
    have hnew : name ∉ found.visited := mt List.contains_iff_mem.2 hvisited
    rw [collectAncestors_declared hoff hnew ht, hfound₁, ok_bind] at h
    obtain ⟨above, habove⟩ := ihabove (hsettled.append hnew) hfound₁
    -- when its lineage has been walked the name is settled as well
    have hback : Settled d path found₁.visited := by
      refine habove.settled.of_append hoff ht habove.isLineage fun m hm => ⟨?_, habove.offPath m hm⟩
      exact (habove.visited m).2 (Or.inr hm)
    obtain ⟨beside, hbeside⟩ := ihbeside hback h
    exact ⟨above ++ name :: beside, habove.cons hoff hnew ht hbeside⟩

/-- What is wrong when a walk over ancestors fails, in reach of the name from which it starts. -/
inductive InheritanceFault (d : Declarations) (root : String) : SchemaError → Prop where
  | circle {path : List String} (h : IsCircle d.TakesOver path)
      (hreach : ∀ n ∈ path, TransGen d.TakesOver root n) :
      InheritanceFault d root (.circularInheritance path)
  | undeclared {heir parent : String} (hreach : ReflTransGen d.TakesOver root heir)
      (h : d.TakesOver heir parent) (hnone : d.type? parent = none) :
      InheritanceFault d root (.unknownType heir parent)

/-- **What a fault of a walk tells.** -/
theorem inheritanceFault_of_collectAncestors {root : String} (hleads : Leads d.TakesOver path names)
    (hlast : path.getLast? = some from?) (hroot : ReflTransGen d.TakesOver root from?)
    (h : collectAncestors d path from? names found = .error e) : InheritanceFault d root e := by
  induction path, from?, names, found using collectAncestors.induct (d := d)
      generalizing e with
  | case1 path from? found =>
    rw [collectAncestors] at h
    cases h
  | case2 path from? name rest found hpath =>
    have hmem : name ∈ path := List.contains_iff_mem.1 hpath
    rw [collectAncestors_onPath hmem] at h
    obtain rfl := Except.error.inj h
    have hstep : d.TakesOver from? name := hleads.onward from? hlast name List.mem_cons_self
    refine .circle (hleads.isCircle_closeCycle hmem) fun n hn => ?_
    -- the circle starts with the name, so all of it is reached through the name
    exact (TransGen.tail' hroot hstep).trans_left (hleads.reflTransGen_closeCycle hmem hn)
  | case3 path from? name rest found hpath hvisited ih =>
    rw [collectAncestors_visited (mt List.contains_iff_mem.2 hpath)
      (List.contains_iff_mem.1 hvisited)] at h
    exact ih hleads.tail hlast hroot h
  | case4 path from? name rest found hpath hvisited ht =>
    rw [collectAncestors_undeclared (mt List.contains_iff_mem.2 hpath)
      (mt List.contains_iff_mem.2 hvisited) ht] at h
    obtain rfl := Except.error.inj h
    exact .undeclared hroot (hleads.onward from? hlast name List.mem_cons_self) ht
  | case5 path from? name rest found hpath hvisited parent ht e' herror ih =>
    have hoff : name ∉ path := mt List.contains_iff_mem.2 hpath
    rw [collectAncestors_declared hoff (mt List.contains_iff_mem.2 hvisited) ht, herror] at h
    obtain rfl := Except.error.inj h
    have hstep : d.TakesOver from? name := hleads.onward from? hlast name List.mem_cons_self
    exact ih (hleads.append hoff fun n hn => ⟨parent, ht, hn⟩) List.getLast?_concat
      (hroot.tail hstep) herror
  | case6 path from? name rest found hpath hvisited parent ht found₁ hfound₁ _ ihbeside =>
    rw [collectAncestors_declared (mt List.contains_iff_mem.2 hpath)
      (mt List.contains_iff_mem.2 hvisited) ht, hfound₁, ok_bind] at h
    exact ihbeside hleads.tail hlast hroot h

end Walk

/-! ### Effective properties -/

/-- The ancestors of a type, in the order in which their properties are taken over. -/
structure Declarations.IsAncestry (d : Declarations) (owner : TypeDeclaration)
    (order : List TypeDeclaration) : Prop where
  /-- Each is there once. -/
  nodup : (order.map (·.name)).Nodup
  mem_iff : ∀ t, t ∈ order ↔ d.type? t.name = some t ∧ TransGen d.TakesOver owner.name t.name
  /-- In front of each stand all of its own ancestors. -/
  inFront : ∀ before t after, order = before ++ t :: after →
    ∀ n, TransGen d.TakesOver t.name n → n ∈ before.map (·.name)
  /-- Depth first, in the order in which parents are named. -/
  depthFirst : ∃ lineage, d.Lineage owner.parents lineage ∧ order.map (·.name) = lineage.eraseDups

/-- The declared types of names. -/
theorem map_name_filterMap_type? (h : ∀ n ∈ names, ∃ t, d.type? n = some t) :
    (names.filterMap d.type?).map (·.name) = names := by
  induction names with
  | nil => rfl
  | cons name names ih =>
    obtain ⟨t, ht⟩ := h name List.mem_cons_self
    rw [List.filterMap_cons_some ht, List.map_cons, Declarations.name_of_type? ht,
      ih fun n hn => h n (List.mem_cons_of_mem _ hn)]

theorem flatMap_ownProperties (d : Declarations) (names : List String) :
    names.flatMap d.ownProperties = (names.filterMap d.type?).flatMap (·.properties) := by
  induction names with
  | nil => rfl
  | cons name names ih =>
    rw [List.flatMap_cons, ih]
    unfold Declarations.ownProperties
    cases ht : d.type? name with
    | none => rw [List.filterMap_cons_none ht]; rfl
    | some t => rw [List.filterMap_cons_some ht, List.flatMap_cons]; rfl

/-- The types of a lineage, each where the lineage has it first. -/
theorem Declarations.Lineage.isAncestry (howner : d.type? owner.name = some owner)
    (h : d.Lineage owner.parents lineage) :
    d.IsAncestry owner (lineage.eraseDups.filterMap d.type?) := by
  have hnames : (lineage.eraseDups.filterMap d.type?).map (·.name) = lineage.eraseDups :=
    map_name_filterMap_type? fun n hn => h.declared (List.mem_eraseDups.1 hn)
  -- the lineage has what the owner takes over, over any number of steps
  have hreach : ∀ n, n ∈ lineage ↔ TransGen d.TakesOver owner.name n := by
    intro n
    rw [h.mem_iff]
    constructor
    · rintro ⟨parent, hparent, hup⟩
      exact .head' ⟨owner, howner, hparent⟩ hup
    · exact exists_parent_of_transGen howner
  constructor
  case nodup =>
    rw [hnames]
    exact nodup_eraseDups lineage
  case mem_iff =>
    intro t
    rw [List.mem_filterMap]
    constructor
    · rintro ⟨n, hn, ht⟩
      obtain rfl : t.name = n := name_of_type? ht
      exact ⟨ht, (hreach _).1 (List.mem_eraseDups.1 hn)⟩
    · rintro ⟨ht, hup⟩
      exact ⟨t.name, List.mem_eraseDups.2 ((hreach _).2 hup), ht⟩
  case inFront =>
    intro before t after horder n hn
    -- the lineage has what a type takes over in front of the type
    have hsplit := hnames
    rw [horder, List.map_append, List.map_cons] at hsplit
    have hgrounded := (h.grounded []).eraseDups
    rw [← hsplit] at hgrounded
    exact (hgrounded.mem_of_append hn).resolve_left List.not_mem_nil
  case depthFirst =>
    exact ⟨lineage, h, hnames⟩

theorem Declarations.IsClosed.of_parents (howner : d.type? owner.name = some owner)
    (h : d.Lineage owner.parents lineage) : d.IsClosed owner.name :=
  (Declarations.Lineage.cons howner h .nil).isClosed

/-- A closed type has no fault. -/
theorem InheritanceFault.not_isClosed {e : SchemaError} (h : InheritanceFault d name e) :
    ¬d.IsClosed name := by
  intro hclosed
  cases h with
  | @circle path hcircle hreach =>
    have hlength := hcircle.length
    obtain ⟨n, hn⟩ := List.exists_mem_of_length_pos (l := path) (by omega)
    exact hclosed.acyclic n (hreach n hn).to_reflTransGen (hcircle.transGen hn)
  | undeclared hreach hstep hnone =>
    obtain ⟨t, ht⟩ := hclosed.declared _ (hreach.tail hstep)
    rw [hnone] at ht
    cases ht

/-- The walk of a type over its ancestors ends in their order, or with a fault. -/
theorem ancestry_or_fault (howner : d.type? owner.name = some owner) :
    (∃ found order, collectAncestors d [owner.name] owner.name owner.parents ⟨[], []⟩ = .ok found ∧
        d.IsClosed owner.name ∧ d.IsAncestry owner order ∧
          found.properties = order.flatMap (·.properties)) ∨
      ∃ e, collectAncestors d [owner.name] owner.name owner.parents ⟨[], []⟩ = .error e ∧
        InheritanceFault d owner.name e := by
  cases hwalk : collectAncestors d [owner.name] owner.name owner.parents ⟨[], []⟩ with
  | ok found =>
    have hsettled : Settled d [owner.name] [] := fun _ hn => nomatch hn
    obtain ⟨lineage, hfound⟩ := collected_of_collectAncestors hsettled hwalk
    refine Or.inl ⟨found, _, rfl, .of_parents howner hfound.isLineage,
      hfound.isLineage.isAncestry howner, ?_⟩
    have hall : lineage.removeAll [] = lineage := List.filter_eq_self.2 fun _ _ => rfl
    rw [hfound.properties, hall, List.nil_append, flatMap_ownProperties]
  | error e =>
    have hleads : Leads d.TakesOver [owner.name] owner.parents := by
      refine ⟨List.nodup_singleton _, List.isChain_singleton _, fun last hlast n hn => ?_⟩
      obtain rfl : owner.name = last := Option.some.inj hlast
      exact ⟨owner, howner, hn⟩
    exact Or.inr ⟨e, rfl, inheritanceFault_of_collectAncestors hleads rfl .refl hwalk⟩

/-- The identifier property that a record type has none of among its properties. -/
def missingIdentifier (options : Options) (owner : TypeDeclaration)
    (properties : List PropertyDeclaration) : List PropertyDeclaration :=
  if owner.kind = .record ∧ ∀ p ∈ properties, p.name ≠ options.identifierProperty then
    [⟨options.identifierProperty, "string", false⟩]
  else []

/-- What is wrong when the first property of a record type that has the name of the identifier is
not a single string. -/
inductive IdentifierFault (options : Options) (owner : TypeDeclaration)
    (properties : List PropertyDeclaration) : SchemaError → Prop where
  | intro {p : PropertyDeclaration} (hkind : owner.kind = .record)
      (hfind : properties.find? (fun p => p.name == options.identifierProperty) = some p)
      (h : p.typeTag ≠ "string" ∨ p.isList = true) : IdentifierFault options owner properties
        (.invalidIdentifier owner.name p.name p.signature)

/-- An identifier property is put in front if it is missing, and nothing else is changed. -/
theorem withIdentifier_cases (options : Options) (owner : TypeDeclaration)
    (properties : List PropertyDeclaration) :
    withIdentifier options owner properties =
        .ok (missingIdentifier options owner properties ++ properties) ∨
      ∃ e, withIdentifier options owner properties = .error e ∧
        IdentifierFault options owner properties e := by
  unfold withIdentifier missingIdentifier
  by_cases hkind : owner.kind = .record
  · rw [if_neg (not_not_intro hkind)]
    cases hfind : properties.find? (fun p => p.name == options.identifierProperty) with
    | none =>
      -- no property has the name of the identifier, so one is put in front
      have hnone : ∀ p ∈ properties, p.name ≠ options.identifierProperty := fun p hp hname =>
        List.find?_eq_none.1 hfind p hp (beq_iff_eq.2 hname)
      rw [if_pos ⟨hkind, hnone⟩]
      exact Or.inl rfl
    | some p =>
      -- one has the name, and it must be a single text
      by_cases hp : p.typeTag ≠ "string" ∨ p.isList = true
      · exact Or.inr ⟨_, if_pos hp, .intro hkind hfind hp⟩
      · have hname := List.find?_some hfind
        have hsome : ¬(owner.kind = .record ∧
            ∀ p ∈ properties, p.name ≠ options.identifierProperty) := fun hall =>
          hall.2 p (List.mem_of_find?_eq_some hfind) (beq_iff_eq.1 hname)
        rw [if_neg hsome]
        exact Or.inl (if_neg hp)
  · rw [if_pos hkind, if_neg fun hall => hkind hall.1]
    exact Or.inl rfl

/-- **The properties of a declared type.**  But for the check of its identifier they are found
exactly if it is closed.  They are those of its ancestors in front of its own, after an identifier
if a record type has none.  If they are not found, something in reach of the type is at fault, or its
identifier is. -/
theorem effectiveProperties_exact (options : Options) (howner : d.type? owner.name = some owner) :
    (d.IsClosed owner.name ↔
        (∃ properties, effectiveProperties d options owner = .ok properties) ∨
          ∃ property signature, effectiveProperties d options owner =
            .error (.invalidIdentifier owner.name property signature)) ∧
      (∀ properties, effectiveProperties d options owner = .ok properties →
        ∃ order, d.IsAncestry owner order ∧
          let own := order.flatMap (·.properties) ++ owner.properties
          properties = missingIdentifier options owner own ++ own) ∧
      ∀ e, effectiveProperties d options owner = .error e →
        InheritanceFault d owner.name e ∨
          ∃ order, d.IsAncestry owner order ∧
            IdentifierFault options owner (order.flatMap (·.properties) ++ owner.properties) e := by
  rcases ancestry_or_fault howner with ⟨found, order, hwalk, hclosed, horder, hfound⟩ |
    ⟨e, hwalk, hfault⟩
  -- the walk ends, and only the identifier can still be at fault
  · have heffective : effectiveProperties d options owner =
        withIdentifier options owner (order.flatMap (·.properties) ++ owner.properties) := by
      unfold effectiveProperties
      rw [hwalk, ← hfound]
    rw [heffective]
    rcases withIdentifier_cases options owner (order.flatMap (·.properties) ++ owner.properties)
      with hok | ⟨e, herror, hfault⟩
    · rw [hok]
      refine ⟨⟨fun _ => Or.inl ⟨_, rfl⟩, fun _ => hclosed⟩, fun properties h => ?_, fun e h => ?_⟩
      · exact ⟨order, horder, (Except.ok.inj h).symm⟩
      · cases h
    · rw [herror]
      refine ⟨⟨fun _ => Or.inr ?_, fun _ => hclosed⟩, fun properties h => ?_, fun e' h => ?_⟩
      · cases hfault with
        | intro => exact ⟨_, _, rfl⟩
      · cases h
      · obtain rfl := Except.error.inj h
        exact Or.inr ⟨order, horder, hfault⟩
  -- the walk fails, so the type is not closed
  · have heffective : effectiveProperties d options owner = .error e := by
      unfold effectiveProperties
      rw [hwalk]
    rw [heffective]
    refine ⟨⟨fun hclosed => absurd hclosed hfault.not_isClosed, ?_⟩, fun properties h => ?_,
      fun e' h => ?_⟩
    · rintro (⟨properties, h⟩ | ⟨property, signature, h⟩)
      · cases h
      · obtain rfl := Except.error.inj h
        cases hfault
    · cases h
    · obtain rfl := Except.error.inj h
      exact Or.inl hfault

/-- A weapon and a treasure. -/
def sword : TypeDeclaration :=
  ⟨"Sword", .record, ["Weapon", "Treasure"], [⟨"label", "string", false⟩]⟩

/-- Two ways up from a sword to a thing. -/
def swordTypes : Declarations where
  types := [
    ⟨"Thing", .struct, [], [⟨"weight", "f32", false⟩]⟩,
    ⟨"Weapon", .struct, ["Thing"], [⟨"damage", "i32", false⟩]⟩,
    ⟨"Treasure", .struct, ["Thing"], [⟨"value", "i32", false⟩]⟩,
    sword]
  enums := []

/-- The weight of a thing comes first, and once. -/
theorem effectiveProperties_sword :
    swordTypes.type? sword.name = some sword ∧ swordTypes.IsClosed sword.name ∧
      ∃ order, swordTypes.IsAncestry sword order ∧
        let own := order.flatMap (·.properties) ++ sword.properties
        (missingIdentifier .standard sword own ++ own).map (·.name) =
          ["Identifier", "weight", "damage", "value", "label"] := by
  have hsword : swordTypes.type? sword.name = some sword := rfl
  have hrun : effectiveProperties swordTypes .standard sword =
      .ok [⟨"Identifier", "string", false⟩, ⟨"weight", "f32", false⟩, ⟨"damage", "i32", false⟩,
        ⟨"value", "i32", false⟩, ⟨"label", "string", false⟩] := by cbv
  obtain ⟨hclosed, hfound, -⟩ := effectiveProperties_exact Options.standard hsword
  obtain ⟨order, horder, hproperties⟩ := hfound _ hrun
  refine ⟨hsword, hclosed.2 (Or.inl ⟨_, hrun⟩), order, horder, ?_⟩
  dsimp only
  rw [← hproperties]
  rfl

end RecordTables.Schema
