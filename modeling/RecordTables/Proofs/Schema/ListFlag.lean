import RecordTables.Proofs.Registry
import RecordTables.Proofs.Schema.Ancestry

/-!
# Turning a property into a list

A declared property belongs to one type, and occurs among the effective properties of this type and
of all that take over from it (`PropertyPlace.OccursIn`).  When it is turned from a single value into
a list, or from a list into a single value, and occurs in its own type alone, then the effective
properties of every other type stay as they are, and those of its type differ in nothing but the list
flag (`PropertyPlace.closures_flipped`).

A walk over ancestors looks up nothing but what can be reached through parents, so it does not see a
change of a type that it does not reach (`collectAncestors_congr`).
-/

namespace RecordTables.Schema

open Relation

variable {d d' : Declarations} {options : Options} {t : TypeDeclaration} {name : String}

/-- The property as a list, if it is a single value, and as a single value, if it is a list. -/
def PropertyDeclaration.flipped (p : PropertyDeclaration) : PropertyDeclaration :=
  { p with isList := !p.isList }

/-- A property among declarations: one of the own properties of one of the types. -/
structure PropertyPlace (d : Declarations) where
  before : List TypeDeclaration
  owner : TypeDeclaration
  after : List TypeDeclaration
  front : List PropertyDeclaration
  property : PropertyDeclaration
  back : List PropertyDeclaration
  types_eq : d.types = before ++ owner :: after
  properties_eq : owner.properties = front ++ property :: back

/-! ### Walks that do not reach a type -/

/-- **A walk over ancestors** is the same under declarations that differ in a type that is not
reached, or that is on the way down already. -/
theorem collectAncestors_congr (hsame : ∀ n, n ≠ name → d'.type? n = d.type? n)
    {path names : List String} {heir : String} {found : Ancestry}
    (hoff : name ∈ path ∨ ∀ parent ∈ names, ¬ReflTransGen d.TakesOver parent name) :
    collectAncestors d' path heir names found = collectAncestors d path heir names found := by
  -- a name that is looked up is not on the path, so it is not the one that was changed
  have hlookUp {path rest : List String} {n : String} (hpath : n ∉ path)
      (hoff : name ∈ path ∨ ∀ parent ∈ n :: rest, ¬ReflTransGen d.TakesOver parent name) :
      d'.type? n = d.type? n := by
    refine hsame n ?_
    rintro rfl
    exact hoff.elim hpath fun hnone => hnone n List.mem_cons_self .refl
  have htail {path rest : List String} {n : String}
      (hoff : name ∈ path ∨ ∀ parent ∈ n :: rest, ¬ReflTransGen d.TakesOver parent name) :
      name ∈ path ∨ ∀ parent ∈ rest, ¬ReflTransGen d.TakesOver parent name :=
    hoff.imp_right fun hnone parent hparent => hnone parent (List.mem_cons_of_mem _ hparent)
  -- what the name takes over does not lead to the changed type either, unless that is on the path
  have habove {path rest : List String} {n : String} {parent : TypeDeclaration}
      (ht : d.type? n = some parent)
      (hoff : name ∈ path ∨ ∀ parent ∈ n :: rest, ¬ReflTransGen d.TakesOver parent name) :
      name ∈ path ++ [n] ∨
        ∀ grandparent ∈ parent.parents, ¬ReflTransGen d.TakesOver grandparent name :=
    hoff.imp (fun hmem => List.mem_append_left _ hmem) fun hnone grandparent hgrandparent hreach =>
      hnone n List.mem_cons_self (.head ⟨parent, ht, hgrandparent⟩ hreach)
  induction path, heir, names, found using collectAncestors.induct (d := d) with
  | case1 path heir found => rw [collectAncestors, collectAncestors]
  | case2 path heir n rest found hpath =>
    have hmem := List.contains_iff_mem.1 hpath
    rw [collectAncestors_onPath hmem, collectAncestors_onPath hmem]
  | case3 path heir n rest found hpath hvisited ih =>
    have hnotMem := mt List.contains_iff_mem.2 hpath
    have hmem := List.contains_iff_mem.1 hvisited
    rw [collectAncestors_visited hnotMem hmem, collectAncestors_visited hnotMem hmem,
      ih (htail hoff)]
  | case4 path heir n rest found hpath hvisited ht =>
    have hnotMem := mt List.contains_iff_mem.2 hpath
    have hnew := mt List.contains_iff_mem.2 hvisited
    rw [collectAncestors_undeclared hnotMem hnew ht,
      collectAncestors_undeclared hnotMem hnew ((hlookUp hnotMem hoff).trans ht)]
  | case5 path heir n rest found hpath hvisited parent ht e herror ih =>
    have hnotMem := mt List.contains_iff_mem.2 hpath
    have hnew := mt List.contains_iff_mem.2 hvisited
    rw [collectAncestors_declared hnotMem hnew ht,
      collectAncestors_declared hnotMem hnew ((hlookUp hnotMem hoff).trans ht),
      ih (habove ht hoff), herror]
    rfl
  | case6 path heir n rest found hpath hvisited parent ht found₁ hfound₁ ihabove ihbeside =>
    have hnotMem := mt List.contains_iff_mem.2 hpath
    have hnew := mt List.contains_iff_mem.2 hvisited
    rw [collectAncestors_declared hnotMem hnew ht,
      collectAncestors_declared hnotMem hnew ((hlookUp hnotMem hoff).trans ht),
      ihabove (habove ht hoff), hfound₁, ok_bind, ok_bind, ihbeside (htail hoff)]

theorem effectiveProperties_congr (hsame : ∀ n, n ≠ name → d'.type? n = d.type? n)
    (ht : d.type? t.name = some t) (hoff : ¬TransGen d.TakesOver t.name name) :
    effectiveProperties d' options t = effectiveProperties d options t := by
  unfold effectiveProperties
  rw [collectAncestors_congr hsame (Or.inr fun parent hparent hreach =>
    hoff (.head' ⟨t, ht, hparent⟩ hreach))]

/-- What is put in front of properties depends on nothing but their names. -/
theorem missingIdentifier_congr {properties properties' : List PropertyDeclaration}
    {owner owner' : TypeDeclaration} (hkind : owner.kind = owner'.kind)
    (hnames : properties.map (·.name) = properties'.map (·.name)) :
    missingIdentifier options owner properties = missingIdentifier options owner' properties' := by
  have hforall (properties : List PropertyDeclaration) :
      (∀ p ∈ properties, p.name ≠ options.identifierProperty) ↔
        ∀ n ∈ properties.map (·.name), n ≠ options.identifierProperty :=
    ⟨fun h n hn => by
      obtain ⟨p, hp, rfl⟩ := List.mem_map.1 hn
      exact h p hp, fun h p hp => h p.name (List.mem_map_of_mem hp)⟩
  unfold missingIdentifier
  simp only [hforall, hkind, hnames]

theorem withIdentifier_eq_ok {owner : TypeDeclaration}
    {properties effective : List PropertyDeclaration}
    (h : withIdentifier options owner properties = .ok effective) :
    effective = missingIdentifier options owner properties ++ properties := by
  rcases withIdentifier_cases options owner properties with hok | ⟨e, herror, -⟩
  · exact Except.ok.inj (h.symm.trans hok)
  · rw [herror] at h
    cases h

/-! ### Flipping a property -/

namespace PropertyPlace

variable (place : PropertyPlace d)

/-- The owner of a property with the property flipped. -/
def flippedOwner : TypeDeclaration :=
  { place.owner with properties := place.front ++ place.property.flipped :: place.back }

/-- The declarations with the property flipped. -/
def flipped : Declarations :=
  { d with types := place.before ++ place.flippedOwner :: place.after }

/-- The property is taken into the effective properties of a type: the type is its owner, or takes
over from its owner. -/
def OccursIn (t : TypeDeclaration) : Prop :=
  t = place.owner ∨ TransGen d.TakesOver t.name place.owner.name

theorem owner_mem : place.owner ∈ d.types := by
  rw [place.types_eq]
  exact List.mem_append_right _ List.mem_cons_self

theorem mem_of_mem_others (ht : t ∈ place.before ++ place.after) : t ∈ d.types := by
  rw [place.types_eq]
  rcases List.mem_append.1 ht with ht | ht
  · exact List.mem_append_left _ ht
  · exact List.mem_append_right _ (List.mem_cons_of_mem _ ht)

/-- A type that a property occurs in has it among its effective properties. -/
theorem OccursIn.mem {place : PropertyPlace d} (h : place.OccursIn t)
    (hnames : (d.types.map (·.name)).Nodup) (ht : t ∈ d.types)
    {effective : List PropertyDeclaration}
    (heffective : effectiveProperties d options t = .ok effective) :
    place.property ∈ effective := by
  have hown : place.property ∈ place.owner.properties := by
    rw [place.properties_eq]
    exact List.mem_append_right _ List.mem_cons_self
  obtain ⟨order, horder, rfl⟩ :=
    (effectiveProperties_exact options (Declarations.type?_of_nodup hnames ht)).2.1 _ heffective
  refine List.mem_append_right _ (List.mem_append.2 ?_)
  rcases h with rfl | hreach
  · exact Or.inr hown
  · have howner := Declarations.type?_of_nodup hnames place.owner_mem
    exact Or.inl (List.mem_flatMap.2 ⟨_, (horder.mem_iff _).2 ⟨howner, hreach⟩, hown⟩)

theorem type?_flipped {n : String} (hn : n ≠ place.owner.name) :
    place.flipped.type? n = d.type? n := by
  have howner : (place.owner.name == n) = false := beq_false_of_ne (Ne.symm hn)
  have hflipped : (place.flippedOwner.name == n) = false := howner
  unfold Declarations.type?
  rw [place.types_eq]
  unfold flipped
  dsimp only
  rw [List.find?_append, List.find?_append, List.find?_cons, List.find?_cons, howner, hflipped]

/-- The effective properties of the owner before and behind the property are those before and behind
the flipped one. -/
theorem effectiveProperties_flippedOwner {effective effective' : List PropertyDeclaration}
    (h : effectiveProperties d options place.owner = .ok effective)
    (h' : effectiveProperties place.flipped options place.flippedOwner = .ok effective') :
    ∃ inFront, effective = inFront ++ place.property :: place.back ∧
      effective' = inFront ++ place.property.flipped :: place.back := by
  -- the name of the owner is on the way down, so the walk meets the change nowhere
  have hwalk : collectAncestors place.flipped [place.flippedOwner.name] place.flippedOwner.name
        place.flippedOwner.parents ⟨[], []⟩ =
      collectAncestors d [place.owner.name] place.owner.name place.owner.parents ⟨[], []⟩ :=
    collectAncestors_congr (fun _ hn => place.type?_flipped hn) (Or.inl (List.mem_singleton_self _))
  unfold effectiveProperties at h h'
  rw [hwalk] at h'
  cases hfound : collectAncestors d [place.owner.name] place.owner.name place.owner.parents
      ⟨[], []⟩ with
  | error e =>
    rw [hfound] at h
    cases h
  | ok found =>
    rw [hfound] at h h'
    dsimp only at h h'
    have hmissing : missingIdentifier options place.flippedOwner
          (found.properties ++ place.flippedOwner.properties) =
        missingIdentifier options place.owner (found.properties ++ place.owner.properties) := by
      refine missingIdentifier_congr rfl ?_
      rw [place.properties_eq]
      simp [flippedOwner, PropertyDeclaration.flipped]
    have heffective := withIdentifier_eq_ok h
    have heffective' := withIdentifier_eq_ok h'
    rw [place.properties_eq] at heffective hmissing
    rw [hmissing] at heffective'
    generalize missingIdentifier options place.owner _ = missing at heffective heffective'
    refine ⟨missing ++ (found.properties ++ place.front), heffective.trans ?_,
      heffective'.trans ?_⟩
    · simp only [List.append_assoc]
    · simp only [flippedOwner, List.append_assoc]

/-- The effective properties of the types in front of one, of the one, and of those behind it. -/
theorem closures_eq_ok_of_append {before after : List TypeDeclaration} {owner : TypeDeclaration}
    (htypes : d.types = before ++ owner :: after)
    {closed : List (TypeDeclaration × List PropertyDeclaration)}
    (h : closures d options = .ok closed) :
    ∃ first effective rest,
      before.mapM (fun t => (effectiveProperties d options t).map (t, ·)) = .ok first ∧
      effectiveProperties d options owner = .ok effective ∧
      after.mapM (fun t => (effectiveProperties d options t).map (t, ·)) = .ok rest ∧
      closed = first ++ (owner, effective) :: rest := by
  unfold closures at h
  rw [htypes, List.mapM_append] at h
  obtain ⟨first, hfirst, h⟩ := bind_eq_ok.1 h
  obtain ⟨others, hothers, h⟩ := bind_eq_ok.1 h
  rw [List.mapM_cons] at hothers
  obtain ⟨c, hc, hothers⟩ := bind_eq_ok.1 hothers
  obtain ⟨effective, heffective, rfl⟩ := map_eq_ok.1 hc
  obtain ⟨rest, hrest, hothers⟩ := bind_eq_ok.1 hothers
  obtain rfl := Except.ok.inj hothers
  exact ⟨first, effective, rest, hfirst, heffective, hrest, (Except.ok.inj h).symm⟩

/-- **A property that occurs in one type** is flipped there, and nothing else is changed. -/
theorem closures_flipped (hnames : (d.types.map (·.name)).Nodup)
    (honly : ∀ t ∈ d.types, place.OccursIn t → t = place.owner)
    {closed closed' : List (TypeDeclaration × List PropertyDeclaration)}
    (h : closures d options = .ok closed) (h' : closures place.flipped options = .ok closed') :
    ∃ first inFront rest,
      closed = first ++ (place.owner, inFront ++ place.property :: place.back) :: rest ∧
      closed' = first ++
        (place.flippedOwner, inFront ++ place.property.flipped :: place.back) :: rest := by
  -- a type that does not take the property over is closed as before
  have hothers : ∀ t ∈ place.before ++ place.after,
      effectiveProperties place.flipped options t = effectiveProperties d options t := by
    intro t ht
    have hmem := place.mem_of_mem_others ht
    have hne : t ≠ place.owner := by
      rw [place.types_eq, List.map_append, List.map_cons] at hnames
      have hnew := (List.nodup_cons.1 (List.nodup_middle.1 hnames)).1
      rw [← List.map_append] at hnew
      rintro rfl
      exact hnew (List.mem_map_of_mem ht)
    refine effectiveProperties_congr (fun _ hn => place.type?_flipped hn)
      (Declarations.type?_of_nodup hnames hmem) fun hreach => hne (honly t hmem (Or.inr hreach))
  have hsame {ts : List TypeDeclaration} (hts : ∀ t ∈ ts, t ∈ place.before ++ place.after) :
      ts.mapM (fun t => (effectiveProperties place.flipped options t).map (t, ·)) =
        ts.mapM fun t => (effectiveProperties d options t).map (t, ·) :=
    mapM_congr fun t ht => by rw [hothers t (hts t ht)]
  -- both closures are split at the owner of the property
  obtain ⟨first, effective, rest, hfirst, hown, hrest, rfl⟩ :=
    closures_eq_ok_of_append place.types_eq h
  obtain ⟨first', effective', rest', hfirst', hown', hrest', rfl⟩ :=
    closures_eq_ok_of_append (d := place.flipped) rfl h'
  rw [hsame fun t ht => List.mem_append_left _ ht, hfirst] at hfirst'
  rw [hsame fun t ht => List.mem_append_right _ ht, hrest] at hrest'
  obtain rfl := Except.ok.inj hfirst'
  obtain rfl := Except.ok.inj hrest'
  obtain ⟨inFront, rfl, rfl⟩ := place.effectiveProperties_flippedOwner hown hown'
  exact ⟨first, inFront, rest, rfl, rfl⟩

end PropertyPlace

end RecordTables.Schema
