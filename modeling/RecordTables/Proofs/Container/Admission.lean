import RecordTables.Proofs.Container.Embedding

/-!
# Values that baking accepts

`Value.Admitted` says of a value that baking accepts it for a property.  Every well-typed value is
admitted (`Value.WellTyped.admitted`), and some others are: the checks of baking are about what is
laid down.  A text and the key of an asset are laid down alike, so either is taken for the other;
numbers, spans of time, instants and components are all laid down as words of a kind
(`Value.MadeOf`), and a single value may have more words than its slots take.  Only the elements of a
list of multi-component values are held to the number of their components.

A step of baking succeeds on all pools or on none.  `Baking.Admits A b Q` says that it succeeds if `A`
holds, and that `Q` holds of what it answers.  For the steps of staging, `A` is that the value is
admitted, and so is `Q`, but for values that go into a row as they are: that they have too few words
is found out only when the slots are filled (`Staged.Takes`).
-/

namespace RecordTables

open Schema

/-! ### Admitted values -/

/-- A value is laid down as `n` words of a kind. -/
inductive Value.MadeOf (kind : ScalarKind) : (n : Nat) → Value → Prop where
  | scalar {s : Scalar} (h : s.kind = kind) : MadeOf kind 1 (.scalar s)
  | duration (ms : Int64) (h : kind = .i64) : MadeOf kind 1 (.duration ms)
  | dateTime (ms : Int64) (h : kind = .i64) : MadeOf kind 1 (.dateTime ms)
  | composite {components : List Scalar} (h : ∀ s ∈ components, s.kind = kind) :
      MadeOf kind components.length (.composite components)

namespace Schema.ValueType

/-- The value is laid down as a text. -/
inductive IsText : ValueType → Prop where
  | string : IsText .string
  | localizedText : IsText .localizedText
  | asset : IsText .asset

/-- The kind of the words that the value is laid down as. -/
def wordKind? : ValueType → Option ScalarKind
  | .scalar kind => some kind
  | .time _ => some .i64
  | .composite shape => some shape.componentKind
  | _ => none

/-- How many words a single value takes. -/
def wordCount : ValueType → Nat
  | .composite shape => shape.arity
  | _ => 1

end Schema.ValueType

/-- A value is one that baking accepts for the shape. -/
inductive Value.Admitted (r : Registry) (c : Catalog) : Shape → Value → Prop where
  | text {vt : ValueType} (hvt : vt.IsText) (s : String) : Admitted r c (.single vt) (.text s)
  | asset {vt : ValueType} (hvt : vt.IsText) (key : Option String) :
      Admitted r c (.single vt) (.asset key)
  | enum {name member : String} {e : EnumDeclaration} (he : r.enum? name = some e)
      (hmember : member ∈ e.members.map (·.name)) : Admitted r c (.single (.enum name)) (.enum member)
  /-- Words that are left over are dropped. -/
  | words {vt : ValueType} {kind : ScalarKind} {n : Nat} {v : Value} (hvt : vt.wordKind? = some kind)
      (h : v.MadeOf kind n) (hn : vt.wordCount ≤ n) : Admitted r c (.single vt) v
  | noRef (target : String) : Admitted r c (.single (.recordRef target)) (.ref none)
  | ref {target : String} {record : Record} (h : record ∈ (c.setOf target).records) :
      Admitted r c (.single (.recordRef target)) (.ref (some record.guid))
  | noStruct (target : String) : Admitted r c (.single (.embedded target)) .noStruct
  | struct {target : String} {t : ResolvedType} {fields : List (String × Value)}
      (ht : r.type? target = some t)
      (h : ∀ p ∈ t.properties, ∀ v, field? fields p.name = some v → Admitted r c p.shape v) :
      Admitted r c (.single (.embedded target)) (.struct fields)
  | list {vt : ValueType} {items : List Value} (hvt : vt.wordKind? = none)
      (h : ∀ item ∈ items, Admitted r c (.single vt) item) : Admitted r c (.list vt) (.list items)
  /-- The words of the elements are laid down one behind the other; only the elements of a list of
  multi-component values are counted. -/
  | wordList {vt : ValueType} {kind : ScalarKind} {items : List Value}
      (hvt : vt.wordKind? = some kind)
      (h : ∀ item ∈ items, ∃ n, item.MadeOf kind n ∧
        ∀ shape, vt = .composite shape → n = shape.arity) : Admitted r c (.list vt) (.list items)

/-- The stored values of a record of a type are admitted.  Values that no property names do not
matter, and neither do those under the name of the identifier. -/
def Record.Admitted (r : Registry) (c : Catalog) (t : ResolvedType) (record : Record) : Prop :=
  ∀ p ∈ t.valueProperties, ∀ v, record.values.find? p.name = some v → v.Admitted r c p.shape

/-- The stored values of all records are admitted. -/
def Catalog.Admitted (r : Registry) (c : Catalog) : Prop :=
  ∀ t ∈ r.recordTypes, ∀ record ∈ (c.setOf t.name).records, record.Admitted r c t

namespace Value

variable {r : Registry} {c : Catalog} {v : Value} {vt : ValueType} {kind : ScalarKind}

theorem WellTyped.madeOf (h : v.WellTyped r c (.single vt)) (hvt : vt.wordKind? = some kind) :
    v.MadeOf kind vt.wordCount := by
  cases h with
  | scalar s => exact .scalar (Option.some.inj hvt)
  | duration ms => exact .duration ms (Option.some.inj hvt).symm
  | dateTime ms => exact .dateTime ms (Option.some.inj hvt).symm
  | @composite shape components hlength hkind =>
    rw [show ValueType.wordCount (.composite shape) = components.length from hlength.symm,
      ← Option.some.inj hvt]
    exact .composite hkind
  | _ => cases hvt

/-- **What is well typed is admitted.** -/
theorem WellTyped.admitted {shape : Shape} (h : v.WellTyped r c shape) : v.Admitted r c shape := by
  induction h with
  | string s => exact .text .string s
  | localizedText s => exact .text .localizedText s
  | asset key => exact .asset .asset key
  | enum he hmember => exact .enum he hmember
  | scalar s => exact .words rfl (WellTyped.madeOf (.scalar (r := r) (c := c) s) rfl) (Nat.le_refl _)
  | duration ms => exact .words rfl (.duration ms rfl) (Nat.le_refl 1)
  | dateTime ms => exact .words rfl (.dateTime ms rfl) (Nat.le_refl 1)
  | composite hlength hkind => exact .words rfl (.composite hkind) hlength.ge
  | noRef target => exact .noRef target
  | ref h => exact .ref h
  | noStruct target => exact .noStruct target
  | struct ht _ ih => exact .struct ht ih
  | @list vt items h ih =>
    cases hkind : vt.wordKind? with
    | none => exact .list hkind ih
    | some kind =>
      refine .wordList hkind fun item hitem => ⟨_, (h item hitem).madeOf hkind, ?_⟩
      rintro shape rfl
      rfl

theorem admitted_list_iff (hvt : vt.wordKind? = none) : v.Admitted r c (.list vt) ↔
    ∃ items, v = .list items ∧ ∀ item ∈ items, item.Admitted r c (.single vt) := by
  constructor
  · intro h
    cases h with
    | @list _ items _ h => exact ⟨items, rfl, h⟩
    | wordList hkind _ => exact nomatch hvt.symm.trans hkind
  · rintro ⟨items, rfl, h⟩
    exact .list hvt h

theorem admitted_wordList_iff (hvt : vt.wordKind? = some kind) : v.Admitted r c (.list vt) ↔
    ∃ items, v = .list items ∧ ∀ item ∈ items, ∃ n, item.MadeOf kind n ∧
      ∀ shape, vt = .composite shape → n = shape.arity := by
  constructor
  · intro h
    cases h with
    | list hkind _ => exact nomatch hvt.symm.trans hkind
    | @wordList _ _ items hkind h =>
      obtain rfl := Option.some.inj (hvt.symm.trans hkind)
      exact ⟨items, rfl, h⟩
  · rintro ⟨items, rfl, h⟩
    exact .wordList hvt h

/-- The words of the elements of a list are not counted, unless they are components. -/
theorem admitted_uncounted_iff (hvt : vt.wordKind? = some kind)
    (hcount : ∀ shape, vt ≠ .composite shape) : v.Admitted r c (.list vt) ↔
      ∃ items, v = .list items ∧ ∀ item ∈ items, ∃ n, item.MadeOf kind n := by
  rw [admitted_wordList_iff hvt]
  simp only [hcount, false_implies, implies_true, and_true]

theorem admitted_composites_iff {shape : CompositeShape} :
    v.Admitted r c (.list (.composite shape)) ↔ ∃ items, v = .list items ∧
      ∀ item ∈ items, item.MadeOf shape.componentKind shape.arity := by
  rw [admitted_wordList_iff rfl]
  refine exists_congr fun items => and_congr_right' (forall₂_congr fun item _ => ?_)
  constructor
  · rintro ⟨n, h, hn⟩
    exact hn shape rfl ▸ h
  · intro h
    refine ⟨_, h, ?_⟩
    rintro _ ⟨⟩
    rfl

theorem admitted_words_iff (hvt : vt.wordKind? = some kind) : v.Admitted r c (.single vt) ↔
    ∃ n, v.MadeOf kind n ∧ vt.wordCount ≤ n := by
  constructor
  · intro h
    cases h with
    | @words _ _ n _ hkind h hn =>
      obtain rfl := Option.some.inj (hvt.symm.trans hkind)
      exact ⟨n, h, hn⟩
    | text htext _ | asset htext _ => cases htext <;> cases hvt
    | _ => cases hvt
  · rintro ⟨n, h, hn⟩
    exact .words hvt h hn

theorem admitted_ref_iff {target : String} : v.Admitted r c (.single (.recordRef target)) ↔
    v = .ref none ∨ ∃ record ∈ (c.setOf target).records, v = .ref (some record.guid) := by
  constructor
  · intro h
    cases h with
    | noRef => exact Or.inl rfl
    | ref h => exact Or.inr ⟨_, h, rfl⟩
    | words hkind _ _ => cases hkind
    | text htext _ | asset htext _ => cases htext
  · rintro (rfl | ⟨record, h, rfl⟩)
    · exact .noRef target
    · exact .ref h

theorem Admitted.eq_struct {target : String} (h : v.Admitted r c (.single (.embedded target))) :
    v = .noStruct ∨ ∃ fields, v = .struct fields := by
  cases h with
  | noStruct => exact Or.inl rfl
  | struct => exact Or.inr ⟨_, rfl⟩
  | words hkind _ _ => cases hkind
  | text htext _ | asset htext _ => cases htext

theorem Admitted.eq_enum {name : String} (h : v.Admitted r c (.single (.enum name))) :
    ∃ e member, r.enum? name = some e ∧ member ∈ e.members.map (·.name) ∧ v = .enum member := by
  cases h with
  | enum he hmember => exact ⟨_, _, he, hmember, rfl⟩
  | words hkind _ _ => cases hkind
  | text htext _ | asset htext _ => cases htext

/-! #### Patterns for no number -/

theorem MadeOf.of_quieted {n : Nat} {v' : Value} (h : v.MadeOf kind n) (hv : v'.quieted = v.quieted) :
    v'.MadeOf kind n := by
  cases h with
  | @scalar s hs =>
    cases v' with
    | scalar s' =>
      refine .scalar ?_
      rw [← Scalar.kind_quieted, Value.scalar.inj hv, Scalar.kind_quieted, hs]
    | _ => cases hv
  | duration ms hkind =>
    cases v' with
    | duration ms' => exact .duration ms' hkind
    | _ => cases hv
  | dateTime ms hkind =>
    cases v' with
    | dateTime ms' => exact .dateTime ms' hkind
    | _ => cases hv
  | @composite components hall =>
    cases v' with
    | composite components' =>
      -- as many components are left, and of the same kinds
      have hsame : components'.map Scalar.quieted = components.map Scalar.quieted :=
        Value.composite.inj hv
      have hlength : components.length = components'.length := by
        rw [← List.length_map (f := Scalar.quieted), ← hsame, List.length_map]
      rw [hlength]
      refine .composite fun s hs => ?_
      obtain ⟨s', hs', heq⟩ := List.mem_map.1 (hsame ▸ List.mem_map_of_mem hs)
      rw [← Scalar.kind_quieted, ← heq, Scalar.kind_quieted, hall s' hs']
    | _ => cases hv

theorem exists_items_of_quieted {items : List Value} (hv : v.quieted = (Value.list items).quieted) :
    ∃ items', v = .list items' ∧ ∀ item' ∈ items', ∃ item ∈ items, item'.quieted = item.quieted := by
  cases v with
  | list items' =>
    refine ⟨items', rfl, fun item' hitem' => ?_⟩
    have hsame := Value.list.inj hv
    rw [quietedItems_eq_map, quietedItems_eq_map] at hsame
    obtain ⟨item, hitem, heq⟩ := List.mem_map.1 (hsame ▸ List.mem_map_of_mem hitem')
    exact ⟨item, hitem, heq.symm⟩
  | _ => cases hv

/-- **Which pattern stands for no number** does not matter to baking. -/
theorem Admitted.of_quieted {shape : Shape} {v' : Value} (h : v.Admitted r c shape)
    (hv : v'.quieted = v.quieted) : v'.Admitted r c shape := by
  induction h generalizing v' with
  | text hvt s =>
    cases v' with
    | text s' => exact .text hvt s'
    | _ => cases hv
  | asset hvt key =>
    cases v' with
    | asset key' => exact .asset hvt key'
    | _ => cases hv
  | enum he hmember =>
    cases v' with
    | enum member' => exact .enum he (Value.enum.inj hv ▸ hmember)
    | _ => cases hv
  | words hvt hwords hn => exact .words hvt (hwords.of_quieted hv) hn
  | noRef target =>
    cases v' with
    | ref guid => exact Value.ref.inj hv ▸ .noRef target
    | _ => cases hv
  | ref hrecord =>
    cases v' with
    | ref guid => exact Value.ref.inj hv ▸ .ref hrecord
    | _ => cases hv
  | noStruct target =>
    cases v' with
    | noStruct => exact .noStruct target
    | _ => cases hv
  | @struct target t fields ht _ ih =>
    cases v' with
    | struct fields' =>
      have hsame : quietedFields fields' = quietedFields fields := Value.struct.inj hv
      -- a field is looked up by its name, which quieting leaves
      refine .struct ht fun p hp w' hw' => ?_
      have hfound := congrArg (field? · p.name) hsame
      rw [field?_quietedFields, field?_quietedFields, hw'] at hfound
      obtain ⟨w, hw, heq⟩ := Option.map_eq_some_iff.1 hfound.symm
      exact ih p hp w hw heq.symm
    | _ => cases hv
  | list hvt _ ih =>
    obtain ⟨items', rfl, hall⟩ := exists_items_of_quieted hv
    refine .list hvt fun item' hitem' => ?_
    obtain ⟨item, hitem, heq⟩ := hall item' hitem'
    exact ih item hitem heq
  | wordList hvt hwords =>
    obtain ⟨items', rfl, hall⟩ := exists_items_of_quieted hv
    refine .wordList hvt fun item' hitem' => ?_
    obtain ⟨item, hitem, heq⟩ := hall item' hitem'
    obtain ⟨n, hmade, hcount⟩ := hwords item hitem
    exact ⟨n, hmade.of_quieted heq, hcount⟩

end Value

/-- A record is admitted if a record is that differs from it in patterns for no number only. -/
theorem Record.Admitted.of_quieted {r : Registry} {c : Catalog} {t : ResolvedType}
    {record record' : Record} (h : record.Admitted r c t) (hsame : record'.quieted = record.quieted) :
    record'.Admitted r c t := by
  intro p hp v' hv'
  have hfound : (record'.values.map Value.quieted).find? p.name =
      (record.values.map Value.quieted).find? p.name :=
    congrArg (fun x : Record => x.values.find? p.name) hsame
  rw [NameMap.find?_map, NameMap.find?_map, hv'] at hfound
  obtain ⟨v, hv, heq⟩ := Option.map_eq_some_iff.1 hfound.symm
  exact (h p hp v hv).of_quieted heq.symm

namespace Container

/-! ### Steps that succeed on all pools or on none -/

namespace Baking

variable {α β : Type} {A B : Prop} {Q : α → Prop} {R : β → Prop} {b : Baking α}

/-- The step succeeds on all pools if `A` holds, and `Q` holds of what it answers. -/
structure Admits (A : Prop) (b : Baking α) (Q : α → Prop) : Prop where
  succeeds : A → ∀ p, ∃ x p', b.run p = .ok (x, p')
  ensures : Ensures (fun _ => True) b Q

theorem Admits.mono {Q' : α → Prop} (h : Admits A b Q) (hA : B → A) (hQ : ∀ x, Q x → Q' x) :
    Admits B b Q' :=
  ⟨fun hB => h.succeeds (hA hB), h.ensures.mono hQ⟩

theorem admits_pure {x : α} (h : Q x) : Admits A (pure x) Q :=
  ⟨fun _ p => ⟨x, p, rfl⟩, ensures_pure h⟩

theorem admits_throw (h : ¬A) (e : ContainerError) : Admits A (throw e) Q :=
  ⟨fun hA => absurd hA h, ensures_throw e⟩

theorem admits_fail (h : ¬A) (place : Place) (cause : BakeMismatch) :
    Admits A (place.fail cause) Q :=
  admits_throw h _

theorem admits_modifyGet {f : Pools → α × Pools} (h : ∀ p, Q (f p).1) :
    Admits A (modifyGet f) Q :=
  ⟨fun _ p => ⟨(f p).1, (f p).2, rfl⟩, ensures_modifyGet fun p _ => ⟨trivial, h p⟩⟩

theorem Admits.bind {next : α → Baking β} (h : Admits A b Q)
    (hnext : ∀ x, Q x → Admits A (next x) R) : Admits A (b >>= next) R := by
  refine ⟨fun hA p => ?_, h.ensures.bind fun x hx => (hnext x hx).ensures⟩
  obtain ⟨x, p', hrun⟩ := h.succeeds hA p
  obtain ⟨-, hx⟩ := h.ensures p x p' hrun trivial
  obtain ⟨y, p'', hrest⟩ := (hnext x hx).succeeds hA p'
  exact ⟨y, p'', by rw [StateT.run_bind]; exact bind_eq_ok.2 ⟨_, hrun, hrest⟩⟩

theorem Admits.map {f : α → β} (h : Admits A b Q) (hf : ∀ x, Q x → R (f x)) :
    Admits A (f <$> b) R := by
  rw [map_eq_pure_bind]
  exact h.bind fun x hx => admits_pure (hf x hx)

/-- Going through a list succeeds if every element does. -/
theorem admits_mapM {A : α → Prop} {f : α → Baking β} {S : α → β → Prop} {xs : List α}
    (h : ∀ x ∈ xs, Admits (A x) (f x) (S x)) :
    Admits (∀ x ∈ xs, A x) (xs.mapM f) (List.Forall₂ S xs) := by
  induction xs with
  | nil => exact admits_pure .nil
  | cons x xs ih =>
    rw [List.mapM_cons]
    have hrest := ih fun x' hx' => h x' (List.mem_cons_of_mem _ hx')
    refine ((h x List.mem_cons_self).mono (fun hall => hall x List.mem_cons_self)
      fun _ hy => hy).bind fun y hy => ?_
    refine (hrest.mono (fun hall x' hx' => hall x' (List.mem_cons_of_mem _ hx'))
      fun _ hys => hys).bind fun ys hys => ?_
    exact admits_pure (.cons hy hys)

theorem admits_of_except {x : Except ContainerError α} {a : α} (h : x = .ok a) :
    Admits A (liftM x) fun y => y = a := by
  subst h
  exact admits_pure rfl

end Baking

open Baking

/-! ### Staging elements -/

section Elements

variable {r : Registry} {c : Catalog} {place : Place} {v : Value} {vt : ValueType}

theorem admits_text (hvt : vt.IsText) : Admits (v.Admitted r c (.single vt)) (stageText place v)
    fun _ => v.Admitted r c (.single vt) := by
  cases v with
  | text s => exact admits_modifyGet fun _ => .text hvt s
  | asset key =>
    cases key with
    | none => exact admits_pure (.asset hvt none)
    | some s => exact admits_modifyGet fun _ => .asset hvt (some s)
  | _ =>
    refine admits_fail (fun h => ?_) _ _
    cases h with
    | words hkind _ _ => cases hvt <;> cases hkind
    | _ => cases hvt

/-- The words of a value. -/
theorem scalarsOf?_eq_some_iff {kind : ScalarKind} {n : Nat} :
    (∃ ss, scalarsOf? kind v = some ss ∧ ss.length = n) ↔ v.MadeOf kind n := by
  constructor
  -- what can be taken apart is made of words
  · rintro ⟨ss, h, rfl⟩
    unfold scalarsOf? at h
    split at h
    · split_ifs at h with hkind
      obtain rfl := Option.some.inj h
      exact .scalar hkind
    · split_ifs at h with hkind
      obtain rfl := Option.some.inj h
      exact .duration _ hkind
    · split_ifs at h with hkind
      obtain rfl := Option.some.inj h
      exact .dateTime _ hkind
    · split_ifs at h with hkind
      obtain rfl := Option.some.inj h
      exact .composite fun s hs => beq_iff_eq.1 (List.all_eq_true.1 hkind s hs)
    · cases h
  -- what is made of words can be taken apart
  · intro h
    cases h with
    | @scalar s hkind => exact ⟨[s], if_pos hkind, rfl⟩
    | duration ms hkind => exact ⟨[.i64 ms], if_pos hkind, rfl⟩
    | dateTime ms hkind => exact ⟨[.i64 ms], if_pos hkind, rfl⟩
    | @composite components hkind =>
      refine ⟨components, if_pos (List.all_eq_true.2 fun s hs => ?_), rfl⟩
      exact beq_iff_eq.2 (hkind s hs)

theorem admits_scalars (kind : ScalarKind) (what : String) :
    Admits (∃ n, v.MadeOf kind n) (stageScalars place kind what v) fun ss =>
      v.MadeOf kind ss.length ∧ ∀ s ∈ ss, s.kind = kind := by
  unfold stageScalars
  split
  · next ss hss =>
    exact admits_pure ⟨scalarsOf?_eq_some_iff.1 ⟨ss, hss, rfl⟩, kind_of_scalarsOf? hss⟩
  · next hnone =>
    refine admits_fail ?_ _ _
    rintro ⟨n, h⟩
    obtain ⟨ss, hss, -⟩ := scalarsOf?_eq_some_iff.2 h
    exact nomatch hnone.symm.trans hss

theorem admits_components (shape : CompositeShape) :
    Admits (v.MadeOf shape.componentKind shape.arity) (stageComponents place shape v) fun _ =>
      v.MadeOf shape.componentKind shape.arity := by
  unfold stageComponents
  split
  · next cs hcs =>
    obtain ⟨hsome, hlength⟩ := Option.filter_eq_some_iff.1 hcs
    exact admits_pure (scalarsOf?_eq_some_iff.1 ⟨cs, hsome, beq_iff_eq.1 hlength⟩)
  · next hnone =>
    refine admits_fail (fun h => ?_) _ _
    obtain ⟨cs, hcs, hlength⟩ := scalarsOf?_eq_some_iff.2 h
    rw [hcs, Option.filter_some, if_pos (beq_iff_eq.2 hlength)] at hnone
    cases hnone

theorem admits_member (hr : r.IsSound) {name : String} :
    Admits (v.Admitted r c (.single (.enum name)))
      (stageMember (.ofCatalog r c) place name (PropertyPlan.enumRepr r.declarations name) v)
      fun s => v.Admitted r c (.single (.enum name)) ∧
        s.kind = PropertyPlan.enumRepr r.declarations name := by
  by_cases h : v.WellTyped r c (.single (.enum name))
  · -- a member that is declared has a number of the kind
    obtain ⟨s, hstage, hkind, -⟩ := @stageMember_eq _ _ place _ hr (.ofCatalog r c) rfl _ h
    rw [hstage]
    exact admits_pure ⟨h.admitted, hkind⟩
  · have hno : ¬v.Admitted r c (.single (.enum name)) := by
      intro hadmitted
      obtain ⟨e, member, he, hmember, rfl⟩ := hadmitted.eq_enum
      exact h (.enum he hmember)
    unfold stageMember
    split
    · next member =>
      split
      · next s hs =>
        -- a member that has a number is declared
        refine absurd ?_ h
        obtain ⟨n, hn, -⟩ := Option.bind_eq_some_iff.1 hs
        obtain ⟨e, he, hvalue⟩ := Option.bind_eq_some_iff.1 hn
        obtain ⟨m, hm, -⟩ := Option.map_eq_some_iff.1 hvalue
        have hname := List.find?_some hm
        refine .enum he (List.mem_map.2 ⟨m, List.mem_of_find?_eq_some hm, beq_iff_eq.1 hname⟩)
      · exact admits_fail hno _ _
    · exact admits_fail hno _ _

/-- A row that is found for a GUID is that of a record that has it. -/
theorem exists_of_rowOfGuid? {records : List Record} {guid : Guid} {row : UInt32}
    (h : rowOfGuid? records guid = some row) : ∃ record ∈ records, record.guid = guid := by
  obtain ⟨e, he, -⟩ := Option.map_eq_some_iff.1 h
  have hmem := List.mem_reverse.1 (List.mem_of_find?_eq_some he)
  have hguid := List.find?_some he
  exact ⟨e.1, List.mem_of_getElem? (List.mem_zipIdx_iff_getElem?.1 hmem), beq_iff_eq.1 hguid⟩

/-- The row of a reference is found if and only if there is a record. -/
theorem exists_row?_iff (hr : r.IsSound) {target : String} {guid : Guid}
    (hdeclared : (ValueType.recordRef target).IsDeclared r.declarations) :
    (∃ row, (BakeSource.ofCatalog r c).row? target guid = some row) ↔
      ∃ record ∈ (c.setOf target).records, record.guid = guid := by
  obtain ⟨t, ht, rfl⟩ := hr.exists_recordType hdeclared
  rw [row?_ofCatalog ht]
  constructor
  · rintro ⟨row, h⟩
    obtain ⟨record, hmem, hguid⟩ := exists_of_rowOfGuid? h
    exact ⟨record, (rowOrder_perm c t.name).mem_iff.1 hmem, hguid⟩
  · rintro ⟨record, hmem, rfl⟩
    obtain ⟨n, -, h, -⟩ := exists_rowOfGuid? ((rowOrder_perm c t.name).mem_iff.2 hmem)
    exact ⟨_, h⟩

theorem admits_reference (hr : r.IsSound) {target : String}
    (hdeclared : (ValueType.recordRef target).IsDeclared r.declarations) :
    Admits (v.Admitted r c (.single (.recordRef target)))
      (stageReference (.ofCatalog r c) place target v)
      fun _ => v.Admitted r c (.single (.recordRef target)) := by
  cases v with
  | ref guid =>
    cases guid with
    | none => exact admits_pure (.noRef target)
    | some guid =>
      have hrow : (∃ row, (BakeSource.ofCatalog r c).row? target guid = some row) ↔ _ :=
        exists_row?_iff hr hdeclared
      unfold stageReference
      dsimp only
      split
      · next row hfound =>
        -- a row that is found is that of a record with the GUID
        obtain ⟨record, hmem, rfl⟩ := hrow.1 ⟨row, hfound⟩
        exact admits_pure (.ref hmem)
      · next hnone =>
        -- no row is found, so there is no such record
        refine admits_throw (fun h => ?_) _
        obtain h | ⟨record, hmem, h⟩ := Value.admitted_ref_iff.1 h
        all_goals cases h
        obtain ⟨row, hfound⟩ := hrow.2 ⟨record, hmem, rfl⟩
        exact nomatch hnone.symm.trans hfound
  | _ =>
    refine admits_fail (fun h => ?_) _ _
    obtain h | ⟨record, -, h⟩ := Value.admitted_ref_iff.1 h
    all_goals cases h

/-- Sub-structures up to a depth are embedded if they are admitted. -/
def EmbedsAdmitted (r : Registry) (c : Catalog)
    (embed : String → List (String × Value) → Baking UInt32) (depth : Nat) : Prop :=
  ∀ target fields, (ValueType.embedded target).IsDeclared r.declarations →
    (Value.struct fields).depth ≤ depth →
    Admits ((Value.struct fields).Admitted r c (.single (.embedded target))) (embed target fields)
      fun _ => (Value.struct fields).Admitted r c (.single (.embedded target))

theorem admits_struct {embed : String → List (String × Value) → Baking UInt32} {depth : Nat}
    (hembed : EmbedsAdmitted r c embed depth) {target : String}
    (hdeclared : (ValueType.embedded target).IsDeclared r.declarations)
    (hdepth : ∀ w ∈ elementsOf v, w.depth ≤ depth) :
    Admits (v.Admitted r c (.single (.embedded target))) (stageStruct embed place target v)
      fun _ => v.Admitted r c (.single (.embedded target)) := by
  cases v with
  | noStruct => exact admits_pure (.noStruct target)
  | struct fields => exact hembed target fields hdeclared (hdepth _ (List.mem_singleton_self _))
  | _ =>
    refine admits_fail (fun h => ?_) _ _
    obtain h | ⟨fields, h⟩ := h.eq_struct
    all_goals cases h

end Elements

/-! ### Staging the value of a property -/

/-- There are bytes for the first `n` slots. -/
def Staged.Covers (n : Nat) (staged : Staged) : Prop :=
  ∀ j < n, ∃ bytes, staged.slotBytes? j = some bytes

/-- What is staged fills the slots of the fields if `A` holds, and otherwise does not. -/
structure Staged.Takes (fields : List Field) (A : Prop) (staged : Staged) : Prop where
  fills : A → staged.Fills fields
  of_covers : staged.Covers fields.length → A

section Stage

variable {r : Registry} {c : Catalog} {place : Place} {v : Value} {vt : ValueType}
  {fields : List Field} {src : BakeSource} {A : Prop}
  {embed : String → List (String × Value) → Baking UInt32}

theorem covers_scalars (ss : List Scalar) (n : Nat) : (Staged.scalars ss).Covers n ↔ n ≤ ss.length := by
  constructor
  · intro h
    by_contra hlt
    obtain ⟨bytes, hbytes⟩ := h ss.length (by omega)
    have hnone : (Staged.scalars ss).slotBytes? ss.length = none :=
      congrArg (Option.map Scalar.bytes) (List.getElem?_eq_none (Nat.le_refl _))
    exact nomatch hnone.symm.trans hbytes
  · intro hle j hj
    have hlt : j < ss.length := by omega
    exact ⟨_, congrArg (Option.map Scalar.bytes) (List.getElem?_eq_getElem hlt)⟩

/-- A value that goes into a row as it is must have a word for every slot. -/
theorem admits_inline {kind : ScalarKind} {what : String}
    (hwidth : ∀ f ∈ fields, f.slotWidth = kind.width)
    (hA : A ↔ ∃ n, v.MadeOf kind n ∧ fields.length ≤ n) :
    Admits A (Staged.scalars <$> stageScalars place kind what v) (Staged.Takes fields A) := by
  refine ((admits_scalars kind what).mono (fun h => ?_) fun _ h => h).map ?_
  · obtain ⟨n, h, -⟩ := hA.1 h
    exact ⟨n, h⟩
  · rintro ss ⟨hmade, hkind⟩
    have hstaged : (Staged.scalars ss).HasKind kind := hkind
    refine ⟨fun h => (hstaged.fits hwidth).fills ?_, fun h => ?_⟩
    · -- a value is laid down as one number of words only
      obtain ⟨n, hn, hle⟩ := hA.1 h
      obtain ⟨ss', hss', rfl⟩ := scalarsOf?_eq_some_iff.2 hn
      obtain ⟨ss'', hss'', hlength⟩ := scalarsOf?_eq_some_iff.2 hmade
      obtain rfl := Option.some.inj (hss'.symm.trans hss'')
      exact (covers_scalars ss _).2 (hlength ▸ hle)
    · exact hA.2 ⟨_, hmade, (covers_scalars ss _).1 h⟩

/-- A value that is laid down elsewhere fills every slot with a number. -/
theorem admits_index {b : Baking UInt32} (hwidth : ∀ f ∈ fields, f.slotWidth = indexWidth)
    (h : Admits A b fun _ => A) : Admits A (Staged.index <$> b) (Staged.Takes fields A) :=
  h.map fun i hA => ⟨fun _ => fills_index hwidth i, fun _ => hA⟩

/-- A list is staged if each of its elements is. -/
theorem admits_items {β : Type} {B : Value → Prop} {k : Value → Baking β}
    {next : List β → Baking Staged} (hA : A ↔ ∃ items, v = .list items ∧ ∀ item ∈ items, B item)
    (h : ∀ item ∈ elementsOf v, Admits (B item) (k item) fun _ => B item)
    (hnext : ∀ ys, Admits A (next ys) (·.Fills fields)) :
    Admits A (itemsOf place v >>= fun items => items.mapM k >>= next) (Staged.Takes fields A) := by
  cases v with
  | list items =>
    have hall : A ↔ ∀ item ∈ items, B item := by
      rw [hA]
      refine ⟨?_, fun h => ⟨items, rfl, h⟩⟩
      rintro ⟨items', hsame, h⟩
      cases hsame
      exact h
    refine Admits.bind (admits_pure (Q := fun items' => items' = items) rfl) ?_
    rintro _ rfl
    refine ((admits_mapM h).mono hall.1 fun _ h => h).bind fun ys hys => ?_
    have hheld : A := hall.2 fun item hitem => by
      obtain ⟨y, -, hy⟩ := exists_mem_zip hys hitem
      exact hy
    exact (hnext ys).mono id fun staged hfills => ⟨fun _ => hfills, fun _ => hheld⟩
  | _ =>
    -- any other value is refused before its elements are looked at
    have hno : ¬A := by
      rw [hA]
      rintro ⟨items, hsame, -⟩
      cases hsame
    refine Admits.bind (Q := fun _ => False) ?_ fun _ h => h.elim
    exact admits_fail hno _ _

theorem admits_addIndices (hwidth : ∀ f ∈ fields, f.slotWidth = indexWidth) (is : List UInt32) :
    Admits A (Staged.index <$> modifyGet (·.addIndices is)) (·.Fills fields) :=
  (admits_modifyGet (Q := fun _ => True) fun _ => trivial).map fun i _ => fills_index hwidth i

theorem admits_addScalars (hwidth : ∀ f ∈ fields, f.slotWidth = indexWidth) (kind : ScalarKind)
    (ss : List Scalar) :
    Admits A (Staged.index <$> modifyGet (·.addScalars kind ss)) (·.Fills fields) :=
  (admits_modifyGet (Q := fun _ => True) fun _ => trivial).map fun i _ => fills_index hwidth i

/-- A single value. -/
theorem admits_stage_single (hr : r.IsSound) {depth : Nat} (hembed : EmbedsAdmitted r c embed depth)
    (hdeclared : vt.IsDeclared r.declarations) (hdepth : ∀ w ∈ elementsOf v, w.depth ≤ depth)
    {table name : String} :
    Admits (v.Admitted r c (.single vt))
      (stage (.ofCatalog r c) embed place (.ofProperty r.declarations table ⟨name, .single vt⟩) v)
      (Staged.Takes (PropertyPlan.ofProperty r.declarations table ⟨name, .single vt⟩).fields
        (v.Admitted r c (.single vt))) := by
  have hwidth : ∀ f ∈ (PropertyPlan.ofProperty r.declarations table ⟨name, .single vt⟩).fields, _ :=
    fun f hf => slotWidth_of_mem_fields hf
  cases vt with
  | string | localizedText | asset => exact admits_index hwidth (admits_text (by constructor))
  | enum e =>
    refine Admits.bind (admits_member hr) ?_
    rintro s ⟨hadmitted, hkind⟩
    refine admits_pure ⟨fun _ => fills_scalars rfl hwidth ?_, fun _ => hadmitted⟩
    exact List.forall_mem_singleton.2 hkind
  | scalar kind => exact admits_inline hwidth (Value.admitted_words_iff rfl)
  | time kind => exact admits_inline hwidth (Value.admitted_words_iff rfl)
  | composite shape =>
    refine admits_inline hwidth ((Value.admitted_words_iff rfl).trans ?_)
    -- a tuple takes as many fields as it has components
    have hcount : (PropertyPlan.ofProperty r.declarations table
        ⟨name, .single (.composite shape)⟩).fields.length = shape.arity := List.length_map _
    rw [hcount]
    rfl
  | recordRef target => exact admits_index hwidth (admits_reference hr hdeclared)
  | embedded target => exact admits_index hwidth (admits_struct hembed hdeclared hdepth)

/-- A list. -/
theorem admits_stage_list (hr : r.IsSound) {depth : Nat} (hembed : EmbedsAdmitted r c embed depth)
    (hdeclared : vt.IsDeclared r.declarations) (hdepth : ∀ w ∈ elementsOf v, w.depth ≤ depth)
    {table name : String} :
    Admits (v.Admitted r c (.list vt))
      (stage (.ofCatalog r c) embed place (.ofProperty r.declarations table ⟨name, .list vt⟩) v)
      (Staged.Takes (PropertyPlan.ofProperty r.declarations table ⟨name, .list vt⟩).fields
        (v.Admitted r c (.list vt))) := by
  have hwidth : ∀ f ∈ (PropertyPlan.ofProperty r.declarations table ⟨name, .list vt⟩).fields, _ :=
    fun f hf => slotWidth_of_mem_fields hf
  cases vt with
  | string | localizedText | asset =>
    exact admits_items (Value.admitted_list_iff rfl) (fun _ _ => admits_text (by constructor))
      fun _ => admits_addIndices hwidth _
  | enum e =>
    refine admits_items (Value.admitted_list_iff rfl) (fun item _ => ?_)
      fun _ => admits_addScalars hwidth _ _
    exact (admits_member hr).mono id fun _ h => h.1
  | scalar kind =>
    refine admits_items (Value.admitted_uncounted_iff rfl nofun) (fun item _ => ?_)
      fun _ => admits_addScalars hwidth _ _
    exact (admits_scalars kind _).mono id fun ss h => ⟨_, h.1⟩
  | time kind =>
    refine admits_items (Value.admitted_uncounted_iff rfl nofun) (fun item _ => ?_)
      fun _ => admits_addScalars hwidth _ _
    exact (admits_scalars .i64 _).mono id fun ss h => ⟨_, h.1⟩
  | recordRef target =>
    exact admits_items (Value.admitted_list_iff rfl) (fun _ _ => admits_reference hr hdeclared)
      fun _ => admits_addIndices hwidth _
  | embedded target =>
    exact admits_items (Value.admitted_list_iff rfl)
      (fun item hitem => admits_struct hembed hdeclared fun w hw =>
        (depth_le_of_mem_elementsOf hw).trans (hdepth item hitem))
      fun _ => admits_addIndices hwidth _
  | composite shape =>
    refine admits_items Value.admitted_composites_iff (fun item _ => admits_components shape)
      fun elements => ?_
    split_ifs
    · exact admits_pure (fills_indices hwidth _)
    -- each component of the tuples has a vector of its own
    · have hvectors : Admits (∀ k ∈ List.range shape.arity, True)
          ((List.range shape.arity).mapM fun k => modifyGet
            (·.addScalars shape.componentKind (stridedVector shape k elements)))
          (List.Forall₂ (fun _ _ => True) (List.range shape.arity)) :=
        admits_mapM fun k _ => admits_modifyGet fun _ => trivial
      exact (hvectors.mono (fun _ _ _ => trivial) fun _ h => h).map fun is _ =>
        fills_indices hwidth is

/-- **The value of a property** is staged for its slots if and only if it is admitted. -/
theorem admits_stage (hr : r.IsSound) {depth : Nat} (hembed : EmbedsAdmitted r c embed depth)
    {p : Property} (hshape : p.shape ≠ .identifier)
    (hdeclared : ∀ vt, p.shape.element? = some vt → vt.IsDeclared r.declarations)
    (hdepth : ∀ w ∈ elementsOf v, w.depth ≤ depth) {table : String} :
    Admits (v.Admitted r c p.shape)
      (stage (.ofCatalog r c) embed place (.ofProperty r.declarations table p) v)
      (Staged.Takes (PropertyPlan.ofProperty r.declarations table p).fields
        (v.Admitted r c p.shape)) := by
  obtain ⟨name, shape⟩ := p
  cases shape with
  | identifier => exact absurd rfl hshape
  | list vt => exact admits_stage_list hr hembed (hdeclared vt rfl) hdepth
  | single vt => exact admits_stage_single hr hembed (hdeclared vt rfl) hdepth

end Stage

end Container

end RecordTables
