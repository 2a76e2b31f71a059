import RecordTables.Container.Bake
import RecordTables.Proofs.Registry

/-!
# The size of baked rows

Every row that is baked has the size that the layout gives to the rows of its table, whatever the
values are (`Container.bakeRow_ensures`): a row starts as zeros of that size, and a property fills
its slots with as many bytes as they take (`Container.stage_ensures`).

Baking is a sequence of steps on pools.  A step ensures something of its answer if, whenever it
succeeds on pools of which an invariant holds, the invariant holds of the pools that it leaves
(`Baking.Ensures`).  Every invariant that is kept when something is laid down (`Pools.IsKept`) will
do; one of them is that the rows of sub-structures have their size (`Pools.Sized`).
-/

namespace RecordTables.Container

open Schema

variable {α β : Type}

/-! ### What a step of baking ensures -/

namespace Baking

variable {I : Pools → Prop} {Q : α → Prop} {R : β → Prop} {b : Baking α}

/-- If the step succeeds on pools of which `I` holds, then `I` holds of the pools that it leaves, and
`Q` of its answer. -/
def Ensures (I : Pools → Prop) (b : Baking α) (Q : α → Prop) : Prop :=
  ∀ p x p', b.run p = .ok (x, p') → I p → I p' ∧ Q x

theorem Ensures.mono {Q' : α → Prop} (h : Ensures I b Q) (hQ : ∀ x, Q x → Q' x) :
    Ensures I b Q' := by
  intro p x p' hrun hp
  exact (h p x p' hrun hp).imp_right (hQ x)

theorem ensures_pure {x : α} (h : Q x) : Ensures I (pure x) Q := by
  intro p y p' hrun hp
  cases hrun
  exact ⟨hp, h⟩

theorem ensures_throw (e : ContainerError) : Ensures I (throw e) Q :=
  fun _ _ _ hrun _ => nomatch hrun

theorem ensures_fail (place : Place) (cause : BakeMismatch) : Ensures I (place.fail cause) Q :=
  ensures_throw _

theorem ensures_modifyGet {f : Pools → α × Pools} (h : ∀ p, I p → I (f p).2 ∧ Q (f p).1) :
    Ensures I (modifyGet f) Q := by
  intro p x p' hrun hp
  have hsame : f p = (x, p') := Except.ok.inj hrun
  have hf := h p hp
  rw [hsame] at hf
  exact hf

theorem Ensures.bind {next : α → Baking β} (h : Ensures I b Q)
    (hnext : ∀ x, Q x → Ensures I (next x) R) : Ensures I (b >>= next) R := by
  intro p y p'' hrun hp
  rw [StateT.run_bind] at hrun
  obtain ⟨⟨x, p'⟩, hfirst, hrest⟩ := bind_eq_ok.1 hrun
  obtain ⟨hp', hx⟩ := h p x p' hfirst hp
  exact hnext x hx p' y p'' hrest hp'

theorem Ensures.map {f : α → β} (h : Ensures I b Q) (hf : ∀ x, Q x → R (f x)) :
    Ensures I (f <$> b) R := by
  rw [map_eq_pure_bind]
  exact h.bind fun x hx => ensures_pure (hf x hx)

/-- Going through a list ensures of the answers what it does at each element. -/
theorem ensures_mapM {f : α → Baking β} {S : α → β → Prop} {xs : List α}
    (h : ∀ x ∈ xs, Ensures I (f x) (S x)) : Ensures I (xs.mapM f) (List.Forall₂ S xs) := by
  induction xs with
  | nil => exact ensures_pure .nil
  | cons x xs ih =>
    rw [List.mapM_cons]
    refine (h x List.mem_cons_self).bind fun y hy => ?_
    refine (ih fun x' hx' => h x' (List.mem_cons_of_mem _ hx')).bind fun ys hys => ?_
    exact ensures_pure (.cons hy hys)

/-- What a step ensures at each element holds of all answers. -/
theorem ensures_mapM_forall {f : α → Baking β} {xs : List α}
    (h : ∀ x ∈ xs, Ensures I (f x) R) : Ensures I (xs.mapM f) fun ys => ∀ y ∈ ys, R y := by
  refine (ensures_mapM h).mono fun ys hys => ?_
  induction hys with
  | nil => exact fun _ hy => nomatch hy
  | cons hy _ ih => exact List.forall_mem_cons.2 ⟨hy, ih fun x hx => h x (List.mem_cons_of_mem _ hx)⟩

theorem ensures_of_except {r : Except ContainerError α} (h : ∀ x, r = .ok x → Q x) :
    Ensures I (liftM r) Q := by
  cases r with
  | ok x => exact ensures_pure (h x rfl)
  | error e => exact ensures_throw e

end Baking

open Baking

/-! ### Rows of sub-structures -/

/-- The rows of sub-structures have the size of the rows of their tables. -/
def Pools.Sized (l : Layout) (p : Pools) : Prop :=
  ∀ t ∈ l.tables, ∀ row ∈ (p.subRows.find? t.name).getD [], row.length = t.rowSize

namespace Pools

variable {l : Layout} {p p' : Pools}

theorem sized_empty (l : Layout) : Sized l empty := fun _ _ _ h => nomatch h

theorem Sized.of_subRows (h : p.Sized l) (hsame : p'.subRows = p.subRows) : p'.Sized l := by
  unfold Sized
  rw [hsame]
  exact h

theorem subRows_intern (p : Pools) (s : String) : (p.intern s).2.subRows = p.subRows := by
  unfold intern
  split <;> rfl

theorem subRows_addIndices (p : Pools) (indices : List UInt32) :
    (p.addIndices indices).2.subRows = p.subRows := by
  unfold addIndices
  split_ifs <;> rfl

theorem subRows_addScalars (p : Pools) (kind : ScalarKind) (scalars : List Scalar) :
    (p.addScalars kind scalars).2.subRows = p.subRows := by
  unfold addScalars
  split_ifs <;> rfl

theorem Sized.addRow (h : p.Sized l) (hl : l.WellFormed) {t : TableLayout} (ht : t ∈ l.tables)
    {row : List UInt8} (hrow : row.length = t.rowSize) : (p.addRow t.name row).2.Sized l := by
  intro u hu row' hrow'
  unfold Pools.addRow at hrow'
  rw [NameMap.find?_insert] at hrow'
  split_ifs at hrow' with hname
  · have hsame : t = u := List.inj_on_of_nodup_map hl.names ht hu hname
    rw [Option.getD_some] at hrow'
    rcases List.mem_append.1 hrow' with hold | hnew
    · rw [hname] at hold
      exact h u hu row' hold
    · rw [List.mem_singleton.1 hnew, hrow, hsame]
  · exact h u hu row' hrow'

/-- The invariant is kept when something is laid down, for rows of sub-structures of their size. -/
structure IsKept (l : Layout) (I : Pools → Prop) : Prop where
  intern : ∀ p s, I p → I (p.intern s).2
  addIndices : ∀ p indices, I p → I (p.addIndices indices).2
  addScalars : ∀ p kind scalars, I p → I (p.addScalars kind scalars).2
  addRow : ∀ p, ∀ t ∈ l.tables, ∀ row : List UInt8, row.length = t.rowSize → I p →
    I (p.addRow t.name row).2

theorem isKept_sized (hl : l.WellFormed) : IsKept l (Sized l) where
  intern := fun p s hp => hp.of_subRows (p.subRows_intern s)
  addIndices := fun p indices hp => hp.of_subRows (p.subRows_addIndices indices)
  addScalars := fun p kind scalars hp => hp.of_subRows (p.subRows_addScalars kind scalars)
  addRow := fun _ _ ht _ hrow hp => hp.addRow hl ht hrow

end Pools

/-! ### Staged values -/

/-- A value is staged as numbers of texts, vectors or rows. -/
def Staged.IsIndex : Staged → Prop
  | .scalars _ => False
  | .index _ | .indices _ => True

/-- A value is staged as values of a kind. -/
def Staged.HasKind (kind : ScalarKind) : Staged → Prop
  | .scalars values => ∀ s ∈ values, s.kind = kind
  | .index _ | .indices _ => False

/-- A staged value gives every field as many bytes as its slot takes. -/
def Staged.Fits (fields : List Field) (staged : Staged) : Prop :=
  ∀ j f bytes, fields[j]? = some f → staged.slotBytes? j = some bytes → bytes.length = f.slotWidth

theorem length_indexBytes (i : UInt32) : (indexBytes i).length = indexWidth :=
  length_littleEndian _ _

theorem Staged.IsIndex.fits {staged : Staged} {fields : List Field} (h : staged.IsIndex)
    (hwidth : ∀ f ∈ fields, f.slotWidth = indexWidth) : staged.Fits fields := by
  intro j f bytes hf hbytes
  rw [hwidth f (List.mem_of_getElem? hf)]
  cases staged with
  | scalars values => cases h
  | index i => rw [← Option.some.inj hbytes, length_indexBytes]
  | indices numbers => rw [← Option.some.inj hbytes, length_indexBytes]

theorem Staged.HasKind.fits {staged : Staged} {fields : List Field} {kind : ScalarKind}
    (h : staged.HasKind kind) (hwidth : ∀ f ∈ fields, f.slotWidth = kind.width) :
    staged.Fits fields := by
  intro j f bytes hf hbytes
  rw [hwidth f (List.mem_of_getElem? hf)]
  cases staged with
  | scalars values =>
    obtain ⟨s, hs, rfl⟩ := Option.map_eq_some_iff.1 hbytes
    rw [Scalar.length_bytes, h s (List.mem_of_getElem? hs)]
  | index i => cases h
  | indices numbers => cases h

/-! ### The steps of staging -/

section Stage

variable {I : Pools → Prop} {place : Place} {v : Value}

theorem kind_of_ofInt64? {kind : ScalarKind} {n : Int64} {s : Scalar}
    (h : Scalar.ofInt64? kind n = some s) : s.kind = kind := by
  unfold Scalar.ofInt64? at h
  cases kind <;> dsimp only at h
  all_goals
    try split_ifs at h
  all_goals cases h <;> rfl

theorem kind_of_scalarsOf? {kind : ScalarKind} {scalars : List Scalar}
    (h : scalarsOf? kind v = some scalars) : ∀ s ∈ scalars, s.kind = kind := by
  unfold scalarsOf? at h
  split at h
  · split_ifs at h with hkind
    rw [← Option.some.inj h]
    simpa using hkind
  · split_ifs at h with hkind
    rw [← Option.some.inj h, hkind]
    simp [Scalar.kind]
  · split_ifs at h with hkind
    rw [← Option.some.inj h, hkind]
    simp [Scalar.kind]
  · split_ifs at h with hkind
    rw [← Option.some.inj h]
    simpa using hkind
  · cases h

theorem itemsOf_ensures : Ensures I (itemsOf place v) fun _ => True := by
  unfold itemsOf
  split
  · exact ensures_pure trivial
  · exact ensures_fail _ _

theorem stageScalars_ensures (kind : ScalarKind) (what : String) :
    Ensures I (stageScalars place kind what v) fun scalars => ∀ s ∈ scalars, s.kind = kind := by
  unfold stageScalars
  split
  · next scalars hscalars => exact ensures_pure (kind_of_scalarsOf? hscalars)
  · exact ensures_fail _ _

theorem stageMember_ensures (src : BakeSource) (enumName : String) (repr : ScalarKind) :
    Ensures I (stageMember src place enumName repr v) fun s => s.kind = repr := by
  unfold stageMember
  split
  · split
    · next s hs =>
      obtain ⟨n, -, hn⟩ := Option.bind_eq_some_iff.1 hs
      exact ensures_pure (kind_of_ofInt64? hn)
    · exact ensures_fail _ _
  · exact ensures_fail _ _

theorem stageReference_ensures (src : BakeSource) (target : String) :
    Ensures I (stageReference src place target v) fun _ => True := by
  unfold stageReference
  split
  · exact ensures_pure trivial
  · split
    · exact ensures_pure trivial
    · exact ensures_throw _
  · exact ensures_fail _ _

theorem stageStruct_ensures {embed : String → List (String × Value) → Baking UInt32}
    (hembed : ∀ table fields, Ensures I (embed table fields) fun _ => True) (target : String) :
    Ensures I (stageStruct embed place target v) fun _ => True := by
  unfold stageStruct
  split
  · exact ensures_pure trivial
  · exact hembed _ _
  · exact ensures_fail _ _

theorem stageComponents_ensures (shape : CompositeShape) :
    Ensures I (stageComponents place shape v) fun _ => True := by
  unfold stageComponents
  split
  · exact ensures_pure trivial
  · exact ensures_fail _ _

/-- A list is staged element by element, and then as a whole. -/
theorem items_ensures {γ : Type} {f : Value → Baking β} {next : List β → Baking γ} {Q : γ → Prop}
    (h : ∀ item, Ensures I (f item) fun _ => True) (hnext : ∀ ys, Ensures I (next ys) Q) :
    Ensures I (itemsOf place v >>= fun items => items.mapM f >>= next) Q :=
  itemsOf_ensures.bind fun _ _ =>
    (ensures_mapM (S := fun _ _ => True) fun item _ => h item).bind fun ys _ => hnext ys

variable {l : Layout} (hI : Pools.IsKept l I)

include hI

theorem stageText_ensures : Ensures I (stageText place v) fun _ => True := by
  unfold stageText
  split
  · exact ensures_modifyGet fun p hp => ⟨hI.intern p _ hp, trivial⟩
  · exact ensures_modifyGet fun p hp => ⟨hI.intern p _ hp, trivial⟩
  · exact ensures_pure trivial
  · exact ensures_fail _ _

theorem addIndices_ensures (indices : List UInt32) :
    Ensures I (Staged.index <$> modifyGet (·.addIndices indices)) Staged.IsIndex :=
  Ensures.map (Q := fun _ => True)
    (ensures_modifyGet fun p hp => ⟨hI.addIndices p _ hp, trivial⟩) fun _ _ => trivial

theorem addScalars_ensures (kind : ScalarKind) (scalars : List Scalar) :
    Ensures I (modifyGet (·.addScalars kind scalars)) fun _ => True :=
  ensures_modifyGet fun p hp => ⟨hI.addScalars p _ _ hp, trivial⟩

/-- How a value is staged: as values of the kind that the property stores as they are, and as numbers
if it stores no such values. -/
theorem stage_ensures {src : BakeSource} {embed : String → List (String × Value) → Baking UInt32}
    (hembed : ∀ table fields, Ensures I (embed table fields) fun _ => True)
    (d : Declarations) (table : String) (p : Property) :
    Ensures I (stage src embed place (.ofProperty d table p) v) fun staged =>
      match (PropertyPlan.ofProperty d table p).write.inlineKind with
      | some kind => staged.HasKind kind
      | none => staged.IsIndex := by
  -- a value goes into the row, or its number does
  have hinline (kind : ScalarKind) : Ensures I
      (Staged.scalars <$> stageScalars place kind kind.tag v) (Staged.HasKind kind) :=
    (stageScalars_ensures kind _).map fun _ h => h
  have hindex (b : Baking UInt32) (h : Ensures I b fun _ => True) :
      Ensures I (Staged.index <$> b) Staged.IsIndex := h.map fun _ _ => trivial
  obtain ⟨name, shape⟩ := p
  cases shape with
  | identifier => exact hindex _ (stageText_ensures hI)
  | single vt =>
    cases vt with
    | string | localizedText | asset => exact hindex _ (stageText_ensures hI)
    | enum e =>
      refine (stageMember_ensures src e _).bind fun s hs => ensures_pure fun s' hs' => ?_
      rw [List.mem_singleton.1 hs', hs]
    | scalar kind => exact hinline kind
    | time kind => exact hinline .i64
    | recordRef target => exact hindex _ (stageReference_ensures src target)
    | embedded target => exact hindex _ (stageStruct_ensures hembed target)
    | composite shape => exact hinline shape.componentKind
  | list vt =>
    cases vt with
    | string | localizedText | asset =>
      exact items_ensures (fun _ => stageText_ensures hI) fun _ => addIndices_ensures hI _
    | enum e =>
      refine items_ensures (fun _ => ?_) fun _ => hindex _ (addScalars_ensures hI _ _)
      exact (stageMember_ensures src e _).mono fun _ _ => trivial
    | scalar kind | time kind =>
      refine items_ensures (fun _ => ?_) fun _ => hindex _ (addScalars_ensures hI _ _)
      exact (stageScalars_ensures _ _).mono fun _ _ => trivial
    | recordRef target =>
      exact items_ensures (fun _ => stageReference_ensures src target) fun _ =>
        addIndices_ensures hI _
    | embedded target =>
      exact items_ensures (fun _ => stageStruct_ensures hembed target) fun _ =>
        addIndices_ensures hI _
    | composite shape =>
      refine items_ensures (fun _ => stageComponents_ensures shape) fun elements => ?_
      -- an empty list of tuples has no vectors
      by_cases hempty : elements.isEmpty = true
      · rw [if_pos hempty]
        exact ensures_pure trivial
      · rw [if_neg hempty]
        refine (ensures_mapM (S := fun _ _ => True) fun k _ => ?_).map fun _ _ => trivial
        exact addScalars_ensures hI _ _

end Stage

/-- The slots of a property are as wide as what is staged for them. -/
theorem slotWidth_of_mem_fields {d : Declarations} {table : String} {p : Property} {f : Field}
    (hf : f ∈ (PropertyPlan.ofProperty d table p).fields) :
    f.slotWidth = match (PropertyPlan.ofProperty d table p).write.inlineKind with
      | some kind => kind.width
      | none => indexWidth := by
  obtain ⟨name, shape⟩ := p
  cases shape with
  | identifier =>
    rw [List.mem_singleton.1 hf]
    rfl
  | single vt =>
    cases vt with
    | composite shape =>
      obtain ⟨c, -, rfl⟩ := List.mem_map.1 hf
      rfl
    | _ =>
      rw [List.mem_singleton.1 hf]
      rfl
  | list vt =>
    cases vt with
    | composite shape =>
      obtain ⟨c, -, rfl⟩ := List.mem_map.1 hf
      rfl
    | _ =>
      rw [List.mem_singleton.1 hf]
      rfl

/-- What is staged for a property fits its slots. -/
theorem stage_fits {I : Pools → Prop} {l : Layout} (hI : Pools.IsKept l I) {src : BakeSource}
    {embed : String → List (String × Value) → Baking UInt32}
    (hembed : ∀ table fields, Ensures I (embed table fields) fun _ => True)
    (d : Declarations) (table : String) (p : Property) (place : Place) (v : Value) :
    Ensures I (stage src embed place (.ofProperty d table p) v)
      (Staged.Fits (PropertyPlan.ofProperty d table p).fields) := by
  refine (stage_ensures hI hembed d table p).mono fun staged hstaged => ?_
  have hwidth : ∀ f ∈ (PropertyPlan.ofProperty d table p).fields, _ :=
    fun f hf => slotWidth_of_mem_fields hf
  cases hkind : (PropertyPlan.ofProperty d table p).write.inlineKind with
  | some kind =>
    rw [hkind] at hstaged hwidth
    exact hstaged.fits hwidth
  | none =>
    rw [hkind] at hstaged hwidth
    exact hstaged.fits hwidth

/-! ### Filling rows -/

section Fill

variable {I : Pools → Prop} {layout : TableLayout}

theorem length_writeAt {row bytes : List UInt8} {start : Nat}
    (h : start + bytes.length ≤ row.length) : (writeAt row start bytes).length = row.length := by
  unfold writeAt
  rw [List.length_append, List.length_append, List.length_take, List.length_drop]
  omega

/-- The slot of a field is found, and lies within a row. -/
def HasSlot (layout : TableLayout) (f : Field) : Prop :=
  ∃ start, (layout.fieldIndex? f.name).bind layout.slot? = some (start, start + f.slotWidth) ∧
    start + f.slotWidth ≤ layout.rowSize

theorem fillSlots_ensures {place : Place} {staged : Staged} {fields : List Field} {j : Nat}
    {row : List UInt8} (hslots : ∀ f ∈ fields, HasSlot layout f)
    (hfits : ∀ k f bytes, fields[k]? = some f → staged.slotBytes? (j + k) = some bytes →
      bytes.length = f.slotWidth) (hrow : row.length = layout.rowSize) :
    Ensures I (fillSlots layout place staged j (fields.map (·.name)) row)
      fun row' => row'.length = layout.rowSize := by
  induction fields generalizing j row with
  | nil => exact ensures_pure hrow
  | cons f fields ih =>
    obtain ⟨start, hslot, hle⟩ := hslots f List.mem_cons_self
    rw [List.map_cons, fillSlots, hslot]
    dsimp only
    split
    · exact ensures_fail _ _
    · next bytes hbytes =>
      have hlength : bytes.length = f.slotWidth := hfits 0 f bytes rfl hbytes
      refine ih (fun g hg => hslots g (List.mem_cons_of_mem _ hg)) (fun k g bs hg hbs => ?_) ?_
      · refine hfits (k + 1) g bs hg ?_
        rw [← Nat.add_assoc, Nat.add_right_comm]
        exact hbs
      · rw [length_writeAt (by omega), hrow]

theorem fillRow_ensures {table : String} {filled : List (PropertyPlan × Staged)}
    {row : List UInt8} (hslots : ∀ e ∈ filled, e.1.write.slots = e.1.fields.map (·.name))
    (hfields : ∀ e ∈ filled, ∀ f ∈ e.1.fields, HasSlot layout f)
    (hfits : ∀ e ∈ filled, e.2.Fits e.1.fields) (hrow : row.length = layout.rowSize) :
    Ensures I (fillRow layout table filled row) fun row' => row'.length = layout.rowSize := by
  induction filled generalizing row with
  | nil => exact ensures_pure hrow
  | cons e filled ih =>
    obtain ⟨q, staged⟩ := e
    rw [fillRow, hslots _ List.mem_cons_self]
    refine (fillSlots_ensures (hfields _ List.mem_cons_self) ?_ hrow).bind fun row' hrow' => ?_
    · intro k f bytes hf hbytes
      rw [Nat.zero_add] at hbytes
      exact hfits _ List.mem_cons_self k f bytes hf hbytes
    · exact ih (fun e he => hslots e (List.mem_cons_of_mem _ he))
        (fun e he => hfields e (List.mem_cons_of_mem _ he))
        (fun e he => hfits e (List.mem_cons_of_mem _ he)) hrow'

end Fill

/-! ### Baking rows -/

section Bake

variable {r : Registry} {src : BakeSource} {plan : TablePlan} {layout : TableLayout}
  {table : String}

/-- The plan and the layout that are found for a table are its own. -/
theorem tableOf_eq_ok (h : tableOf r table = .ok (plan, layout)) :
    plan ∈ r.tables ∧ plan.table = table ∧ layout ∈ r.layout.tables ∧ layout.name = table := by
  unfold tableOf at h
  split at h
  · next plan' layout' hplan hlayout =>
    cases h
    unfold Registry.table? at hplan
    unfold Layout.table? at hlayout
    have hname := List.find?_some hplan
    have hname' := List.find?_some hlayout
    exact ⟨List.mem_of_find?_eq_some hplan, beq_iff_eq.1 hname,
      List.mem_of_find?_eq_some hlayout, beq_iff_eq.1 hname'⟩
  · cases h

/-- The fields of a plan are fields of the layout of its table. -/
theorem mem_fields_of_mem_fields (hr : r.IsLaidOut) (h : tableOf r table = .ok (plan, layout))
    {q : PropertyPlan} (hq : q ∈ plan.properties) {f : Field} (hf : f ∈ q.fields) :
    f ∈ layout.fields := by
  obtain ⟨hplan, rfl, hlayout, hname⟩ := tableOf_eq_ok h
  obtain ⟨t, ht, -, hmem⟩ := hr.layout.table?_of_mem_fields (hr.field plan hplan q hq f hf)
  have htable : f.table = plan.table := by
    rw [hr.plan plan hplan q hq] at hf
    exact PropertyPlan.table_of_mem_fields hf
  have hsame : t = layout := by
    refine List.inj_on_of_nodup_map hr.layout.names ht hlayout ?_
    rw [hname, ← htable, hr.layout.owned t ht f hmem]
  rw [← hsame]
  exact hmem

/-- The fields of a plan have slots in the layout of its table. -/
theorem hasSlot_of_mem_fields (hr : r.IsLaidOut) (h : tableOf r table = .ok (plan, layout))
    {q : PropertyPlan} (hq : q ∈ plan.properties) {f : Field} (hf : f ∈ q.fields) :
    HasSlot layout f :=
  hr.layout.slot (tableOf_eq_ok h).2.2.1 (mem_fields_of_mem_fields hr h hq hf)

variable {I : Pools → Prop} (hI : Pools.IsKept r.layout I)

include hI

/-- **The size of a row.**  If sub-structures are embedded, a row has the size of the rows of its
table. -/
theorem bakeRow_ensures (hr : r.IsLaidOut) (h : tableOf r table = .ok (plan, layout))
    {embed : String → List (String × Value) → Baking UInt32}
    (hembed : ∀ table fields, Ensures I (embed table fields) fun _ => True)
    (valueOf : String → Option Value) :
    Ensures I (bakeRow src embed plan layout valueOf) fun row => row.length = layout.rowSize := by
  have hplan := hr.plan plan (tableOf_eq_ok h).1
  unfold bakeRow
  refine Ensures.bind (Q := List.Forall₂ (fun q staged => staged.Fits q.fields) plan.properties)
    (ensures_mapM fun q hq => ?_) fun staged hstaged => ?_
  · dsimp only
    split
    · have hfits := @stage_fits _ _ hI src embed hembed r.declarations plan.table q.property
      rw [← hplan q hq] at hfits
      exact hfits _ _
    · exact ensures_fail _ _
  · have hzip : ∀ e ∈ plan.properties.zip staged, e.1 ∈ plan.properties :=
      fun e he => (List.of_mem_zip he).1
    refine fillRow_ensures (fun e he => ?_) (fun e he f hf => ?_) (fun e he => ?_)
      List.length_replicate
    · rw [hplan _ (hzip e he)]
      exact PropertyPlan.slots_ofProperty _ _ _
    · exact hasSlot_of_mem_fields hr h (hzip e he) hf
    · exact List.forall₂_zip hstaged he

/-- Sub-structures are embedded as rows of their size, at every depth. -/
theorem embedWithin_ensures (hr : r.IsLaidOut) (hsrc : src.registry = r) (fuel : Nat)
    (table : String) (fields : List (String × Value)) :
    Ensures I (embedWithin src fuel table fields) fun _ => True := by
  induction fuel generalizing table fields with
  | zero => exact ensures_throw _
  | succ fuel ih =>
    unfold embedWithin
    refine Ensures.bind (ensures_of_except fun x hx => hx) fun x hx => ?_
    obtain ⟨plan, layout⟩ := x
    rw [hsrc] at hx
    obtain ⟨-, -, hlayout, hname⟩ := tableOf_eq_ok hx
    refine (bakeRow_ensures hI hr hx ih _).bind fun row hrow => ensures_modifyGet fun p hp => ?_
    rw [← hname]
    exact ⟨hI.addRow p layout hlayout row hrow hp, trivial⟩

/-- The rows of a record type have the size of the rows of its table. -/
theorem bakeRecords_ensures (hr : r.IsLaidOut) (hsrc : src.registry = r) (c : Catalog)
    (recordType : String) :
    Ensures I (bakeRecords src c recordType) fun baked =>
      baked.1 = recordType ∧ ∀ t ∈ r.layout.tables, t.name = recordType →
        ∀ row ∈ baked.2, row.length = t.rowSize := by
  unfold bakeRecords
  refine Ensures.bind (ensures_of_except fun x hx => hx) fun x hx => ?_
  obtain ⟨plan, layout⟩ := x
  rw [hsrc] at hx
  obtain ⟨-, -, hlayout, hname⟩ := tableOf_eq_ok hx
  have hrows : Ensures I ((rowOrder c recordType).mapM (bakeRecord src plan layout))
      fun rows => ∀ row ∈ rows, row.length = layout.rowSize :=
    ensures_mapM_forall fun record _ =>
      bakeRow_ensures hI hr hx (embedWithin_ensures hI hr hsrc _) _
  refine hrows.bind fun rows hrows => ensures_pure ⟨rfl, fun t ht htname row hrow => ?_⟩
  have hsame : t = layout := by
    refine List.inj_on_of_nodup_map hr.layout.names ht hlayout ?_
    rw [htname, hname]
  rw [hsame]
  exact hrows row hrow

end Bake

end RecordTables.Container
