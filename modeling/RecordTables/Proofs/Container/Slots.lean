import RecordTables.Container.Open
import RecordTables.Proofs.Container.Rows

/-!
# Slots keep what is written into them

The slots of the fields of a table do not overlap (`TableLayout.offset_add_le`), so what is written
into one slot is read from it, and from no other (`TableView.slotBytes_writeAt`,
`TableView.slotBytes_writeAt_of_ne`).  A row that was filled holds in the slots of every property
what was staged for it (`Container.fillRow_run`).
-/

namespace RecordTables

/-! ### Slots do not overlap -/

namespace TableLayout

variable {t : TableLayout} {f g : Field} {i j : Nat}

theorem offset_mono (h : i ≤ j) : t.offset i ≤ t.offset j := by
  have hle := totalWidth_take_le (t.fields.take j) i
  rw [List.take_take, Nat.min_eq_left h] at hle
  exact hle

/-- The slot of a field ends before those behind it. -/
theorem offset_add_le (h : i < j) (hf : t.fields[i]? = some f) :
    t.offset i + f.slotWidth ≤ t.offset j := by
  rw [← offset_succ hf]
  exact offset_mono h

/-- Where the slot of a field starts. -/
def slotStart (t : TableLayout) (f : Field) : Nat := t.offset (t.fields.idxOf f)

theorem slot?_of_mem (hnodup : (t.fields.map (·.name)).Nodup) (hf : f ∈ t.fields) :
    (t.fieldIndex? f.name).bind t.slot? =
      some (t.slotStart f, t.slotStart f + f.slotWidth) := by
  have hget : t.fields[t.fields.idxOf f]? = some f := List.getElem?_idxOf hf
  rw [fieldIndex?_of_nodup hnodup hget, Option.bind_some, slot?, hget]
  rfl

theorem slotStart_add_le (hf : f ∈ t.fields) : t.slotStart f + f.slotWidth ≤ t.rowSize :=
  offset_add_slotWidth_le (List.getElem?_idxOf hf)

/-- Slots of two fields are apart. -/
theorem slots_apart (hf : f ∈ t.fields) (hg : g ∈ t.fields) (hne : f.name ≠ g.name) :
    t.slotStart f + f.slotWidth ≤ t.slotStart g ∨
      t.slotStart g + g.slotWidth ≤ t.slotStart f := by
  have hindex : t.fields.idxOf f ≠ t.fields.idxOf g := by
    intro hsame
    have hf' := List.getElem?_idxOf hf
    rw [hsame, List.getElem?_idxOf hg] at hf'
    exact hne (congrArg Field.name (Option.some.inj hf')).symm
  rcases Nat.lt_or_gt_of_ne hindex with hlt | hlt
  · exact Or.inl (offset_add_le hlt (List.getElem?_idxOf hf))
  · exact Or.inr (offset_add_le hlt (List.getElem?_idxOf hg))

end TableLayout

namespace Container

/-! ### Writing and reading -/

section WriteAt

variable {row bytes : List UInt8} {start : Nat}

theorem take_drop_writeAt (h : start ≤ row.length) :
    ((writeAt row start bytes).drop start).take bytes.length = bytes := by
  unfold writeAt
  rw [List.append_assoc, List.drop_left' (List.length_take_of_le h), List.take_left' rfl]

/-- What is written does not touch what is apart from it. -/
theorem take_drop_writeAt_of_apart {other width : Nat} (h : start + bytes.length ≤ row.length)
    (hapart : start + bytes.length ≤ other ∨ other + width ≤ start) :
    ((writeAt row start bytes).drop other).take width = (row.drop other).take width := by
  refine List.ext_getElem? fun k => ?_
  rw [List.getElem?_take, List.getElem?_take]
  split_ifs with hk
  · rw [List.getElem?_drop, List.getElem?_drop]
    unfold writeAt
    rcases hapart with hbehind | hbefore
    · rw [List.getElem?_append_right, List.getElem?_drop]
      · rw [List.length_append, List.length_take_of_le (by omega)]
        congr 1
        omega
      · rw [List.length_append, List.length_take_of_le (by omega)]
        omega
    · rw [List.append_assoc, List.getElem?_append_left, List.getElem?_take_of_lt (by omega)]
      rw [List.length_take_of_le (by omega)]
      omega
  · rfl

end WriteAt

end Container

namespace TableView

open Container

variable {t : TableView} {f g : Field} {row bytes : List UInt8}

theorem slotBytes_eq (hnodup : (t.layout.fields.map (·.name)).Nodup) (hf : f ∈ t.layout.fields)
    (hrow : row.length = t.layout.rowSize) :
    t.slotBytes row f.name = .ok ((row.drop (t.layout.slotStart f)).take f.slotWidth) := by
  have hle := TableLayout.slotStart_add_le hf
  unfold slotBytes
  rw [TableLayout.slot?_of_mem hnodup hf]
  dsimp only
  rw [if_pos (by omega), Nat.add_sub_cancel_left]

/-- **What is written into a slot** is read from it. -/
theorem slotBytes_writeAt (hnodup : (t.layout.fields.map (·.name)).Nodup)
    (hf : f ∈ t.layout.fields) (hrow : row.length = t.layout.rowSize)
    (hbytes : bytes.length = f.slotWidth) :
    t.slotBytes (writeAt row (t.layout.slotStart f) bytes) f.name = .ok bytes := by
  have hle := TableLayout.slotStart_add_le hf
  rw [slotBytes_eq hnodup hf (by rw [length_writeAt (by omega), hrow]), ← hbytes,
    take_drop_writeAt (by omega)]

/-- **What is written into a slot** leaves the others as they were. -/
theorem slotBytes_writeAt_of_ne (hnodup : (t.layout.fields.map (·.name)).Nodup)
    (hf : f ∈ t.layout.fields) (hg : g ∈ t.layout.fields) (hne : f.name ≠ g.name)
    (hrow : row.length = t.layout.rowSize) (hbytes : bytes.length = f.slotWidth) :
    t.slotBytes (writeAt row (t.layout.slotStart f) bytes) g.name = t.slotBytes row g.name := by
  have hle := TableLayout.slotStart_add_le hf
  have hapart := TableLayout.slots_apart hf hg hne
  rw [slotBytes_eq hnodup hg (by rw [length_writeAt (by omega), hrow]), slotBytes_eq hnodup hg hrow,
    take_drop_writeAt_of_apart (by omega) (by omega)]

/-- The slots of some fields hold what was staged for them. -/
def Holds (t : TableView) (row : List UInt8) (fields : List Field) (staged : Staged) : Prop :=
  ∀ j f bytes, fields[j]? = some f → staged.slotBytes? j = some bytes →
    t.slotBytes row f.name = .ok bytes

end TableView

namespace Container

/-! ### Filled rows -/

/-- There are bytes for every field, and as many as its slot takes. -/
def Staged.Fills (staged : Staged) (fields : List Field) : Prop :=
  ∀ j f, fields[j]? = some f →
    ∃ bytes, staged.slotBytes? j = some bytes ∧ bytes.length = f.slotWidth

section Fill

variable {layout : TableLayout} {t : TableView} {place : Place} {staged : Staged}
  {fields : List Field} {row : List UInt8}

/-- What filling some slots of a row leads to. -/
structure FilledFrom (layout : TableLayout) (names : List String) (row row' : List UInt8) : Prop where
  length : row'.length = layout.rowSize
  others : ∀ t : TableView, t.layout = layout → ∀ g ∈ layout.fields, g.name ∉ names →
    t.slotBytes row' g.name = t.slotBytes row g.name

theorem fillSlots_run (hnodup : (layout.fields.map (·.name)).Nodup) {j : Nat}
    (hfields : ∀ f ∈ fields, f ∈ layout.fields) (hnames : (fields.map (·.name)).Nodup)
    (hfill : ∀ k f, fields[k]? = some f →
      ∃ bytes, staged.slotBytes? (j + k) = some bytes ∧ bytes.length = f.slotWidth)
    (hrow : row.length = layout.rowSize) :
    ∃ row', FilledFrom layout (fields.map (·.name)) row row' ∧
      (∀ p, (fillSlots layout place staged j (fields.map (·.name)) row).run p = .ok (row', p)) ∧
      ∀ t : TableView, t.layout = layout → ∀ k f bytes, fields[k]? = some f →
        staged.slotBytes? (j + k) = some bytes → t.slotBytes row' f.name = .ok bytes := by
  induction fields generalizing j row with
  | nil => exact ⟨row, ⟨hrow, fun _ _ _ _ _ => rfl⟩, fun _ => rfl, fun _ _ k f bytes hf => nomatch hf⟩
  | cons f fields ih =>
    obtain ⟨bytes, hbytes, hlength⟩ := hfill 0 f rfl
    have hf := hfields f List.mem_cons_self
    have hle := TableLayout.slotStart_add_le hf
    rw [List.map_cons, List.nodup_cons] at hnames
    -- the other fields are filled after the first one
    obtain ⟨row', hfilled, hrun, hheld⟩ := @ih (writeAt row (layout.slotStart f) bytes) (j + 1)
      (fun g hg => hfields g (List.mem_cons_of_mem _ hg)) hnames.2
      (fun k g hg => by rw [Nat.add_right_comm]; exact hfill (k + 1) g hg)
      (by rw [length_writeAt (by omega), hrow])
    refine ⟨row', ⟨hfilled.length, ?_⟩, ?_, ?_⟩
    · rintro t rfl g hg hother
      rw [List.map_cons, List.mem_cons, not_or] at hother
      rw [hfilled.others t rfl g hg hother.2,
        TableView.slotBytes_writeAt_of_ne hnodup hf hg (Ne.symm hother.1) hrow hlength]
    · intro p
      rw [List.map_cons, fillSlots, TableLayout.slot?_of_mem hnodup hf]
      dsimp only
      rw [Nat.add_zero] at hbytes
      rw [hbytes]
      exact hrun p
    -- the first field keeps its bytes, as no other field has its name
    · rintro t rfl k g bytes' hg hbytes'
      cases k with
      | zero =>
        obtain rfl := Option.some.inj hg
        obtain rfl := Option.some.inj (hbytes.symm.trans hbytes')
        rw [hfilled.others t rfl _ hf hnames.1,
          TableView.slotBytes_writeAt hnodup hf hrow hlength]
      | succ k =>
        refine hheld t rfl k g bytes' hg ?_
        rw [Nat.add_right_comm]
        exact hbytes'

/-- **A row that was filled** holds what was staged for each property. -/
theorem fillRow_run (hnodup : (layout.fields.map (·.name)).Nodup) {table : String}
    {filled : List (PropertyPlan × Staged)}
    (hslots : ∀ e ∈ filled, e.1.write.slots = e.1.fields.map (·.name))
    (hfields : ∀ e ∈ filled, ∀ f ∈ e.1.fields, f ∈ layout.fields)
    (hnames : (filled.flatMap fun e => e.1.fields.map (·.name)).Nodup)
    (hfill : ∀ e ∈ filled, e.2.Fills e.1.fields) (hrow : row.length = layout.rowSize) :
    ∃ row', FilledFrom layout (filled.flatMap fun e => e.1.fields.map (·.name)) row row' ∧
      (∀ p, (fillRow layout table filled row).run p = .ok (row', p)) ∧
      ∀ t : TableView, t.layout = layout → ∀ e ∈ filled, t.Holds row' e.1.fields e.2 := by
  induction filled generalizing row with
  | nil => exact ⟨row, ⟨hrow, fun _ _ _ _ _ => rfl⟩, fun _ => rfl, fun _ _ _ he => nomatch he⟩
  | cons e filled ih =>
    obtain ⟨q, staged⟩ := e
    rw [List.flatMap_cons, List.nodup_append] at hnames
    obtain ⟨hfirst, hothers, hapart⟩ := hnames
    -- the first property is filled, and then the others
    obtain ⟨row₁, hfilled₁, hrun₁, hheld₁⟩ := @fillSlots_run _
      ⟨table, q.property.name⟩ staged _ _ hnodup 0 (hfields _ List.mem_cons_self) hfirst
      (fun k f hf => by rw [Nat.zero_add]; exact hfill _ List.mem_cons_self k f hf) hrow
    obtain ⟨row', hfilled, hrun, hheld⟩ := @ih row₁
      (fun e he => hslots e (List.mem_cons_of_mem _ he))
      (fun e he => hfields e (List.mem_cons_of_mem _ he)) hothers
      (fun e he => hfill e (List.mem_cons_of_mem _ he)) hfilled₁.length
    refine ⟨row', ⟨hfilled.length, ?_⟩, ?_, ?_⟩
    · intro t ht g hg hother
      rw [List.flatMap_cons, List.mem_append, not_or] at hother
      rw [hfilled.others t ht g hg hother.2, hfilled₁.others t ht g hg hother.1]
    · intro p
      rw [fillRow, StateT.run_bind, hslots _ List.mem_cons_self, hrun₁]
      exact hrun p
    · intro t ht e he
      rcases List.mem_cons.1 he with rfl | he
      -- what the first property has is left alone by the others, whose slots lie apart
      · intro k f bytes hf hbytes
        have hmem : f.name ∈ q.fields.map (·.name) :=
          List.mem_map_of_mem (List.mem_of_getElem? hf)
        rw [hfilled.others t ht f (hfields _ List.mem_cons_self f (List.mem_of_getElem? hf))
          fun hother => hapart _ hmem _ hother rfl]
        refine hheld₁ t ht k f bytes hf ?_
        rw [Nat.zero_add]
        exact hbytes
      · exact hheld t ht e he

end Fill

end Container

end RecordTables
