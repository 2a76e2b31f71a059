import Mathlib.Data.List.Nodup
import RecordTables.Layout.Basic

/-!
# Layouts that were assembled

Whatever the steps of an assembly are, no two tables of the layout have one name, the fields of a
table are named for it, and no two of them have one name (`Layout.WellFormed`,
`Layout.WellFormed.assemble`).  If no step was refused, all fields that were asked for are there
(`Layout.mem_fields_assemble`).  In a well-formed layout a field is found in its table by its name,
and its slot lies within a row (`Layout.WellFormed.slot`).
-/

namespace RecordTables

/-! ### Slots -/

namespace TableLayout

variable {t : TableLayout} {f : Field} {i : Nat}

theorem totalWidth_take_le (fields : List Field) (i : Nat) :
    totalWidth (fields.take i) ≤ totalWidth fields := by
  have happend := totalWidth_append (fields.take i) (fields.drop i)
  rw [List.take_append_drop] at happend
  omega

/-- A slot lies within a row. -/
theorem offset_add_slotWidth_le (h : t.fields[i]? = some f) :
    t.offset i + f.slotWidth ≤ t.rowSize := by
  rw [← offset_succ h]
  exact totalWidth_take_le t.fields (i + 1)

/-- A field is found by its name if no other field has it. -/
theorem fieldIndex?_of_nodup (hnodup : (t.fields.map (·.name)).Nodup) (h : t.fields[i]? = some f) :
    t.fieldIndex? f.name = some i := by
  obtain ⟨hi, rfl⟩ := List.getElem?_eq_some_iff.1 h
  unfold fieldIndex?
  rw [List.findIdx?_eq_some_iff_getElem]
  refine ⟨hi, beq_self_eq_true _, fun j hj => ?_⟩
  intro hname
  have hlength : (t.fields.map (·.name)).length = t.fields.length := List.length_map ..
  have hsame : (t.fields.map (·.name)).get ⟨j, by omega⟩ =
      (t.fields.map (·.name)).get ⟨i, by omega⟩ := by
    rw [List.get_eq_getElem, List.get_eq_getElem, List.getElem_map, List.getElem_map]
    exact beq_iff_eq.1 hname
  have hindex : j = i := congrArg Fin.val ((List.nodup_iff_injective_get.1 hnodup) hsame)
  omega

end TableLayout

namespace Layout

variable {l : Layout} {field f : Field}

/-! ### Well-formed layouts -/

/-- No two tables have one name, and the fields of a table are named for it and told apart by their
own names. -/
structure WellFormed (l : Layout) : Prop where
  names : (l.tables.map (·.name)).Nodup
  fieldNames : ∀ t ∈ l.tables, (t.fields.map (·.name)).Nodup
  owned : ∀ t ∈ l.tables, ∀ f ∈ t.fields, f.table = t.name

theorem wellFormed_nil : WellFormed ⟨[]⟩ where
  names := List.nodup_nil
  fieldNames := fun _ h => nomatch h
  owned := fun _ h => nomatch h

theorem WellFormed.openTable (h : l.WellFormed) (name : String) (isRecord : Bool) :
    (l.openTable name isRecord).WellFormed := by
  unfold Layout.openTable
  split_ifs with hopen
  · exact h
  have hnew : name ∉ l.tables.map (·.name) := by
    intro hmem
    obtain ⟨t, ht, hname⟩ := List.mem_map.1 hmem
    exact hopen (List.any_eq_true.2 ⟨t, ht, beq_iff_eq.2 hname⟩)
  constructor
  · rw [List.map_append, List.map_singleton, ← List.concat_eq_append]
    exact h.names.concat hnew
  · intro t ht
    rcases List.mem_append.1 ht with ht | ht
    · exact h.fieldNames t ht
    · rw [List.mem_singleton.1 ht]
      exact List.nodup_nil
  · intro t ht f hf
    rcases List.mem_append.1 ht with ht | ht
    · exact h.owned t ht f hf
    · rw [List.mem_singleton.1 ht] at hf
      cases hf

/-- What became of a table when a field was put at the end of its table. -/
theorem exists_of_mem_pushField {t : TableLayout} (ht : t ∈ (l.pushField field).tables) :
    ∃ old ∈ l.tables, t.name = old.name ∧
      (t = old ∨ old.name = field.table ∧ t.fields = old.fields ++ [field]) := by
  obtain ⟨old, hold, rfl⟩ := List.mem_map.1 ht
  refine ⟨old, hold, ?_⟩
  by_cases hname : (old.name == field.table) = true
  · rw [if_pos hname]
    exact ⟨rfl, Or.inr ⟨beq_iff_eq.1 hname, rfl⟩⟩
  · rw [if_neg hname]
    exact ⟨rfl, Or.inl rfl⟩

theorem names_pushField (l : Layout) (field : Field) :
    (l.pushField field).tables.map (·.name) = l.tables.map (·.name) := by
  unfold pushField
  rw [List.map_map]
  refine List.map_congr_left fun t _ => ?_
  show (if (t.name == field.table) = true then _ else _ : TableLayout).name = t.name
  split_ifs <;> rfl

theorem WellFormed.pushField (h : l.WellFormed)
    (hnew : ¬l.hasField field.table field.name = true) : (l.pushField field).WellFormed := by
  constructor
  · rw [names_pushField]
    exact h.names
  · intro t ht
    obtain ⟨old, hold, -, rfl | ⟨hname, hfields⟩⟩ := exists_of_mem_pushField ht
    · exact h.fieldNames t hold
    rw [hfields, List.map_append, List.map_singleton, ← List.concat_eq_append]
    refine (h.fieldNames old hold).concat fun hmem => hnew ?_
    obtain ⟨f, hf, hsame⟩ := List.mem_map.1 hmem
    have htable : f.table = field.table := (h.owned old hold f hf).trans hname
    refine List.any_eq_true.2 ⟨f, List.mem_flatMap.2 ⟨old, hold, hf⟩, ?_⟩
    rw [htable, hsame, beq_self_eq_true, beq_self_eq_true]
    rfl
  · intro t ht f hf
    obtain ⟨old, hold, hsame, rfl | ⟨hname, hfields⟩⟩ := exists_of_mem_pushField ht
    · exact h.owned t hold f hf
    rw [hfields] at hf
    rcases List.mem_append.1 hf with hf | hf
    · exact (h.owned old hold f hf).trans hsame.symm
    · rw [List.mem_singleton.1 hf, ← hname, hsame]

/-! ### What opening and appending add -/

theorem fields_openTable (l : Layout) (name : String) (isRecord : Bool) :
    (l.openTable name isRecord).fields = l.fields := by
  unfold openTable
  split_ifs
  · rfl
  · unfold fields
    rw [List.flatMap_append, List.flatMap_cons, List.flatMap_nil, List.append_nil,
      List.append_nil]

theorem mem_names_openTable (l : Layout) (name : String) (isRecord : Bool) :
    name ∈ (l.openTable name isRecord).tables.map (·.name) := by
  unfold openTable
  split_ifs with hopen
  · obtain ⟨t, ht, hname⟩ := List.any_eq_true.1 hopen
    exact List.mem_map.2 ⟨t, ht, beq_iff_eq.1 hname⟩
  · rw [List.map_append]
    exact List.mem_append_right _ List.mem_cons_self

theorem mem_fields_pushField :
    f ∈ (l.pushField field).fields ↔
      f ∈ l.fields ∨ f = field ∧ field.table ∈ l.tables.map (·.name) := by
  unfold fields pushField
  rw [List.flatMap_map, List.mem_flatMap, List.mem_flatMap]
  constructor
  · rintro ⟨t, ht, hf⟩
    split_ifs at hf with hname
    · rcases List.mem_append.1 hf with hf | hf
      · exact Or.inl ⟨t, ht, hf⟩
      · exact Or.inr ⟨List.mem_singleton.1 hf, List.mem_map.2 ⟨t, ht, beq_iff_eq.1 hname⟩⟩
    · exact Or.inl ⟨t, ht, hf⟩
  · rintro (⟨t, ht, hf⟩ | ⟨rfl, hmem⟩)
    · refine ⟨t, ht, ?_⟩
      split_ifs
      · exact List.mem_append_left _ hf
      · exact hf
    · obtain ⟨t, ht, hname⟩ := List.mem_map.1 hmem
      refine ⟨t, ht, ?_⟩
      rw [if_pos (beq_iff_eq.2 hname)]
      exact List.mem_append_right _ List.mem_cons_self

/-! ### Steps of an assembly -/

/-- A field is refused if its table has one of its name, and put at the end of its table
otherwise. -/
theorem take_field (l : Layout) (field : Field) :
    l.take (.field field) =
      if l.hasField field.table field.name then (.error (.duplicateField field.table field.name), l)
      else (.ok (), (l.openTable field.table false).pushField field) := by
  simp only [Layout.take, appendField]
  split_ifs <;> rfl

theorem WellFormed.take (h : l.WellFormed) (s : Step) : (l.take s).2.WellFormed := by
  cases s with
  | table name isRecord => exact h.openTable name isRecord
  | field field =>
    rw [take_field]
    by_cases hfield : l.hasField field.table field.name = true
    · rw [if_pos hfield]
      exact h
    · rw [if_neg hfield]
      refine (h.openTable field.table false).pushField ?_
      unfold hasField at hfield ⊢
      rw [fields_openTable]
      exact hfield

/-- A field that is there stays. -/
theorem mem_fields_take (hf : f ∈ l.fields) (s : Step) : f ∈ (l.take s).2.fields := by
  cases s with
  | table name isRecord =>
    show f ∈ (l.openTable name isRecord).fields
    rw [fields_openTable]
    exact hf
  | field field =>
    rw [take_field]
    split_ifs
    · exact hf
    · refine mem_fields_pushField.2 (Or.inl ?_)
      rw [fields_openTable]
      exact hf

/-- A field that is not refused is there. -/
theorem mem_fields_take_field (h : (l.take (.field field)).1 = .ok ()) :
    field ∈ (l.take (.field field)).2.fields := by
  rw [take_field] at h ⊢
  split_ifs at h ⊢ with hfield
  exact mem_fields_pushField.2 (Or.inr ⟨rfl, mem_names_openTable _ _ _⟩)

theorem assemble_cons (l : Layout) (s : Step) (rest : List Step) :
    l.assemble (s :: rest) =
      ((l.take s).1 :: ((l.take s).2.assemble rest).1, ((l.take s).2.assemble rest).2) := rfl

theorem assemble_append (l : Layout) (first second : List Step) :
    l.assemble (first ++ second) =
      ((l.assemble first).1 ++ ((l.assemble first).2.assemble second).1,
        ((l.assemble first).2.assemble second).2) := by
  induction first generalizing l with
  | nil => rfl
  | cons s first ih =>
    rw [List.cons_append, assemble_cons, ih, assemble_cons]
    rfl

/-- **Assembled layouts are well formed**, whatever the steps are. -/
theorem WellFormed.assemble (h : l.WellFormed) (steps : List Step) :
    (l.assemble steps).2.WellFormed := by
  induction steps generalizing l with
  | nil => exact h
  | cons s steps ih => exact ih (h.take s)

theorem mem_fields_assemble_of_mem (hf : f ∈ l.fields) (steps : List Step) :
    f ∈ (l.assemble steps).2.fields := by
  induction steps generalizing l with
  | nil => exact hf
  | cons s steps ih => exact ih (mem_fields_take hf s)

/-- **Nothing is left out.**  If no step was refused, every field that was asked for is there. -/
theorem mem_fields_assemble {steps : List Step} (hok : ∀ r ∈ (l.assemble steps).1, r = .ok ())
    (hf : .field field ∈ steps) : field ∈ (l.assemble steps).2.fields := by
  induction steps generalizing l with
  | nil => cases hf
  | cons s steps ih =>
    rcases List.mem_cons.1 hf with rfl | hf
    · exact mem_fields_assemble_of_mem (mem_fields_take_field (hok _ List.mem_cons_self)) steps
    · exact ih (fun r hr => hok r (List.mem_cons_of_mem _ hr)) hf

/-- The fields that steps append. -/
def fieldsOf (steps : List Step) : List Field :=
  steps.filterMap fun
    | .table _ _ => none
    | .field field => some field

/-- **No field is put in twice.**  If no step was refused, no two of the fields that were appended,
and none of those and of the fields that were there, have one table and one name. -/
theorem nodup_fieldsOf {steps : List Step} (hok : ∀ r ∈ (l.assemble steps).1, r = .ok ()) :
    ((fieldsOf steps).map fun f => (f.table, f.name)).Nodup ∧
      ∀ f ∈ fieldsOf steps, ∀ g ∈ l.fields, g.table = f.table → g.name ≠ f.name := by
  induction steps generalizing l with
  | nil => exact ⟨List.nodup_nil, fun _ hf => nomatch hf⟩
  | cons s steps ih =>
    obtain ⟨hnodup, hnew⟩ := ih fun r hr => hok r (List.mem_cons_of_mem _ hr)
    have hold : ∀ f ∈ fieldsOf steps, ∀ g ∈ l.fields, g.table = f.table → g.name ≠ f.name :=
      fun f hf g hg => hnew f hf g (mem_fields_take hg s)
    cases s with
    | table name isRecord => exact ⟨hnodup, hold⟩
    | field field =>
      have htaken : (l.take (.field field)).1 = .ok () := hok _ List.mem_cons_self
      constructor
      · refine List.nodup_cons.2 ⟨fun hmem => ?_, hnodup⟩
        obtain ⟨f, hf, hsame⟩ := List.mem_map.1 hmem
        obtain ⟨htable, hname⟩ := Prod.mk.inj hsame
        exact hnew f hf field (mem_fields_take_field htaken) htable.symm hname.symm
      · refine List.forall_mem_cons.2 ⟨fun g hg htable hname => ?_, hold⟩
        rw [take_field, if_pos] at htaken
        · cases htaken
        · refine List.any_eq_true.2 ⟨g, hg, ?_⟩
          rw [htable, hname, beq_self_eq_true, beq_self_eq_true]
          rfl

/-- A table that was opened stays. -/
theorem mem_names_take {name : String} (h : name ∈ l.tables.map (·.name)) (s : Step) :
    name ∈ (l.take s).2.tables.map (·.name) := by
  have hopened (other : String) (isRecord : Bool) :
      name ∈ (l.openTable other isRecord).tables.map (·.name) := by
    unfold openTable
    split_ifs
    · exact h
    · rw [List.map_append]
      exact List.mem_append_left _ h
  cases s with
  | table other isRecord => exact hopened other isRecord
  | field field =>
    rw [take_field]
    split_ifs
    · exact h
    · rw [names_pushField]
      exact hopened _ _

/-- **Every table that is opened is there**, whatever the other steps are. -/
theorem mem_names_assemble {name : String} {isRecord : Bool} {steps : List Step}
    (hs : .table name isRecord ∈ steps) : name ∈ (l.assemble steps).2.tables.map (·.name) := by
  have hstays {l : Layout} (h : name ∈ l.tables.map (·.name)) (steps : List Step) :
      name ∈ (l.assemble steps).2.tables.map (·.name) := by
    induction steps generalizing l with
    | nil => exact h
    | cons s steps ih => exact ih (mem_names_take h s)
  induction steps generalizing l with
  | nil => cases hs
  | cons s steps ih =>
    rcases List.mem_cons.1 hs with rfl | hs
    · exact hstays (mem_names_openTable l name isRecord) steps
    · exact ih hs

/-! ### Finding fields -/

namespace WellFormed

variable {t : TableLayout}

/-- A table is found by its name. -/
theorem table? (h : l.WellFormed) (ht : t ∈ l.tables) : l.table? t.name = some t := by
  unfold Layout.table?
  cases hfound : l.tables.find? fun u => u.name == t.name with
  | none =>
    have hname := List.find?_eq_none.1 hfound t ht
    exact absurd (beq_self_eq_true _) hname
  | some u =>
    have hfind := List.find?_some hfound
    have hname : u.name = t.name := beq_iff_eq.1 hfind
    rw [List.inj_on_of_nodup_map h.names (List.mem_of_find?_eq_some hfound) ht hname]

theorem table?_of_mem_fields (h : l.WellFormed) (hf : f ∈ l.fields) :
    ∃ t ∈ l.tables, l.table? f.table = some t ∧ f ∈ t.fields := by
  obtain ⟨t, ht, hmem⟩ := List.mem_flatMap.1 hf
  refine ⟨t, ht, ?_, hmem⟩
  rw [h.owned t ht f hmem]
  exact h.table? ht

/-- **The slot of a field** is found by the name of the field, has the width of the field, and lies
within a row. -/
theorem slot (h : l.WellFormed) (ht : t ∈ l.tables) (hf : f ∈ t.fields) :
    ∃ start, (t.fieldIndex? f.name).bind t.slot? = some (start, start + f.slotWidth) ∧
      start + f.slotWidth ≤ t.rowSize := by
  obtain ⟨i, hi⟩ := List.getElem?_of_mem hf
  refine ⟨t.offset i, ?_, TableLayout.offset_add_slotWidth_le hi⟩
  rw [TableLayout.fieldIndex?_of_nodup (h.fieldNames t ht) hi, Option.bind_some]
  unfold TableLayout.slot?
  rw [hi]
  rfl

end WellFormed

end Layout

end RecordTables
