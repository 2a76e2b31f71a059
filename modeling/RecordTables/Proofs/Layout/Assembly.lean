import Mathlib.Data.List.Induction
import Mathlib.Logic.ExistsUnique
import RecordTables.Proofs.Container.Slots
import RecordTables.Proofs.Layout.Assembler

/-!
# What an assembly amounts to

`Layout.assemble_lawful`: a field is refused if and only if an earlier step asked for one of its
table and name, and a refused field might as well not have been asked for.  The layout is the one
that can be read off the steps (`Layout.laidOut`): its tables stand in the order in which they were
first mentioned, each with the fields that were not refused, in the order of the steps.  The slots
of a row leave no gaps and do not overlap (`TableLayout.IsTight`).

The layout is followed through the steps by taking one more at the end, since that is where tables
and fields are put (`Layout.Follows.take`).
-/

namespace RecordTables

open Schema (SchemaError)

/-! ### Slots without gaps -/

/-- No field is stored in nothing. -/
theorem Field.slotWidth_pos (f : Field) : 0 < f.slotWidth := by
  unfold Field.slotWidth
  split
  · next kind _ _ => cases kind <;> decide
  · decide

namespace TableLayout

variable {t : TableLayout} {i place start stop : Nat}

/-- The slots of a row: there is one for each field and as wide as the field, each starts where the
one before it ends, the first at the start of the row, and the last ends with the row.  So they do
not overlap, and every byte of a row lies in one of them. -/
structure IsTight (t : TableLayout) : Prop where
  hasSlot : ∀ i f, t.fields[i]? = some f → ∃ start, t.slot? i = some (start, start + f.slotWidth)
  hasField : ∀ i, (t.slot? i).isSome ↔ i < t.fields.length
  starts : ∀ start stop, t.slot? 0 = some (start, stop) → start = 0
  follows : ∀ i start stop start' stop', t.slot? i = some (start, stop) →
    t.slot? (i + 1) = some (start', stop') → start' = stop
  ends : ∀ i start stop, t.slot? i = some (start, stop) → i + 1 = t.fields.length →
    stop = t.rowSize
  isEmpty : t.fields = [] → t.rowSize = 0
  within : ∀ i start stop, t.slot? i = some (start, stop) → start < stop ∧ stop ≤ t.rowSize
  apart : ∀ i j start stop start' stop', i ≠ j → t.slot? i = some (start, stop) →
    t.slot? j = some (start', stop') → stop ≤ start' ∨ stop' ≤ start
  covers : ∀ place < t.rowSize, ∃! i, ∃ start stop, t.slot? i = some (start, stop) ∧
    start ≤ place ∧ place < stop

@[simp] theorem offset_zero (t : TableLayout) : t.offset 0 = 0 := rfl

@[simp] theorem offset_length (t : TableLayout) : t.offset t.fields.length = t.rowSize := by
  simp [offset, rowSize]

theorem slot?_eq_some_iff :
    t.slot? i = some (start, stop) ↔
      i < t.fields.length ∧ start = t.offset i ∧ stop = t.offset (i + 1) := by
  unfold slot?
  constructor
  · intro h
    obtain ⟨f, hf, hslot⟩ := Option.map_eq_some_iff.1 h
    have hi : i < t.fields.length := (List.getElem?_eq_some_iff.1 hf).1
    have hends := Prod.mk.inj hslot
    exact ⟨hi, hends.1.symm, by rw [offset_succ hf]; exact hends.2.symm⟩
  · rintro ⟨hi, rfl, rfl⟩
    have hf : t.fields[i]? = some t.fields[i] := List.getElem?_eq_getElem hi
    rw [hf, Option.map_some, offset_succ hf]

theorem offset_lt_succ (hi : i < t.fields.length) : t.offset i < t.offset (i + 1) := by
  have hwidth := t.fields[i].slotWidth_pos
  rw [offset_succ (List.getElem?_eq_getElem hi)]
  omega

/-- A byte in front of an offset lies in the slot of an earlier field. -/
theorem exists_slot_of_lt_offset {n : Nat} (h : place < t.offset n) :
    ∃ i < n, t.offset i ≤ place ∧ place < t.offset (i + 1) := by
  induction n with
  | zero => simp at h
  | succ n ih =>
    by_cases hbefore : place < t.offset n
    · obtain ⟨i, hi, hplace⟩ := ih hbefore
      exact ⟨i, by omega, hplace⟩
    · exact ⟨n, by omega, by omega, h⟩

theorem isTight (t : TableLayout) : t.IsTight where
  hasSlot := by
    intro i f hf
    refine ⟨t.offset i, ?_⟩
    rw [slot?_eq_some_iff, offset_succ hf]
    exact ⟨(List.getElem?_eq_some_iff.1 hf).1, rfl, rfl⟩
  hasField := by
    intro i
    simp [slot?]
  starts := fun start stop h => (slot?_eq_some_iff.1 h).2.1
  follows := by
    intro i start stop start' stop' h h'
    rw [(slot?_eq_some_iff.1 h).2.2, (slot?_eq_some_iff.1 h').2.1]
  ends := by
    intro i start stop h hlast
    rw [(slot?_eq_some_iff.1 h).2.2, hlast, offset_length]
  isEmpty := by
    intro hnil
    rw [rowSize, hnil]
    rfl
  within := by
    intro i start stop h
    obtain ⟨hi, rfl, rfl⟩ := slot?_eq_some_iff.1 h
    have hle : t.offset (i + 1) ≤ t.offset t.fields.length := offset_mono hi
    rw [offset_length] at hle
    exact ⟨offset_lt_succ hi, hle⟩
  apart := by
    intro i j start stop start' stop' hne h h'
    obtain ⟨-, rfl, rfl⟩ := slot?_eq_some_iff.1 h
    obtain ⟨-, rfl, rfl⟩ := slot?_eq_some_iff.1 h'
    rcases Nat.lt_or_gt_of_ne hne with hlt | hlt
    · exact Or.inl (offset_mono hlt)
    · exact Or.inr (offset_mono hlt)
  covers := by
    intro place hplace
    rw [← offset_length] at hplace
    obtain ⟨i, hi, hle, hlt⟩ := exists_slot_of_lt_offset hplace
    refine ⟨i, ⟨_, _, slot?_eq_some_iff.2 ⟨hi, rfl, rfl⟩, hle, hlt⟩, ?_⟩
    rintro j ⟨_, _, hslot, hle', hlt'⟩
    obtain ⟨-, rfl, rfl⟩ := slot?_eq_some_iff.1 hslot
    -- of two slots the one ends before the other starts, so they do not both hold the byte
    by_contra hne
    rcases Nat.lt_or_gt_of_ne hne with hbefore | hbehind
    · have hmono : t.offset (j + 1) ≤ t.offset i := offset_mono hbefore
      omega
    · have hmono : t.offset (i + 1) ≤ t.offset j := offset_mono hbehind
      omega

end TableLayout

namespace Layout

variable {steps front back : List Step} {results : List (Except SchemaError Unit)} {l : Layout}
  {fields : List Field} {field f : Field} {s : Step} {name : String}

/-! ### The layout that steps describe -/

/-- The table that a step mentions. -/
def Step.tableName : Step → String
  | .table name _ => name
  | .field f => f.table

/-- Whether a step opens its table for records; a field opens one for sub-structures. -/
def Step.opensRecord : Step → Bool
  | .table _ isRecord => isRecord
  | .field _ => false

/-- The tables that steps mention, in the order in which they are first mentioned. -/
def tableNames (steps : List Step) : List String := (steps.map Step.tableName).eraseDups

/-- Whether the first step that mentions a table opens it for records. -/
def opensRecord (steps : List Step) (name : String) : Bool :=
  ((steps.find? fun s => s.tableName == name).map Step.opensRecord).getD false

/-- The tables that steps mention, each with those of some fields that are its own. -/
def laidOut (steps : List Step) (fields : List Field) : Layout :=
  ⟨(tableNames steps).map fun name =>
    ⟨name, opensRecord steps name, fields.filter fun f => f.table == name⟩⟩

/-- The fields of the steps that were not refused, by what came of the steps. -/
def accepted (steps : List Step) (results : List (Except SchemaError Unit)) : List Field :=
  (steps.zip results).filterMap fun
    | (.field f, .ok _) => some f
    | _ => none

/-- Some steps ask for a field of the table and the name of another. -/
def AsksFor (steps : List Step) (f : Field) : Prop :=
  ∃ g, .field g ∈ steps ∧ g.table = f.table ∧ g.name = f.name

theorem mem_tableNames : name ∈ tableNames steps ↔ ∃ s ∈ steps, s.tableName = name := by
  rw [tableNames, List.mem_eraseDups, List.mem_map]

theorem tableNames_concat_of_mem (h : s.tableName ∈ tableNames steps) :
    tableNames (steps ++ [s]) = tableNames steps := by
  have hnone : [s.tableName].removeAll (steps.map Step.tableName) = [] := by
    rw [tableNames, List.mem_eraseDups] at h
    rw [List.cons_removeAll, List.contains_iff_mem.2 h]
    rfl
  unfold tableNames
  rw [List.map_append, List.map_singleton, List.eraseDups_append, hnone, List.eraseDups_nil,
    List.append_nil]

theorem tableNames_concat_of_notMem (h : s.tableName ∉ tableNames steps) :
    tableNames (steps ++ [s]) = tableNames steps ++ [s.tableName] := by
  have hone : [s.tableName].removeAll (steps.map Step.tableName) = [s.tableName] := by
    rw [tableNames, List.mem_eraseDups] at h
    have hnot : ¬ (steps.map Step.tableName).contains s.tableName = true :=
      fun hmem => h (List.contains_iff_mem.1 hmem)
    rw [List.cons_removeAll, Bool.eq_false_iff.2 hnot]
    rfl
  unfold tableNames
  rw [List.map_append, List.map_singleton, List.eraseDups_append, hone]
  rfl

theorem opensRecord_concat_of_mem (h : name ∈ tableNames steps) (s : Step) :
    opensRecord (steps ++ [s]) name = opensRecord steps name := by
  obtain ⟨first, hfirst, hname⟩ := mem_tableNames.1 h
  have hfound : (steps.find? fun s => s.tableName == name).isSome :=
    List.find?_isSome.2 ⟨first, hfirst, beq_iff_eq.2 hname⟩
  unfold opensRecord
  rw [List.find?_append, Option.or_of_isSome hfound]

theorem opensRecord_concat_of_notMem (h : s.tableName ∉ tableNames steps) :
    opensRecord (steps ++ [s]) s.tableName = s.opensRecord := by
  have hnone : (steps.find? fun t => t.tableName == s.tableName) = none := by
    refine List.find?_eq_none.2 fun t ht hname => h ?_
    exact mem_tableNames.2 ⟨t, ht, beq_iff_eq.1 hname⟩
  unfold opensRecord
  rw [List.find?_append, hnone, Option.none_or]
  simp

theorem names_laidOut (steps : List Step) (fields : List Field) :
    (laidOut steps fields).tables.map (·.name) = tableNames steps := by
  unfold laidOut
  rw [List.map_map]
  exact List.map_id _

theorem any_name_laidOut :
    (laidOut steps fields).tables.any (fun t => t.name == name) = true ↔
      name ∈ tableNames steps := by
  rw [← names_laidOut steps fields, List.any_eq_true, List.mem_map]
  simp only [beq_iff_eq]

/-- Opening the table that a step mentions is what one more step describes. -/
theorem openTable_laidOut (howned : ∀ f ∈ fields, f.table ∈ tableNames steps) (s : Step) :
    (laidOut steps fields).openTable s.tableName s.opensRecord = laidOut (steps ++ [s]) fields := by
  have hstays : (tableNames steps).map (fun name => (⟨name, opensRecord (steps ++ [s]) name,
      fields.filter fun f => f.table == name⟩ : TableLayout)) = (laidOut steps fields).tables := by
    refine List.map_congr_left fun name hname => ?_
    rw [opensRecord_concat_of_mem hname]
  unfold openTable
  by_cases hmem : s.tableName ∈ tableNames steps
  · rw [if_pos (any_name_laidOut.2 hmem), laidOut.eq_def (steps ++ [s]),
      tableNames_concat_of_mem hmem, hstays]
  · have hnone : (fields.filter fun f => f.table == s.tableName) = [] := by
      refine List.filter_eq_nil_iff.2 fun f hf hname => hmem ?_
      rw [← beq_iff_eq.1 hname]
      exact howned f hf
    rw [if_neg fun h => hmem (any_name_laidOut.1 h), laidOut.eq_def (steps ++ [s]),
      tableNames_concat_of_notMem hmem, List.map_append, hstays, List.map_singleton, hnone,
      opensRecord_concat_of_notMem hmem]

/-- A field that is put at the end of its table comes last among the fields. -/
theorem pushField_laidOut (steps : List Step) (fields : List Field) (field : Field) :
    (laidOut steps fields).pushField field = laidOut steps (fields ++ [field]) := by
  unfold pushField laidOut
  rw [List.map_map]
  congr 1
  refine List.map_congr_left fun name _ => ?_
  simp only [Function.comp_apply, List.filter_append]
  by_cases hname : name = field.table
  · simp [hname]
  · have hother : field.table ≠ name := Ne.symm hname
    simp [hname, hother]

theorem hasField_laidOut (howned : ∀ f ∈ fields, f.table ∈ tableNames steps) :
    (laidOut steps fields).hasField field.table field.name = true ↔
      ∃ g ∈ fields, g.table = field.table ∧ g.name = field.name := by
  have hmem (g : Field) : g ∈ (laidOut steps fields).fields ↔ g ∈ fields := by
    unfold laidOut Layout.fields
    rw [List.flatMap_map, List.mem_flatMap]
    constructor
    · rintro ⟨name, -, hg⟩
      exact (List.mem_filter.1 hg).1
    · intro hg
      exact ⟨g.table, howned g hg, List.mem_filter.2 ⟨hg, beq_self_eq_true _⟩⟩
  unfold hasField
  rw [List.any_eq_true]
  simp only [hmem, Bool.and_eq_true, beq_iff_eq]

/-! ### Following the steps -/

theorem length_assemble (l : Layout) (steps : List Step) :
    (l.assemble steps).1.length = steps.length := by
  induction steps generalizing l with
  | nil => rfl
  | cons s steps ih =>
    simp only [assemble, List.length_cons, ih]

/-- What came of a step shows up where the step stands. -/
theorem getElem?_assemble (l : Layout) (front : List Step) (s : Step) (back : List Step) :
    (l.assemble (front ++ s :: back)).1[front.length]? =
      some ((l.assemble front).2.take s).1 := by
  have hlength := length_assemble l front
  rw [assemble_append]
  show ((l.assemble front).1 ++ _)[front.length]? = _
  rw [List.getElem?_append_right (by omega), hlength, Nat.sub_self]
  rfl

theorem accepted_append {results' : List (Except SchemaError Unit)}
    (h : results.length = front.length) :
    accepted (front ++ back) (results ++ results') =
      accepted front results ++ accepted back results' := by
  unfold accepted
  rw [List.zip_append h.symm, List.filterMap_append]

/-- Results behind those of the steps do not count. -/
theorem accepted_append_right {results' : List (Except SchemaError Unit)}
    (h : results.length = front.length) :
    accepted front (results ++ results') = accepted front results := by
  have happend : accepted (front ++ []) (results ++ results') =
      accepted front results ++ accepted [] results' := accepted_append h
  have hnil : accepted [] results' = [] := rfl
  rw [List.append_nil, hnil, List.append_nil] at happend
  exact happend

theorem mem_of_mem_accepted (hf : f ∈ accepted steps results) : .field f ∈ steps := by
  obtain ⟨⟨s, r⟩, hpair, hsome⟩ := List.mem_filterMap.1 hf
  have hmem : s ∈ steps := (List.of_mem_zip hpair).1
  split at hsome
  · next heq =>
    have hstep := (Prod.mk.inj heq).1
    rw [← Option.some.inj hsome, ← hstep]
    exact hmem
  · cases hsome

theorem table_mem_of_mem_accepted (hf : f ∈ accepted steps results) :
    f.table ∈ tableNames steps :=
  mem_tableNames.2 ⟨.field f, mem_of_mem_accepted hf, rfl⟩

/-- What came of some steps and the layout they lead to belong together: the layout is the one that
the steps describe with the fields that were not refused, and of every field that was asked for one
of its table and name was not refused. -/
structure Follows (steps : List Step) (results : List (Except SchemaError Unit)) (l : Layout) :
    Prop where
  length : results.length = steps.length
  laid : l = laidOut steps (accepted steps results)
  stands : ∀ f, AsksFor steps f → ∃ g ∈ accepted steps results, g.table = f.table ∧ g.name = f.name

theorem Follows.hasField_iff (h : Follows steps results l) :
    l.hasField field.table field.name = true ↔
      ∃ g ∈ accepted steps results, g.table = field.table ∧ g.name = field.name := by
  rw [h.laid]
  exact hasField_laidOut fun _ hf => table_mem_of_mem_accepted hf

theorem Follows.asksFor_iff (h : Follows steps results l) :
    AsksFor steps f ↔ ∃ g ∈ accepted steps results, g.table = f.table ∧ g.name = f.name := by
  refine ⟨h.stands f, ?_⟩
  rintro ⟨g, hg, hsame⟩
  exact ⟨g, mem_of_mem_accepted hg, hsame⟩

theorem asksFor_concat :
    AsksFor (steps ++ [s]) f ↔
      AsksFor steps f ∨ ∃ g, s = .field g ∧ g.table = f.table ∧ g.name = f.name := by
  unfold AsksFor
  constructor
  · rintro ⟨g, hg, hsame⟩
    rcases List.mem_append.1 hg with hg | hg
    · exact Or.inl ⟨g, hg, hsame⟩
    · exact Or.inr ⟨g, (List.mem_singleton.1 hg).symm, hsame⟩
  · rintro (⟨g, hg, hsame⟩ | ⟨g, rfl, hsame⟩)
    · exact ⟨g, List.mem_append_left _ hg, hsame⟩
    · exact ⟨g, List.mem_append_right _ List.mem_cons_self, hsame⟩

/-- One more step, by what is accepted of it. -/
theorem Follows.concat {r : Except SchemaError Unit} {l' : Layout} (h : Follows steps results l)
    (hlaid : l' = laidOut (steps ++ [s]) (accepted steps results ++ accepted [s] [r]))
    (hstands : ∀ f, s = .field f →
      ∃ g ∈ accepted steps results ++ accepted [s] [r], g.table = f.table ∧ g.name = f.name) :
    Follows (steps ++ [s]) (results ++ [r]) l' := by
  have hfields : accepted (steps ++ [s]) (results ++ [r]) =
      accepted steps results ++ accepted [s] [r] := accepted_append h.length
  refine ⟨?_, ?_, fun f hf => ?_⟩
  · rw [List.length_append, List.length_append, h.length]
    rfl
  · rw [hfields, hlaid]
  · rw [hfields]
    rcases asksFor_concat.1 hf with hf | ⟨g, hg, htable, hname⟩
    · obtain ⟨g, hg, hsame⟩ := h.stands f hf
      exact ⟨g, List.mem_append_left _ hg, hsame⟩
    · obtain ⟨g', hg', htable', hname'⟩ := hstands g hg
      exact ⟨g', hg', htable'.trans htable, hname'.trans hname⟩

/-- **One more step** is taken as the steps describe it. -/
theorem Follows.take (h : Follows steps results l) (s : Step) :
    Follows (steps ++ [s]) (results ++ [(l.take s).1]) (l.take s).2 := by
  have howned : ∀ f ∈ accepted steps results, f.table ∈ tableNames steps :=
    fun _ hf => table_mem_of_mem_accepted hf
  have hopened : l.openTable s.tableName s.opensRecord =
      laidOut (steps ++ [s]) (accepted steps results) := by
    rw [h.laid]
    exact openTable_laidOut howned s
  cases s with
  | table name isRecord =>
    refine h.concat ?_ fun f hf => nomatch hf
    show l.openTable name isRecord = laidOut _ (accepted steps results ++ [])
    rw [List.append_nil]
    exact hopened
  | field field =>
    rw [take_field]
    by_cases hrefused : l.hasField field.table field.name = true
    · have hstands := h.hasField_iff.1 hrefused
      have hknown : field.table ∈ tableNames steps := by
        obtain ⟨g, hg, htable, -⟩ := hstands
        rw [← htable]
        exact howned g hg
      rw [if_pos hrefused]
      refine h.concat ?_ fun f hf => ?_
      · -- the table of a refused field is open, so opening it would change nothing
        show l = laidOut _ (accepted steps results ++ [])
        rw [List.append_nil, ← hopened, h.laid]
        exact (if_pos (any_name_laidOut.2 hknown)).symm
      · show ∃ g ∈ accepted steps results ++ [], _
        rw [List.append_nil, ← Step.field.inj hf]
        exact hstands
    · rw [if_neg hrefused]
      refine h.concat ?_ fun f hf => ?_
      · show (l.openTable field.table false).pushField field =
          laidOut _ (accepted steps results ++ [field])
        rw [← pushField_laidOut, ← hopened]
        rfl
      · rw [← Step.field.inj hf]
        exact ⟨field, List.mem_append_right _ List.mem_cons_self, rfl, rfl⟩

/-- The layout follows any steps from the beginning. -/
theorem follows_assemble (steps : List Step) :
    Follows steps ((⟨[]⟩ : Layout).assemble steps).1 ((⟨[]⟩ : Layout).assemble steps).2 := by
  induction steps using List.reverseRecOn with
  | nil => exact ⟨rfl, rfl, fun f hf => by obtain ⟨g, hg, -⟩ := hf; cases hg⟩
  | append_singleton steps s ih =>
    rw [assemble_append]
    exact ih.take s

/-- Fields are accepted if no two of them have one table and one name. -/
theorem assemble_ok_of_nodup (hnodup : ((fieldsOf steps).map fun f => (f.table, f.name)).Nodup) :
    ∀ r ∈ ((⟨[]⟩ : Layout).assemble steps).1, r = .ok () := by
  intro r hr
  obtain ⟨i, hi, rfl⟩ := List.mem_iff_getElem.1 hr
  rw [length_assemble] at hi
  -- the result stands where its step does, between those in front of it and those behind it
  have hsplit : steps = steps.take i ++ steps[i] :: steps.drop (i + 1) := by
    rw [← List.drop_eq_getElem_cons hi, List.take_append_drop]
  have hresult := getElem?_assemble ⟨[]⟩ (steps.take i) steps[i] (steps.drop (i + 1))
  rw [← hsplit, List.length_take_of_le (Nat.le_of_lt hi)] at hresult
  rw [(List.getElem?_eq_some_iff.1 hresult).2]
  cases hstep : steps[i] with
  | table name isRecord => rfl
  | field f =>
    rw [take_field, if_neg]
    intro hrefused
    obtain ⟨g, hg, htable, hname⟩ := (follows_assemble (steps.take i)).hasField_iff.1 hrefused
    have hfront : g ∈ fieldsOf (steps.take i) :=
      List.mem_filterMap.2 ⟨_, mem_of_mem_accepted hg, rfl⟩
    rw [hsplit, hstep] at hnodup
    unfold fieldsOf at hnodup hfront
    rw [List.filterMap_append, List.filterMap_cons, List.map_append, List.map_cons] at hnodup
    apply (List.nodup_append.1 hnodup).2.2 _ (List.mem_map_of_mem hfront) _ List.mem_cons_self
    rw [htable, hname]

/-- A step that fails leaves the layout as it was. -/
theorem take_of_error {e : SchemaError} (h : (l.take s).1 = .error e) : (l.take s).2 = l := by
  cases s with
  | table name isRecord => cases h
  | field field =>
    rw [take_field] at h ⊢
    split_ifs at h ⊢
    rfl

/-- A step that fails might as well not have been taken. -/
theorem assemble_eraseIdx {i : Nat} {e : SchemaError}
    (h : (l.assemble steps).1[i]? = some (.error e)) :
    l.assemble (steps.eraseIdx i) = ((l.assemble steps).1.eraseIdx i, (l.assemble steps).2) := by
  induction steps generalizing l i with
  | nil => cases h
  | cons s steps ih =>
    cases i with
    | zero =>
      have herror : (l.take s).1 = .error e := Option.some.inj h
      show l.assemble steps = (((l.take s).2.assemble steps).1, ((l.take s).2.assemble steps).2)
      rw [take_of_error herror]
    | succ i =>
      have hrest := ih (l := (l.take s).2) h
      simp only [List.eraseIdx_cons_succ, assemble, hrest]

/-! ### The result -/

/-- What came of an assembly: what became of each step, and the layout that is finished. -/
structure IsAssembly (steps : List Step) (results : List (Except SchemaError Unit)) (l : Layout) :
    Prop where
  /-- Every step has a result. -/
  length : results.length = steps.length
  /-- Opening a table never fails. -/
  opens : ∀ front name isRecord back, steps = front ++ .table name isRecord :: back →
    results[front.length]? = some (.ok ())
  /-- A field is refused if an earlier step asked for one of its table and name. -/
  refuses : ∀ front f back, steps = front ++ .field f :: back → AsksFor front f →
    results[front.length]? = some (.error (.duplicateField f.table f.name))
  /-- Otherwise it is not. -/
  appends : ∀ front f back, steps = front ++ .field f :: back → ¬ AsksFor front f →
    results[front.length]? = some (.ok ())
  /-- The first of the steps that asked for it was not refused. -/
  stands : ∀ front f back, steps = front ++ .field f :: back →
    (AsksFor front f ↔ ∃ g ∈ accepted front results, g.table = f.table ∧ g.name = f.name)
  /-- Without a step that fails, everything else is the same. -/
  drops : ∀ i e, results[i]? = some (.error e) →
    (⟨[]⟩ : Layout).assemble (steps.eraseIdx i) = (results.eraseIdx i, l)
  /-- The tables are the ones that were mentioned, in the order of first mention. -/
  names : l.tables.map (·.name) = tableNames steps
  /-- A table holds the fields that were asked for and not refused, in the order of the steps, and
  is for what its first mention says. -/
  tables : ∀ t ∈ l.tables,
    t.fields = (accepted steps results).filter (fun f => f.table == t.name) ∧
      t.isRecord = opensRecord steps t.name
  /-- The slots of its fields fill a row exactly. -/
  tight : ∀ t ∈ l.tables, t.IsTight

/-- **Assembling keeps order, tells fields apart and leaves no gaps**, whatever the steps are. -/
theorem assemble_lawful (steps : List Step) :
    IsAssembly steps ((⟨[]⟩ : Layout).assemble steps).1 ((⟨[]⟩ : Layout).assemble steps).2 := by
  have hall := follows_assemble steps
  -- what a step meets is what the steps in front of it lead to
  have hfront (front : List Step) := follows_assemble front
  refine ⟨hall.length, ?_, ?_, ?_, ?_, fun i e h => assemble_eraseIdx h, ?_, ?_, ?_⟩
  · rintro front name isRecord back rfl
    exact getElem?_assemble _ front _ back
  · rintro front f back rfl hasked
    have hrefused := (hfront front).hasField_iff.2 ((hfront front).asksFor_iff.1 hasked)
    rw [getElem?_assemble, take_field, if_pos hrefused]
  · rintro front f back rfl hnew
    have hfresh : ¬ ((⟨[]⟩ : Layout).assemble front).2.hasField f.table f.name = true :=
      fun hfield => hnew ((hfront front).asksFor_iff.2 ((hfront front).hasField_iff.1 hfield))
    rw [getElem?_assemble, take_field, if_neg hfresh]
  · rintro front f back rfl
    have hsame : accepted front ((⟨[]⟩ : Layout).assemble (front ++ .field f :: back)).1 =
        accepted front ((⟨[]⟩ : Layout).assemble front).1 := by
      rw [assemble_append]
      exact accepted_append_right (length_assemble _ front)
    rw [hsame]
    exact (hfront front).asksFor_iff
  · rw [hall.laid, names_laidOut]
  · intro t ht
    rw [hall.laid] at ht
    obtain ⟨name, -, rfl⟩ := List.mem_map.1 ht
    exact ⟨rfl, rfl⟩
  · exact fun t _ => t.isTight

end Layout

end RecordTables
