import RecordTables.Proofs.Cell.Reading
import RecordTables.Proofs.Container.ReadBack

/-!
# Which values that were read can be written

Writing refuses a value whose cell would read back as something else, so not every value that a cell
is read as can be written again: reading is less strict about the characters that structure a tuple,
and about brackets with nothing in them.  `Context.CellObstacle` lists what stands in the way, by the
value alone: a text with a reserved character where it stands, or a list or a sub-structure whose only
component is blank (`Context.Blank`).

`Registration.encode_of_decode`: a value that was read, and whose leaves are legible, is written as a
cell that reads back as the value exactly if there is no obstacle, and otherwise it is refused because
of one.
-/

namespace RecordTables

open Schema

/-- References that go both ways: each identifier has no blanks around it, is not blank, and is that
of the record that it names. -/
structure References.IsPaired (references : References) : Prop where
  guid?_iff : ∀ target identifier guid, references.guid? target identifier = some guid ↔
    references.identifier? target guid = some identifier
  trimmed : ∀ target guid identifier, references.identifier? target guid = some identifier →
    Text.trimmed identifier = identifier ∧ Text.isBlankText identifier = false

theorem References.IsPaired.readBack {references : References} (h : references.IsPaired) :
    references.ReadBack := by
  intro target guid identifier hidentifier
  obtain ⟨htrimmed, hblank⟩ := h.trimmed target guid identifier hidentifier
  exact ⟨htrimmed, hblank, (h.guid?_iff target identifier guid).2 hidentifier⟩

namespace Cell.Context

open Text

section

variable (ctx : Context)

/-- A value with the given arrangement has one component, and that is blank. -/
inductive Blank : Outline → Value → Prop where
  | leaf {vt : ValueType} {v : Value} {text : List Char} (htext : ctx.writeLeaf vt v = .ok text)
      (hblank : text.all isBlank = true) : Blank (.leaf vt) v
  | nested (vt : ValueType) : Blank (.nested vt) (.list [])
  | struct {name : String} {fields : List (String × Outline)} {values : List (String × Value)}
      {f : String × Outline} {v : Value} (hone : Outline.arityOfFields fields = 1) (hf : f ∈ fields)
      (hv : Value.field? values f.1 = some v) (h : Blank f.2 v) :
      Blank (.struct name fields) (.struct values)

/-- What stands in the way of writing a value with the given arrangement as components. -/
inductive Obstacle : Outline → Value → CellLoss → Prop where
  | mark {vt : ValueType} {v : Value} {text : List Char} {c : Char}
      (htext : ctx.writeLeaf vt v = .ok text) (hc : c ∈ text) (hmark : c ∈ tupleMarks) :
      Obstacle (.leaf vt) v .reservedCharacter
  | field {name : String} {fields : List (String × Outline)} {values : List (String × Value)}
      {f : String × Outline} {v : Value} {loss : CellLoss} (hf : f ∈ fields)
      (hv : Value.field? values f.1 = some v) (h : Obstacle f.2 v loss) :
      Obstacle (.struct name fields) (.struct values) loss
  | element {vt : ValueType} {outline : Outline} {items : List Value} {v : Value} {loss : CellLoss}
      (houtline : ctx.registry.outline? vt = some outline) (hv : v ∈ items)
      (h : Obstacle outline v loss) : Obstacle (.nested vt) (.list items) loss
  | blank {vt : ValueType} {outline : Outline} {v : Value}
      (houtline : ctx.registry.outline? vt = some outline) (h : ctx.Blank outline v) :
      Obstacle (.nested vt) (.list [v]) .blankNestedList

/-- What stands in the way of writing the value of a property as a cell. -/
inductive CellObstacle (p : Property) : Value → CellLoss → Prop where
  /-- A component of a sub-structure. -/
  | component {name : String} {outline : Outline} {v : Value} {loss : CellLoss}
      (hp : p.shape = .single (.embedded name))
      (houtline : ctx.registry.outline? (.embedded name) = some outline)
      (h : ctx.Obstacle outline v loss) : CellObstacle p v loss
  /-- A sub-structure that cannot be told from none. -/
  | blankStruct {name : String} {outline : Outline} {v : Value}
      (hp : p.shape = .single (.embedded name))
      (houtline : ctx.registry.outline? (.embedded name) = some outline) (h : ctx.Blank outline v) :
      CellObstacle p v .blankStruct
  /-- A component of a tuple in a list. -/
  | element {vt : ValueType} {outline : Outline} {items : List Value} {v : Value} {loss : CellLoss}
      (hp : p.shape = .list vt) (htuple : takesTuple vt = true)
      (houtline : ctx.registry.outline? vt = some outline) (hv : v ∈ items)
      (h : ctx.Obstacle outline v loss) : CellObstacle p (.list items) loss
  /-- An element in which the list would be cut. -/
  | mark {vt : ValueType} {items : List Value} {v : Value} {text : List Char}
      (hp : p.shape = .list vt) (hv : v ∈ items) (htext : ctx.writeLeaf vt v = .ok text)
      (hmark : listMark vt ∈ text) : CellObstacle p (.list items) .reservedCharacter
  /-- A list that cannot be told from the empty one. -/
  | blankList {vt : ValueType} {outline : Outline} {v : Value} (hp : p.shape = .list vt)
      (houtline : ctx.registry.outline? vt = some outline) (h : ctx.Blank outline v) :
      CellObstacle p (.list [v]) .blankList

end

variable {ctx : Context} {outline : Outline} {v : Value} {vt : ValueType} {e : CellError}
  {fuel : Nat} {fields : List (String × Outline)} {values : List (String × Value)}
  {parts : List (List Char)} {nested : ValueType → Value → Except CellError (List Char)}

/-! ### Leaves -/

theorem reserve_eq_error {marks text : List Char} (h : reserve marks text = .error e) :
    e = .unrepresentable .reservedCharacter ∧ ∃ c ∈ text, c ∈ marks := by
  unfold reserve at h
  split at h
  · next hany =>
    obtain ⟨c, hc, hmark⟩ := List.any_eq_true.1 hany
    exact ⟨(Except.error.inj h).symm, c, hc, List.contains_iff_mem.1 hmark⟩
  · cases h

/-- A member that was read is a member that can be written. -/
theorem exists_writeLeaf_enum (hr : ctx.registry.IsSound) {name : String} {cs : List Char}
    (h : ctx.readMember name cs = .ok v) : ∃ text, ctx.writeLeaf (.enum name) v = .ok text := by
  have hfirst : ∀ {e : EnumDeclaration} {member : EnumMember}, member ∈ e.members →
      (e.valueOf? member.name).isSome = true := by
    intro e member hmember
    unfold EnumDeclaration.valueOf?
    rw [Option.isSome_map]
    exact List.find?_isSome.2 ⟨member, hmember, beq_iff_eq.2 rfl⟩
  unfold readMember at h
  split at h
  · cases h
  next e he =>
  suffices hmember : ∃ member, v = .enum member ∧ (e.valueOf? member).isSome = true by
    obtain ⟨member, rfl, hmember⟩ := hmember
    refine ⟨member.toList, ?_⟩
    unfold writeLeaf
    dsimp only
    rw [he]
    exact if_pos hmember
  dsimp only at h
  split_ifs at h with hempty hname
  · -- a blank is the first member, and there is one
    have hne : e.members ≠ [] :=
      (Registration.members_of_enumFault? (hr.enums e (List.mem_of_find?_eq_some he))).1
    obtain ⟨first, rest, hcons⟩ := List.exists_cons_of_ne_nil hne
    refine ⟨first.name, ?_, hfirst (hcons ▸ List.mem_cons_self)⟩
    obtain rfl := Except.ok.inj h
    rw [Registry.defaultElement, he, Option.bind_some, hcons]
    rfl
  · exact ⟨_, (Except.ok.inj h).symm, hname⟩
  · split at h
    · next member hmember =>
      obtain ⟨n, -, hn⟩ := Option.bind_eq_some_iff.1 hmember
      obtain ⟨m, hm, rfl⟩ := Option.map_eq_some_iff.1 hn
      exact ⟨m.name, (Except.ok.inj h).symm, hfirst (List.mem_of_find?_eq_some hm)⟩
    · cases h

/-- An instant of a year with four digits can be written. -/
theorem exists_writeLeaf_dateTime {ms : Int64}
    (hlegible : ctx.Legible (.single (.time .dateTime)) (.dateTime ms)) :
    ∃ text, ctx.writeLeaf (.time .dateTime) (.dateTime ms) = .ok text := by
  obtain ⟨hlow, hhigh⟩ : 0 ≤ (Calendar.ofDay (ms.toInt / 86400000)).year ∧
    (Calendar.ofDay (ms.toInt / 86400000)).year ≤ 9999 := hlegible
  have hdate : Calendar.date? (ms.toInt / 86400000) =
      some (Calendar.ofDay (ms.toInt / 86400000)) := by
    unfold Calendar.date? Calendar.firstYear Calendar.lastYear
    dsimp only
    rw [if_pos]
    rw [Bool.and_eq_true, decide_eq_true_eq, decide_eq_true_eq]
    omega
  unfold writeLeaf writeDateTime DateTime.text?
  dsimp only
  rw [hdate]
  exact ⟨_, rfl⟩

/-- A key that was read is trimmed, so it can be written. -/
theorem exists_writeLeaf_asset {cs : List Char} (hne : ¬(trim cs).isEmpty = true) :
    ∃ text, ctx.writeLeaf .asset (.asset (some (String.ofList (trim cs)))) = .ok text := by
  have htrimmed : trimmed (String.ofList (trim cs)) = String.ofList (trim cs) := by
    unfold trimmed
    rw [String.toList_ofList, trim_trim]
  have hkey : ¬((String.ofList (trim cs)).isEmpty ||
      trimmed (String.ofList (trim cs)) != String.ofList (trim cs)) = true := by
    rw [htrimmed, bne_self_eq_false, Bool.or_false, String.isEmpty_iff]
    intro hnil
    refine hne (List.isEmpty_iff.2 ?_)
    rw [← String.toList_ofList (l := trim cs), hnil]
    rfl
  exact ⟨_, if_neg hkey⟩

/-- **A legible leaf that was read can be written.** -/
theorem exists_writeLeaf (hr : ctx.registry.IsSound) (hreferences : ctx.references.IsPaired)
    {cs : List Char} (h : ctx.readLeaf vt cs = .ok v) (hlegible : ctx.Legible (.single vt) v) :
    ∃ text, ctx.writeLeaf vt v = .ok text := by
  unfold readLeaf at h
  dsimp only at h
  cases vt with
  | string | localizedText =>
    obtain rfl := Except.ok.inj h
    exact ⟨_, rfl⟩
  | enum name => exact exists_writeLeaf_enum hr h
  | scalar kind =>
    obtain ⟨s, hs, rfl⟩ := map_eq_ok.1 h
    exact ⟨_, if_pos (readScalar_eq_ok hs).1⟩
  | time kind =>
    cases kind with
    | duration =>
      dsimp only at h
      split_ifs at h
      · obtain rfl := Except.ok.inj h
        exact ⟨_, rfl⟩
      · obtain ⟨ms, -, rfl⟩ := map_eq_ok.1 h
        exact ⟨_, rfl⟩
    | dateTime =>
      obtain ⟨ms, rfl⟩ : ∃ ms, v = .dateTime ms := by
        dsimp only at h
        split_ifs at h
        · exact ⟨0, (Except.ok.inj h).symm⟩
        · obtain ⟨ms, -, rfl⟩ := map_eq_ok.1 h
          exact ⟨ms, rfl⟩
      exact exists_writeLeaf_dateTime hlegible
  | recordRef target =>
    dsimp only at h
    split_ifs at h
    · obtain rfl := Except.ok.inj h
      exact ⟨_, rfl⟩
    · split at h
      · next guid hguid =>
        obtain rfl := Except.ok.inj h
        -- the identifier that named the record is written for it again
        have hidentifier := (hreferences.guid?_iff _ _ _).1 hguid
        refine ⟨(String.ofList (trim cs)).toList, ?_⟩
        unfold writeLeaf
        dsimp only
        rw [hidentifier]
      · cases h
  | asset =>
    obtain rfl := Except.ok.inj h
    by_cases hempty : (trim cs).isEmpty = true
    · rw [if_pos hempty]
      exact ⟨_, rfl⟩
    · rw [if_neg hempty]
      exact exists_writeLeaf_asset hempty
  | embedded name => cases h
  | composite shape => cases h

/-! ### Fields -/

theorem exists_writeParts_of_mem (h : ctx.writeFields nested fields values = .ok parts)
    {f : String × Outline} (hf : f ∈ fields) (hv : Value.field? values f.1 = some v) :
    ∃ parts', ctx.writeParts nested f.2 v = .ok parts' := by
  induction fields generalizing parts with
  | nil => cases hf
  | cons g fields ih =>
    rw [writeFields] at h
    obtain ⟨first, hfirst, h⟩ := bind_eq_ok.1 h
    obtain ⟨others, hothers, -⟩ := bind_eq_ok.1 h
    rcases List.mem_cons.1 hf with rfl | hf
    · rw [hv] at hfirst
      exact ⟨first, hfirst⟩
    · exact ih hothers hf

theorem exists_of_writeFields_eq_error (h : ctx.writeFields nested fields values = .error e) :
    ∃ f ∈ fields, ctx.writeParts nested f.2
      ((Value.field? values f.1).getD (ctx.absentField f.2)) = .error e := by
  induction fields with
  | nil =>
    rw [writeFields] at h
    cases h
  | cons g fields ih =>
    rw [writeFields] at h
    rcases bind_eq_error.1 h with h | ⟨first, -, h⟩
    · exact ⟨g, List.mem_cons_self, h⟩
    · rcases bind_eq_error.1 h with h | ⟨others, -, h⟩
      · obtain ⟨f, hf, h⟩ := ih h
        exact ⟨f, List.mem_cons_of_mem _ hf, h⟩
      · cases h

theorem arity_le_of_mem {f : String × Outline} (hf : f ∈ fields) :
    f.2.arity ≤ Outline.arityOfFields fields := by
  induction fields with
  | nil => cases hf
  | cons g fields ih =>
    rw [Outline.arityOfFields]
    rcases List.mem_cons.1 hf with rfl | hf
    · omega
    · have hle := ih hf
      omega

/-- A sub-structure with one component has one field with one component, and is written as that. -/
theorem writeParts_of_arity_one (hnested : ∀ vt v cs, nested vt v = .ok cs → Tidy cs)
    (h : ctx.writeFields nested fields values = .ok parts)
    (hone : Outline.arityOfFields fields = 1) {f : String × Outline} (hf : f ∈ fields)
    (harity : f.2.arity = 1) :
    ctx.writeParts nested f.2 ((Value.field? values f.1).getD (ctx.absentField f.2)) =
      .ok parts := by
  induction fields generalizing parts with
  | nil => cases hf
  | cons g fields ih =>
    rw [writeFields] at h
    rw [Outline.arityOfFields] at hone
    obtain ⟨first, hfirst, h⟩ := bind_eq_ok.1 h
    obtain ⟨others, hothers, h⟩ := bind_eq_ok.1 h
    obtain rfl := Except.ok.inj h
    have hfirstLength := (writeParts_spec hnested g.2 _ hfirst).1
    have hothersLength := (writeFields_spec hnested fields values hothers).1
    rcases List.mem_cons.1 hf with rfl | hf
    · have hnone : others = [] := List.length_eq_zero_iff.1 (by omega)
      rw [hnone, List.append_nil]
      exact hfirst
    · have hle := arity_le_of_mem hf
      have hnone : first = [] := List.length_eq_zero_iff.1 (by omega)
      rw [hnone, List.nil_append]
      exact ih hothers (by omega) hf

theorem exists_of_arity_one (hone : Outline.arityOfFields fields = 1) :
    ∃ f ∈ fields, f.2.arity = 1 := by
  induction fields with
  | nil => cases hone
  | cons f fields ih =>
    rw [Outline.arityOfFields] at hone
    by_cases hf : f.2.arity = 1
    · exact ⟨f, List.mem_cons_self, hf⟩
    · obtain ⟨g, hg, harity⟩ := ih (by omega)
      exact ⟨g, List.mem_cons_of_mem _ hg, harity⟩

/-! ### Blank components -/

theorem Blank.arity (h : ctx.Blank outline v) : outline.arity = 1 := by
  cases h with
  | leaf | nested => rfl
  | struct hone => exact hone

/-- Two components and more are not blank together. -/
theorem all_isBlank_of_two {mark : Char} (hmark : isBlank mark = false) (h : 2 ≤ parts.length) :
    (joinWith mark parts).all isBlank = false := by
  match parts, h with
  | part :: next :: parts, _ => exact all_isBlank_joinWith hmark part next parts

/-- The component of a blank value is written blank. -/
theorem Blank.all_isBlank (h : ctx.Blank outline v)
    (hparts : ctx.writeParts (ctx.writeNested fuel) outline v = .ok parts) :
    (joinWith componentMark parts).all isBlank = true := by
  induction h generalizing parts with
  | leaf htext hblank =>
    rw [writeParts, htext, ok_bind] at hparts
    obtain ⟨part, hpart, hparts⟩ := bind_eq_ok.1 hparts
    obtain rfl := Except.ok.inj hparts
    obtain ⟨rfl, -⟩ := reserve_eq_ok.1 hpart
    rw [joinWith_singleton]
    exact hblank
  | nested vt =>
    rw [writeParts] at hparts
    obtain ⟨part, hpart, hparts⟩ := bind_eq_ok.1 hparts
    obtain rfl := Except.ok.inj hparts
    rw [joinWith_singleton]
    rcases writeNested_eq_ok hpart with ⟨-, rfl⟩ | ⟨_, items, rest, -, hlist, hne, hitems, -⟩
    · rfl
    · obtain rfl : items = [] := (Value.list.inj hlist).symm
      exact absurd (List.forall₂_nil_left_iff.1 (mapM_eq_ok.1 hitems)) hne
  | @struct name fields values f v hone hf hv hblank ih =>
    rw [writeParts] at hparts
    have hwritten := writeParts_of_arity_one (tidy_of_writeNested fuel) hparts hone hf hblank.arity
    -- the only field is all that is written
    rw [hv] at hwritten
    exact ih hwritten

/-- What is written blank is a blank value. -/
theorem blank_of_all_isBlank (h : ctx.Reads outline v) (harity : outline.arity ≠ 0)
    (hparts : ctx.writeParts (ctx.writeNested fuel) outline v = .ok parts)
    (hblank : (joinWith componentMark parts).all isBlank = true) : ctx.Blank outline v := by
  have hone : parts.length = 1 := by
    have hlength := (writeParts_spec (tidy_of_writeNested fuel) outline v hparts).1
    by_contra hmany
    rw [all_isBlank_of_two (by decide) (by omega)] at hblank
    cases hblank
  induction h generalizing parts with
  | leaf cs hread =>
    rw [writeParts] at hparts
    obtain ⟨text, htext, hparts⟩ := bind_eq_ok.1 hparts
    obtain ⟨part, hpart, hparts⟩ := bind_eq_ok.1 hparts
    obtain rfl := Except.ok.inj hparts
    obtain ⟨rfl, -⟩ := reserve_eq_ok.1 hpart
    rw [joinWith_singleton] at hblank
    exact .leaf htext hblank
  | @composite shape components hlength hall =>
    -- every shape has two components at least
    have hmany := (writeParts_spec (tidy_of_writeNested fuel) _ _ hparts).1
    have htwo : 2 ≤ shape.arity := by cases shape <;> decide
    rw [Outline.arity] at hmany
    omega
  | @nested vt items hcomponents _ _ =>
    rw [writeParts] at hparts
    obtain ⟨part, hpart, hparts⟩ := bind_eq_ok.1 hparts
    obtain rfl := Except.ok.inj hparts
    rw [joinWith_singleton] at hblank
    rcases writeNested_eq_ok hpart with ⟨hlist, -⟩ | ⟨_, _, rest, -, -, -, -, rfl, -⟩
    · rw [hlist]
      exact .nested vt
    · -- a list with elements stands in brackets
      have hopen : isBlank '[' = false := by decide
      rw [List.cons_append, List.all_cons, hopen, Bool.false_and] at hblank
      cases hblank
  | @struct name fields values hdistinct hnames _ ih =>
    rw [writeParts] at hparts
    have htotal : Outline.arityOfFields fields = 1 := by
      rw [← (writeFields_spec (tidy_of_writeNested fuel) fields values hparts).1]
      exact hone
    obtain ⟨f, hf, hfone⟩ := exists_of_arity_one htotal
    obtain ⟨v, hv⟩ := Value.exists_field? hnames hf
    have hwritten := writeParts_of_arity_one (tidy_of_writeNested fuel) hparts htotal hf hfone
    rw [hv] at hwritten
    exact .struct htotal hf hv (ih f hf v hv (by omega) hwritten hblank hone)

/-! ### Components -/

/-- An element of a list inside a tuple is written as its components. -/
theorem writeNestedElement_eq (houtline : ctx.registry.outline? vt = some outline) (v : Value) :
    ctx.writeNestedElement nested vt v =
      (ctx.writeParts nested outline v).map (joinWith componentMark) := by
  unfold writeNestedElement
  cases htuple : takesTuple vt with
  | true =>
    rw [if_pos rfl]
    unfold writeTuple writeOutline
    rw [houtline]
  | false =>
    obtain rfl := Option.some.inj ((outline?_of_not_takesTuple htuple).symm.trans houtline)
    rw [if_neg Bool.false_ne_true, writeParts]
    cases ctx.writeLeaf vt v with
    | error e => rfl
    | ok text =>
      dsimp only [Except.bind]
      rw [ok_bind]
      cases reserve tupleMarks text with
      | error e => rfl
      | ok part => exact congrArg Except.ok (joinWith_singleton _ _).symm

/-- A list inside a tuple is refused because of an obstacle to an element, or because its only
element is blank. -/
theorem obstacle_of_writeNested {items : List Value} (hne : items ≠ [])
    (houtline : ctx.registry.outline? vt = some outline) (harity : outline.arity ≠ 0)
    (hitems : ∀ v ∈ items, ctx.Reads outline v)
    (helement : ∀ v ∈ items, ctx.writeParts (ctx.writeNested fuel) outline v = .error e →
      ∃ loss, e = .unrepresentable loss ∧ ctx.Obstacle outline v loss)
    (herror : ctx.writeNested (fuel + 1) vt (.list items) = .error e) :
    ∃ loss, e = .unrepresentable loss ∧ ctx.Obstacle (.nested vt) (.list items) loss := by
  unfold writeNested at herror
  obtain ⟨item, rest, rfl⟩ := List.exists_cons_of_ne_nil hne
  rcases bind_eq_error.1 herror with herror | ⟨parts, hparts, hblank⟩
  -- an element cannot be written
  · obtain ⟨v, hv, herror⟩ := exists_of_mapM_eq_error herror
    rw [writeNestedElement_eq houtline, map_eq_error] at herror
    obtain ⟨loss, rfl, hobstacle⟩ := helement v hv herror
    exact ⟨loss, rfl, .element houtline hv hobstacle⟩
  · split at hblank
    · next only =>
      split at hblank
      -- all elements can be written, but there is only one and it is blank
      · next hall =>
        obtain rfl := Except.error.inj hblank
        obtain ⟨honly, hrest⟩ := List.forall₂_cons.1 (mapM_eq_ok.1 hparts)
        obtain rfl := List.forall₂_nil_right_iff.1 hrest
        rw [writeNestedElement_eq houtline] at honly
        obtain ⟨components, hcomponents, rfl⟩ := map_eq_ok.1 honly
        refine ⟨_, rfl, .blank houtline ?_⟩
        exact blank_of_all_isBlank (hitems item List.mem_cons_self) harity hcomponents hall
      · cases hblank
    · cases hblank

/-- **Components are refused only because of an obstacle.** -/
theorem obstacle_of_writeParts (hr : ctx.registry.IsSound)
    (hreferences : ctx.references.IsPaired) (h : ctx.Reads outline v)
    (hlegible : ctx.LegibleThroughout outline v) (hfuel : v.depth ≤ fuel)
    (herror : ctx.writeParts (ctx.writeNested fuel) outline v = .error e) :
    ∃ loss, e = .unrepresentable loss ∧ ctx.Obstacle outline v loss := by
  induction h generalizing fuel with
  | @leaf vt v cs hread =>
    -- a leaf that was read has a text, so only a mark in the text can stand in the way
    obtain ⟨text, htext⟩ := exists_writeLeaf hr hreferences hread (hlegible vt v .here)
    rw [writeParts, htext, ok_bind] at herror
    rcases bind_eq_error.1 herror with hreserve | ⟨part, -, hdone⟩
    · obtain ⟨rfl, c, hc, hmark⟩ := reserve_eq_error hreserve
      exact ⟨_, rfl, .mark htext hc hmark⟩
    · cases hdone
  | @composite shape components hlength hall =>
    have hkinds : components.all (fun s => s.kind == shape.componentKind) = true :=
      List.all_eq_true.2 fun s hs => beq_iff_eq.2 (hall s hs).1
    rw [writeParts, if_pos ⟨hlength, hkinds⟩] at herror
    cases herror
  | @nested vt items hcomponents hitems ih =>
    rw [writeParts] at herror
    rcases bind_eq_error.1 herror with hnested | ⟨part, -, hdone⟩
    · rw [Value.depth] at hfuel
      obtain ⟨fuel, rfl⟩ : ∃ k, fuel = k + 1 := ⟨fuel - 1, by omega⟩
      -- an empty list is always written
      by_cases hnil : items = []
      · subst hnil
        cases hnested
      obtain ⟨outline, houtline, harity⟩ := hcomponents hnil
      have hdepth : ∀ v ∈ items, v.depth ≤ fuel := fun v hv => by
        have := Value.depth_le_of_mem hv
        omega
      exact obstacle_of_writeNested hnil houtline harity (hitems outline houtline)
        (fun v hv => ih outline houtline v hv (hlegible.element houtline hv) (hdepth v hv)) hnested
    · cases hdone
  | @struct name fields values hdistinct hnames _ ih =>
    rw [writeParts] at herror
    -- the first field that cannot be written has the obstacle
    obtain ⟨f, hf, hfield⟩ := exists_of_writeFields_eq_error herror
    obtain ⟨v, hv⟩ := Value.exists_field? hnames hf
    rw [hv] at hfield
    have hdepth : v.depth ≤ fuel := by
      have := Value.depth_le_of_field? hv
      rw [Value.depth] at hfuel
      omega
    obtain ⟨loss, rfl, hobstacle⟩ := ih f hf v hv (hlegible.field hf hv) hdepth hfield
    exact ⟨loss, rfl, .field hf hv hobstacle⟩

/-- **With an obstacle, components are refused.** -/
theorem Obstacle.not_writeParts {loss : CellLoss} (h : ctx.Obstacle outline v loss) (fuel : Nat)
    (parts : List (List Char)) : ctx.writeParts (ctx.writeNested fuel) outline v ≠ .ok parts := by
  intro hparts
  induction h generalizing fuel parts with
  | mark htext hc hmark =>
    rw [writeParts, htext, ok_bind] at hparts
    obtain ⟨part, hpart, -⟩ := bind_eq_ok.1 hparts
    exact (reserve_eq_ok.1 hpart).2 _ hc hmark
  | field hf hv _ ih =>
    rw [writeParts] at hparts
    obtain ⟨parts', hparts'⟩ := exists_writeParts_of_mem hparts hf hv
    exact ih fuel parts' hparts'
  | element houtline hv _ ih =>
    rw [writeParts] at hparts
    obtain ⟨part, hpart, -⟩ := bind_eq_ok.1 hparts
    rcases writeNested_eq_ok hpart with ⟨hlist, -⟩ | ⟨k, items, rest, -, hlist, -, hitems, -⟩
    · rw [Value.list.inj hlist] at hv
      cases hv
    · rw [Value.list.inj hlist] at hv
      obtain ⟨text, -, htext⟩ := exists_eq_ok_of_mapM hitems hv
      rw [writeNestedElement_eq houtline] at htext
      obtain ⟨parts', hparts', -⟩ := map_eq_ok.1 htext
      exact ih k parts' hparts'
  | blank houtline hblank =>
    rw [writeParts] at hparts
    obtain ⟨part, hpart, -⟩ := bind_eq_ok.1 hparts
    rcases writeNested_eq_ok hpart with ⟨hlist, -⟩ | ⟨k, items, rest, -, hlist, -, hitems, -, hfull⟩
    · cases hlist
    · obtain rfl := (Value.list.inj hlist).symm
      obtain ⟨only, none, honly, hnone, rfl⟩ := List.forall₂_cons_left_iff.1 (mapM_eq_ok.1 hitems)
      obtain rfl := List.forall₂_nil_left_iff.1 hnone
      rw [writeNestedElement_eq houtline] at honly
      obtain ⟨parts', hparts', rfl⟩ := map_eq_ok.1 honly
      -- the list that was written is not blank, but its only element is
      rw [joinWith_singleton, hblank.all_isBlank hparts'] at hfull
      cases hfull

/-! ### Elements -/

theorem writeElement_of_takesTuple (htuple : takesTuple vt = true)
    (houtline : ctx.registry.outline? vt = some outline) (v : Value) :
    ctx.writeElement nested vt v =
      (ctx.writeParts nested outline v).map (joinWith componentMark) := by
  unfold writeElement writeTuple writeOutline
  rw [if_pos htuple, houtline]

theorem writeElement_of_not_takesTuple (htuple : takesTuple vt = false) (v : Value) :
    ctx.writeElement nested vt v = ctx.writeLeaf vt v := by
  unfold writeElement
  rw [htuple, if_neg Bool.false_ne_true]

/-- A value that stands alone is written blank exactly if it is blank. -/
theorem blank_iff_of_writeElement (h : ctx.Reads outline v) (harity : outline.arity ≠ 0)
    (houtline : ctx.registry.outline? vt = some outline) {text : List Char}
    (htext : ctx.writeElement (ctx.writeNested fuel) vt v = .ok text) :
    text.all isBlank = true ↔ ctx.Blank outline v := by
  cases htuple : takesTuple vt with
  | true =>
    rw [writeElement_of_takesTuple htuple houtline] at htext
    obtain ⟨parts, hparts, rfl⟩ := map_eq_ok.1 htext
    exact ⟨blank_of_all_isBlank h harity hparts, fun hblank => hblank.all_isBlank hparts⟩
  | false =>
    obtain rfl := Option.some.inj ((outline?_of_not_takesTuple htuple).symm.trans houtline)
    rw [writeElement_of_not_takesTuple htuple] at htext
    refine ⟨fun hblank => .leaf htext hblank, fun hblank => ?_⟩
    cases hblank with
    | leaf htext' hblank =>
      obtain rfl := Except.ok.inj (htext.symm.trans htext')
      exact hblank

/-- A value that stands alone is refused because of an obstacle to its components, if at all. -/
theorem obstacle_of_writeElement (hr : ctx.registry.IsSound)
    (hreferences : ctx.references.IsPaired) (h : ctx.Reads outline v)
    (hlegible : ctx.LegibleThroughout outline v)
    (houtline : ctx.registry.outline? vt = some outline) (hfuel : v.depth ≤ fuel)
    (herror : ctx.writeElement (ctx.writeNested fuel) vt v = .error e) :
    takesTuple vt = true ∧ ∃ loss, e = .unrepresentable loss ∧ ctx.Obstacle outline v loss := by
  cases htuple : takesTuple vt with
  | true =>
    rw [writeElement_of_takesTuple htuple houtline, map_eq_error] at herror
    exact ⟨rfl, obstacle_of_writeParts hr hreferences h hlegible hfuel herror⟩
  | false =>
    obtain rfl := Option.some.inj ((outline?_of_not_takesTuple htuple).symm.trans houtline)
    cases h with
    | leaf cs hread =>
      obtain ⟨text, htext⟩ := exists_writeLeaf hr hreferences hread (hlegible vt v .here)
      rw [writeElement_of_not_takesTuple htuple, htext] at herror
      cases herror

/-- An element of a list is refused because of an obstacle, if at all. -/
theorem obstacle_of_element {p : Property} {items : List Value} (hp : p.shape = .list vt)
    (hr : ctx.registry.IsSound) (hreferences : ctx.references.IsPaired)
    (h : ctx.Reads outline v) (hlegible : ctx.LegibleThroughout outline v)
    (houtline : ctx.registry.outline? vt = some outline) (hv : v ∈ items) (hfuel : v.depth ≤ fuel)
    (herror : (ctx.writeElement (ctx.writeNested fuel) vt v).bind (reserve [listMark vt]) =
      .error e) :
    ∃ loss, e = .unrepresentable loss ∧ ctx.CellObstacle p (.list items) loss := by
  rcases bind_eq_error.1 herror with herror | ⟨text, htext, herror⟩
  · obtain ⟨htuple, loss, rfl, hobstacle⟩ :=
      obstacle_of_writeElement hr hreferences h hlegible houtline hfuel herror
    exact ⟨loss, rfl, .element hp htuple houtline hv hobstacle⟩
  · obtain ⟨rfl, c, hc, hmark⟩ := reserve_eq_error herror
    obtain rfl := List.mem_singleton.1 hmark
    cases htuple : takesTuple vt with
    | true =>
      -- there is no bar in a tuple
      have hbar : listMark vt = elementMark := by
        unfold listMark
        cases vt <;> first | rfl | cases htuple
      unfold writeElement at htext
      rw [if_pos htuple] at htext
      rw [hbar] at hc
      exact absurd hc (elementMark_notMem_writeTuple (tidy_of_writeNested fuel) htext)
    | false =>
      rw [writeElement_of_not_takesTuple htuple] at htext
      exact ⟨_, rfl, .mark hp hv htext hc⟩

/-! ### Cells -/

theorem outline?_embedded {r : Registry} {name : String}
    (h : r.outline? (.embedded name) = some outline) : ∃ fields, outline = .struct name fields := by
  unfold Registry.outline? at h
  cases hfuel : r.types.length with
  | zero =>
    rw [hfuel] at h
    cases h
  | succ fuel =>
    rw [hfuel, Registry.outlineWithin] at h
    split at h
    · cases h
    · obtain ⟨fields, -, rfl⟩ := Option.map_eq_some_iff.1 h
      exact ⟨fields, rfl⟩

variable {p : Property}

/-- What is known of the cell of a value that was read: it reads back and there is no obstacle, or
there is one and the cell is refused for it. -/
def IsExported (ctx : Context) (p : Property) (v : Value) : Prop :=
  ((∀ loss, ¬ctx.CellObstacle p v loss) ∧
      ∃ cell, ctx.encode p v = .ok cell ∧ ctx.decode p cell = .ok v) ∨
    ∃ loss, ctx.CellObstacle p v loss ∧ ctx.encode p v = .error (.unrepresentable loss)

/-- Nothing stands in the way of a single value that is no sub-structure. -/
theorem not_cellObstacle_of_single (hp : p.shape = .single vt) (hvt : ∀ name, vt ≠ .embedded name)
    {loss : CellLoss} : ¬ctx.CellObstacle p v loss := by
  intro h
  cases h with
  | component hp' | blankStruct hp' =>
    rw [hp] at hp'
    exact hvt _ (Shape.single.inj hp')
  | element hp' | mark hp' | blankList hp' =>
    rw [hp] at hp'
    cases hp'

theorem isExported_single (hr : ctx.registry.IsSound) (hreferences : ctx.references.IsPaired)
    (hp : p.shape = .single vt) (hvt : ∀ name, vt ≠ .embedded name)
    (houtline : ctx.registry.outline? vt = some outline) (h : ctx.Reads outline v)
    (hlegible : ctx.LegibleThroughout outline v) : ctx.IsExported p v := by
  have hcell : ctx.registry.cellOutline? p = some outline := by
    rw [Registry.cellOutline?, hp]
    exact houtline
  have hchars : ctx.encodeChars p v = ctx.writeElement (ctx.writeNested v.depth) vt v := by
    unfold encodeChars
    rw [hp]
    cases vt with
    | embedded name => exact absurd rfl (hvt name)
    | _ => rfl
  have hleaves : ∀ outline', ctx.registry.outline? vt = some outline' →
      ctx.LeavesReadBack outline' v := by
    intro outline' houtline'
    obtain rfl : outline = outline' := Option.some.inj (houtline.symm.trans houtline')
    exact h.leavesReadBack hreferences.readBack hlegible
  cases hwritten : ctx.writeElement (ctx.writeNested v.depth) vt v with
  | ok cs =>
    have hread := decode_single hp hvt hleaves hwritten
    rw [Registry.canonicalCell_of_outline hcell, h.canonical] at hread
    refine Or.inl ⟨fun _ => not_cellObstacle_of_single hp hvt, String.ofList cs, ?_, hread⟩
    unfold encode
    rw [hchars, hwritten]
    rfl
  | error e =>
    -- a multi-component value has no obstacle
    obtain ⟨htuple, loss, -, hobstacle⟩ :=
      obstacle_of_writeElement hr hreferences h hlegible houtline (Nat.le_refl _) hwritten
    cases vt with
    | embedded name => exact absurd rfl (hvt name)
    | composite shape =>
      rw [outline?_composite] at houtline
      obtain rfl := Option.some.inj houtline
      cases hobstacle
    | _ => cases htuple

theorem isExported_embedded (hr : ctx.registry.IsSound) (hreferences : ctx.references.IsPaired)
    {name : String} (hp : p.shape = .single (.embedded name))
    (houtline : ctx.registry.outline? (.embedded name) = some outline) (harity : outline.arity ≠ 0)
    (h : ctx.Reads outline v) (hlegible : ctx.LegibleThroughout outline v) :
    ctx.IsExported p v := by
  have hcell : ctx.registry.cellOutline? p = some outline := by
    rw [Registry.cellOutline?, hp]
    exact houtline
  have hchars : ctx.encodeChars p v = do
      let cell ← ctx.writeElement (ctx.writeNested v.depth) (.embedded name) v
      if cell.all isBlank then .error (.unrepresentable .blankStruct) else return cell := by
    obtain ⟨fields, rfl⟩ := outline?_embedded houtline
    unfold encodeChars
    rw [hp]
    cases h with
    | struct => rfl
  unfold IsExported encode
  rw [hchars]
  cases hwritten : ctx.writeElement (ctx.writeNested v.depth) (.embedded name) v with
  | error e =>
    obtain ⟨-, loss, rfl, hobstacle⟩ :=
      obstacle_of_writeElement hr hreferences h hlegible houtline (Nat.le_refl _) hwritten
    exact Or.inr ⟨loss, .component hp houtline hobstacle, rfl⟩
  | ok cs =>
    rw [ok_bind]
    cases hblank : cs.all isBlank with
    | true =>
      have hempty := (blank_iff_of_writeElement h harity houtline hwritten).1 hblank
      exact Or.inr ⟨_, .blankStruct hp houtline hempty, rfl⟩
    | false =>
      have hleaves := h.leavesReadBack hreferences.readBack hlegible
      have hback : ∀ outline', ctx.registry.cellOutline? p = some outline' →
          ctx.ReadsBack outline' v := by
        intro outline' houtline'
        obtain rfl : outline = outline' := Option.some.inj (hcell.symm.trans houtline')
        exact h.readsBack hleaves
      have hread := decode_embedded_of_readsBack hp hback hwritten hblank
      rw [Registry.canonicalCell_of_outline hcell, h.canonical] at hread
      refine Or.inl ⟨fun loss hobstacle => ?_, String.ofList cs, rfl, hread⟩
      -- the value was written, so there is no obstacle
      cases hobstacle with
      | component hp' houtline' hobstacle =>
        obtain rfl : name = _ := ValueType.embedded.inj (Shape.single.inj (hp.symm.trans hp'))
        rw [writeElement_of_takesTuple rfl houtline'] at hwritten
        obtain ⟨parts, hparts, -⟩ := map_eq_ok.1 hwritten
        exact hobstacle.not_writeParts _ parts hparts
      | blankStruct hp' houtline' hempty =>
        obtain rfl : name = _ := ValueType.embedded.inj (Shape.single.inj (hp.symm.trans hp'))
        obtain rfl := Option.some.inj (houtline.symm.trans houtline')
        rw [(blank_iff_of_writeElement h harity houtline hwritten).2 hempty] at hblank
        cases hblank
      | element hp' | mark hp' | blankList hp' =>
        rw [hp] at hp'
        cases hp'

/-- With an obstacle to an element, a list is not written. -/
theorem not_cellObstacle_of_list {items : List Value} (hp : p.shape = .list vt)
    (hread : ∀ outline, ctx.registry.outline? vt = some outline → ∀ v ∈ items,
      outline.arity ≠ 0 ∧ ctx.Reads outline v)
    (hparts : items.mapM (fun item =>
      (ctx.writeElement (ctx.writeNested fuel) vt item).bind (reserve [listMark vt])) = .ok parts)
    (hblank : items ≠ [] → (joinWith (listMark vt) parts).all isBlank = false) {loss : CellLoss} :
    ¬ctx.CellObstacle p (.list items) loss := by
  -- each element was written, and without the mark of the list
  have hwritten : ∀ v ∈ items, ∃ text, ctx.writeElement (ctx.writeNested fuel) vt v = .ok text ∧
      listMark vt ∉ text := by
    intro v hv
    obtain ⟨part, -, hpart⟩ := exists_eq_ok_of_mapM hparts hv
    obtain ⟨text, htext, hreserve⟩ := bind_eq_ok.1 hpart
    exact ⟨text, htext, fun hmem => (reserve_eq_ok.1 hreserve).2 _ hmem (List.mem_singleton_self _)⟩
  intro h
  cases h with
  | component hp' | blankStruct hp' =>
    rw [hp] at hp'
    cases hp'
  | element hp' htuple houtline hv hobstacle =>
    obtain rfl := Shape.list.inj (hp.symm.trans hp')
    obtain ⟨text, htext, -⟩ := hwritten _ hv
    rw [writeElement_of_takesTuple htuple houtline] at htext
    obtain ⟨parts', hparts', -⟩ := map_eq_ok.1 htext
    exact hobstacle.not_writeParts _ parts' hparts'
  | mark hp' hv hleaf hmark =>
    obtain rfl := Shape.list.inj (hp.symm.trans hp')
    obtain ⟨text, htext, hfree⟩ := hwritten _ hv
    cases htuple : takesTuple vt with
    | true => cases vt <;> first | cases hleaf | cases htuple
    | false =>
      rw [writeElement_of_not_takesTuple htuple] at htext
      obtain rfl := Except.ok.inj (htext.symm.trans hleaf)
      exact hfree hmark
  | @blankList vt' outline v hp' houtline hempty =>
    obtain rfl := Shape.list.inj (hp.symm.trans hp')
    obtain ⟨harity, hreads⟩ := hread outline houtline v (List.mem_singleton_self v)
    obtain ⟨only, none, honly, hnone, rfl⟩ := List.forall₂_cons_left_iff.1 (mapM_eq_ok.1 hparts)
    obtain rfl := List.forall₂_nil_left_iff.1 hnone
    obtain ⟨text, htext, hreserve⟩ := bind_eq_ok.1 honly
    obtain ⟨rfl, -⟩ := reserve_eq_ok.1 hreserve
    -- a list of one blank element would be a blank cell, which was refused
    have hfull := hblank (List.cons_ne_nil _ _)
    rw [joinWith_singleton,
      (blank_iff_of_writeElement hreads harity houtline htext).2 hempty] at hfull
    cases hfull

/-- A list that would be written blank has one element, and that is blank. -/
theorem blankList_of_all_isBlank {items : List Value} (hp : p.shape = .list vt)
    (hread : ∀ outline, ctx.registry.outline? vt = some outline → ∀ v ∈ items,
      outline.arity ≠ 0 ∧ ctx.Reads outline v)
    (hparts : items.mapM (fun item =>
      (ctx.writeElement (ctx.writeNested fuel) vt item).bind (reserve [listMark vt])) = .ok parts)
    (hne : items ≠ []) (houtline : ctx.registry.outline? vt = some outline)
    (hblank : (joinWith (listMark vt) parts).all isBlank = true) :
    ctx.CellObstacle p (.list items) .blankList := by
  have hmark : isBlank (listMark vt) = false := by
    unfold listMark
    split <;> decide
  have hlength := (mapM_eq_ok.1 hparts).length_eq
  match items, parts, hne, hlength, hread, hparts, hblank with
  | _ :: _ :: _, part :: next :: parts, _, _, _, _, hblank =>
    -- the mark between two elements is no blank
    rw [all_isBlank_joinWith hmark] at hblank
    cases hblank
  | [v], [part], _, _, hread, hparts, hblank =>
    obtain ⟨harity, hreads⟩ := hread outline houtline v (List.mem_singleton_self v)
    obtain ⟨hpart, -⟩ := List.forall₂_cons.1 (mapM_eq_ok.1 hparts)
    obtain ⟨text, htext, hreserve⟩ := bind_eq_ok.1 hpart
    obtain ⟨rfl, -⟩ := reserve_eq_ok.1 hreserve
    rw [joinWith_singleton] at hblank
    exact .blankList hp houtline ((blank_iff_of_writeElement hreads harity houtline htext).1 hblank)

theorem isExported_list (hr : ctx.registry.IsSound) (hreferences : ctx.references.IsPaired)
    (hp : p.shape = .list vt) (h : ctx.Reads (.nested vt) v)
    (hlegible : ctx.LegibleThroughout (.nested vt) v) : ctx.IsExported p v := by
  have hleaves := h.leavesReadBack hreferences.readBack hlegible
  have hcanonical := h.canonical
  have hcell : ctx.registry.cellOutline? p = some (.nested vt) := by
    rw [Registry.cellOutline?, hp]
  cases h with
  | @nested vt items hcomponents hitems =>
  have harity : items ≠ [] → ∀ outline, ctx.registry.outline? vt = some outline →
      outline.arity ≠ 0 := fun hne _ houtline =>
    arity_ne_zero_of_exists (hcomponents hne) houtline
  have hread : ∀ outline, ctx.registry.outline? vt = some outline → ∀ v ∈ items,
      outline.arity ≠ 0 ∧ ctx.Reads outline v := fun outline houtline v hv =>
    ⟨harity (List.ne_nil_of_mem hv) outline houtline, hitems outline houtline v hv⟩
  have hdepth : ∀ v ∈ items, v.depth ≤ (Value.list items).depth := by
    intro v hv
    have hle := Value.depth_le_of_mem hv
    rw [Value.depth]
    omega
  -- the cell is the texts of the elements between marks, if that is not a blank
  have hchars : ctx.encodeChars p (.list items) = do
      let parts ← items.mapM fun item =>
        (ctx.writeElement (ctx.writeNested (Value.list items).depth) vt item).bind
          (reserve [listMark vt])
      let cell := joinWith (listMark vt) parts
      if items ≠ [] ∧ cell.all isBlank then .error (.unrepresentable .blankList)
      else return cell := by
    unfold encodeChars
    rw [hp]
    rfl
  unfold IsExported encode
  rw [hchars]
  cases hparts : items.mapM fun item =>
      (ctx.writeElement (ctx.writeNested (Value.list items).depth) vt item).bind
        (reserve [listMark vt]) with
  | error e =>
    obtain ⟨item, hitem, herror⟩ := exists_of_mapM_eq_error hparts
    obtain ⟨outline, houtline, -⟩ := hcomponents (List.ne_nil_of_mem hitem)
    obtain ⟨loss, rfl, hobstacle⟩ := obstacle_of_element hp hr hreferences
      (hitems outline houtline item hitem) (hlegible.element houtline hitem) houtline hitem
      (hdepth item hitem) herror
    exact Or.inr ⟨loss, hobstacle, rfl⟩
  | ok parts =>
    rw [ok_bind]
    dsimp only
    -- all elements are written: it remains to see whether together they are a blank
    by_cases hblank : items ≠ [] ∧ (joinWith (listMark vt) parts).all isBlank = true
    · rw [if_pos hblank]
      obtain ⟨outline, houtline, -⟩ := hcomponents hblank.1
      exact Or.inr ⟨.blankList,
        blankList_of_all_isBlank hp hread hparts hblank.1 houtline hblank.2, rfl⟩
    · rw [if_neg hblank]
      have hfull : items ≠ [] → (joinWith (listMark vt) parts).all isBlank = false := fun hne => by
        simpa [hne] using hblank
      -- otherwise the cell reads back, and nothing stands in the way
      have hback := decode_list_of_readsBack hp harity hleaves (fun outline houtline v hv => by
        cases hleaves with
        | nested hleaves =>
          exact (hitems outline houtline v hv).readsBack (hleaves outline houtline v hv)) hparts hfull
      rw [Registry.canonicalCell_of_outline hcell, hcanonical] at hback
      exact Or.inl ⟨fun _ => not_cellObstacle_of_list hp hread hparts hfull, _, rfl, hback⟩

theorem isExported_identifier {cell : String} (hp : p.shape = .identifier)
    (h : ctx.decode p cell = .ok v) : ctx.IsExported p v := by
  unfold decode at h
  rw [hp] at h
  dsimp only at h
  split_ifs at h with hblank
  obtain rfl := Except.ok.inj h
  have hwritten : ctx.encode p (.text (String.ofList (trim cell.toList))) =
      .ok (String.ofList (trim cell.toList)) := by
    unfold encode encodeChars
    rw [hp]
    exact congrArg Except.ok String.ofList_toList
  refine Or.inl ⟨fun loss hobstacle => ?_, _, hwritten, (decode_identifier hp _).2 ⟨?_, ?_⟩⟩
  · cases hobstacle with
    | component hp' | blankStruct hp' =>
      rw [hp] at hp'
      cases hp'
  · unfold trimmed
    rw [String.toList_ofList, trim_trim]
  · intro hnil
    refine hblank (List.isEmpty_iff.2 ?_)
    rw [← String.toList_ofList (l := trim cell.toList), hnil]
    rfl

/-- A missing sub-structure is a blank cell. -/
theorem isExported_noStruct {name : String} (hp : p.shape = .single (.embedded name)) :
    ctx.IsExported p .noStruct := by
  have hwritten : ctx.encode p .noStruct = .ok "" := by
    unfold encode encodeChars
    rw [hp]
    rfl
  have hread : ctx.decode p "" = .ok .noStruct := by
    unfold decode
    rw [hp]
    rfl
  refine Or.inl ⟨fun loss hobstacle => ?_, "", hwritten, hread⟩
  cases hobstacle with
  | component hp' houtline hobstacle =>
    obtain ⟨fields, rfl⟩ := outline?_embedded houtline
    cases hobstacle
  | blankStruct hp' houtline hblank =>
    obtain ⟨fields, rfl⟩ := outline?_embedded houtline
    cases hblank

end Cell.Context

/-- **Exporting what was imported.**  A value that a cell was read as, and whose leaves are legible,
is written as a cell that reads back as it, unless there is an obstacle; then it is refused because of
one. -/
theorem Registration.encode_of_decode {reg : Registration} {options : Options} {ctx : Cell.Context}
    (hreg : reg.IsRegistered) (hbuild : reg.build options = .ok ctx.registry)
    (hreferences : ctx.references.IsPaired) {p : Property} {cell : String} {v : Value}
    (h : ctx.decode p cell = .ok v)
    (hlegible : ∀ outline, ctx.registry.cellOutline? p = some outline →
      ctx.LegibleThroughout outline v) :
    ((∀ loss, ¬ctx.CellObstacle p v loss) ∧
        ∃ cell', ctx.encode p v = .ok cell' ∧ ctx.decode p cell' = .ok v) ∨
      ∃ loss, ctx.CellObstacle p v loss ∧ ctx.encode p v = .error (.unrepresentable loss) := by
  have hr := isSound_of_build hreg hbuild
  show ctx.IsExported p v
  by_cases hid : p.shape = .identifier
  · exact Cell.Context.isExported_identifier hid h
  -- a missing sub-structure is written as a blank; any other value has an outline
  rcases Cell.Context.reads_of_decode hr hid h with ⟨name, hp, rfl⟩ | ⟨outline, hcell, harity, hread⟩
  · exact Cell.Context.isExported_noStruct hp
  have hlegible := hlegible outline hcell
  unfold Registry.cellOutline? at hcell
  cases hp : p.shape with
  | identifier => exact absurd hp hid
  | list vt =>
    rw [hp] at hcell
    obtain rfl := Option.some.inj hcell
    exact Cell.Context.isExported_list hr hreferences hp hread hlegible
  | single vt =>
    rw [hp] at hcell
    by_cases hvt : ∃ name, vt = .embedded name
    · obtain ⟨name, rfl⟩ := hvt
      exact Cell.Context.isExported_embedded hr hreferences hp hcell harity hread hlegible
    · have hvt : ∀ name, vt ≠ .embedded name := fun name hname => hvt ⟨name, hname⟩
      exact Cell.Context.isExported_single hr hreferences hp hvt hcell hread hlegible

/-! ### The dose of a potion -/

namespace Registration

/-- A schema with potions, and no records. -/
def potionContext : Cell.Context := ⟨potionRegistry, .none⟩

/-- A property that holds the dose of a potion. -/
def doseProperty : Property := ⟨"Dose", .single (.embedded "Dose")⟩

theorem isPaired_none : References.none.IsPaired :=
  ⟨fun _ _ _ => ⟨(fun h => nomatch h), (fun h => nomatch h)⟩, fun _ _ _ h => nomatch h⟩

/-- A dose of some drops, with a note. -/
def doseOf (drops : Int32) (note : String) : Value :=
  .struct [("Drops", .scalar (.i32 drops)), ("Note", .text note)]

/-- A dose without a number of drops. -/
theorem decode_dose {cell note : String} (hblank : cell.toList.all Text.isBlank = false)
    (hread : ∀ nested, potionContext.readElement nested (.embedded "Dose") cell.toList =
      .ok (doseOf 0 note)) : potionContext.decode doseProperty cell = .ok (doseOf 0 note) := by
  unfold Cell.Context.decode doseProperty
  dsimp only
  rw [hblank, Bool.and_false, if_neg Bool.false_ne_true]
  exact hread _

theorem decode_stir : potionContext.decode doseProperty " ,stir" = .ok (doseOf 0 "stir") :=
  decode_dose (by cbv) fun nested => by cbv

theorem decode_shake_stir :
    potionContext.decode doseProperty ",shake|stir" = .ok (doseOf 0 "shake|stir") :=
  decode_dose (by cbv) fun nested => by cbv

theorem encode_shake_stir : potionContext.encode doseProperty (doseOf 0 "shake|stir") =
    .error (.unrepresentable .reservedCharacter) := by cbv

theorem legibleThroughout_doseOf (drops : Int32) (note : String) (outline : Outline)
    (h : potionRegistry.cellOutline? doseProperty = some outline) :
    potionContext.LegibleThroughout outline (doseOf drops note) := by
  obtain rfl : Outline.struct "Dose" [("Drops", .leaf (.scalar .i32)), ("Note", .leaf .string)] =
    outline := Option.some.inj h
  intro vt leaf hleaf
  cases hleaf with
  | field hf _ hleaf =>
    rcases List.mem_pair.1 hf with rfl | rfl
    · cases hleaf
      trivial
    · cases hleaf
      trivial

/-- A note may have a bar in it when it is read, but not when it is written. -/
theorem not_exported_dose :
    ¬∀ (reg : Registration) (options : Options) (ctx : Cell.Context) (t : ResolvedType)
      (p : Property) (cell : String) (v : Value), reg.IsRegistered →
        reg.build options = .ok ctx.registry → t ∈ ctx.registry.types → p ∈ t.properties →
        ctx.references.IsPaired → ctx.decode p cell = .ok v →
          ∃ cell' v', ctx.encode p v = .ok cell' ∧ ctx.decode p cell' = .ok v' ∧
            v'.quieted = v.quieted := by
  intro h
  have hreg : potionTypes.IsRegistered := .addType _ (.addType _ (.addEnum _ .empty))
  have hdose : doseProperty ∈ (potionRegistry.types[1]).properties := by decide
  obtain ⟨cell, v, hcell, -⟩ := h potionTypes .standard potionContext _ doseProperty ",shake|stir"
    (doseOf 0 "shake|stir") hreg build_potionTypes (List.getElem_mem (by decide)) hdose
    isPaired_none decode_shake_stir
  rw [encode_shake_stir] at hcell
  cases hcell

/-- A dose is written with the number that it was read without, unless its note has a bar in it. -/
theorem encode_of_decode_dose :
    (∃ cell, potionContext.encode doseProperty (doseOf 0 "stir") = .ok cell ∧
        potionContext.decode doseProperty cell = .ok (doseOf 0 "stir")) ∧
      ∃ loss, potionContext.CellObstacle doseProperty (doseOf 0 "shake|stir") loss := by
  have hreg : potionTypes.IsRegistered := .addType _ (.addType _ (.addEnum _ .empty))
  constructor
  · rcases encode_of_decode hreg build_potionTypes isPaired_none decode_stir
      (legibleThroughout_doseOf 0 "stir") with ⟨-, hback⟩ | ⟨loss, -, hrefused⟩
    · exact hback
    · have hwritten : potionContext.encode doseProperty (doseOf 0 "stir") = .ok "0,stir" := by cbv
      rw [hwritten] at hrefused
      cases hrefused
  · rcases encode_of_decode hreg build_potionTypes isPaired_none decode_shake_stir
      (legibleThroughout_doseOf 0 "shake|stir") with ⟨-, cell, hwritten, -⟩ | ⟨loss, hobstacle, -⟩
    · rw [encode_shake_stir] at hwritten
      cases hwritten
    · exact ⟨loss, hobstacle⟩

end Registration

end RecordTables
