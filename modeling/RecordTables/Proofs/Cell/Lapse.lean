import RecordTables.Cell.Decode
import RecordTables.Proofs.Outcome

/-!
# Reading cells when records are gone

A cell names records by their identifiers.  If some of the identifiers name no record any more, and
the others name the records that they named before, a cell reads as it did, or one of the identifiers
that it names is lost (`Cell.Context.decode_lapses`).  It never reads as another value.

So a cell depends on the records that it names, those without which it cannot be read
(`Cell.Context.Names`), and on no others (`Cell.Context.decode_of_names`).
-/

namespace RecordTables

/-- What identifiers name with the first references, they name with the second ones. -/
def References.Within (R' R : References) : Prop :=
  ∀ recordType identifier guid, R'.guid? recordType identifier = some guid →
    R.guid? recordType identifier = some guid

/-- An identifier names a record with the second references, and none with the first ones. -/
def References.Loses (R' R : References) (recordType identifier : String) : Prop :=
  R'.guid? recordType identifier = .none ∧ R.guid? recordType identifier ≠ .none

/-- The references when an identifier of a type names nothing. -/
def References.without (R : References) (recordType identifier : String) : References :=
  { R with
    guid? := fun type name =>
      if type = recordType ∧ name = identifier then .none else R.guid? type name }

/-- What identifiers name with both references alike. -/
def References.shared (R R' : References) : References :=
  { R with
    guid? := fun recordType identifier =>
      if R'.guid? recordType identifier = R.guid? recordType identifier then
        R.guid? recordType identifier
      else .none }

variable {R R' : References} {recordType identifier : String}

namespace References

theorem guid?_without_self : (R.without recordType identifier).guid? recordType identifier = .none :=
  if_pos ⟨rfl, rfl⟩

theorem guid?_shared (h : R'.guid? recordType identifier = R.guid? recordType identifier) :
    (R.shared R').guid? recordType identifier = R.guid? recordType identifier := if_pos h

theorem within_shared_left : (R.shared R').Within R := by
  intro type name guid h
  unfold shared at h
  dsimp only at h
  split_ifs at h
  exact h

theorem within_shared_right : (R.shared R').Within R' := by
  intro type name guid h
  unfold shared at h
  dsimp only at h
  split_ifs at h with hsame
  exact hsame.trans h

/-- References that do not have a record are within those without it. -/
theorem Within.without (h : R'.Within R)
    (hnone : R'.guid? recordType identifier = .none) :
    R'.Within (R.without recordType identifier) := by
  intro type name guid hguid
  unfold References.without
  dsimp only
  split_ifs with hsame
  · obtain ⟨rfl, rfl⟩ := hsame
    exact nomatch hguid.symm.trans hnone
  · exact h type name guid hguid

end References

namespace Cell

open Schema

variable {α β : Type} {Lost : String → String → Prop}

/-- The first computation does what the second one does, or it fails at a reference that is lost. -/
def Lapses (Lost : String → String → Prop) (x' x : Except CellError α) : Prop :=
  x' = x ∨ ∃ recordType identifier, Lost recordType identifier ∧
    x' = .error (.unresolvedReference recordType identifier)

theorem Lapses.refl (x : Except CellError α) : Lapses Lost x x := Or.inl rfl

theorem Lapses.bind {x x' : Except CellError α} {f f' : α → Except CellError β}
    (h : Lapses Lost x' x) (hf : ∀ a, Lapses Lost (f' a) (f a)) :
    Lapses Lost (x' >>= f') (x >>= f) := by
  rcases h with rfl | ⟨recordType, identifier, hlost, rfl⟩
  · cases x' with
    | error e => exact Lapses.refl _
    | ok a => exact hf a
  · exact Or.inr ⟨recordType, identifier, hlost, rfl⟩

theorem Lapses.map {x x' : Except CellError α} (h : Lapses Lost x' x) (f : α → β) :
    Lapses Lost (x'.map f) (x.map f) := by
  rcases h with rfl | ⟨recordType, identifier, hlost, rfl⟩
  · exact Lapses.refl _
  · exact Or.inr ⟨recordType, identifier, hlost, rfl⟩

theorem lapses_mapM {f f' : α → Except CellError β} (h : ∀ a, Lapses Lost (f' a) (f a))
    (l : List α) : Lapses Lost (l.mapM f') (l.mapM f) := by
  induction l with
  | nil => exact Lapses.refl _
  | cons a l ih =>
    rw [List.mapM_cons, List.mapM_cons]
    exact (h a).bind fun b => ih.bind fun bs => Lapses.refl _

/-- What is computed all the same was computed before. -/
theorem Lapses.eq_ok {x x' : Except CellError α} {a : α} (h : Lapses Lost x' x) (hok : x' = .ok a) :
    x = .ok a := by
  rcases h with rfl | ⟨recordType, identifier, -, hlost⟩
  · exact hok
  · exact nomatch hok.symm.trans hlost

namespace Context

variable {registry : Registry} {R R' : References} (h : R'.Within R)

include h

theorem readLeaf_lapses (vt : ValueType) (cs : List Char) :
    Lapses (R'.Loses R) (readLeaf ⟨registry, R'⟩ vt cs) (readLeaf ⟨registry, R⟩ vt cs) := by
  cases vt with
  | recordRef target =>
    unfold readLeaf
    dsimp only
    split_ifs
    · exact Lapses.refl _
    · cases hguid : R'.guid? target (String.ofList (Text.trim cs)) with
      | some guid =>
        rw [h _ _ _ hguid]
        exact Lapses.refl _
      | none =>
        cases hlost : R.guid? target (String.ofList (Text.trim cs)) with
        | some guid => exact Or.inr ⟨_, _, ⟨hguid, hlost ▸ Option.some_ne_none guid⟩, rfl⟩
        | none => exact Lapses.refl _
  | time kind => cases kind <;> exact Lapses.refl _
  | _ => exact Lapses.refl _

variable {nested nested' : ValueType → List Char → Except CellError Value}

omit h

mutual

theorem readParts_lapses (h : R'.Within R)
    (hnested : ∀ vt cs, Lapses (R'.Loses R) (nested' vt cs) (nested vt cs)) (whole : List Char) :
    ∀ (outline : Outline) (parts : List (List Char)),
      Lapses (R'.Loses R) (readParts ⟨registry, R'⟩ nested' whole outline parts)
        (readParts ⟨registry, R⟩ nested whole outline parts)
  | .leaf vt, parts => by
    rw [readParts, readParts]
    refine (Lapses.refl _).bind fun next => ?_
    exact (readLeaf_lapses h vt _).bind fun v => Lapses.refl _
  | .nested vt, parts => by
    rw [readParts, readParts]
    exact (Lapses.refl _).bind fun next => (hnested vt _).bind fun v => Lapses.refl _
  | .composite shape, parts => by
    rw [readParts, readParts]
    exact Lapses.refl _
  | .struct _ fields, parts => by
    rw [readParts, readParts]
    exact (readFields_lapses h hnested whole fields parts).bind fun values => Lapses.refl _

theorem readFields_lapses (h : R'.Within R)
    (hnested : ∀ vt cs, Lapses (R'.Loses R) (nested' vt cs) (nested vt cs)) (whole : List Char) :
    ∀ (fields : List (String × Outline)) (parts : List (List Char)),
      Lapses (R'.Loses R) (readFields ⟨registry, R'⟩ nested' whole fields parts)
        (readFields ⟨registry, R⟩ nested whole fields parts)
  | [], parts => by
    rw [readFields, readFields]
    exact Lapses.refl _
  | f :: rest, parts => by
    rw [readFields, readFields]
    refine (readParts_lapses h hnested whole f.2 parts).bind fun v => ?_
    exact (readFields_lapses h hnested whole rest _).bind fun values => Lapses.refl _

end

include h

variable (hnested : ∀ vt cs, Lapses (R'.Loses R) (nested' vt cs) (nested vt cs))

include hnested

theorem readOutline_lapses (outline : Outline) (cs : List Char) :
    Lapses (R'.Loses R) (readOutline ⟨registry, R'⟩ nested' outline cs)
      (readOutline ⟨registry, R⟩ nested outline cs) := by
  unfold readOutline
  split
  · exact Lapses.refl _
  · split_ifs
    · exact (readParts_lapses h hnested cs outline _).map _
    · exact Lapses.refl _

theorem readElement_lapses (vt : ValueType) (cs : List Char) :
    Lapses (R'.Loses R) (readElement ⟨registry, R'⟩ nested' vt cs)
      (readElement ⟨registry, R⟩ nested vt cs) := by
  unfold readElement
  split
  · dsimp only
    split
    · exact readOutline_lapses h hnested _ cs
    · exact Lapses.refl _
  · exact readOutline_lapses h hnested _ cs
  · exact readLeaf_lapses h _ cs

omit hnested

theorem readNested_lapses (fuel : Nat) : ∀ vt cs,
    Lapses (R'.Loses R) (readNested ⟨registry, R'⟩ fuel vt cs)
      (readNested ⟨registry, R⟩ fuel vt cs) := by
  induction fuel with
  | zero => exact fun _ _ => Lapses.refl _
  | succ fuel ih =>
    intro vt cs
    unfold readNested
    dsimp only
    split_ifs
    · exact Lapses.refl _
    · split
      · exact Lapses.refl _
      · split_ifs
        · exact Lapses.refl _
        · split
          · exact Lapses.refl _
          · exact (lapses_mapM (readElement_lapses h ih vt) _).map _

/-- **Reading with fewer records**: a cell reads as it does with all of them, or it names one that is
lost. -/
theorem decode_lapses (p : Property) (cell : String) :
    Lapses (R'.Loses R) (decode ⟨registry, R'⟩ p cell) (decode ⟨registry, R⟩ p cell) := by
  have helement (vt : ValueType) (cs : List Char) :
      Lapses (R'.Loses R)
        (readElement ⟨registry, R'⟩ (readNested ⟨registry, R'⟩ cell.toList.length) vt cs)
        (readElement ⟨registry, R⟩ (readNested ⟨registry, R⟩ cell.toList.length) vt cs) :=
    readElement_lapses h (readNested_lapses h _) vt cs
  unfold decode
  dsimp only
  cases p.shape with
  | identifier => exact Lapses.refl _
  | single vt =>
    dsimp only
    split_ifs
    · exact Lapses.refl _
    · exact helement vt _
  | list vt =>
    dsimp only
    split_ifs
    · exact Lapses.refl _
    · exact (lapses_mapM (helement vt) _).map _

/-- What a cell says with fewer records, it says with all of them. -/
theorem decode_of_within {p : Property} {cell : String} {v : Value}
    (hread : decode ⟨registry, R'⟩ p cell = .ok v) : decode ⟨registry, R⟩ p cell = .ok v :=
  (decode_lapses h p cell).eq_ok hread

omit h

/-! ### The records that a cell names -/

/-- The cell of a property names a record: without the record it cannot be read. -/
def Names (ctx : Context) (p : Property) (cell recordType identifier : String) : Prop :=
  decode ⟨ctx.registry, ctx.references.without recordType identifier⟩ p cell =
    .error (.unresolvedReference recordType identifier)

/-- **A cell depends on the records that it names**, and on no others: if they are named by other
references as well, then the cell reads alike with these. -/
theorem decode_of_names {p : Property} {cell : String} {v : Value}
    (hread : decode ⟨registry, R⟩ p cell = .ok v)
    (hnames : ∀ recordType identifier, Names ⟨registry, R⟩ p cell recordType identifier →
      R'.guid? recordType identifier = R.guid? recordType identifier) :
    decode ⟨registry, R'⟩ p cell = .ok v := by
  -- both references have what they share, so it is enough to read the cell with that
  have hshared : (R.shared R').Within R := References.within_shared_left
  have hshared' : (R.shared R').Within R' := References.within_shared_right
  refine decode_of_within hshared' ?_
  rcases decode_lapses hshared p cell with
    hagree | ⟨recordType, identifier, ⟨hnone, hsome⟩, hlost⟩
  · exact hagree.trans hread
  · -- the first lost reference is one that the cell names, and such are shared
    have hnamed : Names ⟨registry, R⟩ p cell recordType identifier := by
      rcases decode_lapses (hshared.without hnone) p cell with
        hagree | ⟨type, name, ⟨hnone', hsome'⟩, hlost'⟩
      · exact hagree.symm.trans hlost
      · obtain ⟨rfl, rfl⟩ : type = recordType ∧ name = identifier := by
          rw [hlost'] at hlost
          injection hlost with hlost
          injection hlost with htype hname
          exact ⟨htype, hname⟩
        exact absurd References.guid?_without_self hsome'
    rw [References.guid?_shared (hnames _ _ hnamed)] at hnone
    exact absurd hnone hsome

end Context

end Cell

end RecordTables
