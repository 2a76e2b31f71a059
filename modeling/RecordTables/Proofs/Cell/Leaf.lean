import Mathlib
import RecordTables.Cell.Encode
import RecordTables.Proofs.Outcome
import RecordTables.Proofs.Scalar
import RecordTables.Proofs.Time.DateTime
import RecordTables.Proofs.Time.Duration

/-!
# Cells of one component read back

A cell of one component holds an identifier or a single text, enum member, fixed-width value, time,
reference or asset key.  What is written for such a value reads back as the value, exactly where the
value is `Legible`: names and identifiers must not lose blanks at their ends, the least span has no
length, and the year of an instant must have four digits (`Context.decode_encode_leaf`).  A value that
is not legible is written all the same, and its cell reads back as something else or as nothing.
-/

namespace RecordTables

open Schema

/-- References that read back: identifiers have no blanks around them, are not blank, and name the
record that they were taken from. -/
def References.ReadBack (references : References) : Prop :=
  ∀ target guid identifier, references.identifier? target guid = some identifier →
    Text.trimmed identifier = identifier ∧ Text.isBlankText identifier = false ∧
      references.guid? target identifier = some guid

namespace Cell

open Text

/-- A shape whose cells have one component. -/
def IsLeaf : Shape → Prop
  | .identifier => True
  | .single (.embedded _) | .single (.composite _) => False
  | .single _ => True
  | .list _ => False

instance : DecidablePred IsLeaf := fun shape => by
  unfold IsLeaf
  split <;> infer_instance

namespace Context

variable {ctx : Context}

/-- The members of an enum that their cell names: the name has no blanks at its ends and is not
empty.  Where blanks are lost, what is left must name the member in another way: nothing as the
first member, or a number as the first member of that number. -/
def LegibleMember (e : EnumDeclaration) (member : String) : Prop :=
  (trimmed member = member ∧ member ≠ "") ∨
    (isBlankText member = true ∧ e.members.head?.map (·.name) = some member) ∨
      (isBlankText member = false ∧ e.valueOf? (trimmed member) = none ∧
        ∃ n, Number.readInt64 (trim member.toList) = .ok n ∧ e.nameOf? n = some member)

/-- The values whose cell names them. -/
def Legible (ctx : Context) : Shape → Value → Prop
  | .identifier, .text s => trimmed s = s ∧ s ≠ ""
  | .single (.enum name), .enum member =>
    ∀ e, ctx.registry.enum? name = some e → LegibleMember e member
  | .single (.time .duration), .duration ms => ms ≠ Int64.minValue
  | .single (.time .dateTime), .dateTime ms =>
    0 ≤ (Calendar.ofDay (ms.toInt / 86400000)).year ∧
      (Calendar.ofDay (ms.toInt / 86400000)).year ≤ 9999
  | _, _ => True

/-! ### Reading what was written -/

/-- The cell of a value of one component holds the component. -/
theorem decode_single_leaf {p : Property} {vt : ValueType} (hp : p.shape = .single vt)
    (hleaf : IsLeaf p.shape) (cs : List Char) :
    ctx.decode p (String.ofList cs) = ctx.readLeaf vt cs := by
  unfold decode
  rw [hp, String.toList_ofList]
  dsimp only
  rw [hp] at hleaf
  cases vt with
  | recordRef target =>
    split_ifs with hblank
    · rw [Bool.and_eq_true] at hblank
      have htrim : trim cs = [] := trim_eq_nil_iff.2 hblank.2
      unfold readLeaf
      rw [htrim]
      rfl
    · rfl
  | embedded name => exact absurd hleaf id
  | composite shape => exact absurd hleaf id
  | _ => rfl

theorem encode_single_leaf {p : Property} {vt : ValueType} (hp : p.shape = .single vt)
    (hleaf : IsLeaf p.shape) (v : Value) :
    ctx.encode p v = (ctx.writeLeaf vt v).map String.ofList := by
  unfold encode encodeChars
  rw [hp]
  rw [hp] at hleaf
  cases vt with
  | embedded name => exact absurd hleaf id
  | composite shape => exact absurd hleaf id
  | _ => rfl

variable {cs : List Char}

/-- A written identifier is read back exactly if it has no blanks around it and is not empty. -/
theorem decode_identifier {p : Property} (hp : p.shape = .identifier) (s : String) :
    ctx.decode p s = .ok (.text s) ↔ trimmed s = s ∧ s ≠ "" := by
  have hempty : (trim s.toList).isEmpty = true → trimmed s = "" := by
    intro h
    unfold trimmed
    rw [List.isEmpty_iff.1 h]
  unfold decode
  rw [hp]
  dsimp only
  split_ifs with h
  · constructor
    · exact fun hread => nomatch hread
    · rintro ⟨htrim, hne⟩
      exact absurd (htrim.symm.trans (hempty h)) hne
  · rw [Except.ok.injEq, Value.text.injEq]
    constructor
    · intro htrim
      refine ⟨htrim, ?_⟩
      rintro rfl
      exact h rfl
    · exact And.left

/-- The default of an enum is its first member. -/
theorem defaultElement_enum {name member : String} {e : EnumDeclaration}
    (he : ctx.registry.enum? name = some e) (hmember : (e.valueOf? member).isSome = true) :
    ctx.registry.defaultElement (.enum name) = .enum member ↔
      e.members.head?.map (·.name) = some member := by
  have hne : e.members ≠ [] := by
    intro hnil
    unfold EnumDeclaration.valueOf? at hmember
    rw [hnil] at hmember
    cases hmember
  obtain ⟨first, rest, hcons⟩ := List.exists_cons_of_ne_nil hne
  rw [Registry.defaultElement, he, Option.bind_some, hcons]
  simp

/-- A written enum member is read back exactly if it is legible. -/
theorem readLeaf_enum {name member : String} {e : EnumDeclaration}
    (he : ctx.registry.enum? name = some e) (hmember : (e.valueOf? member).isSome = true) :
    ctx.readLeaf (.enum name) member.toList = .ok (.enum member) ↔ LegibleMember e member := by
  have hblank : (trim member.toList).isEmpty = isBlankText member := trim_isEmpty _
  have htext : String.ofList (trim member.toList) = trimmed member := rfl
  have hnotEmpty : isBlankText member = false → member ≠ "" := by
    rintro h rfl
    cases h
  unfold readLeaf readMember LegibleMember
  dsimp only
  rw [he, hblank, htext]
  dsimp only
  cases hb : isBlankText member with
  | true =>
    -- nothing is left of the name, so it is no name with its ends intact
    have hlost : ¬ (trimmed member = member ∧ member ≠ "") := by
      rintro ⟨htrim, hne⟩
      refine hne (htrim.symm.trans ?_)
      unfold trimmed
      rw [List.isEmpty_iff.1 (hblank.trans hb)]
    rw [if_pos rfl, Except.ok.injEq, defaultElement_enum he hmember]
    simp [hlost]
  | false =>
    rw [if_neg Bool.false_ne_true]
    by_cases hname : (e.valueOf? (trimmed member)).isSome = true
    · rw [if_pos hname]
      have hnone : e.valueOf? (trimmed member) ≠ none := Option.isSome_iff_ne_none.1 hname
      simp [hnone, hnotEmpty hb]
    · have hnone : e.valueOf? (trimmed member) = none := by simpa using hname
      have hother : trimmed member ≠ member := by
        intro htrim
        rw [htrim] at hname
        exact hname hmember
      rw [if_neg hname]
      cases hread : Number.readInt64 (trim member.toList) with
      | error fault => simp [Except.toOption, hother]
      | ok n =>
        simp only [Except.toOption, Option.bind_some]
        cases hmatch : e.nameOf? n <;> simp [hother, hnone, hmatch]

/-- A written fixed-width value is read back. -/
theorem readLeaf_scalar (s : Scalar) :
    ctx.readLeaf (.scalar s.kind) s.text.toList = .ok (.scalar s.quieted) := by
  have hne : s.text.toList ≠ [] := by
    intro h
    have hread := s.ofText?_text
    rw [String.toList_eq_nil_iff.1 h] at hread
    cases hkind : s.kind <;> rw [hkind] at hread <;> cases hread
  unfold readLeaf readScalar
  rw [(Scalar.isNumeric_text s).hasNoBlank.trim]
  dsimp only
  rw [List.isEmpty_eq_false_iff.2 hne, if_neg Bool.false_ne_true, String.ofList_toList,
    s.ofText?_text]
  rfl

theorem hasNoBlank_duration (ms : Int64) : HasNoBlank (Duration.text ms) := by
  rw [Duration.text_eq]
  unfold Duration.spanText
  have hcolon : HasNoBlank ":" := by decide
  refine HasNoBlank.append (by split_ifs <;> decide) ?_
  refine ((((HasNoBlank.append ?_ (hasNoBlank_padded _ _)).append hcolon).append
    (hasNoBlank_padded _ _)).append hcolon).append (hasNoBlank_padded _ _) |>.append ?_
  · split_ifs
    · decide
    · exact (hasNoBlank_natText _).append (by decide)
  · split_ifs
    · decide
    · exact HasNoBlank.append (by decide) (hasNoBlank_padded _ _)

theorem hasNoBlank_dateTime {ms : Int64} {text : String} (h : DateTime.text? ms = some text) :
    HasNoBlank text := by
  unfold DateTime.text? at h
  obtain ⟨date, -, rfl⟩ := Option.map_eq_some_iff.1 h
  have hyear : HasNoBlank (DateTime.yearText date.year) := by
    unfold DateTime.yearText
    dsimp only
    split_ifs
    · exact HasNoBlank.append (by decide) (hasNoBlank_padded _ _)
    · exact HasNoBlank.append (by decide) (hasNoBlank_padded _ _)
    · exact hasNoBlank_padded _ _
  have hdash : HasNoBlank "-" := by decide
  have hcolon : HasNoBlank ":" := by decide
  have hnumber := hasNoBlank_padded
  refine HasNoBlank.append (HasNoBlank.append ((((((((((hyear.append hdash).append (hnumber _ _)).append
    hdash).append (hnumber _ _)).append ?_).append (hnumber _ _)).append hcolon).append
      (hnumber _ _)).append hcolon).append (hnumber _ _)) ?_) (by decide)
  · decide
  · split_ifs
    · decide
    · exact HasNoBlank.append (by decide) (hnumber _ _)

/-- A written span is read back exactly if it is not the least one. -/
theorem readLeaf_duration (ms : Int64) :
    ctx.readLeaf (.time .duration) (Duration.text ms).toList = .ok (.duration ms) ↔
      ms ≠ Int64.minValue := by
  have hne : (Duration.text ms).toList.isEmpty = false := by
    obtain ⟨c, cs, hcons, -⟩ := Duration.exists_spanText_cons ms.toInt.natAbs
    rw [Duration.text_eq, String.toList_append, hcons]
    simp
  unfold readLeaf readDuration
  rw [(hasNoBlank_duration ms).trim]
  dsimp only
  rw [hne, if_neg Bool.false_ne_true, Duration.ofText?_text]
  by_cases hmin : ms = Int64.minValue
  · rw [if_pos hmin]
    exact ⟨(fun h => nomatch h), fun h => absurd hmin h⟩
  · rw [if_neg hmin]
    exact ⟨fun _ => hmin, fun _ => rfl⟩

/-- A written instant is read back exactly if its year has four digits. -/
theorem readLeaf_dateTime {ms : Int64} {text : String} (h : DateTime.text? ms = some text) :
    ctx.readLeaf (.time .dateTime) text.toList = .ok (.dateTime ms) ↔
      0 ≤ (Calendar.ofDay (ms.toInt / 86400000)).year ∧
        (Calendar.ofDay (ms.toInt / 86400000)).year ≤ 9999 := by
  have hne : text.toList.isEmpty = false := by
    obtain ⟨date, -, htext⟩ := DateTime.toList_text? h
    rw [htext]
    simp
  rw [← DateTime.ofText?_text? h]
  unfold readLeaf readDateTime
  rw [(hasNoBlank_dateTime h).trim]
  dsimp only
  rw [hne, if_neg Bool.false_ne_true]
  cases DateTime.ofText? text.toList with
  | none => exact ⟨(fun h => nomatch h), (fun h => nomatch h)⟩
  | some read => simp [Except.map]

/-- A written reference is read back. -/
theorem readLeaf_ref (hreferences : ctx.references.ReadBack) {target identifier : String}
    {guid : Guid} (h : ctx.references.identifier? target guid = some identifier) :
    ctx.readLeaf (.recordRef target) identifier.toList = .ok (.ref (some guid)) := by
  obtain ⟨htrim, hblank, hguid⟩ := hreferences target guid identifier h
  have hempty : identifier.toList.isEmpty = false := by
    rw [List.isEmpty_eq_false_iff]
    intro hnil
    rw [isBlankText, hnil] at hblank
    cases hblank
  unfold readLeaf
  rw [trimmed_eq_self_iff.1 htrim]
  dsimp only
  rw [hempty, if_neg Bool.false_ne_true, String.ofList_toList, hguid]

/-- A written asset key is read back. -/
theorem readLeaf_asset {key : String} (hne : key ≠ "") (htrim : trimmed key = key) :
    ctx.readLeaf .asset key.toList = .ok (.asset (some key)) := by
  have hempty : key.toList.isEmpty = false := by
    rw [List.isEmpty_eq_false_iff]
    exact fun h => hne (String.toList_inj.1 h)
  unfold readLeaf
  rw [trimmed_eq_self_iff.1 htrim]
  dsimp only
  rw [hempty, if_neg Bool.false_ne_true, String.ofList_toList]

/-- What was written for a single value of one component is read back exactly if the value is
legible. -/
theorem readLeaf_writeLeaf (hreferences : ctx.references.ReadBack) {vt : ValueType} {v : Value}
    (h : ctx.writeLeaf vt v = .ok cs) :
    ctx.readLeaf vt cs = .ok v.quieted ↔ ctx.Legible (.single vt) v := by
  unfold writeLeaf at h
  split at h
  · -- a text is its own cell
    obtain rfl := Except.ok.inj h
    exact ⟨fun _ => trivial, fun _ => congrArg (fun t => Except.ok (Value.text t)) String.ofList_toList⟩
  · obtain rfl := Except.ok.inj h
    exact ⟨fun _ => trivial, fun _ => congrArg (fun t => Except.ok (Value.text t)) String.ofList_toList⟩
  · next name member =>
    split at h
    · cases h
    · next e he =>
      split_ifs at h with hmember
      obtain rfl := Except.ok.inj h
      refine (readLeaf_enum he hmember).trans ⟨fun hlegible e' he' => ?_, fun hlegible => hlegible e he⟩
      obtain rfl := Option.some.inj (he.symm.trans he')
      exact hlegible
  · next kind s =>
    split_ifs at h with hkind
    obtain rfl := Except.ok.inj h
    subst hkind
    exact ⟨fun _ => trivial, fun _ => readLeaf_scalar s⟩
  · obtain rfl := Except.ok.inj h
    exact readLeaf_duration _
  · obtain ⟨text, htext, rfl⟩ := map_eq_ok.1 h
    unfold writeDateTime at htext
    split at htext
    · next hsome =>
      obtain rfl := Except.ok.inj htext
      exact readLeaf_dateTime hsome
    · cases htext
  · obtain rfl := Except.ok.inj h
    exact ⟨fun _ => trivial, fun _ => rfl⟩
  · split at h
    · next hidentifier =>
      obtain rfl := Except.ok.inj h
      exact ⟨fun _ => trivial, fun _ => readLeaf_ref hreferences hidentifier⟩
    · cases h
  · obtain rfl := Except.ok.inj h
    exact ⟨fun _ => trivial, fun _ => rfl⟩
  · next key =>
    split_ifs at h with hkey
    obtain rfl := Except.ok.inj h
    simp only [Bool.or_eq_true, not_or, bne_iff_ne, ne_eq, not_not, String.isEmpty_iff] at hkey
    exact ⟨fun _ => trivial, fun _ => readLeaf_asset hkey.1 hkey.2⟩
  · cases h

/-- **A cell of one component reads back exactly if its value is legible.** -/
theorem decode_encode_leaf {p : Property} {v : Value} {cell : String} (hleaf : IsLeaf p.shape)
    (hreferences : ctx.references.ReadBack) (h : ctx.encode p v = .ok cell) :
    ctx.decode p cell = .ok v.quieted ↔ ctx.Legible p.shape v := by
  cases hp : p.shape with
  | identifier =>
    unfold encode encodeChars at h
    rw [hp] at h
    cases v with
    | text s =>
      have hcell : String.ofList s.toList = cell := Except.ok.inj h
      rw [← hcell, String.ofList_toList]
      exact decode_identifier hp s
    | _ => cases h
  | single vt =>
    rw [encode_single_leaf hp hleaf] at h
    obtain ⟨cs, hwritten, rfl⟩ := map_eq_ok.1 h
    rw [decode_single_leaf hp hleaf]
    exact readLeaf_writeLeaf hreferences hwritten
  | list vt =>
    rw [hp] at hleaf
    exact absurd hleaf id

end Context

/-! ### Spans of time -/

/-- A schema without records to refer to. -/
def withoutRecords (r : Registry) : Context := ⟨r, .none⟩

/-- A property that holds a span of time. -/
def waitProperty : Property := ⟨"wait", .single (.time .duration)⟩

/-- A span of a day and a bit is read back; the least span is written, but not read back. -/
theorem decode_encode_waits :
    (withoutRecords default).encode waitProperty (.duration 86400001) =
        .ok "1.00:00:00.001" ∧
      (withoutRecords default).decode waitProperty "1.00:00:00.001" =
        .ok (.duration 86400001) ∧
      (withoutRecords default).encode waitProperty (.duration Int64.minValue) =
        .ok "-106751991167.07:12:55.808" ∧
      (withoutRecords default).decode waitProperty "-106751991167.07:12:55.808" ≠
        .ok (.duration Int64.minValue) := by
  have hnone : (withoutRecords default).references.ReadBack := fun _ _ _ h => nomatch h
  have hday : (withoutRecords default).encode waitProperty (.duration 86400001) =
      .ok "1.00:00:00.001" := by decide +kernel
  have hleast : (withoutRecords default).encode waitProperty (.duration Int64.minValue) =
      .ok "-106751991167.07:12:55.808" := by decide +kernel
  refine ⟨hday, ?_, hleast, fun hread => ?_⟩
  · have hlegible : (86400001 : Int64) ≠ Int64.minValue := by decide
    exact (Context.decode_encode_leaf (by decide) hnone hday).2 hlegible
  · exact (Context.decode_encode_leaf (v := .duration Int64.minValue) (by decide) hnone hleast).1
      hread rfl

end Cell

end RecordTables
