import Mathlib
import RecordTables.Container.Bake
import RecordTables.Container.Open
import RecordTables.Proofs.Number.Decimal32
import RecordTables.Proofs.Text.Basic
import RecordTables.Record
import RecordTables.Scalar.Text

/-!
# Fixed-width values are read back

`Scalar.ofBytes?_bytes`: the bytes of a value are read as that value.  The same holds of numbers of
texts, vectors and rows (`OpenContainer.indexOf_indexBytes`) and of elements one behind the other
(`OpenContainer.chunks_flatMap`).

The two views that enum members use are exact with respect to the number that a value of an integer
kind holds (`Scalar.integer?`).  A value is widened to the word of its number, if there is one
(`Scalar.toInt64?_eq_some_iff`), and a word is narrowed to the value of the kind that holds its
number, if there is one (`Scalar.ofInt64?_kind_eq_some_iff`).  So each view undoes the other
(`Scalar.ofInt64?_eq_some_iff`).  The kinds differ in their words and ranges only; what they share
is `Scalar.narrow_eq_some_iff`.

Every value of every kind is read back from its text (`Scalar.ofText?_text`); the patterns that
stand for no number are not told apart by a text, so what is read back is the value with one pattern
for all of them (`Scalar.quieted`, `Value.quieted`, `Record.quieted`).  Truth values and integers
lose nothing on any of the ways that they take, enum members included (`Scalar.lossless`).
-/

namespace RecordTables

/-! ### Bytes -/

namespace Scalar

/-- The word of a value has the width of its kind. -/
theorem word_lt (s : Scalar) : s.word < Nat.pow 256 s.kind.width := by
  cases s with
  | bool v => cases v <;> decide
  | i8 v => exact v.toUInt8.toNat_lt
  | u8 v => exact v.toNat_lt
  | i16 v => exact v.toUInt16.toNat_lt
  | u16 v => exact v.toNat_lt
  | i32 v => exact v.toUInt32.toNat_lt
  | u32 v => exact v.toNat_lt
  | i64 v => exact v.toUInt64.toNat_lt
  | u64 v => exact v.toNat_lt
  | f32 v => exact v.bits.toNat_lt

theorem ofWord_word (s : Scalar) : ofWord s.kind s.word = s := by
  cases s with
  | bool v => cases v <;> rfl
  | _ => simp [ofWord, kind, word]

/-- **The bytes of a value** are read as that value, whatever follows them. -/
theorem ofBytes?_bytes_append (s : Scalar) (rest : List UInt8) :
    ofBytes? s.kind (s.bytes ++ rest) = some s := by
  have hlength : s.kind.width ≤ (s.bytes ++ rest).length := by
    rw [List.length_append, s.length_bytes]
    exact Nat.le_add_right _ _
  have htake : (s.bytes ++ rest).take s.kind.width = s.bytes := List.take_left' s.length_bytes
  have hword : ofLittleEndian s.bytes = s.word := by
    rw [bytes, ofLittleEndian_littleEndian, Nat.mod_eq_of_lt s.word_lt]
  unfold ofBytes?
  rw [if_pos hlength, htake, hword, ofWord_word]

theorem ofBytes?_bytes (s : Scalar) : ofBytes? s.kind s.bytes = some s := by
  have h := s.ofBytes?_bytes_append []
  rwa [List.append_nil] at h

end Scalar

namespace OpenContainer

open Container

theorem indexOf_indexBytes (i : UInt32) : indexOf (indexBytes i) = i := by
  have htake : (indexBytes i).take indexWidth = indexBytes i :=
    List.take_of_length_le (Nat.le_of_eq (length_littleEndian _ _))
  have hlt : i.toNat < Nat.pow 256 indexWidth := i.toNat_lt
  unfold indexOf
  rw [htake, indexBytes, ofLittleEndian_littleEndian, Nat.mod_eq_of_lt hlt, UInt32.ofNat_toNat]

/-- Elements of one width that stand one behind the other are taken apart again. -/
theorem chunks_flatMap {α : Type} {pack : α → List UInt8} {width : Nat} {xs : List α}
    (h : ∀ x ∈ xs, (pack x).length = width) :
    chunks width xs.length (xs.flatMap pack) = xs.map pack := by
  induction xs with
  | nil => rfl
  | cons x xs ih =>
    have hx : (pack x).length = width := h x List.mem_cons_self
    rw [List.flatMap_cons, List.length_cons, chunks, List.map_cons, List.take_left' hx,
      List.drop_left' hx, ih fun y hy => h y (List.mem_cons_of_mem _ hy)]

end OpenContainer

/-! ### Numbers -/

namespace Scalar

/-- The number that a value of an integer kind holds. -/
def integer? : Scalar → Option Int
  | i8 v => some v.toInt
  | u8 v => some v.toNat
  | i16 v => some v.toInt
  | u16 v => some v.toNat
  | i32 v => some v.toInt
  | u32 v => some v.toNat
  | i64 v => some v.toInt
  | u64 v => some v.toNat
  | bool _ | f32 _ => none

theorem ofNat_eq_some_iff {n : Nat} (hn : n < 2 ^ 63) {v : Int64} :
    some (Int64.ofNat n) = some v ↔ some (n : Int) = some v.toInt := by
  rw [Option.some.injEq, Option.some.injEq, ← Int64.toInt_inj, Int64.toInt_ofNat_of_lt hn]

theorem word_eq_some_iff {w v : Int64} : some w = some v ↔ some w.toInt = some v.toInt := by
  rw [Option.some.injEq, Option.some.injEq, Int64.toInt_inj]

/-- **A value is widened** to the word of its number. -/
theorem toInt64?_eq_some_iff {s : Scalar} {v : Int64} :
    s.toInt64? = some v ↔ s.integer? = some v.toInt := by
  cases s with
  | bool w => exact iff_of_false nofun nofun
  | f32 w => exact iff_of_false nofun nofun
  | i8 w => exact word_eq_some_iff.trans (by rw [Int8.toInt_toInt64]; rfl)
  | i16 w => exact word_eq_some_iff.trans (by rw [Int16.toInt_toInt64]; rfl)
  | i32 w => exact word_eq_some_iff.trans (by rw [Int32.toInt_toInt64]; rfl)
  | i64 w => exact word_eq_some_iff
  | u8 w => exact ofNat_eq_some_iff (Nat.lt_trans w.toNat_lt (by decide))
  | u16 w => exact ofNat_eq_some_iff (Nat.lt_trans w.toNat_lt (by decide))
  | u32 w => exact ofNat_eq_some_iff (Nat.lt_trans w.toNat_lt (by decide))
  | u64 w =>
    -- the only kind with numbers that are those of no word
    have hv := v.toInt_lt
    dsimp only [toInt64?, integer?]
    split_ifs with hw
    · exact ofNat_eq_some_iff hw
    · rw [Option.some.injEq]
      exact iff_of_false nofun (by omega)

/-- A number is narrowed to a word that holds it, if it is in the range of the words. -/
theorem narrow_eq_some_iff {α : Type} {value : α → Scalar} (hvalue : Function.Injective value)
    (toInt : α → Int) (ofInt : Int → α) {a : α} {n : Int} {InRange : Prop} [Decidable InRange]
    (hofInt : ofInt (toInt a) = a) (hrange : toInt a = n → InRange)
    (htoInt : InRange → toInt (ofInt n) = n) :
    (if InRange then some (value (ofInt n)) else none) = some (value a) ↔
      some (toInt a) = some n := by
  rw [Option.some.injEq]
  constructor
  · intro h
    split_ifs at h with hin
    rw [← hvalue (Option.some.inj h), htoInt hin]
  · intro h
    rw [if_pos (hrange h), ← h, hofInt]

/-- The same of the words without a sign. -/
theorem ofNat_narrow_eq_some_iff {α : Type} {value : α → Scalar}
    (hvalue : Function.Injective value) (toNat : α → Nat) (ofNat : Nat → α) {a : α} {n : Int}
    {InRange : Prop} [Decidable InRange] (hofNat : ofNat (toNat a) = a)
    (hrange : (toNat a : Int) = n → InRange)
    (htoNat : InRange → 0 ≤ n ∧ toNat (ofNat n.toNat) = n.toNat) :
    (if InRange then some (value (ofNat n.toNat)) else none) = some (value a) ↔
      some (toNat a : Int) = some n :=
  narrow_eq_some_iff hvalue (fun a => toNat a) (fun n => ofNat n.toNat) hofNat hrange fun h => by
    obtain ⟨hn, hword⟩ := htoNat h
    rw [hword, Int.toNat_of_nonneg hn]

/-- A word is narrowed to values of the kind only. -/
theorem kind_of_ofInt64? {kind : ScalarKind} {v : Int64} {s : Scalar}
    (h : ofInt64? kind v = some s) : s.kind = kind := by
  unfold ofInt64? at h
  cases kind <;> dsimp only at h
  case bool => cases h
  case f32 => cases h
  case i64 => rw [← Option.some.inj h]; rfl
  all_goals
    split_ifs at h
    rw [← Option.some.inj h]
    rfl

/-- **A word is narrowed** to the value of the kind that holds its number. -/
theorem ofInt64?_kind_eq_some_iff {s : Scalar} {v : Int64} :
    ofInt64? s.kind v = some s ↔ s.integer? = some v.toInt := by
  have hlt := v.toInt_lt
  cases s with
  | bool w => exact iff_of_false nofun nofun
  | f32 w => exact iff_of_false nofun nofun
  | i64 w =>
    show some (i64 v) = some (i64 w) ↔ some w.toInt = some v.toInt
    rw [Option.some.injEq, i64.injEq, Option.some.injEq, Int64.toInt_inj, eq_comm]
  | i8 w =>
    exact narrow_eq_some_iff (fun _ _ => i8.inj) Int8.toInt Int8.ofInt w.ofInt_toInt
      (fun h => h ▸ ⟨w.le_toInt, w.toInt_lt⟩) fun h => Int8.toInt_ofInt_of_le h.1 h.2
  | i16 w =>
    exact narrow_eq_some_iff (fun _ _ => i16.inj) Int16.toInt Int16.ofInt w.ofInt_toInt
      (fun h => h ▸ ⟨w.le_toInt, w.toInt_lt⟩) fun h => Int16.toInt_ofInt_of_le h.1 h.2
  | i32 w =>
    exact narrow_eq_some_iff (fun _ _ => i32.inj) Int32.toInt Int32.ofInt w.ofInt_toInt
      (fun h => h ▸ ⟨w.le_toInt, w.toInt_lt⟩) fun h => Int32.toInt_ofInt_of_le h.1 h.2
  | u8 w =>
    exact ofNat_narrow_eq_some_iff (fun _ _ => u8.inj) UInt8.toNat UInt8.ofNat w.ofNat_toNat
      (fun h => by have := w.toNat_lt; omega) fun h =>
        ⟨by omega, UInt8.toNat_ofNat_of_lt' (show v.toInt.toNat < 2 ^ 8 by omega)⟩
  | u16 w =>
    exact ofNat_narrow_eq_some_iff (fun _ _ => u16.inj) UInt16.toNat UInt16.ofNat w.ofNat_toNat
      (fun h => by have := w.toNat_lt; omega) fun h =>
        ⟨by omega, UInt16.toNat_ofNat_of_lt' (show v.toInt.toNat < 2 ^ 16 by omega)⟩
  | u32 w =>
    exact ofNat_narrow_eq_some_iff (fun _ _ => u32.inj) UInt32.toNat UInt32.ofNat w.ofNat_toNat
      (fun h => by have := w.toNat_lt; omega) fun h =>
        ⟨by omega, UInt32.toNat_ofNat_of_lt' (show v.toInt.toNat < 2 ^ 32 by omega)⟩
  | u64 w =>
    -- no upper bound is looked at: every word is below that of the kind
    exact ofNat_narrow_eq_some_iff (fun _ _ => u64.inj) UInt64.toNat UInt64.ofNat w.ofNat_toNat
      (fun h => by omega) fun h =>
        ⟨by omega, UInt64.toNat_ofNat_of_lt' (show v.toInt.toNat < 2 ^ 64 by omega)⟩

/-- **Each view undoes the other**: a word is narrowed to the values that are widened to it. -/
theorem ofInt64?_eq_some_iff {kind : ScalarKind} {v : Int64} {s : Scalar} :
    ofInt64? kind v = some s ↔ s.kind = kind ∧ s.toInt64? = some v := by
  constructor
  · intro h
    obtain rfl := kind_of_ofInt64? h
    exact ⟨rfl, toInt64?_eq_some_iff.2 (ofInt64?_kind_eq_some_iff.1 h)⟩
  · rintro ⟨rfl, h⟩
    exact ofInt64?_kind_eq_some_iff.2 (toInt64?_eq_some_iff.1 h)

/-- The number that is stored for a member of an enum is the number of the member. -/
theorem toInt64?_of_ofInt64? {kind : ScalarKind} {v : Int64} {s : Scalar}
    (h : ofInt64? kind v = some s) : s.toInt64? = some v :=
  (ofInt64?_eq_some_iff.1 h).2

end Scalar

/-! ### Texts -/

theorem not_isBlank_of_isNumeral {c : Char} (h : IsNumeral c) : Text.isBlank c = false := by
  have hall : ∀ n < 128, Text.isBlank (Char.ofNat n) = true →
      ¬ IsNumeral (Char.ofNat n) := by decide
  have hlt : c.toNat < 128 := by
    rcases h with h | rfl | rfl
    · simp only [Char.isAlphanum, Char.isAlpha, Char.isUpper, Char.isLower, Char.isDigit,
        Bool.or_eq_true, Bool.and_eq_true, decide_eq_true_eq, UInt32.le_iff_toNat_le] at h
      have h122 : c.val.toNat ≤ 122 := by
        rcases h with (h | h) | h
        · exact h.2.trans (by decide)
        · exact h.2
        · exact h.2.trans (by decide)
      exact lt_of_le_of_lt h122 (by decide)
    · decide
    · decide
  by_contra hblank
  have := hall c.toNat hlt
  rw [Char.ofNat_toNat] at this
  exact this (by simpa using hblank) h

/-- A written number or truth value has no blanks. -/
theorem IsNumeric.hasNoBlank {s : String} (h : IsNumeric s) : Text.HasNoBlank s :=
  fun c hc => not_isBlank_of_isNumeral (h c hc)

theorem hasNoBlank_padded (width n : Nat) : Text.HasNoBlank (Number.padded width n) :=
  IsNumeric.hasNoBlank fun c hc => isNumeral_of_isDigit (Number.isDigit_of_mem_padded c hc)

theorem hasNoBlank_natText (n : Nat) : Text.HasNoBlank (toString n) :=
  (isNumeric_natText n).hasNoBlank

namespace Scalar

open Number

/-- The value itself, with the one pattern for no number that a text stands for. -/
def quieted : Scalar → Scalar
  | f32 v => f32 v.quieted
  | s => s

@[simp] theorem kind_quieted (s : Scalar) : s.quieted.kind = s.kind := by
  cases s <;> rfl

theorem quieted_of_kind_ne {s : Scalar} (hkind : s.kind ≠ .f32) : s.quieted = s := by
  cases s with
  | f32 v => exact absurd rfl hkind
  | _ => rfl

theorem quieted_quieted (s : Scalar) : s.quieted.quieted = s.quieted := by
  cases s with
  | f32 v => exact congrArg f32 v.quieted_quieted
  | _ => rfl

/-- A text is read as a value of the kind, with the one pattern for no number. -/
theorem ofText?_eq_some {kind : ScalarKind} {text : String} {s : Scalar}
    (h : ofText? kind text = some s) : s.kind = kind ∧ s.quieted = s := by
  unfold ofText? at h
  cases kind with
  | f32 =>
    obtain ⟨x, hx, rfl⟩ := Option.map_eq_some_iff.1 h
    exact ⟨rfl, congrArg f32 (Binary32.quieted_of_ofText? hx)⟩
  | _ =>
    obtain ⟨n, -, rfl⟩ := Option.map_eq_some_iff.1 h
    exact ⟨rfl, rfl⟩

/-- **The text of a value is read back.** -/
theorem ofText?_text (s : Scalar) : ofText? s.kind s.text = some s.quieted := by
  have htrim := (isNumeric_text s).hasNoBlank.trim
  unfold ofText?
  rw [htrim]
  cases s with
  | bool v => cases v <;> rfl
  | i8 v =>
    have hread := readInt_intText 0x80 0x7f v.le_toInt
      (Int.le_of_lt_add_one v.toInt_lt)
    simp only [kind, text, hread, Except.toOption, Option.map_some, Int8.ofInt_toInt, quieted]
  | u8 v =>
    have hread := readNat_natText 0xff (Nat.le_of_lt_succ v.toNat_lt)
    simp only [kind, text, hread, Except.toOption, Option.map_some, UInt8.ofNat_toNat, quieted]
  | i16 v =>
    have hread := readInt_intText 0x8000 0x7fff v.le_toInt
      (Int.le_of_lt_add_one v.toInt_lt)
    simp only [kind, text, hread, Except.toOption, Option.map_some, Int16.ofInt_toInt, quieted]
  | u16 v =>
    have hread := readNat_natText 0xffff (Nat.le_of_lt_succ v.toNat_lt)
    simp only [kind, text, hread, Except.toOption, Option.map_some, UInt16.ofNat_toNat, quieted]
  | i32 v =>
    have hread := readInt_intText 0x80000000 0x7fffffff v.le_toInt
      (Int.le_of_lt_add_one v.toInt_lt)
    simp only [kind, text, hread, Except.toOption, Option.map_some, Int32.ofInt_toInt, quieted]
  | u32 v =>
    have hread := readNat_natText 0xffffffff (Nat.le_of_lt_succ v.toNat_lt)
    simp only [kind, text, hread, Except.toOption, Option.map_some, UInt32.ofNat_toNat, quieted]
  | i64 v =>
    have hread := readInt_intText 0x8000000000000000 0x7fffffffffffffff
      v.le_toInt (Int.le_of_lt_add_one v.toInt_lt)
    simp only [kind, text, hread, Except.toOption, Option.map_some, Int64.ofInt_toInt, quieted]
  | u64 v =>
    have hread := readNat_natText 0xffffffffffffffff (Nat.le_of_lt_succ v.toNat_lt)
    simp only [kind, text, hread, Except.toOption, Option.map_some, UInt64.ofNat_toNat, quieted]
  | f32 v =>
    show (Binary32.ofText? v.text.toList).map f32 = _
    rw [v.ofText?_text]
    rfl

/-- **Truth values and integers are kept** in their bytes, which are as many as the kind is wide and
may be followed by others, in their text, and in the word of an enum member.  Such a word is
narrowed to the value of the kind that is widened to it, and a value is widened to the word of its
number. -/
theorem lossless (s : Scalar) (hkind : s.kind ≠ .f32) :
    (s.bytes.length = s.kind.width ∧ ∀ rest, ofBytes? s.kind (s.bytes ++ rest) = some s) ∧
      ofText? s.kind s.text = some s ∧
      (∀ kind v, ofInt64? kind v = some s ↔ s.kind = kind ∧ s.toInt64? = some v) ∧
      ∀ v, s.toInt64? = some v ↔ s.integer? = some v.toInt := by
  refine ⟨⟨s.length_bytes, s.ofBytes?_bytes_append⟩, ?_, fun kind v => ofInt64?_eq_some_iff,
    fun v => toInt64?_eq_some_iff⟩
  rw [s.ofText?_text, quieted_of_kind_ne hkind]

/-- The least of the words with a sign, another byte behind it, and the least number that is above
all of them: no word is narrowed to it. -/
theorem lossless_extremes :
    ofBytes? .i64 [0, 0, 0, 0, 0, 0, 0, 0x80, 0xff] = some (i64 Int64.minValue) ∧
      ofText? .i64 "-9223372036854775808" = some (i64 Int64.minValue) ∧
      ofInt64? .i64 Int64.minValue = some (i64 Int64.minValue) ∧
      ofText? .u64 "9223372036854775808" = some (u64 0x8000000000000000) ∧
      ∀ v, ofInt64? .u64 v ≠ some (u64 0x8000000000000000) := by
  obtain ⟨⟨-, hbytes⟩, htext, hword, -⟩ := lossless (i64 Int64.minValue) (by decide)
  obtain ⟨-, htext', hword', -⟩ := lossless (u64 0x8000000000000000) (by decide)
  refine ⟨hbytes [0xff], htext, (hword _ _).2 ⟨rfl, rfl⟩, htext', fun v h => ?_⟩
  have hnone : (u64 0x8000000000000000).toInt64? = none := by decide
  cases hnone.symm.trans ((hword' _ v).1 h).2

end Scalar

/-! ### Values and records -/

namespace Value

mutual

/-- The value itself, with the one pattern for no number that a text stands for. -/
def quieted : Value → Value
  | scalar s => scalar s.quieted
  | struct fields => struct (quietedFields fields)
  | composite components => composite (components.map Scalar.quieted)
  | list items => list (quietedItems items)
  | v => v

/-- The fields of a sub-structure, with one pattern for no number. -/
def quietedFields : List (String × Value) → List (String × Value)
  | [] => []
  | f :: rest => (f.1, f.2.quieted) :: quietedFields rest

/-- The elements of a list, with one pattern for no number. -/
def quietedItems : List Value → List Value
  | [] => []
  | v :: rest => v.quieted :: quietedItems rest

end

mutual

theorem quieted_quieted : (v : Value) → v.quieted.quieted = v.quieted
  | text _ | enum _ | duration _ | dateTime _ | ref _ | noStruct | asset _ => rfl
  | scalar s => congrArg scalar s.quieted_quieted
  | composite components => by
    rw [quieted, quieted, List.map_map]
    exact congrArg composite (List.map_congr_left fun s _ => s.quieted_quieted)
  | struct fields => congrArg struct (quietedFields_quietedFields fields)
  | list items => congrArg list (quietedItems_quietedItems items)

theorem quietedFields_quietedFields : (fields : List (String × Value)) →
    quietedFields (quietedFields fields) = quietedFields fields
  | [] => rfl
  | f :: rest => congrArg₂ (fun v fields => (f.1, v) :: fields) (quieted_quieted f.2)
    (quietedFields_quietedFields rest)

theorem quietedItems_quietedItems : (items : List Value) →
    quietedItems (quietedItems items) = quietedItems items
  | [] => rfl
  | v :: rest => congrArg₂ List.cons (quieted_quieted v) (quietedItems_quietedItems rest)

end

theorem quietedFields_eq_map (fields : List (String × Value)) :
    quietedFields fields = fields.map fun f => (f.1, f.2.quieted) := by
  induction fields with
  | nil => rfl
  | cons f rest ih => rw [quietedFields, ih, List.map_cons]

theorem quietedItems_eq_map (items : List Value) : quietedItems items = items.map quieted := by
  induction items with
  | nil => rfl
  | cons v rest ih => rw [quietedItems, ih, List.map_cons]

/-- The first field of a name keeps its place. -/
theorem field?_quietedFields (fields : List (String × Value)) (name : String) :
    field? (quietedFields fields) name = (field? fields name).map quieted := by
  unfold field?
  rw [quietedFields_eq_map, List.find?_map, Option.map_map, Option.map_map]
  rfl

end Value

namespace Record

/-- The record itself, with one pattern for no number in its values. -/
def quieted (r : Record) : Record := { r with values := r.values.map Value.quieted }

theorem quieted_quieted (r : Record) : r.quieted.quieted = r.quieted := by
  have hvalues : (r.values.map Value.quieted).map Value.quieted = r.values.map Value.quieted := by
    unfold NameMap.map
    simp [Value.quieted_quieted]
  unfold quieted
  rw [hvalues]

/-- Records that differ in patterns for no number only are the same for the rest. -/
theorem same_of_quieted {r r' : Record} (h : r'.quieted = r.quieted) : r'.guid = r.guid ∧
    r'.identifier = r.identifier ∧ r'.directory = r.directory ∧ r'.contentHash = r.contentHash :=
  let ⟨_, _, _, _, _⟩ := r'
  let ⟨_, _, _, _, _⟩ := r
  by
    injection h with hguid hidentifier hdirectory hhash
    exact ⟨hguid, hidentifier, hdirectory, hhash⟩

theorem map_guid_quieted (l : List Record) : (l.map quieted).map (·.guid) = l.map (·.guid) := by
  rw [List.map_map]
  rfl

end Record

end RecordTables
