/-!
# UTF-8

`utf8` are the bytes of a text.  `ofUtf8?` reads bytes that are well formed, and `ofUtf8Lossy` reads
any bytes: each maximal run of bytes that begins a well-formed sequence without finishing it, and
each byte that can begin none, stands as one replacement character.
-/

namespace RecordTables.Text

/-- The bytes of a text. -/
def utf8 (s : String) : List UInt8 := s.toByteArray.data.toList

/-- Two texts with the same bytes are equal. -/
theorem utf8_inj {s t : String} (h : utf8 s = utf8 t) : s = t := by
  apply String.toByteArray_inj.1
  apply ByteArray.ext
  exact Array.toList_inj.1 h

/-- The text of well-formed bytes. -/
def ofUtf8? (bs : List UInt8) : Option String :=
  String.fromUTF8? ⟨bs.toArray⟩

theorem ofUtf8?_utf8 (s : String) : ofUtf8? (utf8 s) = some s := by
  have hbytes : (⟨(utf8 s).toArray⟩ : ByteArray) = s.toByteArray := ByteArray.ext rfl
  unfold ofUtf8? String.fromUTF8?
  rw [hbytes, dif_pos s.isValidUTF8]
  rfl

/-- What follows the first byte of a sequence: the range of the second byte and the number of bytes
after the first.  `none` for a byte that begins no sequence of two or more. -/
def sequenceTail? (b : UInt8) : Option (UInt8 × UInt8 × Nat) :=
  if 0xC2 ≤ b ∧ b ≤ 0xDF then some (0x80, 0xBF, 1)
  else if b = 0xE0 then some (0xA0, 0xBF, 2)
  else if b = 0xED then some (0x80, 0x9F, 2)
  else if 0xE1 ≤ b ∧ b ≤ 0xEF then some (0x80, 0xBF, 2)
  else if b = 0xF0 then some (0x90, 0xBF, 3)
  else if 0xF1 ≤ b ∧ b ≤ 0xF3 then some (0x80, 0xBF, 3)
  else if b = 0xF4 then some (0x80, 0x8F, 3)
  else none

/-- How many of the leading bytes continue a sequence, at most `count`.  The first must lie in the
given range, the others are any continuation bytes. -/
def continuation (low high : UInt8) : (count : Nat) → List UInt8 → Nat
  | 0, _ => 0
  | _, [] => 0
  | count + 1, b :: rest =>
    if low ≤ b ∧ b ≤ high then 1 + continuation 0x80 0xBF count rest else 0

/-- The code point of a first byte and its continuation. -/
def codePoint (b : UInt8) (tail : List UInt8) : Nat :=
  let head := b.toNat % Nat.pow 2 (6 - tail.length)
  tail.foldl (fun n c => n * 64 + c.toNat % 64) head

/-- The first character of some bytes, and how many bytes after the first belong to it. -/
def decodeFirst (b : UInt8) (rest : List UInt8) : Char × Nat :=
  if b < 0x80 then (Char.ofNat b.toNat, 0)
  else
    match sequenceTail? b with
    | none => ('\uFFFD', 0)
    | some (low, high, count) =>
      let found := continuation low high count rest
      if found = count then (Char.ofNat (codePoint b (rest.take count)), count)
      else ('\uFFFD', found)

/-- The characters of any bytes. -/
def decodeLossy : List UInt8 → List Char
  | [] => []
  | b :: rest =>
    let (c, used) := decodeFirst b rest
    c :: decodeLossy (rest.drop used)
termination_by bs => bs.length

/-- The text of any bytes. -/
def ofUtf8Lossy (bs : List UInt8) : String := String.ofList (decodeLossy bs)

end RecordTables.Text
