import RecordTables.Scalar.Basic

/-!
# The bytes of a fixed-width value

Every value is stored in the bytes of its width, the least significant first; integers below zero in
two's complement, a truth value as `1` or `0`.  On reading, any byte but zero is `true`.
-/

namespace RecordTables

/-- The `width` low bytes of `n`, the least significant first. -/
def littleEndian : (width n : Nat) → List UInt8
  | 0, _ => []
  | width + 1, n => UInt8.ofNat (n % 256) :: littleEndian width (n / 256)

/-- The number whose bytes these are, the least significant first. -/
def ofLittleEndian : List UInt8 → Nat
  | [] => 0
  | b :: rest => b.toNat + 256 * ofLittleEndian rest

@[simp] theorem length_littleEndian (width n : Nat) : (littleEndian width n).length = width := by
  induction width generalizing n with
  | zero => rfl
  | succ w ih => simp [littleEndian, ih]

/-- Reading back gives the number modulo the range of the width. -/
theorem ofLittleEndian_littleEndian (width n : Nat) :
    ofLittleEndian (littleEndian width n) = n % Nat.pow 256 width := by
  induction width generalizing n with
  | zero => simp [littleEndian, ofLittleEndian, Nat.mod_one]
  | succ w ih =>
    have step : Nat.pow 256 (w + 1) = 256 * Nat.pow 256 w := Nat.mul_comm _ _
    rw [littleEndian, ofLittleEndian, ih, step, Nat.mod_mul]
    simp

namespace Scalar

/-- The word that holds a value, as a number. -/
def word : Scalar → Nat
  | bool v => v.toNat
  | i8 v => v.toUInt8.toNat
  | u8 v => v.toNat
  | i16 v => v.toUInt16.toNat
  | u16 v => v.toNat
  | i32 v => v.toUInt32.toNat
  | u32 v => v.toNat
  | i64 v => v.toUInt64.toNat
  | u64 v => v.toNat
  | f32 v => v.bits.toNat

/-- The value of a kind that a word holds. -/
def ofWord (kind : ScalarKind) (n : Nat) : Scalar :=
  match kind with
  | .bool => bool (n != 0)
  | .i8 => i8 (UInt8.ofNat n).toInt8
  | .u8 => u8 (UInt8.ofNat n)
  | .i16 => i16 (UInt16.ofNat n).toInt16
  | .u16 => u16 (UInt16.ofNat n)
  | .i32 => i32 (UInt32.ofNat n).toInt32
  | .u32 => u32 (UInt32.ofNat n)
  | .i64 => i64 (UInt64.ofNat n).toInt64
  | .u64 => u64 (UInt64.ofNat n)
  | .f32 => f32 ⟨UInt32.ofNat n⟩

/-- The bytes of a value, as many as its kind is wide. -/
def bytes (s : Scalar) : List UInt8 := littleEndian s.kind.width s.word

/-- Reads a value of a kind from the front of some bytes, if there are enough. -/
def ofBytes? (kind : ScalarKind) (bs : List UInt8) : Option Scalar :=
  if kind.width ≤ bs.length then some (ofWord kind (ofLittleEndian (bs.take kind.width))) else none

@[simp] theorem length_bytes (s : Scalar) : s.bytes.length = s.kind.width := by simp [bytes]

end Scalar

end RecordTables
