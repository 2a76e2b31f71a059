import RecordTables.Number.Decimal32
import RecordTables.Scalar.Basic
import RecordTables.Text.Blank

/-!
# The text of a fixed-width value

Truth values are `true` and `false`, in any case, or `1` and `0`.  Integers are decimal numerals in
the range of their kind, floating-point numbers are decimal texts.  Blanks around a text do not
matter.
-/

namespace RecordTables.Scalar

open Number

/-- Reads a truth value. -/
def readBool? (cs : List Char) : Option Bool :=
  let word := cs.map Char.toLower
  if word = "true".toList ∨ cs = ['1'] then some true
  else if word = "false".toList ∨ cs = ['0'] then some false
  else none

/-- Reads the text of a value of a kind. -/
def ofText? (kind : ScalarKind) (text : String) : Option Scalar :=
  let cs := Text.trim text.toList
  match kind with
  | .bool => (readBool? cs).map bool
  | .i8 => (readInt 0x80 0x7f cs).toOption.map (fun n => i8 (Int8.ofInt n))
  | .u8 => (readNat 10 0xff cs).toOption.map (fun n => u8 (UInt8.ofNat n))
  | .i16 => (readInt 0x8000 0x7fff cs).toOption.map (fun n => i16 (Int16.ofInt n))
  | .u16 => (readNat 10 0xffff cs).toOption.map (fun n => u16 (UInt16.ofNat n))
  | .i32 => (readInt 0x80000000 0x7fffffff cs).toOption.map (fun n => i32 (Int32.ofInt n))
  | .u32 => (readNat 10 0xffffffff cs).toOption.map (fun n => u32 (UInt32.ofNat n))
  | .i64 =>
    (readInt 0x8000000000000000 0x7fffffffffffffff cs).toOption.map (fun n => i64 (Int64.ofInt n))
  | .u64 => (readNat 10 0xffffffffffffffff cs).toOption.map (fun n => u64 (UInt64.ofNat n))
  | .f32 => (Binary32.ofText? cs).map f32

/-- The text of a value. -/
def text : Scalar → String
  | bool v => if v then "true" else "false"
  | i8 v => toString v.toInt
  | u8 v => toString v.toNat
  | i16 v => toString v.toInt
  | u16 v => toString v.toNat
  | i32 v => toString v.toInt
  | u32 v => toString v.toNat
  | i64 v => toString v.toInt
  | u64 v => toString v.toNat
  | f32 v => v.text

end RecordTables.Scalar
