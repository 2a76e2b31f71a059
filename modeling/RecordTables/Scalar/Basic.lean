import RecordTables.Number.Binary32

/-!
# Fixed-width values

A scalar property holds a truth value, an integer of eight to sixty-four bits, or a floating-point
number of thirty-two bits.  Each kind has a width in bytes and two spellings in a declaration; the
canonical one (`ScalarKind.tag`) is what a rendered schema shows.

A `Scalar` carries its kind, so the layout of a row never has to guess.  Integers are words of their
width.  `toInt64?` and `ofInt64?` are the view of the integer kinds that enum members use.
-/

namespace RecordTables

/-! ## Kinds -/

/-- The kinds of fixed-width values. -/
inductive ScalarKind where
  | bool
  | i8
  | u8
  | i16
  | u16
  | i32
  | u32
  | i64
  | u64
  | f32
  deriving DecidableEq, Repr, Inhabited

namespace ScalarKind

/-- Every kind, in the order of declaration. -/
def all : List ScalarKind := [bool, i8, u8, i16, u16, i32, u32, i64, u64, f32]

/-- The kind that a declared type tag names, by its word or by its width. -/
def ofTag? : String → Option ScalarKind
  | "bool" => some bool
  | "sbyte" | "i8" => some i8
  | "byte" | "u8" => some u8
  | "short" | "i16" => some i16
  | "ushort" | "u16" => some u16
  | "int" | "i32" => some i32
  | "uint" | "u32" => some u32
  | "long" | "i64" => some i64
  | "ulong" | "u64" => some u64
  | "float" | "f32" => some f32
  | _ => none

/-- The canonical name, as a rendered schema shows it.  Here `byte` is signed. -/
def tag : ScalarKind → String
  | bool => "bool"
  | i8 => "byte"
  | u8 => "ubyte"
  | i16 => "short"
  | u16 => "ushort"
  | i32 => "int"
  | u32 => "uint"
  | i64 => "long"
  | u64 => "ulong"
  | f32 => "float"

/-- The name by width, as the storage of a record and a code generation plan show it. -/
def widthName : ScalarKind → String
  | bool => "bool"
  | i8 => "i8"
  | u8 => "u8"
  | i16 => "i16"
  | u16 => "u16"
  | i32 => "i32"
  | u32 => "u32"
  | i64 => "i64"
  | u64 => "u64"
  | f32 => "f32"

/-- Bytes of one value in a fixed-size row. -/
def width : ScalarKind → Nat
  | bool | i8 | u8 => 1
  | i16 | u16 => 2
  | i32 | u32 | f32 => 4
  | i64 | u64 => 8

/-- Whether the kind holds integers. -/
def isInteger : ScalarKind → Bool
  | bool | f32 => false
  | _ => true

/-- The name by width is one of the two spellings that a declaration accepts. -/
theorem ofTag?_widthName (kind : ScalarKind) : ofTag? kind.widthName = some kind := by
  cases kind <;> rfl

end ScalarKind

open Number (Binary32)

/-! ## Values -/

/-- A value of one of the fixed-width kinds. -/
inductive Scalar where
  | bool (v : Bool)
  | i8 (v : Int8)
  | u8 (v : UInt8)
  | i16 (v : Int16)
  | u16 (v : UInt16)
  | i32 (v : Int32)
  | u32 (v : UInt32)
  | i64 (v : Int64)
  | u64 (v : UInt64)
  | f32 (v : Binary32)
  deriving DecidableEq

namespace Scalar

/-- The kind of a value. -/
def kind : Scalar → ScalarKind
  | bool _ => .bool
  | i8 _ => .i8
  | u8 _ => .u8
  | i16 _ => .i16
  | u16 _ => .u16
  | i32 _ => .i32
  | u32 _ => .u32
  | i64 _ => .i64
  | u64 _ => .u64
  | f32 _ => .f32

/-- The default of a kind: `false` or zero. -/
def zero : ScalarKind → Scalar
  | .bool => bool false
  | .i8 => i8 0
  | .u8 => u8 0
  | .i16 => i16 0
  | .u16 => u16 0
  | .i32 => i32 0
  | .u32 => u32 0
  | .i64 => i64 0
  | .u64 => u64 0
  | .f32 => f32 .zero

instance : Inhabited Scalar := ⟨bool false⟩

/-- The integer that a value holds.  `none` for a truth value, a floating-point number, and an
integer above the signed 64-bit range. -/
def toInt64? : Scalar → Option Int64
  | i8 v => some v.toInt64
  | u8 v => some (Int64.ofNat v.toNat)
  | i16 v => some v.toInt64
  | u16 v => some (Int64.ofNat v.toNat)
  | i32 v => some v.toInt64
  | u32 v => some (Int64.ofNat v.toNat)
  | i64 v => some v
  | u64 v => if v.toNat < 0x8000000000000000 then some (Int64.ofNat v.toNat) else none
  | bool _ | f32 _ => none

/-- The value of an integer kind that holds `v`, if `v` fits. -/
def ofInt64? (kind : ScalarKind) (v : Int64) : Option Scalar :=
  let n := v.toInt
  match kind with
  | .i8 => if -0x80 ≤ n ∧ n < 0x80 then some (i8 (Int8.ofInt n)) else none
  | .u8 => if 0 ≤ n ∧ n < 0x100 then some (u8 (UInt8.ofNat n.toNat)) else none
  | .i16 => if -0x8000 ≤ n ∧ n < 0x8000 then some (i16 (Int16.ofInt n)) else none
  | .u16 => if 0 ≤ n ∧ n < 0x10000 then some (u16 (UInt16.ofNat n.toNat)) else none
  | .i32 => if -0x80000000 ≤ n ∧ n < 0x80000000 then some (i32 (Int32.ofInt n)) else none
  | .u32 => if 0 ≤ n ∧ n < 0x100000000 then some (u32 (UInt32.ofNat n.toNat)) else none
  | .i64 => some (i64 v)
  | .u64 => if 0 ≤ n then some (u64 (UInt64.ofNat n.toNat)) else none
  | .bool | .f32 => none

@[simp] theorem kind_zero (k : ScalarKind) : (zero k).kind = k := by cases k <;> rfl

end Scalar

end RecordTables
