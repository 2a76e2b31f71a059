import RecordTables.Number.Numeral
import RecordTables.Scalar.Bytes
import RecordTables.Text.Blank
import RecordTables.Text.Utf8

/-!
# Fingerprints

A fingerprint is the 64-bit FNV-1a hash of a stream of bytes.  Texts enter a stream behind their
length, so that no two lists of texts give the same stream (`Stream.text`).  A schema's stream
starts with a salt that names the format of the stream; the hash of a row's cells has none.
-/

namespace RecordTables

/-- A 64-bit hash, shown with sixteen hexadecimal digits. -/
structure Fingerprint where
  value : UInt64
  deriving DecidableEq, Repr, Inhabited

namespace Fingerprint

/-- The hash of no bytes at all. -/
def offsetBasis : UInt64 := 0xcbf29ce484222325

/-- The factor of one step. -/
def prime : UInt64 := 0x100000001b3

/-- Takes in one byte. -/
def step (h : UInt64) (b : UInt8) : UInt64 := (h ^^^ b.toUInt64) * prime

/-- Takes in a stream of bytes. -/
def absorb (h : UInt64) (stream : List UInt8) : UInt64 := stream.foldl step h

/-- The fingerprint of a stream of bytes. -/
def ofStream (stream : List UInt8) : Fingerprint := ⟨absorb offsetBasis stream⟩

/-- The sixteen digits of a fingerprint. -/
def text (f : Fingerprint) : String := Text.hex 16 f.value.toNat

/-- Reads hexadecimal digits, with blanks around them. -/
def ofText (s : String) : Except Number.NumeralFault Fingerprint :=
  (Number.readNat 16 0xffffffffffffffff (Text.trim s.toList)).map (fun n => ⟨UInt64.ofNat n⟩)

theorem absorb_append (h : UInt64) (s t : List UInt8) :
    absorb h (s ++ t) = absorb (absorb h s) t := List.foldl_append

end Fingerprint

namespace Stream

/-- A word of 64 bits, the least significant byte first. -/
def word (v : UInt64) : List UInt8 := littleEndian 8 v.toNat

/-- A count. -/
def count (n : Nat) : List UInt8 := word (UInt64.ofNat n)

/-- A text: the number of its bytes, then the bytes. -/
def text (s : String) : List UInt8 :=
  let bytes := Text.utf8 s
  count bytes.length ++ bytes

/-- The start of a schema's stream: the name of its format. -/
def salt : List UInt8 := text "paramforge-schema-v1"

end Stream

end RecordTables
