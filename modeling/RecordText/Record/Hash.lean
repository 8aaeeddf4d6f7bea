import RecordText.Record
import RecordText.Text.Utf8

/-!
# What a hasher takes in of a record

Which hash a record has is up to the hasher; the record only says what bytes it takes in, and in
which order. The name comes first. It may be of any length, so it is ended by a byte of its own, and
the value follows in as many bytes as a value has.
-/

namespace RecordText

/-- The lowest `k` bytes of a number, the lowest first. -/
def lowBytes : Nat → Nat → List UInt8
  | 0, _ => []
  | k + 1, n => UInt8.ofNat n :: lowBytes k (n / 256)

/-- Ends a text for a hasher. -/
def endOfText : UInt8 := 0xff

/-- The bytes that a hasher takes in of a record. -/
def Record.hashBytes (r : Record) : List UInt8 :=
  Text.utf8 r.name.toList ++ endOfText :: lowBytes 8 r.value.toBitVec.toNat

end RecordText
