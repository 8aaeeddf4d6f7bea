import RecordText.Text.Utf8

/-!
# Lines and columns

A place in a text, told by its line and column. Lines are counted from one and end with a
line feed; columns count the bytes behind the last line feed, so directly behind one the
column is zero. A column may fall inside a character.
-/

namespace RecordText.Text

/-- A line, counted from one, and a byte column on it. -/
structure Position where
  line : Nat
  column : Nat
deriving DecidableEq

namespace Position

/-- The byte that ends a line. -/
def lineFeed : UInt8 := 10

/-- Where the scan stands behind these bytes. -/
def behind (bytes : List UInt8) : Position where
  line := 1 + bytes.count lineFeed
  column := (bytes.reverse.takeWhile (· ≠ lineFeed)).length

/-- The place of a byte offset into a text. -/
def ofOffset (cs : List Char) (offset : Nat) : Position :=
  behind ((utf8 cs).take offset)

end Position

end RecordText.Text
