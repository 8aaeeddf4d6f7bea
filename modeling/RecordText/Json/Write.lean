import RecordText.Json.Escape
import RecordText.Record

/-!
# Records as JSON

A list of records is written as an array of objects, each with the name first. A layout adds blanks
between the tokens and changes nothing else: `Layout.compact` adds none, `Layout.pretty` gives each
field and each brace a line of its own.
-/

namespace RecordText.Json

/-- The blanks between tokens. -/
structure Layout where
  /-- In front of a token that may start a line, so many levels deep. -/
  newline : Nat → List Char
  /-- Behind a colon. -/
  gap : List Char
  newline_blank : ∀ depth, (newline depth).all Char.isWhitespace
  gap_blank : gap.all Char.isWhitespace

namespace Layout

/-- No blanks at all. -/
def compact : Layout where
  newline _ := []
  gap := []
  newline_blank _ := rfl
  gap_blank := rfl

/-- A line for each field and brace, two spaces deeper on every level. -/
def pretty : Layout where
  newline depth := '\n' :: List.replicate (2 * depth) ' '
  gap := [' ']
  newline_blank depth := by simp [Char.isWhitespace]
  gap_blank := rfl

end Layout

/-- How one character is written in a string literal. -/
def writeChar (c : Char) : List Char :=
  match Escape.letter? c with
  | some l => ['\\', l]
  | none => if c < ' ' then '\\' :: 'u' :: Escape.hex c.toNat else [c]

/-- A text as a string literal. -/
def writeString (cs : List Char) : List Char := '"' :: cs.flatMap writeChar ++ ['"']

/-- A member of an object, on a line of its own if the layout has lines. -/
def writeMember (l : Layout) (field : Record.Field) (value : List Char) : List Char :=
  l.newline 2 ++ writeString field.key.toList ++ ':' :: l.gap ++ value

/-- A record as an object. -/
def writeRecord (l : Layout) (r : Record) : List Char :=
  '{' :: writeMember l .name (writeString r.name.toList) ++
    ',' :: writeMember l .value r.decimal.toList ++ l.newline 1 ++ ['}']

/-- Records as an array. An empty array has no blanks in any layout. -/
def writeRecords (l : Layout) : List Record → List Char
  | [] => ['[', ']']
  | r :: rs =>
    '[' :: List.intercalate [','] ((r :: rs).map fun s => l.newline 1 ++ writeRecord l s) ++
      l.newline 0 ++ [']']

/-- The JSON text of a list of records. -/
def write (l : Layout) (rs : List Record) : String := String.ofList (writeRecords l rs)

end RecordText.Json
