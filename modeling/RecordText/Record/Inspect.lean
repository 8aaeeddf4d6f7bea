import RecordText.Record
import RecordText.Text.Quoted

/-!
# Records as literals

A record as a programmer would write it down, with the name in quotes: on one line, or as a
block with a line for each field.
-/

namespace RecordText.Record

/-- The record as a literal on one line. -/
def inspect (r : Record) : String :=
  "Record \x7b name: " ++ Text.quoted r.name ++ ", value: " ++ r.decimal ++ " \x7d"

/-- The record as a literal with its fields on lines of their own. -/
def inspectBlock (r : Record) : String :=
  "Record \x7b\n    name: " ++ Text.quoted r.name ++ ",\n    value: " ++ r.decimal ++ ",\n\x7d"

end RecordText.Record
