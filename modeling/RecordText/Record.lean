/-!
# Records

A record is a named integer. Two records are the same when name and value are; names are
compared character by character.
-/

namespace RecordText

/-- A named integer of 64 bits. -/
structure Record where
  name : String
  value : Int64
deriving DecidableEq

namespace Record

/-- What a record consists of. -/
inductive Field
  | name
  | value
deriving DecidableEq

/-- The key of a field in written records. -/
def Field.key : Field → String
  | name => "name"
  | value => "value"

/-- The field of this key. -/
def Field.ofKey? (key : String) : Option Field :=
  if key = Field.name.key then some .name
  else if key = Field.value.key then some .value
  else none

/-- The value in decimal, behind a minus sign where it is negative. -/
def decimal (r : Record) : String := toString r.value.toInt

/-- Each record once, where it first occurs. -/
def distinct (rs : List Record) : List Record := rs.eraseDups

end Record

end RecordText
