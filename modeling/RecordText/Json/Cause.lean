import RecordText.Decimal.FloatText
import RecordText.Record
import RecordText.Text.Quoted

/-!
# Why a text cannot be read

A cause is of one of three kinds: the text ends too early, it is not JSON, or it is JSON that does
not hold what is asked for. Each cause has one description; the kind is known from the cause alone.
-/

namespace RecordText.Json

/-- What may be unfinished at the end of a text. -/
inductive Construct
  | value
  | list
  | object
  | string
deriving DecidableEq

/-- The construct in the description of a cause. -/
def Construct.text : Construct → String
  | value => "a value"
  | list => "a list"
  | object => "an object"
  | string => "a string"

/-- The ways in which a text breaks the grammar. -/
inductive Malformation
  /-- No value begins here. -/
  | value
  /-- A word that begins like `null`, `true` or `false` goes on differently. -/
  | word
  /-- An element is followed by neither a comma nor the end of its list. -/
  | afterElement
  /-- A member is followed by neither a comma nor the end of its object. -/
  | afterMember
  /-- A key is not followed by a colon. -/
  | afterKey
  /-- A member begins with something else than a string. -/
  | key
  /-- A comma is followed by the end of its list or object. -/
  | trailingComma
  /-- There is more text than there should be. -/
  | trailingText
  /-- A control character stands in a string as it is. -/
  | controlCharacter
  /-- A backslash begins no escape. -/
  | escape
  /-- One half of a surrogate pair stands where it cannot. -/
  | loneSurrogate
  /-- The first half of a surrogate pair is not followed by an escape. -/
  | brokenPair
  /-- A digit is missing, or stands behind a leading zero. -/
  | number
  /-- A number is beyond every double. -/
  | tooLarge
deriving DecidableEq

/-- The description of a broken grammar. -/
def Malformation.text : Malformation → String
  | value => "expected value"
  | word => "expected ident"
  | afterElement => "expected `,` or `]`"
  | afterMember => "expected `,` or `\x7d`"
  | afterKey => "expected `:`"
  | key => "key must be a string"
  | trailingComma => "trailing comma"
  | trailingText => "trailing characters"
  | controlCharacter => "control character (\\u0000-\\u001F) found while parsing a string"
  | escape => "invalid escape"
  | loneSurrogate => "lone leading surrogate in hex escape"
  | brokenPair => "unexpected end of hex escape"
  | number => "invalid number"
  | tooLarge => "number out of range"

/-- What stands where a value is asked for. Scalars are read to their end; of a list or an object
only the bracket is seen. -/
inductive Found
  | null
  | boolean (b : Bool)
  | integer (n : Int)
  | float (x : Float)
  | string (s : String)
  | list
  | object
deriving DecidableEq

/-- What was found, in the description of a cause. A scalar is shown with its value. -/
def Found.text : Found → String
  | null => "null"
  | boolean b => "boolean `" ++ toString b ++ "`"
  | integer n => "integer `" ++ toString n ++ "`"
  | float x => "floating point `" ++ Decimal.floatText x ++ "`"
  | string s => "string " ++ Text.quoted s
  | list => "sequence"
  | object => "map"

/-- What is asked for. -/
inductive Expected
  | records
  | record
  | name
  | value
deriving DecidableEq

/-- What was asked for, in the description of a cause. -/
def Expected.text : Expected → String
  | records => "a sequence"
  | record => "struct Record"
  | name => "a string"
  | value => "i64"

/-- The ways in which JSON does not hold what is asked for. -/
inductive Mismatch
  | wrongType (found : Found) (expected : Expected)
  /-- An integer that does not fit into the value of a record. -/
  | outOfRange (n : Int)
  /-- A list with fewer elements than a record has fields. -/
  | tooShort (length : Nat)
  | unknownField (key : String)
  | duplicateField (field : Record.Field)
  | missingField (field : Record.Field)
deriving DecidableEq

/-- The description of a mismatch. A key stands in it as it was read. -/
def Mismatch.text : Mismatch → String
  | wrongType found expected =>
    "invalid type: " ++ found.text ++ ", expected " ++ expected.text
  | outOfRange n =>
    "invalid value: " ++ (Found.integer n).text ++ ", expected " ++ Expected.value.text
  | tooShort length =>
    "invalid length " ++ toString length ++ ", expected " ++ Expected.record.text ++
      " with 2 elements"
  | unknownField key => "unknown field `" ++ key ++ "`, expected `name` or `value`"
  | duplicateField field => "duplicate field `" ++ field.key ++ "`"
  | missingField field => "missing field `" ++ field.key ++ "`"

/-- Why a text cannot be read. -/
inductive Cause
  /-- The text ends inside this. -/
  | unfinished (construct : Construct)
  | malformed (malformation : Malformation)
  | mismatched (mismatch : Mismatch)
deriving DecidableEq

/-- Causes by what has to change: more text, other text, or another value. -/
inductive Kind
  | unfinished
  | malformed
  | mismatched
deriving DecidableEq

namespace Cause

/-- The kind of a cause. -/
def kind : Cause → Kind
  | unfinished _ => .unfinished
  | malformed _ => .malformed
  | mismatched _ => .mismatched

/-- The description of a cause. -/
def text : Cause → String
  | unfinished construct => "EOF while parsing " ++ construct.text
  | malformed malformation => malformation.text
  | mismatched mismatch => mismatch.text

end Cause

end RecordText.Json
