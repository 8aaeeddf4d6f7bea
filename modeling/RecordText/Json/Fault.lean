import RecordText.Json.Cause
import RecordText.Text.Position

/-!
# Where a text cannot be read

While a text is being read a fault is placed by the number of bytes that are still unread behind
it. So it does not depend on what has been read before: text put in front of the text moves no
fault. Once the reading has ended, `Fault.locate` gives the line and column.
-/

namespace RecordText.Json

/-- A cause and its place. -/
structure Fault where
  cause : Cause
  /-- The bytes from the fault to the end of the text. -/
  unread : Nat
deriving DecidableEq

/-- What is reported about a text that cannot be read. -/
structure ReadError where
  cause : Cause
  position : Text.Position
deriving DecidableEq

namespace Fault

/-- The bytes from the beginning of the text to the fault. -/
def offset (text : List Char) (f : Fault) : Nat := Text.byteLength text - f.unread

/-- The fault as it is reported. -/
def locate (text : List Char) (f : Fault) : ReadError where
  cause := f.cause
  position := .ofOffset text (f.offset text)

end Fault

/-- The description of the cause, and the place. -/
def ReadError.message (e : ReadError) : String :=
  e.cause.text ++ " at line " ++ toString e.position.line ++
    " column " ++ toString e.position.column

end RecordText.Json
