import RecordText.Json.Escape
import RecordText.Json.Reader

/-!
# Reading string literals

A string literal is read character by character from behind its opening quote to its closing one.
A character stands for itself or is escaped. The escape of a surrogate takes two code units; every
half that stands alone is refused.
-/

namespace RecordText.Json

open Reader

/-- A UTF-16 code unit in four hexadecimal digits. Where they are not all there the fault lies
behind the four bytes, or at the end of the text if there are fewer. -/
def codeUnit : Reader Nat := do
  let text ← ahead
  match Escape.codeUnit? text with
  | some unit =>
    drop 4
    return unit
  | none =>
    if Text.byteLength text < 4 then failPast 4 (.unfinished .string)
    else failPast 4 (.malformed .escape)

/-- A character that has to follow the first half of a surrogate pair. -/
def pairMark (mark : Char) : Reader Unit := do
  match ← peek with
  | none => fail (.unfinished .string)
  | some c => if c = mark then skip else failPast 1 (.malformed .brokenPair)

/-- The rest of an escape by code units, behind the `u`. -/
def escapedUnits : Reader Char := do
  let unit ← codeUnit
  if Escape.isLow unit then
    fail (.malformed .loneSurrogate)
  else if Escape.isHigh unit then
    pairMark '\\'
    pairMark 'u'
    let second ← codeUnit
    if Escape.isLow second then return Escape.pair unit second
    else fail (.malformed .loneSurrogate)
  else
    return Char.ofNat unit

/-- The rest of an escape, behind the backslash. -/
def escaped : Reader Char := do
  match ← peek with
  | none => fail (.unfinished .string)
  | some c =>
    if c = 'u' then
      skip
      escapedUnits
    else match Escape.ofLetter? c with
      | some d =>
        skip
        return d
      | none => failPast 1 (.malformed .escape)

/-- The next character of a string, or none behind its closing quote. -/
def stringChar : Reader (Option Char) := do
  match ← peek with
  | none => fail (.unfinished .string)
  | some c =>
    if c = '"' then
      skip
      return none
    else if c = '\\' then
      skip
      return some (← escaped)
    else if c < ' ' then
      failPast 1 (.malformed .controlCharacter)
    else
      skip
      return some c

theorem stringChar_advances : stringChar.Advances := by
  intro text a rest h
  cases text with
  | nil => simp [stringChar] at h
  | cons c text =>
    simp only [stringChar, run_bind, run_peek, List.head?_cons] at h
    split at h
    · simp at h
    · split at h
      · simp only [run_bind, run_skip, List.tail_cons] at h
        cases he : escaped.run text with
        | error e => rw [he] at h; cases h
        | ok p =>
          rw [he] at h
          cases h
          exact Nat.lt_succ_of_le (length_le_of_run escaped he)
      · split at h <;> simp at h
        simp [← h.2]

/-- The rest of a string literal, behind its opening quote. -/
def stringRest : Reader String := do
  return String.ofList (← many stringChar stringChar_advances)

end RecordText.Json
