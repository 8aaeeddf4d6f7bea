import RecordText.Json.Number
import RecordText.Json.StringLiteral

/-!
# Reading values

A reader that asks for a value of one type first reads what stands there, whatever that is, and then
accepts or refuses it. A refusal names what was found; its place is behind a scalar, and in front of
the bracket of a list or an object.
-/

namespace RecordText.Json

open Reader

/-- The letters that have to follow. -/
def word : List Char → Reader Unit
  | [] => pure ()
  | c :: cs => do
    match ← peek with
    | none => fail (.unfinished .value)
    | some d =>
      if d = c then
        skip
        word cs
      else failPast 1 (.malformed .word)

/-- What stands behind the blanks. -/
def found : Reader Found := do
  blanks
  match ← peek with
  | none => fail (.unfinished .value)
  | some c =>
    if c = 'n' then
      word ['n', 'u', 'l', 'l']
      return .null
    else if c = 't' then
      word ['t', 'r', 'u', 'e']
      return .boolean true
    else if c = 'f' then
      word ['f', 'a', 'l', 's', 'e']
      return .boolean false
    else if c = '"' then
      skip
      return .string (← stringRest)
    else if c = '[' then
      return .list
    else if c = '{' then
      return .object
    else if c = '-' || c.isDigit then
      match ← number with
      | .integer n => return .integer n
      | .float x => return .float x
    else
      failPast 1 (.malformed .value)

/-- Refuses what was found. -/
def wrongType {α : Type} (f : Found) (expected : Expected) : Reader α :=
  fail (.mismatched (.wrongType f expected))

/-- The name of a record. -/
def name : Reader String := do
  match ← found with
  | .string s => return s
  | f => wrongType f .name

/-- The value of a record: an integer of 64 bits. -/
def value : Reader Int64 := do
  match ← found with
  | .integer n =>
    if Int64.minValue.toInt ≤ n ∧ n ≤ Int64.maxValue.toInt then return Int64.ofInt n
    else fail (.mismatched (.outOfRange n))
  | f => wrongType f .value

end RecordText.Json
