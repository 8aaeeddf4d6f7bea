import RecordText.Json.Reader

/-!
# Reading numbers

An integer of up to 64 bits is read exactly; a minus sign leaves room for 63. Any other number is
read as a double: of its digits as many as fit into 64 bits make up the significand, the others only
count, and the significand is scaled by one power of ten after the other. The result may therefore
be off the nearest double in its last place.
-/

namespace RecordText.Json

open Reader

/-- A number of a JSON text. -/
inductive Number
  | integer (n : Int)
  | float (x : Float)

namespace Number

/-- The largest significand, `2 ^ 64 - 1`. -/
def significandLimit : Nat := UInt64.size - 1

/-- The largest exponent that is taken as a number, `2 ^ 31 - 1`. -/
def exponentLimit : Nat := 2147483647

/-- The largest exponent of a power of ten that is a double. -/
def powerLimit : Nat := 308

/-- The double nearest to a power of ten. -/
def power (n : Nat) : Float := Float.ofScientific 1 false n

/-- `x * 10 ^ exponent`, with a rounding at each step; none if it is beyond every double. -/
def scale (x : Float) (exponent : Int) : Option Float :=
  if exponent.natAbs ≤ powerLimit then
    if 0 ≤ exponent then
      let y := x * power exponent.natAbs
      if y.isInf then none else some y
    else
      some (x / power exponent.natAbs)
  else if x == 0 then some x
  else if 0 < exponent then none
  else scale (x / power powerLimit) (exponent + powerLimit)
termination_by (-exponent).toNat
decreasing_by simp only [powerLimit] at *; omega

/-- A double behind its minus sign, if there is one. -/
def signed (negative : Bool) (x : Float) : Float := if negative then -x else x

/-- A number written as digits alone. Zero has no negative integer, so `-0` is a double. -/
def ofDigits (negative : Bool) (n : Nat) : Number :=
  if !negative then .integer n
  else if n ≠ 0 ∧ n ≤ Int64.minValue.toInt.natAbs then .integer (-n)
  else .float (-Float.ofNat n)

/-- The value of a decimal digit. -/
def digit (c : Char) : Nat := c.toNat - '0'.toNat

/-- Appends decimal digits to a number as long as it stays within the limit; gives the digits that
are left. -/
def append (limit n : Nat) : List Char → Nat × List Char
  | [] => (n, [])
  | c :: cs =>
    if n * 10 + digit c ≤ limit then append limit (n * 10 + digit c) cs else (n, c :: cs)

end Number

/-- A digit that has to be there. -/
def firstDigit : Reader Nat := do
  match ← peek with
  | none => fail (.unfinished .value)
  | some c =>
    if c.isDigit then
      skip
      return Number.digit c
    else failPast 1 (.malformed .number)

/-- The digits in front of the point: the significand, and how many digits do not fit into it. -/
def wholePart : Reader (Nat × Nat) := do
  let first ← firstDigit
  let digits := (← ahead).takeWhile Char.isDigit
  if first = 0 then
    if digits.isEmpty then return (0, 0) else failPast 1 (.malformed .number)
  else
    drop digits.length
    let (significand, left) := Number.append Number.significandLimit first digits
    return (significand, left.length)

/-- The digits behind the point: the significand that they are appended to, and how many fit. -/
def fraction (significand : Nat) : Reader (Nat × Nat) := do
  let digits ← span Char.isDigit
  if digits.isEmpty then
    match ← peek with
    | none => fail (.unfinished .value)
    | some _ => failPast 1 (.malformed .number)
  else
    let (significand, left) := Number.append Number.significandLimit significand digits
    return (significand, digits.length - left.length)

/-- The sign of an exponent, which need not be written. -/
def exponentSign : Reader Bool := do
  if ← accept '-' then return true
  else
    let _ ← accept '+'
    return false

/-- The exponent, behind its mark. An exponent beyond its limit is none where it makes the number
zero, and a fault at the digit that exceeds the limit where it makes the number too large. -/
def exponent (significand : Nat) : Reader (Option Int) := do
  let negative ← exponentSign
  let first ← firstDigit
  let digits := (← ahead).takeWhile Char.isDigit
  let (n, left) := Number.append Number.exponentLimit first digits
  if left.isEmpty then
    drop digits.length
    return some (if negative then -n else n)
  else if significand = 0 || negative then
    drop digits.length
    return none
  else
    failPast (digits.length - left.length + 1) (.malformed .tooLarge)

/-- The double that has been read. -/
def scaled (negative : Bool) (significand : Nat) (exponent : Int) : Reader Number := do
  match Number.scale (Float.ofNat significand) exponent with
  | some x => return .float (Number.signed negative x)
  | none => fail (.malformed .tooLarge)

/-- A number, up to the first character that is no part of it. -/
def number : Reader Number := do
  let negative ← accept '-'
  let (whole, dropped) ← wholePart
  let point ← accept '.'
  let (significand, places) ← if point then fraction whole else pure (whole, 0)
  let shift : Int := dropped - places
  match ← peek with
  | some 'e' | some 'E' =>
    skip
    match ← exponent significand with
    | some n => scaled negative significand (shift + n)
    | none => return .float (Number.signed negative 0)
  | _ =>
    if point || dropped ≠ 0 then scaled negative significand shift
    else return .ofDigits negative whole

end RecordText.Json
