import RecordText.Decimal.Shortest

/-!
# The text of a double

A double is written with the fewest digits that read back as it. Between `10 ^ (-5)` and `10 ^ 16`
it is written with a decimal point and at least one digit behind it, elsewhere as one digit, the
others behind a point, and the exponent with its sign. Zero has a sign too.
-/

namespace RecordText.Decimal

/-- Whether a number that starts at the decimal place `10 ^ place` is written without exponent. -/
def isPositional (place : Int) : Bool := -5 ≤ place && place ≤ 15

namespace Scientific

/-- The digits of the significand. -/
def digits (s : Scientific) : List Char := Nat.toDigits 10 s.significand

/-- The exponent of ten at the first digit. -/
def place (s : Scientific) : Int := s.digits.length - 1 + s.exponent

/-- With a decimal point, and a digit on either side of it. -/
def positional (s : Scientific) : List Char :=
  if 0 ≤ s.exponent then
    s.digits ++ List.replicate s.exponent.toNat '0' ++ ['.', '0']
  else if 0 ≤ s.place then
    s.digits.take (s.place.toNat + 1) ++ '.' :: s.digits.drop (s.place.toNat + 1)
  else
    ['0', '.'] ++ List.replicate (-s.place - 1).toNat '0' ++ s.digits

/-- With the exponent of the first digit. -/
def exponential (s : Scientific) : List Char :=
  let behind := s.digits.drop 1
  s.digits.take 1 ++ (if behind.isEmpty then [] else '.' :: behind) ++
    ['e', if s.place < 0 then '-' else '+'] ++ Nat.toDigits 10 s.place.natAbs

/-- The decimal with or without exponent, as its size asks for. -/
def text (s : Scientific) : List Char :=
  if isPositional s.place then s.positional else s.exponential

end Scientific

/-- The text of a finite double. -/
def floatText (x : Float) : String :=
  let bits := x.toBits.toNat
  let signBit := fractionCount * exponentCount
  let sign := if bits / signBit = 0 then [] else ['-']
  let magnitude := bits % signBit
  String.ofList (sign ++ if magnitude = 0 then ['0', '.', '0'] else (shortest magnitude).text)

end RecordText.Decimal
