/-!
# The shortest decimal of a double

A double stands for all the reals that round to it, an interval around its exact value. Among the
decimals in that interval the shortest is wanted, and of several of the same length the nearest to
the exact value.

Decimals with a given last place form a grid. The grids are tried from the coarsest on, and on each
only the two neighbours of the exact value: where a grid has a point in the interval, one of its
two neighbours lies there too. All numbers are whole, as multiples of one small unit.
-/

namespace RecordText.Decimal

/-- The decimal `significand * 10 ^ exponent`. -/
structure Scientific where
  significand : Nat
  exponent : Int
deriving DecidableEq

/-- The number of fractions that a double of a given exponent can have, `2 ^ 52`. -/
def fractionCount : Nat := 1 <<< 52

/-- The number of exponents of a double, `2 ^ 11`. -/
def exponentCount : Nat := 1 <<< 11

/-- The reals that round to a positive double, as multiples of `2 ^ (-1076)`. -/
structure Interval where
  lower : Nat
  value : Nat
  upper : Nat
  /-- Whether the ends belong to it. -/
  closed : Bool

/-- The interval of a positive finite double, from its bits. The gap below a power of two is half
as wide as the gap above it; the ends round to the double exactly where its significand is even. -/
def Interval.ofBits (bits : Nat) : Interval :=
  let fraction := bits % fractionCount
  let exponent := bits / fractionCount % exponentCount
  let significand := if exponent = 0 then fraction else fractionCount + fraction
  let unit := 1 <<< (exponent - 1)
  let below := if fraction = 0 ∧ 1 < exponent then 1 else 2
  { lower := (4 * significand - below) * unit
    value := 4 * significand * unit
    upper := (4 * significand + 2) * unit
    closed := significand % 2 = 0 }

namespace Interval

/-- Every number of the interval times `n`. -/
def scale (i : Interval) (n : Nat) : Interval :=
  { i with lower := i.lower * n, value := i.value * n, upper := i.upper * n }

/-- Whether a number lies in the interval. -/
def contains (i : Interval) (x : Nat) : Bool :=
  if i.closed then i.lower ≤ x && x ≤ i.upper else i.lower < x && x < i.upper

/-- The multiple of a step next to the exact value, if the interval holds one: of two the nearer,
and of two as near the even one. -/
def nearest? (i : Interval) (step : Nat) : Option Nat :=
  let n := i.value / step
  let toLower := i.value - n * step
  let toUpper := (n + 1) * step - i.value
  match i.contains (n * step), i.contains ((n + 1) * step) with
  | false, false => none
  | true, false => some n
  | false, true => some (n + 1)
  | true, true =>
    if toLower < toUpper ∨ (toLower = toUpper ∧ n % 2 = 0) then some n else some (n + 1)

/-- The finest last place that is tried is `10 ^ (-finest)`, below the gaps of all doubles. -/
def finest : Nat := 400

/-- The number `10 ^ (place - finest)`, as a multiple of `10 ^ (-finest) * 2 ^ (-1076)`. -/
def step (place : Nat) : Nat := Nat.pow 10 place <<< 1076

/-- The decimal on the coarsest grid that has a point in the interval, of those whose last place is
at most `10 ^ (place - finest)`. The interval is in multiples of `10 ^ (-finest) * 2 ^ (-1076)`. -/
def coarsest (i : Interval) : Nat → Scientific
  | 0 => ⟨i.value / step 0, -finest⟩
  | place + 1 =>
    match i.nearest? (step (place + 1)) with
    | some n => ⟨n, (place + 1 : Int) - finest⟩
    | none => coarsest i place

end Interval

/-- The shortest decimal of a positive finite double, given by its bits. No double reaches
`10 ^ 310`. -/
def shortest (bits : Nat) : Scientific :=
  ((Interval.ofBits bits).scale (Nat.pow 10 Interval.finest)).coarsest (Interval.finest + 310)

end RecordText.Decimal
