import ScalarLang.Number.Binary

/-! Decimal text of binary floating-point numbers: reading a decimal to the nearest pattern, and the
fewest digits that read back to a pattern. -/

namespace ScalarLang.Number

/-- The number that the digits write in a radix. -/
def ofDigits (radix : Nat) (digits : List Nat) : Nat :=
  digits.foldl (fun value digit => value * radix + digit) 0

def decimalDigits (n : Nat) : List Nat :=
  (Nat.toDigits 10 n).map fun c => c.toNat - '0'.toNat

/-- `coefficient * 10 ^ exponent`. -/
structure Decimal where
  coefficient : Nat
  exponent : Int
  deriving DecidableEq, Repr

namespace Decimal

def toRatio (decimal : Decimal) : Nat × Nat :=
  if 0 ≤ decimal.exponent then (decimal.coefficient * tenPow decimal.exponent.toNat, 1)
  else (decimal.coefficient, tenPow (-decimal.exponent).toNat)

/-- The place of the decimal point before the first digit. -/
def magnitude (decimal : Decimal) : Int :=
  (decimalDigits decimal.coefficient).length + decimal.exponent

/-- Decimals of a magnitude beyond these are past every finite pattern, or below half of the
smallest positive one, in both formats. -/
def greatestMagnitude : Int := 400
def leastMagnitude : Int := -400

/-- The nearest pattern. -/
def round (format : BinaryFormat) (decimal : Decimal) : Nat :=
  if decimal.coefficient = 0 then 0
  else if greatestMagnitude < decimal.magnitude then format.infinityBits
  else if decimal.magnitude < leastMagnitude then 0
  else format.roundRatio decimal.toRatio.1 decimal.toRatio.2

end Decimal

/-- The exponent `k` with `10 ^ (k - 1) ≤ numerator / denominator < 10 ^ k`. -/
def decimalMagnitude (numerator denominator : Nat) : Int :=
  if denominator ≤ numerator then (decimalDigits (numerator / denominator)).length
  else
    let places := (decimalDigits (denominator / numerator)).length
    if denominator ≤ numerator * tenPow (places - 1) then 2 - (places : Int)
    else 1 - (places : Int)

/-- The reals that round to a pattern, as bounds over a common denominator. The bounds belong to
the interval when the significand is even. -/
structure RoundingInterval where
  lower : Nat
  value : Nat
  upper : Nat
  denominator : Nat
  isClosed : Bool

/-- Below a power of two the gap to the next pattern halves, except at the least exponent. -/
def RoundingInterval.of (format : BinaryFormat) (significand : Nat) (exponent : Int) :
    RoundingInterval :=
  let isPower := significand = twoPow format.fractionBits && format.leastExponent < exponent
  let ratio := scaleRatio 1 1 (2 - exponent)
  { lower := (4 * significand - if isPower then 1 else 2) * ratio.1
    value := 4 * significand * ratio.1
    upper := (4 * significand + 2) * ratio.1
    denominator := ratio.2
    isClosed := significand % 2 = 0 }

namespace RoundingInterval

variable (interval : RoundingInterval)

/-- Whether the decimal lies in the interval. -/
def holds (decimal : Decimal) : Bool :=
  let ratio := decimal.toRatio
  let point := ratio.1 * interval.denominator
  let lower := interval.lower * ratio.2
  let upper := interval.upper * ratio.2
  if interval.isClosed then lower ≤ point && point ≤ upper else lower < point && point < upper

/-- The two decimals next to the value whose last digit stands for `10 ^ exponent`, the nearer one
first. A tie goes to the larger. -/
def neighbours (exponent : Int) : List Decimal :=
  let unit := Decimal.toRatio ⟨1, exponent⟩
  let numerator := interval.value * unit.2
  let denominator := interval.denominator * unit.1
  let below := numerator / denominator
  let remainder := numerator % denominator
  if remainder = 0 then [⟨below, exponent⟩]
  else if 2 * remainder < denominator then [⟨below, exponent⟩, ⟨below + 1, exponent⟩]
  else [⟨below + 1, exponent⟩, ⟨below, exponent⟩]

/-- Tries one digit more at a time. -/
def search (magnitude : Int) : Nat → Nat → Decimal
  | 0, digits => ⟨interval.value / interval.denominator, magnitude - digits⟩
  | fuel + 1, digits =>
    match (interval.neighbours (magnitude - digits)).find? interval.holds with
    | some decimal => decimal
    | none => search magnitude fuel (digits + 1)

end RoundingInterval

/-- More digits than any pattern of either format needs. -/
def mostDigits : Nat := 20

/-- The decimal with the fewest digits that rounds to `significand * 2 ^ exponent`, and of those
the nearest. -/
def shortest (format : BinaryFormat) (significand : Nat) (exponent : Int) : Decimal :=
  let interval := RoundingInterval.of format significand exponent
  interval.search (decimalMagnitude interval.value interval.denominator) mostDigits 1

end ScalarLang.Number
