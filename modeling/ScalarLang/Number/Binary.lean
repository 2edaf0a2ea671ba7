/-! Binary floating-point formats, kept as bit patterns in natural numbers. A finite pattern stands
for `significand * 2 ^ exponent`; every operation here goes through that exact value and rounds at
most once, to the nearest pattern and at a tie to the even one. -/

namespace ScalarLang.Number

def twoPow (n : Nat) : Nat := Nat.pow 2 n

def tenPow (n : Nat) : Nat := Nat.pow 10 n

structure BinaryFormat where
  fractionBits : Nat
  exponentBits : Nat
  deriving DecidableEq, Repr

/-- What a bit pattern stands for. -/
inductive FloatValue where
  | nan (isNegative : Bool) (payload : Nat)
  | infinite (isNegative : Bool)
  | finite (isNegative : Bool) (significand : Nat) (exponent : Int)
  deriving DecidableEq, Repr

/-- `numerator / denominator` rounded to the nearest integer, a half to the even one. -/
def roundQuotient (numerator denominator : Nat) : Nat :=
  let quotient := numerator / denominator
  let remainder := numerator % denominator
  if 2 * remainder < denominator then quotient
  else if denominator < 2 * remainder then quotient + 1
  else quotient + quotient % 2

/-- The ratio `numerator / (denominator * 2 ^ exponent)` as a ratio of naturals. -/
def scaleRatio (numerator denominator : Nat) (exponent : Int) : Nat × Nat :=
  if 0 ≤ exponent then (numerator, denominator * twoPow exponent.toNat)
  else (numerator * twoPow (-exponent).toNat, denominator)

namespace BinaryFormat

def binary32 : BinaryFormat := ⟨23, 8⟩
def binary64 : BinaryFormat := ⟨52, 11⟩

variable (format : BinaryFormat)

/-- The exponent of the smallest positive pattern. -/
def leastExponent : Int := 2 - twoPow (format.exponentBits - 1) - format.fractionBits

def infinityBits : Nat := (twoPow format.exponentBits - 1) * twoPow format.fractionBits

def signBit (isNegative : Bool) : Nat :=
  if isNegative then twoPow (format.fractionBits + format.exponentBits) else 0

def decode (bits : Nat) : FloatValue :=
  let isNegative := bits / twoPow (format.fractionBits + format.exponentBits) % 2 == 1
  let exponent := bits / twoPow format.fractionBits % twoPow format.exponentBits
  let fraction := bits % twoPow format.fractionBits
  if exponent = twoPow format.exponentBits - 1 then
    if fraction = 0 then .infinite isNegative else .nan isNegative fraction
  else if exponent = 0 then .finite isNegative fraction format.leastExponent
  else
    .finite isNegative (twoPow format.fractionBits + fraction)
      (format.leastExponent + (exponent - 1))

/-- The exponent at which a positive ratio has a full significand, or the least exponent. -/
def exponentOf (numerator denominator : Nat) : Int :=
  let guess := (numerator.log2 : Int) - denominator.log2 - format.fractionBits
  let scaled := scaleRatio numerator denominator guess
  let exponent := if scaled.1 < scaled.2 * twoPow format.fractionBits then guess - 1 else guess
  max exponent format.leastExponent

/-- The pattern nearest to a non-negative ratio; past the largest finite one, infinity. A
significand that rounds up to the next power of two carries into the exponent field. -/
def roundRatio (numerator denominator : Nat) : Nat :=
  if numerator = 0 then 0
  else
    let exponent := format.exponentOf numerator denominator
    let scaled := scaleRatio numerator denominator exponent
    let offset := (exponent - format.leastExponent).toNat
    min format.infinityBits (offset * twoPow format.fractionBits + roundQuotient scaled.1 scaled.2)

/-- A payload that changes its width keeps its leading bits, and the result is a quiet NaN. -/
def encodeNaN (isNegative : Bool) (payload payloadBits : Nat) : Nat :=
  let fraction :=
    if payloadBits ≤ format.fractionBits then payload * twoPow (format.fractionBits - payloadBits)
    else payload / twoPow (payloadBits - format.fractionBits)
  let quiet := twoPow (format.fractionBits - 1)
  format.signBit isNegative + format.infinityBits + (fraction % quiet + quiet)

/-- The pattern of this format nearest to a pattern of another one. -/
def convertFrom (source : BinaryFormat) (bits : Nat) : Nat :=
  match source.decode bits with
  | .nan isNegative payload => format.encodeNaN isNegative payload source.fractionBits
  | .infinite isNegative => format.signBit isNegative + format.infinityBits
  | .finite isNegative significand exponent =>
    let ratio := scaleRatio significand 1 (-exponent)
    format.signBit isNegative + format.roundRatio ratio.1 ratio.2

def ofInt (n : Int) : Nat := format.signBit (n < 0) + format.roundRatio n.natAbs 1

end BinaryFormat

namespace FloatValue

/-- The integer part, cut off toward zero and held within bounds. NaN counts as zero. -/
def truncate (least greatest : Int) : FloatValue → Int
  | .nan _ _ => 0
  | .infinite isNegative => if isNegative then least else greatest
  | .finite isNegative significand exponent =>
    let ratio := scaleRatio significand 1 (-exponent)
    let magnitude : Int := (ratio.1 / ratio.2 : Nat)
    max least (min greatest (if isNegative then -magnitude else magnitude))

def isZero : FloatValue → Bool
  | .finite _ 0 _ => true
  | _ => false

/-- Whether two values are the same number. The zeros are, and NaN is no number. -/
def sameNumber : FloatValue → FloatValue → Bool
  | .finite left m p, .finite right n q =>
    if m = 0 then n = 0 else left = right && m = n && p = q
  | .infinite left, .infinite right => left = right
  | _, _ => false

end FloatValue

end ScalarLang.Number
