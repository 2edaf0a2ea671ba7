import ScalarLang.Number.Decimal

/-! How floating-point numbers are written. A point and a digit after it always show, unless the
number is so large or so small that it takes an exponent. -/

namespace ScalarLang.Number

structure FloatStyle where
  /-- Numbers from this power of ten on take an exponent. -/
  exponentFrom : Int
  /-- Numbers below this power of ten take an exponent. -/
  exponentBelow : Int
  exponentMark : Char
  point : Char
  minus : Char
  infinity : String
  notANumber : String

/-- Positional from `0.0001` up to `10 ^ 16`, then `1e16` and `1.5e-5`. -/
def plainStyle : FloatStyle :=
  { exponentFrom := 16
    exponentBelow := -4
    exponentMark := 'e'
    point := '.'
    minus := '-'
    infinity := "inf"
    notANumber := "NaN" }

def digitChars (n : Nat) : List Char := Nat.toDigits 10 n

def dropTrailingZeros : List Char → List Char
  | [] => []
  | c :: rest =>
    match dropTrailingZeros rest with
    | [] => if c = '0' then [] else [c]
    | kept => c :: kept

namespace FloatStyle

variable (style : FloatStyle)

def writeInt (n : Int) : List Char :=
  if n < 0 then style.minus :: digitChars n.natAbs else digitChars n.natAbs

/-- One digit before the point, and the exponent that this makes. -/
def writeScientific (digits : List Char) (exponent : Int) : List Char :=
  let fraction := digits.drop 1
  digits.take 1 ++ (if fraction.isEmpty then [] else style.point :: fraction)
    ++ style.exponentMark :: style.writeInt exponent

/-- The point stands `magnitude` places after the start of the digits. -/
def writePositional (digits : List Char) (magnitude : Int) : List Char :=
  let places := magnitude.toNat
  let whole := digits.take places ++ List.replicate (places - digits.length) '0'
  let fraction := List.replicate (-magnitude).toNat '0' ++ digits.drop places
  (if whole.isEmpty then ['0'] else whole) ++ style.point
    :: (if fraction.isEmpty then ['0'] else fraction)

def writeDecimal (decimal : Decimal) : List Char :=
  let digits := dropTrailingZeros (digitChars decimal.coefficient)
  let exponent := decimal.magnitude - 1
  if decimal.coefficient = 0 then style.writePositional [] 0
  else if exponent < style.exponentBelow || style.exponentFrom ≤ exponent then
    style.writeScientific digits exponent
  else style.writePositional digits decimal.magnitude

def sign (isNegative : Bool) : List Char := if isNegative then [style.minus] else []

def write (format : BinaryFormat) (bits : Nat) : String :=
  match format.decode bits with
  | .nan _ _ => style.notANumber
  | .infinite isNegative => String.ofList (style.sign isNegative) ++ style.infinity
  | .finite isNegative significand exponent =>
    let decimal := if significand = 0 then ⟨0, 0⟩ else shortest format significand exponent
    String.ofList (style.sign isNegative ++ style.writeDecimal decimal)

end FloatStyle

end ScalarLang.Number
