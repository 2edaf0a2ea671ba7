import ScalarLang.Literal
import ScalarLang.Token.Fault
import ScalarLang.Token.Numeral

/-! The type and payload that a numeral denotes, or what is wrong with it. -/

namespace ScalarLang.Numeral

/-- The integer type that a suffix names. Without a suffix it is the signed 64-bit one. -/
def integerScalar? (suffix : String) : Option Scalar :=
  if suffix = "" then some .i64
  else (Scalar.ofName? suffix).filter Scalar.isIntegral

/-- The greatest integer that can be written with a type. Payloads end at 64 bits. -/
def greatestWritten (scalar : Scalar) : Nat :=
  let bits := min scalar.bits 64
  Number.twoPow (if scalar.isSigned then bits - 1 else bits) - 1

/-- The decimal that a body without a base denotes. -/
def toDecimal (whole : List Char) (fraction : Option (List Char)) (exponent : Option Exponent) :
    Number.Decimal :=
  let fraction := fraction.getD []
  { coefficient := Number.ofDigits 10 ((whole ++ fraction).map digitValue)
    exponent := exponent.elim 0 Exponent.value - fraction.length }

/-- Numbers of type `f32` are rounded to 64 bits first. -/
def floatLiteral (pattern : Nat) (isSingle : Bool) : Scalar × Payload :=
  if isSingle then
    (.f32, UInt64.ofNat (Number.BinaryFormat.binary32.convertFrom .binary64 pattern))
  else (.f64, UInt64.ofNat pattern)

/-- The type and payload of the literal, or why it has none. -/
def classify (numeral : Numeral) : Except LexicalFault (Scalar × Payload) :=
  let token := String.ofList numeral.text
  let suffix := String.ofList numeral.suffix
  if suffix = "f32" ∨ suffix = "f64" ∨ (suffix = "" ∧ numeral.body.isFractional) then
    match numeral.body with
    | .based _ _ => .error (.mismatchedLiteralSuffix token)
    | .decimal whole fraction exponent =>
      let pattern := (toDecimal whole fraction exponent).round .binary64
      .ok (floatLiteral pattern (suffix = "f32"))
  else
    match integerScalar? suffix with
    | none => .error (.invalidLiteralSuffix token)
    | some scalar =>
      if numeral.body.isFractional then .error (.mismatchedLiteralSuffix token)
      else if numeral.body.wholeValue ≤ greatestWritten scalar then
        .ok (scalar, UInt64.ofNat numeral.body.wholeValue)
      else .error (.literalOutOfRange token scalar.name)

end ScalarLang.Numeral
