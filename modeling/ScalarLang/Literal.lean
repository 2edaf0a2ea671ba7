import ScalarLang.Scalar
import ScalarLang.Number.Notation

/-! Payloads of literals: 64 bits that a scalar type says how to read. Conversions between types
act on the number that a payload stands for, and may change it. -/

namespace ScalarLang

abbrev Payload := UInt64

namespace Literal

open Number

inductive Value where
  | int (n : Int)
  | float (pattern : Nat)
  deriving DecidableEq, Repr

def signedValue (payload : Payload) : Int :=
  if payload.toNat < twoPow 63 then payload.toNat else (payload.toNat : Int) - twoPow 64

/-- The number that a payload stands for. Floating values are 64-bit patterns. Integers wider than
the payload are held in its 64 bits. -/
def decode (payload : Payload) : Scalar → Value
  | .f32 =>
    .float (BinaryFormat.binary64.convertFrom .binary32 (payload.toNat % twoPow 32))
  | .f64 => .float payload.toNat
  | scalar => .int (if scalar.isSigned then signedValue payload else payload.toNat)

/-- Floating values become integers through the range of signed 128-bit ones. -/
def leastInt : Int := -twoPow 127
def greatestInt : Int := twoPow 127 - 1

def truncate (pattern : Nat) : Int :=
  (BinaryFormat.binary64.decode pattern).truncate leastInt greatestInt

/-- The low bits of an integer as a payload: extended by the sign for a signed type and by zeros
for any other. -/
def narrow (scalar : Scalar) (n : Int) : Payload :=
  let word := UInt64.ofInt n
  if 64 ≤ scalar.bits then word
  else
    let bits := UInt64.ofNat scalar.bits
    let mask := (1 <<< bits) - 1
    let low := word &&& mask
    if scalar.isSigned && low >>> (bits - 1) == 1 then low ||| ~~~mask else low

def ofBool (b : Bool) : Payload := if b then 1 else 0

def encode (scalar : Scalar) : Value → Payload
  | .int n =>
    match scalar with
    | .f32 => UInt64.ofNat (BinaryFormat.binary32.ofInt n)
    | .f64 => UInt64.ofNat (BinaryFormat.binary64.ofInt n)
    | .bool => ofBool (n ≠ 0)
    | _ => narrow scalar n
  | .float pattern =>
    match scalar with
    | .f32 => UInt64.ofNat (BinaryFormat.binary32.convertFrom .binary64 pattern)
    | .f64 => UInt64.ofNat pattern
    | .bool => ofBool !(BinaryFormat.binary64.decode pattern).isZero
    | _ => narrow scalar (truncate pattern)

def convert (payload : Payload) (source target : Scalar) : Payload :=
  encode target (decode payload source)

/-- Whether a conversion gives another number. Rounding between floating types does not count. -/
def changes (payload : Payload) (source target : Scalar) : Bool :=
  match decode payload source, decode (convert payload source target) target with
  | .int before, .int after => before ≠ after
  | .float before, .int after =>
    let format := BinaryFormat.binary64
    !(format.decode before).sameNumber (format.decode (format.ofInt after))
  | .int before, .float after => truncate after ≠ before
  | .float _, .float _ => false

/-- How a literal of a scalar type is written. -/
def write (payload : Payload) : Scalar → String
  | .bool => if payload = 0 then "false" else "true"
  | .f32 => plainStyle.write .binary32 (payload.toNat % twoPow 32)
  | .f64 => plainStyle.write .binary64 payload.toNat
  | scalar => if scalar.isSigned then toString (signedValue payload) else toString payload.toNat

end Literal

end ScalarLang
