import ScalarLang.Operator

/-! The built-in scalar types. -/

namespace ScalarLang

inductive Scalar where
  | u8 | u16 | u32 | u64 | u128
  | i8 | i16 | i32 | i64 | i128
  | f32 | f64
  | bool
  deriving DecidableEq, Repr, Inhabited

namespace Scalar

def all : List Scalar := [u8, u16, u32, u64, u128, i8, i16, i32, i64, i128, f32, f64, bool]

def name : Scalar → String
  | u8 => "u8"
  | u16 => "u16"
  | u32 => "u32"
  | u64 => "u64"
  | u128 => "u128"
  | i8 => "i8"
  | i16 => "i16"
  | i32 => "i32"
  | i64 => "i64"
  | i128 => "i128"
  | f32 => "f32"
  | f64 => "f64"
  | bool => "bool"

def ofName? (name : String) : Option Scalar := all.find? fun scalar => scalar.name = name

def bits : Scalar → Nat
  | bool => 1
  | u8 | i8 => 8
  | u16 | i16 => 16
  | u32 | i32 | f32 => 32
  | u64 | i64 | f64 => 64
  | u128 | i128 => 128

def isSigned : Scalar → Bool
  | i8 | i16 | i32 | i64 | i128 => true
  | _ => false

def isUnsigned : Scalar → Bool
  | u8 | u16 | u32 | u64 | u128 => true
  | _ => false

def isIntegral (scalar : Scalar) : Bool := scalar.isSigned || scalar.isUnsigned

def isFloating : Scalar → Bool
  | f32 | f64 => true
  | _ => false

def isBool : Scalar → Bool
  | bool => true
  | _ => false

/-- The binary operators that take the type as their left operand. -/
def operators (scalar : Scalar) : List BinaryOp :=
  if scalar.isBool then [.boolAnd, .boolOr, .bitAnd, .bitOr, .bitXor, .equal, .notEqual]
  else if scalar.isFloating then
    [.sum, .sub, .mul, .div, .mod, .less, .lessEqual, .greater, .greaterEqual, .equal, .notEqual]
  else
    [.sum, .sub, .mul, .div, .mod, .bitAnd, .bitOr, .bitXor, .leftShift, .rightShift,
     .less, .lessEqual, .greater, .greaterEqual, .equal, .notEqual]

end Scalar

end ScalarLang
