/-! Unary and binary operators, the symbols that trees and messages show them by, and how tightly
binary ones bind. -/

namespace ScalarLang

inductive BinaryOp where
  | sum | sub | mul | div | mod
  | bitAnd | bitOr | bitXor | leftShift | rightShift
  | boolAnd | boolOr
  | less | lessEqual | greater | greaterEqual | equal | notEqual
  deriving DecidableEq, Repr, Inhabited

namespace BinaryOp

def all : List BinaryOp :=
  [sum, sub, mul, div, mod, bitAnd, bitOr, bitXor, leftShift, rightShift, boolAnd, boolOr,
   less, lessEqual, greater, greaterEqual, equal, notEqual]

def symbol : BinaryOp → String
  | sum => "+"
  | sub => "-"
  | mul => "*"
  | div => "/"
  | mod => "%"
  | bitAnd => "&"
  | bitOr => "|"
  | bitXor => "^"
  | leftShift => "<<"
  | rightShift => ">>"
  | boolAnd => "&&"
  | boolOr => "||"
  | less => "<"
  | lessEqual => "<="
  | greater => ">"
  | greaterEqual => ">="
  | equal => "=="
  | notEqual => "!="

def isComparison : BinaryOp → Bool
  | less | lessEqual | greater | greaterEqual | equal | notEqual => true
  | _ => false

def isLogic : BinaryOp → Bool
  | boolAnd | boolOr => true
  | _ => false

/-- Smaller ranks bind tighter. -/
def rank : BinaryOp → Nat
  | mul | div | mod => 3
  | sum | sub => 4
  | leftShift | rightShift => 5
  | less | lessEqual | greater | greaterEqual => 6
  | equal | notEqual => 7
  | bitAnd => 8
  | bitXor => 9
  | bitOr => 10
  | boolAnd => 11
  | boolOr => 12

end BinaryOp

inductive UnaryOp where
  | negate | boolNot | bitNot
  | preIncrement | preDecrement | postIncrement | postDecrement
  | addressOf | dereference
  deriving DecidableEq, Repr, Inhabited

namespace UnaryOp

def all : List UnaryOp :=
  [negate, boolNot, bitNot, preIncrement, preDecrement, postIncrement, postDecrement,
   addressOf, dereference]

/-- The forms after the operand are told apart by a word. -/
def symbol : UnaryOp → String
  | negate => "-"
  | boolNot => "!"
  | bitNot => "~"
  | preIncrement => "++"
  | preDecrement => "--"
  | postIncrement => "post++"
  | postDecrement => "post--"
  | addressOf => "&"
  | dereference => "*"

/-- Increments and decrements store into their operand. -/
def writesOperand : UnaryOp → Bool
  | preIncrement | preDecrement | postIncrement | postDecrement => true
  | _ => false

end UnaryOp

end ScalarLang
