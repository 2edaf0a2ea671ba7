import ScalarLang.Token.Kind

/-! The operators that a token can stand for, before, between and after operands. -/

namespace ScalarLang

/-- What an infix token does to the expression before it. -/
inductive Connective where
  | conversion
  /-- A compound assignment first applies its operator. -/
  | assignment (op : Option BinaryOp)
  | operation (op : BinaryOp)
  deriving DecidableEq, Repr

namespace Connective

def rank : Connective → Nat
  | conversion => 2
  | assignment _ => 14
  | operation op => op.rank

end Connective

namespace TokenKind

def binaryOp? : TokenKind → Option BinaryOp
  | plus => some .sum
  | dash => some .sub
  | star => some .mul
  | slash => some .div
  | percent => some .mod
  | ampersand => some .bitAnd
  | pipe => some .bitOr
  | caret => some .bitXor
  | leftShift => some .leftShift
  | rightShift => some .rightShift
  | and => some .boolAnd
  | or => some .boolOr
  | less => some .less
  | lessEquals => some .lessEqual
  | greater => some .greater
  | greaterEquals => some .greaterEqual
  | equals => some .equal
  | notEquals => some .notEqual
  | _ => none

/-- The operator that a compound assignment applies. -/
def assignedOp? : TokenKind → Option BinaryOp
  | plusEquals => some .sum
  | minusEquals => some .sub
  | starEquals => some .mul
  | slashEquals => some .div
  | percentEquals => some .mod
  | ampersandEquals => some .bitAnd
  | pipeEquals => some .bitOr
  | caretEquals => some .bitXor
  | leftShiftEquals => some .leftShift
  | rightShiftEquals => some .rightShift
  | _ => none

def isAssignment (kind : TokenKind) : Bool := kind = assignment || kind.assignedOp?.isSome

/-- The operator that the token is before its operand. -/
def leadingOp? : TokenKind → Option UnaryOp
  | plusPlus => some .preIncrement
  | minusMinus => some .preDecrement
  | dash => some .negate
  | not => some .boolNot
  | tilde => some .bitNot
  | ampersand => some .addressOf
  | star => some .dereference
  | _ => none

/-- The operator that the token is after its operand. -/
def trailingOp? : TokenKind → Option UnaryOp
  | plusPlus => some .postIncrement
  | minusMinus => some .postDecrement
  | _ => none

def connective? (kind : TokenKind) : Option Connective :=
  if kind = as then some .conversion
  else if kind.isAssignment then some (.assignment kind.assignedOp?)
  else kind.binaryOp?.map .operation

/-- The rank of tokens that join nothing. It is past every limit. -/
def terminatorRank : Nat := 255

def rank (kind : TokenKind) : Nat := kind.connective?.elim terminatorRank Connective.rank

end TokenKind

end ScalarLang
