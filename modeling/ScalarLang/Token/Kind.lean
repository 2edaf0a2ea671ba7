import ScalarLang.Scalar

/-! Kinds of tokens and their names. -/

namespace ScalarLang

inductive TokenKind where
  | eof
  | error
  | identifier
  | literal (scalar : Scalar)
  | openParen | closeParen | openCurly | closeCurly
  | comma | semicolon | colon | arrow
  | assignment | equals | not | notEquals
  | less | lessEquals | greater | greaterEquals
  | or | and
  | plusPlus | minusMinus
  | plusEquals | minusEquals | starEquals | slashEquals | percentEquals
  | ampersandEquals | pipeEquals | caretEquals | leftShiftEquals | rightShiftEquals
  | plus | dash | slash | star | percent
  | ampersand | pipe | caret | tilde | leftShift | rightShift
  | var | fn | external | return | if | elif | else | as | const | void | ptr
  | scalar (scalar : Scalar)
  deriving DecidableEq, Repr, Inhabited

namespace TokenKind

def literalScalars : List Scalar :=
  [.bool, .u8, .u16, .u32, .u64, .u128, .i8, .i16, .i32, .i64, .i128, .f32, .f64]

def all : List TokenKind :=
  [eof, error, identifier] ++ literalScalars.map literal ++
  [openParen, closeParen, openCurly, closeCurly, comma, semicolon, colon, arrow,
   assignment, equals, not, notEquals, less, lessEquals, greater, greaterEquals, or, and,
   plusPlus, minusMinus, plusEquals, minusEquals, starEquals, slashEquals, percentEquals,
   ampersandEquals, pipeEquals, caretEquals, leftShiftEquals, rightShiftEquals,
   plus, dash, slash, star, percent, ampersand, pipe, caret, tilde, leftShift, rightShift,
   var, fn, external, «return», «if», elif, «else», as, const, void, ptr] ++
  Scalar.all.map scalar

def scalarName : Scalar → String
  | .u8 => "U8"
  | .u16 => "U16"
  | .u32 => "U32"
  | .u64 => "U64"
  | .u128 => "U128"
  | .i8 => "I8"
  | .i16 => "I16"
  | .i32 => "I32"
  | .i64 => "I64"
  | .i128 => "I128"
  | .f32 => "F32"
  | .f64 => "F64"
  | .bool => "Bool"

/-- The name that a listing of tokens shows. -/
def name : TokenKind → String
  | eof => "EOF"
  | error => "Error"
  | identifier => "Identifier"
  | literal s => scalarName s ++ "Literal"
  | openParen => "OpenParen"
  | closeParen => "CloseParen"
  | openCurly => "OpenCurly"
  | closeCurly => "CloseCurly"
  | comma => "Comma"
  | semicolon => "Semicolon"
  | colon => "Colon"
  | arrow => "Arrow"
  | assignment => "Assignment"
  | equals => "Equals"
  | not => "Not"
  | notEquals => "NotEquals"
  | less => "Less"
  | lessEquals => "LessEquals"
  | greater => "Greater"
  | greaterEquals => "GreaterEquals"
  | or => "Or"
  | and => "And"
  | plusPlus => "PlusPlus"
  | minusMinus => "MinusMinus"
  | plusEquals => "PlusEquals"
  | minusEquals => "MinusEquals"
  | starEquals => "StarEquals"
  | slashEquals => "SlashEquals"
  | percentEquals => "PercentEquals"
  | ampersandEquals => "AmpersandEquals"
  | pipeEquals => "PipeEquals"
  | caretEquals => "CaretEquals"
  | leftShiftEquals => "LeftShiftEquals"
  | rightShiftEquals => "RightShiftEquals"
  | plus => "Plus"
  | dash => "Dash"
  | slash => "Slash"
  | star => "Star"
  | percent => "Percent"
  | ampersand => "Ampersand"
  | pipe => "Pipe"
  | caret => "Caret"
  | tilde => "Tilde"
  | leftShift => "LeftShift"
  | rightShift => "RightShift"
  | var => "Var"
  | fn => "Fn"
  | external => "Extern"
  | «return» => "Return"
  | «if» => "If"
  | elif => "Elif"
  | «else» => "Else"
  | as => "As"
  | const => "Const"
  | void => "Void"
  | ptr => "Ptr"
  | scalar s => scalarName s

def ofName? (name : String) : Option TokenKind := all.find? fun kind => kind.name = name

def isLiteral : TokenKind → Bool
  | literal _ => true
  | _ => false

def isScalar : TokenKind → Bool
  | scalar _ => true
  | _ => false

end TokenKind

end ScalarLang
