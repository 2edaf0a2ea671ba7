import ScalarLang.Text.Quoted

/-! What can be wrong with a token in itself. -/

namespace ScalarLang

inductive LexicalFault where
  | unrecognisedToken (token : String)
  | invalidLiteralSuffix (token : String)
  | mismatchedLiteralSuffix (token : String)
  | literalOutOfRange (token typeName : String)
  | unterminatedComment
  deriving DecidableEq, Repr

namespace LexicalFault

def name : LexicalFault → String
  | unrecognisedToken _ => "UnrecognisedToken"
  | invalidLiteralSuffix _ => "InvalidLiteralSuffix"
  | mismatchedLiteralSuffix _ => "MismatchedLiteralSuffix"
  | literalOutOfRange _ _ => "LiteralOutOfRange"
  | unterminatedComment => "UnterminatedComment"

def message : LexicalFault → String
  | unrecognisedToken token => "unrecognised token: " ++ Text.quote token
  | invalidLiteralSuffix token => "invalid literal suffix: " ++ Text.quote token
  | mismatchedLiteralSuffix token =>
    "literal " ++ Text.quote token ++ " has a suffix that does not match its shape"
  | literalOutOfRange token typeName =>
    "literal " ++ Text.quote token ++ " does not fit in " ++ typeName
  | unterminatedComment => "unterminated block comment"

def tip : LexicalFault → Option String
  | literalOutOfRange _ typeName => some ("use a wider suffix than `" ++ typeName ++ "`")
  | invalidLiteralSuffix _ => some
      "valid suffixes are u8, u16, u32, u64, u128, i8, i16, i32, i64, i128, f32 and f64"
  | _ => none

end LexicalFault

end ScalarLang
