import ScalarLang.Token.Kind

/-! Tokens of fixed spelling: reserved words, operators and delimiters. -/

namespace ScalarLang.Spelling

def keywords : List (String × TokenKind) :=
  [("var", .var), ("fn", .fn), ("extern", .external), ("return", .return), ("if", .if),
   ("elif", .elif), ("else", .else), ("as", .as), ("const", .const), ("void", .void),
   ("PTR", .ptr), ("true", .literal .bool), ("false", .literal .bool)]

def reservedWords : List (String × TokenKind) :=
  keywords ++ Scalar.all.map fun scalar => (scalar.name, .scalar scalar)

def reserved? (word : String) : Option TokenKind := reservedWords.lookup word

/-- The reserved words of a kind, in alphabetical order. -/
def wordsOf (kind : TokenKind) : List String :=
  ((reservedWords.filter fun entry => entry.2 = kind).map Prod.fst).mergeSort fun a b => a ≤ b

/-- A longer symbol stands before the symbols that it starts with. -/
def symbols : List (String × TokenKind) :=
  [("<<=", .leftShiftEquals), (">>=", .rightShiftEquals), ("==", .equals), ("!=", .notEquals),
   ("<=", .lessEquals), (">=", .greaterEquals), ("<<", .leftShift), (">>", .rightShift),
   ("||", .or), ("&&", .and), ("++", .plusPlus), ("--", .minusMinus), ("->", .arrow),
   ("+=", .plusEquals), ("-=", .minusEquals), ("*=", .starEquals), ("/=", .slashEquals),
   ("%=", .percentEquals), ("&=", .ampersandEquals), ("|=", .pipeEquals), ("^=", .caretEquals),
   ("(", .openParen), (")", .closeParen), ("\x7b", .openCurly), ("\x7d", .closeCurly),
   (",", .comma), (";", .semicolon), (":", .colon), ("=", .assignment), ("!", .not),
   ("<", .less), (">", .greater), ("+", .plus), ("-", .dash), ("*", .star), ("/", .slash),
   ("%", .percent), ("&", .ampersand), ("|", .pipe), ("^", .caret), ("~", .tilde)]

/-- The first symbol of the table that the text starts with. -/
def symbol? (text : List Char) : Option (String × TokenKind) :=
  symbols.find? fun entry => entry.1.toList.isPrefixOf text

end ScalarLang.Spelling
