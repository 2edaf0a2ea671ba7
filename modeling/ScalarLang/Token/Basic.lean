import ScalarLang.Literal
import ScalarLang.Source.Span
import ScalarLang.Token.Fault
import ScalarLang.Token.Kind

/-! Tokens. Only an error token has a fault, and only a literal has a payload other than zero. -/

namespace ScalarLang

structure Token where
  kind : TokenKind
  lexeme : String
  payload : Payload
  span : Span
  fault : Option LexicalFault
  deriving Repr, DecidableEq

namespace Token

/-- The token at the end of every source. -/
def endAt (span : Span) : Token := ⟨.eof, "EOF", 0, span, none⟩

def describe (token : Token) : String :=
  "Token \x7b\nkind: " ++ token.kind.name ++ ",\nlexeme: " ++ token.lexeme ++ "\x7d"

/-- The line of a listing. The text shows where the kind does not give it. -/
def listing (token : Token) : String :=
  let showsText := token.kind.isLiteral || token.kind = .identifier || token.kind = .error
  token.kind.name ++ " (" ++ (if showsText then token.lexeme else "") ++ ")"

end Token

end ScalarLang
