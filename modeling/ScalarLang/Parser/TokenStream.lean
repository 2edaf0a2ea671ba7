import ScalarLang.Token.Lexer

/-! The tokens that are still to be read. The end token is current once all others are consumed,
and stays current however often it is consumed. -/

namespace ScalarLang

structure TokenStream where
  pending : List Token
  endToken : Token
  /-- Where the last consumed token stands. -/
  previous : Span
  consumed : Nat
  deriving Repr

namespace TokenStream

def start (pending : List Token) (endToken : Token) : TokenStream :=
  ⟨pending, endToken, (pending.headD endToken).span, 0⟩

def ofSource (source : String) : TokenStream :=
  let (pending, endToken) := scan source
  start pending endToken

def current (tokens : TokenStream) : Token := tokens.pending.headD tokens.endToken

def advance (tokens : TokenStream) : TokenStream :=
  { tokens with
    pending := tokens.pending.tail
    previous := tokens.current.span
    consumed := tokens.consumed + 1 }

/-- What is left of a token that starts with a closing angle, without the angle. -/
def afterAngle? : TokenKind → Option (TokenKind × String)
  | .rightShift => some (.greater, ">")
  | .greaterEquals => some (.assignment, "=")
  | .rightShiftEquals => some (.greaterEquals, ">=")
  | _ => none

/-- The token without its first byte, as another token. -/
def shorten (token : Token) (kind : TokenKind) (lexeme : String) : Token :=
  let start := token.span.start
  { token with
    kind
    lexeme
    span := { token.span with start := { start with column := start.column + 1 } } }

/-- Puts a token in the place of the current one. -/
def replaceCurrent (tokens : TokenStream) (token : Token) : TokenStream :=
  { tokens with pending := token :: tokens.pending.tail, previous := token.span }

end TokenStream

end ScalarLang
