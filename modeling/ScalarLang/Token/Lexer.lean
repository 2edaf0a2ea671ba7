import ScalarLang.Token.Basic
import ScalarLang.Token.Cursor
import ScalarLang.Token.NumberLiteral
import ScalarLang.Token.Piece

/-! Tokens of a source text. The text ends at its first NUL character. A lexer gives one token at
a time and keeps the fault of its last error token until that is taken; the token list of a whole
text ends in one end token. -/

namespace ScalarLang

namespace Piece

/-- The number of bytes that the span of a token covers. Of an open comment only its start is
shown. -/
def spanWidth : Piece → Nat
  | openComment _ => 2
  | piece => Text.byteWidth piece.text

def wordToken (text : List Char) (span : Span) : Token :=
  let lexeme := String.ofList text
  let kind := (Spelling.reserved? lexeme).getD .identifier
  ⟨kind, lexeme, if lexeme = "true" then 1 else 0, span, none⟩

def faultToken (text : List Char) (fault : LexicalFault) (span : Span) : Token :=
  ⟨.error, String.ofList text, 0, span, some fault⟩

def numberToken (numeral : Numeral) (span : Span) : Token :=
  match numeral.classify with
  | .ok (scalar, payload) => ⟨.literal scalar, String.ofList numeral.text, payload, span, none⟩
  | .error fault => faultToken numeral.text fault span

/-- The token that a piece is at a span. Gaps are none. -/
def toToken? (piece : Piece) (span : Span) : Option Token :=
  match piece with
  | blank _ | lineComment _ | blockComment _ => none
  | openComment text => some (faultToken text .unterminatedComment span)
  | word text => some (wordToken text span)
  | number numeral => some (numberToken numeral span)
  | symbol spelling kind => some ⟨kind, spelling, 0, span, none⟩
  | unknown c => some (faultToken [c] (.unrecognisedToken (String.ofList [c])) span)

end Piece

namespace Cursor

/-- The next token and the cursor after it. Every piece takes a character, so that as many steps as
there are characters reach a token or the end. -/
def nextWithin (cursor : Cursor) : Nat → Token × Cursor
  | 0 => (Token.endAt (cursor.span 0), cursor)
  | fuel + 1 =>
    match cursor.rest with
    | [] => (Token.endAt (cursor.span 0), cursor)
    | c :: rest =>
      let piece := Piece.read c rest
      let after := cursor.advance piece.text.length
      match piece.toToken? (cursor.span piece.spanWidth) with
      | some token => (token, after)
      | none => after.nextWithin fuel

def next (cursor : Cursor) : Token × Cursor := cursor.nextWithin cursor.rest.length

/-- The tokens from the cursor on, without the end token, and the end token. A number of steps that
reaches the end of the text is enough for each token too. -/
def tokensWithin (cursor : Cursor) : Nat → List Token × Token
  | 0 => ([], Token.endAt (cursor.span 0))
  | fuel + 1 =>
    let (token, after) := cursor.nextWithin (fuel + 1)
    if token.kind = .eof then ([], token)
    else
      let (tokens, last) := after.tokensWithin fuel
      (token :: tokens, last)

end Cursor

/-- The source text that is read: what comes before the first NUL. -/
def readableText (source : String) : List Char := source.toList.takeWhile (· ≠ '\x00')

/-- The tokens of a source, and the end token after them. -/
def scan (source : String) : List Token × Token :=
  let text := readableText source
  (Cursor.start text).tokensWithin text.length

def tokenize (source : String) : List Token :=
  let (tokens, last) := scan source
  tokens ++ [last]

structure Lexer where
  cursor : Cursor
  pendingFault : Option LexicalFault
  deriving Repr

namespace Lexer

def ofSource (source : String) : Lexer := ⟨.start (readableText source), none⟩

def next (lexer : Lexer) : Token × Lexer :=
  let (token, cursor) := lexer.cursor.next
  (token, ⟨cursor, token.fault.or lexer.pendingFault⟩)

/-- The span of as many bytes from the cursor on as are asked for, be they there or not. The number is
the caller's and may be any, so it is here that places are taken to 32 bits. Elsewhere lines and columns
are counted along a text, and 32 bits would change nothing before its 4294967296th byte. -/
def spanAhead (lexer : Lexer) (width : Nat) : Span := (lexer.cursor.span width).narrow

def takeFault (lexer : Lexer) : Option LexicalFault × Lexer :=
  (lexer.pendingFault, { lexer with pendingFault := none })

end Lexer

end ScalarLang
