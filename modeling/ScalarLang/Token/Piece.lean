import ScalarLang.Text.Blank
import ScalarLang.Token.Numeral
import ScalarLang.Token.Spelling

/-! The pieces that a source text falls into. Each piece is a non-empty start of the text, and which
one it is follows from the first characters alone. -/

namespace ScalarLang

inductive Piece where
  | blank (text : List Char)
  | lineComment (text : List Char)
  | blockComment (text : List Char)
  /-- A comment without an end takes the rest of the source. -/
  | openComment (text : List Char)
  | word (text : List Char)
  | number (numeral : Numeral)
  | symbol (spelling : String) (kind : TokenKind)
  | unknown (c : Char)
  deriving Repr

namespace Piece

def text : Piece → List Char
  | blank text | lineComment text | blockComment text | openComment text | word text => text
  | number numeral => numeral.text
  | symbol spelling _ => spelling.toList
  | unknown c => [c]

/-- Pieces that separate tokens. -/
def isGap : Piece → Bool
  | blank _ | lineComment _ | blockComment _ => true
  | _ => false

/-- The inside of a block comment up to and with its first end. -/
def closeComment? : List Char → Option (List Char)
  | '*' :: '/' :: _ => some ['*', '/']
  | [] => none
  | c :: rest => (closeComment? rest).map (c :: ·)

def readComment? : List Char → Option Piece
  | '/' :: '/' :: rest => some (lineComment ('/' :: '/' :: rest.takeWhile (· ≠ '\n')))
  | '/' :: '*' :: rest =>
    match closeComment? rest with
    | some inside => some (blockComment ('/' :: '*' :: inside))
    | none => some (openComment ('/' :: '*' :: rest))
  | _ => none

def readSymbol (c : Char) (rest : List Char) : Piece :=
  match Spelling.symbol? (c :: rest) with
  | some (spelling, kind) => symbol spelling kind
  | none => unknown c

/-- The piece at the start of a text that begins with `c`. -/
def read (c : Char) (rest : List Char) : Piece :=
  let text := c :: rest
  if Text.isBlank c then blank (text.takeWhile Text.isBlank)
  else
    match readComment? text with
    | some piece => piece
    | none =>
      if isWordStart c then word (text.takeWhile isWordPart)
      else
        match Numeral.read text with
        | some (numeral, _) => number numeral
        | none => readSymbol c rest

end Piece

end ScalarLang
