import ScalarLang.Source.Span
import ScalarLang.Text.Blank

/-! The three lines shown under a diagnostic: a bar, the source line without its indentation, and
carets under the text of the span. -/

namespace ScalarLang

structure Excerpt where
  bar : String
  code : String
  carets : String
  deriving DecidableEq, Repr

namespace Excerpt

def isIndent (c : Char) : Bool := c = ' ' || c = '\t'

def spaces (count : Nat) : String := String.ofList (List.replicate count ' ')

/-- The caret column is counted in bytes, and at least one caret is shown. -/
def ofSpan (span : Span) : Excerpt :=
  let number := toString span.start.line
  let text := span.start.lineText.toList
  let indent := (text.takeWhile isIndent).length
  let margin := spaces (number.length + 1) ++ "|"
  let width := max 1 (Text.byteWidth span.lexeme.toList)
  { bar := margin
    code := number ++ " | " ++ String.ofList (Text.trimEnd (text.dropWhile isIndent))
    carets := margin ++ " " ++ spaces (span.start.column - indent)
      ++ String.ofList (List.replicate width '^') }

def render (excerpt : Excerpt) : String :=
  excerpt.bar ++ "\n" ++ excerpt.code ++ "\n" ++ excerpt.carets

end Excerpt

end ScalarLang
