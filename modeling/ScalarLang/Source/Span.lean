import ScalarLang.Text.Width

/-! Places in a source text. A position carries its whole line, so that a span can be shown
without the source at hand. Lines count from 1, columns are byte offsets from 0. -/

namespace ScalarLang

structure Position where
  line : Nat
  column : Nat
  lineText : String
  deriving DecidableEq, Repr, Inhabited

namespace Position

/-- The place of things that no source text gave rise to. -/
def nowhere : Position := ⟨0, 0, "<null>"⟩

/-- Lines and columns that are asked for by number are taken to 32 bits. -/
def numberLimit : Nat := 4294967296

def narrow (position : Position) : Position :=
  { position with
    line := position.line % numberLimit
    column := position.column % numberLimit }

end Position

structure Span where
  start : Position
  stop : Position
  deriving DecidableEq, Repr, Inhabited

namespace Span

def nowhere : Span := ⟨.nowhere, .nowhere⟩

def narrow (span : Span) : Span := ⟨span.start.narrow, span.stop.narrow⟩

/-- From the start of one span to the end of another. -/
def through (first last : Span) : Span := ⟨first.start, last.stop⟩

/-- The text under the span on its first line. It is empty when a column falls inside a
character. -/
def lexeme (span : Span) : String :=
  let text := span.start.lineText.toList
  let width := Text.byteWidth text
  let start := min span.start.column width
  let stop :=
    if span.stop.line = span.start.line then max start (min span.stop.column width) else width
  String.ofList ((Text.sliceBytes? text start stop).getD [])

end Span

end ScalarLang
