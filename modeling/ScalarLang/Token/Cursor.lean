import ScalarLang.Source.Span

/-! A place in a source text, with the text that follows it and the line that it is on. -/

namespace ScalarLang

structure Cursor where
  rest : List Char
  /-- Bytes before the cursor. -/
  offset : Nat
  line : Nat
  /-- Bytes before the line. -/
  lineStart : Nat
  lineText : String
  deriving Repr

namespace Cursor

def dropCarriageReturns : List Char → List Char
  | [] => []
  | c :: rest =>
    match dropCarriageReturns rest with
    | [] => if c = '\r' then [] else [c]
    | kept => c :: kept

/-- The text up to the next newline, without the carriage returns at its end. -/
def firstLine (text : List Char) : String :=
  String.ofList (dropCarriageReturns (text.takeWhile (· ≠ '\n')))

def start (text : List Char) : Cursor := ⟨text, 0, 1, 0, firstLine text⟩

def atEnd (cursor : Cursor) : Bool := cursor.rest.isEmpty

def column (cursor : Cursor) : Nat := cursor.offset - cursor.lineStart

/-- Moves over one character. Only a newline starts a line. -/
def step (cursor : Cursor) : Cursor :=
  match cursor.rest with
  | [] => cursor
  | c :: rest =>
    let offset := cursor.offset + c.utf8Size
    if c = '\n' then ⟨rest, offset, cursor.line + 1, offset, firstLine rest⟩
    else { cursor with rest, offset }

def advance (cursor : Cursor) : Nat → Cursor
  | 0 => cursor
  | count + 1 => cursor.step.advance count

/-- The span of the next `width` bytes, all on the line of the cursor. -/
def span (cursor : Cursor) (width : Nat) : Span :=
  { start := ⟨cursor.line, cursor.column, cursor.lineText⟩
    stop := ⟨cursor.line, cursor.column + width, cursor.lineText⟩ }

end Cursor

end ScalarLang
