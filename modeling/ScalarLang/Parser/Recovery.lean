import ScalarLang.Parser.Session

/-! Recovery from failed parses: tokens are skipped up to a place from which parsing can go on. The
faults of skipped tokens are still reported. -/

namespace ScalarLang

inductive Recovery where
  | statement
  | function
  | parenthesis
  | declaration
  deriving DecidableEq, Repr

namespace Recovery

def startsDeclaration : TokenKind → Bool
  | .var | .fn | .external => true
  | _ => false

/-- Tokens that start a statement or a declaration, or end a block. -/
def startsStatement : TokenKind → Bool
  | .if | .return | .closeCurly => true
  | kind => startsDeclaration kind

def skipWhile (skips : TokenKind → Bool) : Step Unit := do
  let pending := (← get).tokens.pending
  Step.advanceTimes (pending.takeWhile fun token => skips token.kind).length

def skipIf (kind : TokenKind) : Step Unit := discard (Step.accept kind)

/-- To the next semicolon, which is consumed, but not past the start of a statement. -/
def skipStatement : Step Unit := do
  skipWhile fun kind => kind ≠ .semicolon && !startsStatement kind
  skipIf .semicolon

/-- The number of tokens through the brace that closes as many blocks as are open. -/
def blockLength : Nat → List Token → Nat
  | _, [] => 0
  | openBlocks, token :: rest =>
    match token.kind with
    | .openCurly => blockLength (openBlocks + 1) rest + 1
    | .closeCurly => if openBlocks ≤ 1 then 1 else blockLength (openBlocks - 1) rest + 1
    | _ => blockLength openBlocks rest + 1

/-- From an opening brace through the one that closes it. -/
def skipBlock : Step Unit := do
  Step.advanceTimes (blockLength 0 (← get).tokens.pending)

/-- To the end of a function declaration: through its body, or through the semicolon. -/
def skipFunction : Step Unit := do
  skipWhile fun kind => kind ≠ .semicolon && kind ≠ .openCurly && kind ≠ .colon
  match ← Step.currentKind with
  | .openCurly => skipBlock
  | .colon =>
    discard Step.advance
    skipStatement
  | _ => skipIf .semicolon

/-- To the next closing parenthesis, which is consumed, but not past a semicolon. -/
def skipParenthesis : Step Unit := do
  skipWhile fun kind => kind ≠ .closeParen && kind ≠ .semicolon
  skipIf .closeParen

def skipDeclaration : Step Unit := skipWhile fun kind => !startsDeclaration kind

def run : Recovery → Step Unit
  | statement => skipStatement
  | function => skipFunction
  | parenthesis => skipParenthesis
  | declaration => skipDeclaration

end Recovery

end ScalarLang
