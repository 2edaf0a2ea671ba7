import ScalarLang.Analysis.Call
import ScalarLang.Analysis.Operation
import ScalarLang.Analysis.Statement
import ScalarLang.Parser.Grammar
import ScalarLang.Parser.Recovery
import ScalarLang.Token.Connective

/-! Expressions by operator precedence. A failure inside parentheses ends at their end, and an
error stands for what they enclose. -/

namespace ScalarLang.Expression

variable (grammar : Grammar)

/-- Consumes the parenthesis that closes the one at the span. -/
def closeParen (opening : Span) : Parse Unit := do
  match ← Step.currentKind with
  | .closeParen => discard Step.advance
  | .semicolon | .closeCurly | .eof => Parse.fail SyntaxProblem.unclosedParenthesis opening
  | _ => discard (Parse.expect .closeParen "')'")

/-- What stands for everything from the span to the end of the parentheses. -/
def abandonParenthesis (start : Span) : Step ExprId := do
  Recovery.parenthesis.run
  Check.errorExpr (start.through (← Step.previousSpan))

def group : Step ExprId := do
  let opening ← Step.advance
  let inside : Parse ExprId := do
    let id ← grammar.expression
    closeParen opening.span
    return id
  match ← inside.attempt with
  | some id => return id
  | none => abandonParenthesis opening.span

/-- An argument, and the closing parenthesis unless a comma follows. -/
def argument (opening : Span) : Parse ExprId := do
  let id ← grammar.expression
  if (← Step.currentKind) ≠ .comma then closeParen opening
  return id

def arguments : Parse (List ExprId) := do
  let opening ← Step.advance
  if ← Step.accept .closeParen then return []
  Parse.commaList (fun _ => argument grammar opening.span) [] (← Step.remaining)

def call (name : Token) : Step ExprId := do
  match ← (arguments grammar).attempt with
  | some args =>
    let closing ← Step.previousSpan
    Check.buildCall name.lexeme args (name.span.through closing) closing
  | none => abandonParenthesis name.span

/-- A variable, one that is stepped after it is read, or a call. -/
def named : Step ExprId := do
  let name ← Step.advance
  if (← Step.currentKind) = .openParen then call grammar name
  else
    let id ← Check.buildRead name.lexeme name.span
    match (← Step.currentKind).trailingOp? with
    | some op =>
      let operator ← Step.advance
      Check.buildUnary op id (name.span.through operator.span)
    | none => return id

def unary (op : UnaryOp) : Parse ExprId := do
  let operator ← Step.advance
  let child ← grammar.primary
  let place := (← get).analysis.arena.spanOf child
  Check.buildUnary op child (operator.span.through place)

def primary : Parse ExprId := do
  let token ← Step.current
  match token.kind with
  | .literal scalar =>
    discard Step.advance
    Check.buildLiteral scalar token.payload token.span
  | .identifier => named grammar
  | .openParen => group grammar
  | .error =>
    discard Step.advance
    Check.errorExpr token.span
  | kind =>
    match kind.leadingOp? with
    | some op => unary grammar op
    | none =>
      Parse.fail (SyntaxProblem.unexpectedTokenDetailed token.lexeme "expected an expression")
        token.span

/-- The expression that a connective and what follows it make of an expression. Assignments group
to the right and operations to the left. -/
def join (lhs : ExprId) (connective : Connective) : Parse ExprId := do
  let start := (← get).analysis.arena.spanOf lhs
  match connective with
  | .conversion =>
    let target ← grammar.typename
    Check.castTo lhs target (start.through (← Step.previousSpan))
  | .assignment op =>
    let rhs ← grammar.binary (connective.rank + 1)
    Check.buildAssignment lhs op rhs
  | .operation op =>
    let rhs ← grammar.binary connective.rank
    let stop := (← get).analysis.arena.spanOf rhs
    Check.buildBinary lhs op rhs (start.through stop)

/-- Consumes the connective and what follows it. -/
def extend (lhs : ExprId) (connective : Connective) : Parse ExprId := do
  discard Step.advance
  join grammar lhs connective

/-- Extends an expression by every connective that ranks below the limit. -/
def climb (limit : Nat) (lhs : ExprId) : Nat → Parse ExprId
  | 0 => return lhs
  | fuel + 1 => do
    match (← Step.currentKind).connective? with
    | none => return lhs
    | some connective =>
      if limit ≤ connective.rank then return lhs
      else climb limit (← extend grammar lhs connective) fuel

def binary (limit : Nat) : Parse ExprId := do
  let lhs ← primary grammar
  climb grammar limit lhs (← Step.remaining)

end ScalarLang.Expression
