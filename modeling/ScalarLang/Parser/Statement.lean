import ScalarLang.Analysis.Return
import ScalarLang.Analysis.Variable
import ScalarLang.Parser.Expression
import ScalarLang.Parser.TypeName

/-! Statements. A statement that fails is skipped, and an error stands for it. -/

namespace ScalarLang.Statement

variable (grammar : Grammar)

def semicolon : Parse Unit := discard (Parse.expect .semicolon "';'")

def expression : Parse ExprId := do
  let id ← grammar.expression
  semicolon
  Check.checkUsed id
  return id

/-- Parses what follows a token, if the token is there. -/
def after {α : Type} (kind : TokenKind) (parse : Parse α) : Parse (Option α) := do
  if ← Step.accept kind then return some (← parse) else return none

/-- A variable with a type, a first value or both. -/
def variableDeclaration : Parse ExprId := do
  let start ← Step.advance
  let name ← Parse.expect .identifier "an identifier"
  let declared ← after .colon grammar.typename
  let init ← after .assignment grammar.expression
  semicolon
  let span := start.span.through (← Step.previousSpan)
  Check.declareVariable ⟨name.lexeme, name.span⟩ declared init span

/-- A statement in a function body. -/
def recovered : Step ExprId := do
  let start := (← Step.current).span
  match ← grammar.statement.attempt with
  | some id => return id
  | none =>
    Recovery.statement.run
    Check.errorExpr (start.through (← Step.previousSpan))

/-- The statements up to the closing brace. -/
def untilClosed (opening : Span) : Nat → Parse (List ExprId)
  | 0 => Parse.fail SyntaxProblem.unclosedScope opening
  | fuel + 1 => do
    match ← Step.currentKind with
    | .closeCurly =>
      discard Step.advance
      return []
    | .eof => Parse.fail SyntaxProblem.unclosedScope opening
    | _ =>
      let id ← (Step.progressing (recovered grammar) : Step ExprId)
      return id :: (← untilClosed opening fuel)

def scope : Parse ExprId := do
  let opening ← Parse.expect .openCurly "'\x7b'"
  Parse.inLocalScope do
    let body ← untilClosed grammar opening.span (← Step.remaining)
    Check.buildScope body (opening.span.through (← Step.previousSpan))

/-- A scope, or a colon and one statement. -/
def body : Parse ExprId := do
  if (← Step.currentKind) ≠ .colon then scope grammar
  else
    let colon ← Step.advance
    let id ← (Step.inLocalScope (recovered grammar) : Step ExprId)
    Check.buildScope [id] (colon.span.through (← Step.previousSpan))

/-- What follows the first branch: another condition, a last branch or nothing. -/
def otherwise : Parse (Option ExprId) := do
  match ← Step.currentKind with
  | .elif =>
    let start ← Step.advance
    return some (← grammar.condition start.span)
  | .else =>
    discard Step.advance
    return some (← body grammar)
  | _ => return none

def condition (start : Span) : Parse ExprId := do
  let cond ← grammar.expression
  Check.checkCondition cond
  let thenBranch ← body grammar
  let otherwise ← otherwise grammar
  Check.buildCondition cond thenBranch otherwise (start.through (← Step.previousSpan))

def returnValue : Parse (Option ExprId) := do
  if (← Step.currentKind) = .semicolon then return none else return some (← grammar.expression)

def returnStatement : Parse ExprId := do
  let start ← Step.advance
  let value ← returnValue grammar
  semicolon
  Check.buildReturn start.lexeme value (start.span.through (← Step.previousSpan))

def parse : Parse ExprId := do
  match ← Step.currentKind with
  | .var => variableDeclaration grammar
  | .if =>
    let start ← Step.advance
    condition grammar start.span
  | .return => returnStatement grammar
  | .openCurly => scope grammar
  | _ => expression grammar

end ScalarLang.Statement
