import ScalarLang.Analysis.Function
import ScalarLang.Parser.Statement

/-! Declarations of functions and of variables outside of functions. -/

namespace ScalarLang

namespace Function

variable (grammar : Grammar)

def parameter (before : List Local) : Parse Local := do
  let name ← Parse.expect .identifier "a parameter name"
  discard (Parse.expect .colon "':'")
  let ty ← grammar.typename
  Check.declareParameter before ⟨name.lexeme, name.span⟩ ty

def params : Parse (List Local) := do
  if ← Step.accept .closeParen then return []
  let params ← Parse.commaList (parameter grammar) [] (← Step.remaining)
  discard (Parse.expect .closeParen "')'")
  return params

/-- A function without a written result returns nothing. -/
def result : Parse TypeId := do
  if ← Step.accept .arrow then grammar.typename else Check.addType .void

def prototype : Parse Prototype := do
  let name ← Parse.expect .identifier "a function name"
  discard (Parse.expect .openParen "'('")
  let params ← params grammar
  let result ← result grammar
  Check.makePrototype ⟨name.lexeme, name.span⟩ params result

/-- The body of a function, in a scope that starts with the parameters. -/
def body (id : ExprId) (params : List Local) : Parse ExprId :=
  Parse.inFunction id <| Parse.inLocalScope do
    Check.addParameters params
    Statement.body grammar

def startsBody : TokenKind → Bool
  | .openCurly | .colon => true
  | _ => false

/-- A function whose declaration started at the span. An external function has no body. -/
def parse (start : Span) (isExternal : Bool) : Parse ExprId := do
  let proto ← prototype grammar
  let hasBody := !isExternal && startsBody (← Step.currentKind)
  if !hasBody then Statement.semicolon
  let span := start.through (← Step.previousSpan)
  let id ← Check.declareFunction proto hasBody span
  if hasBody then
    let body ← body grammar id proto.params
    Check.completeFunction proto id body span
  return id

end Function

namespace Declaration

variable (grammar : Grammar)

/-- The parse of a declaration that starts with a token of the kind, and how to recover from it. -/
def byKind? : TokenKind → Option (Parse ExprId × Recovery)
  | .var => some (Statement.variableDeclaration grammar, .statement)
  | .fn => some (do
      let start ← Step.advance
      Function.parse grammar start.span false, .function)
  | .external => some (do
      let start ← Step.advance
      discard (Parse.expect .fn "'fn'")
      Function.parse grammar start.span true, .function)
  | _ => none

/-- Skips what is no declaration. -/
def refuse : Step Unit := do
  let token ← Step.current
  if token.kind = .error then discard Step.advance
  else Check.error (SyntaxProblem.expectedDeclaration token.lexeme) token.span
  Recovery.declaration.run

/-- A top-level declaration, or nothing after recovering from a failed one. -/
def parse : Step (Option ExprId) := do
  match byKind? grammar (← Step.currentKind) with
  | none =>
    refuse
    return none
  | some (parse, recovery) =>
    match ← parse.attempt with
    | some id => return some id
    | none =>
      recovery.run
      return none

end Declaration

end ScalarLang
