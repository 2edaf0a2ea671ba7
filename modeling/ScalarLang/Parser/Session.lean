import ScalarLang.Analysis.Basic
import ScalarLang.Parser.TokenStream

/-! The state of a parse and its elementary steps. A parse that fails has reported an error; it
leaves the state where it stopped, and its caller recovers from there. -/

namespace ScalarLang

structure Session where
  tokens : TokenStream
  analysis : Analysis
  /-- The number of nested expressions, statements and type names around the current token. -/
  depth : Nat
  /-- The top-level expressions in source order. -/
  program : List ExprId
  deriving Repr

/-- A step that always has a result. -/
abbrev Step := StateM Session

/-- A step that may fail. -/
abbrev Parse := OptionT Step

instance : MonadLift Check Step where
  monadLift check := fun session =>
    let (result, analysis) := check session.analysis
    (result, { session with analysis })

namespace Session

def ofSource (source : String) : Session := ⟨.ofSource source, .empty, 0, []⟩

def atEnd (session : Session) : Bool := session.tokens.current.kind = .eof

/-- Starts a scope in which there are no locals yet. -/
def openScope (session : Session) : Session :=
  let analysis := session.analysis
  { session with analysis := { analysis with scopeStart := analysis.locals.length } }

/-- Ends a scope: only the locals from before it are left. -/
def closeScope (before : Analysis) (session : Session) : Session :=
  let analysis := session.analysis
  let locals := analysis.locals.take before.locals.length
  { session with analysis := { analysis with locals, scopeStart := before.scopeStart } }

def setFunction (currentFn : Option ExprId) (session : Session) : Session :=
  { session with analysis := { session.analysis with currentFn } }

def enter (session : Session) : Session := { session with depth := session.depth + 1 }

def leave (session : Session) : Session := { session with depth := session.depth - 1 }

end Session

namespace Step

def current : Step Token := return (← get).tokens.current

def currentKind : Step TokenKind := return (← current).kind

def previousSpan : Step Span := return (← get).tokens.previous

def consumed : Step Nat := return (← get).tokens.consumed

/-- The number of tokens before the end. No loop that consumes a token each time runs longer. -/
def remaining : Step Nat := return (← get).tokens.pending.length

/-- Consumes the current token and reports its fault if it has one. -/
def advance : Step Token := do
  let token ← current
  modify fun session => { session with tokens := session.tokens.advance }
  if let some fault := token.fault then
    Check.error fault token.span
  return token

def advanceTimes : Nat → Step Unit
  | 0 => return
  | count + 1 => do
    discard advance
    advanceTimes count

def accept (kind : TokenKind) : Step Bool := do
  if (← currentKind) = kind then
    discard advance
    return true
  else return false

/-- A step that consumes nothing gives way to the next token. -/
def progressing {α : Type} (step : Step α) : Step α := do
  let before ← consumed
  let result ← step
  if (← consumed) = before then discard advance
  return result

/-- Runs a step in a scope of its own, whose locals end with it. -/
def inLocalScope {α : Type} (step : Step α) : Step α := do
  let before := (← get).analysis
  modify Session.openScope
  let result ← step
  modify (Session.closeScope before)
  return result

/-- Runs a step as part of the body of a function. -/
def inFunction {α : Type} (id : ExprId) (step : Step α) : Step α := do
  let before := (← get).analysis.currentFn
  modify (Session.setFunction (some id))
  let result ← step
  modify (Session.setFunction before)
  return result

/-- Runs a step one nesting level deeper. -/
def deeper {α : Type} (step : Step α) : Step α := do
  modify Session.enter
  let result ← step
  modify Session.leave
  return result

end Step

namespace Parse

/-- Lets a step decide about a failure. -/
def attempt {α : Type} (parse : Parse α) : Step (Option α) := parse.run

def inLocalScope {α : Type} (parse : Parse α) : Parse α :=
  OptionT.mk (Step.inLocalScope parse.run)

def inFunction {α : Type} (id : ExprId) (parse : Parse α) : Parse α :=
  OptionT.mk (Step.inFunction id parse.run)

def deeper {α : Type} (parse : Parse α) : Parse α := OptionT.mk (Step.deeper parse.run)

def fail {α : Type} (problem : Problem) (span : Span) : Parse α := do
  Check.error problem span
  failure

/-- Consumes a token of the kind. Of an error token its own fault is all there is to say. -/
def expect (kind : TokenKind) (expected : String) : Parse Token := do
  let token ← Step.current
  if token.kind = kind then Step.advance
  else if token.kind = .error then
    discard Step.advance
    failure
  else fail (SyntaxProblem.expectedToken expected token.lexeme) token.span

/-- Consumes the angle that closes a pointer type. A longer token gives up its first byte. -/
def closeAngle : Parse Unit := do
  let token ← Step.current
  match TokenStream.afterAngle? token.kind with
  | some (kind, lexeme) =>
    modify fun session =>
      { session with
        tokens := session.tokens.replaceCurrent (TokenStream.shorten token kind lexeme) }
  | none => discard (expect .greater "'>'")

/-- Items with commas between them. An item is given the items before it. -/
def commaList {α : Type} (item : List α → Parse α) (before : List α) : Nat → Parse (List α)
  | 0 => return before ++ [← item before]
  | fuel + 1 => do
    let items := before ++ [← item before]
    if ← Step.accept .comma then commaList item items fuel else return items

end Parse

end ScalarLang
