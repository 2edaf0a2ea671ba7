import ScalarLang.Parser.Session
import ScalarLang.Token.Connective

/-! Productions that nest. A grammar holds the parses that go one nesting level deeper; the parse
of a construct is given the grammar for its parts. At the limit every production is refused. -/

namespace ScalarLang

structure Grammar where
  typename : Parse TypeId
  /-- An expression of operators that rank below the limit. -/
  binary : Nat → Parse ExprId
  /-- An operand. -/
  primary : Parse ExprId
  statement : Parse ExprId
  /-- A condition with its branches, whose first token was at the span. -/
  condition : Span → Parse ExprId

/-- The deepest nesting of expressions, statements and type names. -/
def nestingLimit : Nat := 128

namespace Grammar

def refusal {α : Type} : Parse α := do
  Parse.fail (SyntaxProblem.nestingTooDeep nestingLimit) (← Step.current).span

def refused : Grammar where
  typename := refusal
  binary := fun _ => refusal
  primary := refusal
  statement := refusal
  condition := fun _ => refusal

/-- The grammar whose productions are one level deeper. -/
def deepen (grammar : Grammar) : Grammar where
  typename := grammar.typename.deeper
  binary := fun limit => (grammar.binary limit).deeper
  primary := grammar.primary.deeper
  statement := grammar.statement.deeper
  condition := fun start => (grammar.condition start).deeper

def expression (grammar : Grammar) : Parse ExprId := grammar.binary TokenKind.terminatorRank

end Grammar

end ScalarLang
