import ScalarLang.Diagnostic.Wording
import ScalarLang.Source.Excerpt

/-! Diagnostics: a problem, how severe it is and where it was found. -/

namespace ScalarLang

inductive Severity where
  | message | warning | error
  deriving DecidableEq, Repr

namespace Severity

def all : List Severity := [message, warning, error]

def name : Severity → String
  | message => "Message"
  | warning => "Warning"
  | error => "Error"

end Severity

structure Diagnostic where
  severity : Severity
  problem : Problem
  span : Span
  deriving DecidableEq, Repr

namespace Diagnostic

def title (diagnostic : Diagnostic) : String :=
  diagnostic.severity.name ++ ": " ++ diagnostic.problem.message

/-- The title with its line, the excerpt, and the tip if there is one. -/
def render (diagnostic : Diagnostic) : String :=
  diagnostic.title ++ " (line " ++ toString diagnostic.span.start.line ++ ")\n"
    ++ (Excerpt.ofSpan diagnostic.span).render
    ++ diagnostic.problem.tip.elim "" ("\nTip: " ++ ·)

end Diagnostic

end ScalarLang
