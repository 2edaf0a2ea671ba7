import ScalarLang.Diagnostic.Basic

/-! The diagnostics of a program in the order they were found, with running counts. -/

namespace ScalarLang

structure Report where
  diagnostics : Array Diagnostic
  errorCount : Nat
  warningCount : Nat
  deriving Repr

namespace Report

def empty : Report := ⟨#[], 0, 0⟩

def add (report : Report) (diagnostic : Diagnostic) : Report :=
  let diagnostics := report.diagnostics.push diagnostic
  match diagnostic.severity with
  | .error => { report with diagnostics, errorCount := report.errorCount + 1 }
  | .warning => { report with diagnostics, warningCount := report.warningCount + 1 }
  | .message => { report with diagnostics }

def ofSeverity (report : Report) (severity : Severity) : List Diagnostic :=
  report.diagnostics.toList.filter fun diagnostic => diagnostic.severity = severity

end Report

end ScalarLang
