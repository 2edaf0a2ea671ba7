import ScalarLang.Expr.Printer
import ScalarLang.Parser.Declaration
import ScalarLang.Parser.Nesting

/-! Whole programs: declarations up to the end of the source. -/

namespace ScalarLang

namespace Session

/-- A definition that completes a prototype is the prototype itself and is not added again. -/
def addToProgram (id : ExprId) : Step Unit :=
  modify fun session =>
    if session.program.contains id then session
    else { session with program := session.program ++ [id] }

def addDeclaration (grammar : Grammar) : Step Unit := do
  match ← Declaration.parse grammar with
  | some id => addToProgram id
  | none => return

def readDeclaration (grammar : Grammar) : Step Unit := Step.progressing (addDeclaration grammar)

def readDeclarations (grammar : Grammar) : Nat → Step Unit
  | 0 => return
  | fuel + 1 => do
    if (← get).atEnd then return
    readDeclaration grammar
    readDeclarations grammar fuel

/-- Reads declarations up to the end. -/
def readProgram : Step Unit := do
  let session ← get
  readDeclarations (.atDepth session.depth) session.tokens.pending.length

end Session

/-- Everything that is known of a source after reading it, also when there are errors. -/
def parse (source : String) : Session := (Session.readProgram (Session.ofSource source)).2

/-- A program without errors. -/
structure Program where
  expressions : List ExprId
  arena : Arena

namespace Program

def dump (program : Program) : String := program.arena.dumpProgram program.expressions

/-- The program of a source, or the number of its errors. -/
def ofSession (session : Session) : Except Nat Program :=
  let errorCount := session.analysis.report.errorCount
  if 0 < errorCount then .error errorCount else .ok ⟨session.program, session.analysis.arena⟩

def ofSource (source : String) : Except Nat Program := ofSession (ScalarLang.parse source)

end Program

end ScalarLang
