import ScalarLang.Diagnostic.Report
import ScalarLang.Expr.Arena

/-! What is known of a program while it is read: its types and expressions, the diagnostics so far,
and the names in scope. Semantic actions change this state and nothing else; they never see a
token. -/

namespace ScalarLang

/-- A variable of a function body. Its slot is its place among the locals. -/
structure Local where
  name : String
  ty : TypeId
  span : Span
  deriving Repr

structure Variable where
  ty : TypeId
  slot : Slot
  deriving Repr

structure Analysis where
  arena : Arena
  report : Report
  globals : List (String × ExprId)
  /-- The functions of each name in the order of their declaration. -/
  functions : List (String × List ExprId)
  /-- Innermost and latest last. -/
  locals : List Local
  /-- The number of locals outside of the innermost scope. -/
  scopeStart : Nat
  /-- The function whose body is being read. -/
  currentFn : Option ExprId
  deriving Repr

abbrev Check := StateM Analysis

namespace Analysis

def empty : Analysis :=
  { arena := .empty
    report := .empty
    globals := []
    functions := []
    locals := []
    scopeStart := 0
    currentFn := none }

def isGlobalScope (analysis : Analysis) : Bool := analysis.currentFn.isNone

def global? (analysis : Analysis) (name : String) : Option ExprId := analysis.globals.lookup name

def overloads? (analysis : Analysis) (name : String) : Option (List ExprId) :=
  analysis.functions.lookup name

/-- The latest entry of a name and its place. -/
def latest? (name : String) (locals : List Local) : Option (Local × Nat) :=
  locals.zipIdx.reverse.find? fun entry => entry.1.name = name

def localInScope? (analysis : Analysis) (name : String) : Option Local :=
  (latest? name (analysis.locals.drop analysis.scopeStart)).map Prod.fst

/-- The variable that a name means: the latest local of the name, or else the global. -/
def meaning? (analysis : Analysis) (name : String) : Option Variable :=
  match latest? name analysis.locals with
  | some (found, index) => some ⟨found.ty, .local index⟩
  | none => (analysis.global? name).map fun id => ⟨analysis.arena.typeOf id, .global⟩

def addOverload (name : String) (id : ExprId) :
    List (String × List ExprId) → List (String × List ExprId)
  | [] => [(name, [id])]
  | (other, ids) :: rest =>
    if other = name then (other, ids ++ [id]) :: rest
    else (other, ids) :: addOverload name id rest

def typeName (analysis : Analysis) (id : TypeId) : String := (analysis.arena.types.form id).name

end Analysis

namespace Check

def arena : Check Arena := return (← get).arena

def tell (severity : Severity) (problem : Problem) (span : Span) : Check Unit :=
  modify fun analysis =>
    { analysis with report := analysis.report.add ⟨severity, problem, span⟩ }

def error (problem : Problem) (span : Span) : Check Unit := tell .error problem span
def warning (problem : Problem) (span : Span) : Check Unit := tell .warning problem span
def message (problem : Problem) (span : Span) : Check Unit := tell .message problem span

def addType (shape : TypeShape) : Check TypeId :=
  modifyGet fun analysis =>
    let (id, arena) := analysis.arena.addType shape
    (id, { analysis with arena })

def withConst (id : TypeId) (isConst : Bool) : Check TypeId :=
  modifyGet fun analysis =>
    let (id, arena) := analysis.arena.withConst id isConst
    (id, { analysis with arena })

def addNode (kind : ExprKind ExprId) (ty : TypeId) (span : Span) : Check ExprId :=
  modifyGet fun analysis =>
    let (id, arena) := analysis.arena.addNode ⟨kind, ty, span⟩
    (id, { analysis with arena })

def setKind (id : ExprId) (kind : ExprKind ExprId) : Check Unit :=
  modify fun analysis => { analysis with arena := analysis.arena.setKind id kind }

/-- Stands for whatever was found wrong at the span. -/
def errorExpr (span : Span) : Check ExprId := do
  addNode .error (← addType .error) span

/-- Reports an error and stands for what it is about. -/
def refuse (problem : Problem) (span : Span) : Check ExprId := do
  error problem span
  errorExpr span

def addLocal (name : String) (ty : TypeId) (span : Span) : Check Slot :=
  modifyGet fun analysis =>
    let locals := analysis.locals ++ [⟨name, ty, span⟩]
    (.local analysis.locals.length, { analysis with locals })

def addGlobal (name : String) (id : ExprId) : Check Unit :=
  modify fun analysis => { analysis with globals := (name, id) :: analysis.globals }

def addFunction (name : String) (id : ExprId) : Check Unit :=
  modify fun analysis =>
    { analysis with functions := Analysis.addOverload name id analysis.functions }

end Check

end ScalarLang
