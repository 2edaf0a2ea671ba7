import ScalarLang.Analysis.Conversion

/-! Declarations of variables and parameters. -/

namespace ScalarLang

/-- A name where it is written. -/
structure Name where
  text : String
  span : Span
  deriving Repr

namespace Check

def errorType (problem : Problem) (span : Span) : Check TypeId := do
  error problem span
  addType .error

/-- The type of a declared name. No variable is void. -/
def variableType (name : Name) (ty : TypeId) : Check TypeId := do
  if ((← Check.arena).types.form ty).isVoid then
    errorType (SemanticProblem.voidVariable name.text) name.span
  else return ty

/-- The type written in the declaration, or else the type of the first value. -/
def declaredType (declared : Option TypeId) (init : Option ExprId) (span : Span) :
    Check TypeId := do
  match declared, init with
  | some ty, _ => return ty
  | none, some init => withConst ((← Check.arena).typeOf init) false
  | none, none => errorType SemanticProblem.expectedExplicitValue span

/-- Where the name of a variable is already taken. Locals compete with their own scope only,
globals with functions too. -/
def previousPlace? (analysis : Analysis) (name : String) : Option Span :=
  if analysis.isGlobalScope then
    ((analysis.global? name).or ((analysis.overloads? name).bind List.head?)).map
      analysis.arena.spanOf
  else (analysis.localInScope? name).map Local.span

def bindVariable (name : Name) (ty : TypeId) (id : ExprId) : Check Unit := do
  let analysis ← get
  match previousPlace? analysis name.text with
  | some previous =>
    let isFunction := analysis.isGlobalScope && (analysis.overloads? name.text).isSome
    error (if isFunction then SemanticProblem.nameIsFunction name.text
      else SemanticProblem.variableAlreadyDeclared name.text) name.span
    message (Remark.previousDeclaration name.text) previous
  | none =>
    if analysis.isGlobalScope then addGlobal name.text id
    else discard <| addLocal name.text ty name.span

/-- The first value as a value of the type, where the declaration writes one. -/
def initialValue (declared : Option TypeId) (init : Option ExprId) (ty : TypeId) :
    Check (Option ExprId) :=
  match declared, init with
  | some _, some init => return some (← convertTo init ty)
  | _, init => return init

def declareVariable (name : Name) (declared : Option TypeId) (init : Option ExprId)
    (span : Span) : Check ExprId := do
  let ty ← variableType name (← declaredType declared init span)
  let init ← initialValue declared init ty
  let isGlobal := (← get).isGlobalScope
  let id ← addNode (.varDecl name.text init isGlobal) ty span
  bindVariable name ty id
  return id

/-- A parameter after the ones before it. -/
def declareParameter (before : List Local) (name : Name) (ty : TypeId) : Check Local := do
  if before.any fun param => param.name = name.text then
    error (SemanticProblem.duplicateParameter name.text) name.span
  return ⟨name.text, ← variableType name ty, name.span⟩

end Check

end ScalarLang
