import ScalarLang.Analysis.Basic

/-! Variables as values, and checks on conditions and statements. -/

namespace ScalarLang.Check

def buildLiteral (scalar : Scalar) (payload : Payload) (span : Span) : Check ExprId := do
  addNode (.literal payload) (← addType (.scalar scalar false)) span

/-- The value of the variable that a name means. -/
def buildRead (name : String) (span : Span) : Check ExprId := do
  let analysis ← get
  match analysis.meaning? name with
  | some found => addNode (.varRead name found.slot) found.ty span
  | none =>
    if (analysis.overloads? name).isSome then refuse (SemanticProblem.nameIsFunction name) span
    else refuse (SemanticProblem.variableNotDeclared name) span

def buildScope (body : List ExprId) (span : Span) : Check ExprId := do
  addNode (.scope body) (← addType .void) span

def buildCondition (cond thenBranch : ExprId) (otherwise : Option ExprId) (span : Span) :
    Check ExprId := do
  addNode (.condition cond thenBranch otherwise) (← addType .void) span

def checkCondition (cond : ExprId) : Check Unit := do
  let arena ← Check.arena
  let ty := arena.formOf cond
  if !ty.isError && !ty.isBool then
    error (SemanticProblem.conditionNotBool ty.name) (arena.spanOf cond)

/-- Whether an expression does more than have a value. -/
def hasEffect : ExprKind ExprId → Bool
  | .varWrite _ _ _ | .fnCall _ _ | .error => true
  | .unary op _ => op.writesOperand
  | _ => false

def checkUsed (id : ExprId) : Check Unit := do
  let arena ← Check.arena
  if !hasEffect (arena.kind id) then
    warning Remark.unusedExpressionResult (arena.spanOf id)

end ScalarLang.Check
