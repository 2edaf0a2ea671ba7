import ScalarLang.Analysis.Conversion

/-! What function bodies return. -/

namespace ScalarLang.Check

def checkReturnValue (function : String) (value : Option ExprId) (result : TypeId) (span : Span) :
    Check (Option ExprId) := do
  let arena ← Check.arena
  let ty := arena.types.form result
  match value with
  | some value =>
    if ty.isVoid then
      if !(arena.kind value).isError then
        error (SemanticProblem.unexpectedReturnValue function) span
      return some value
    else return some (← convertTo value result)
  | none =>
    if !ty.isVoid && !ty.isError then
      error (SemanticProblem.missingReturnValue function ty.name) span
    return none

def recordReturn (function result : ExprId) : Check Unit := do
  match (← Check.arena).kind function with
  | .fnDef name params body returns =>
    setKind function (.fnDef name params body (returns ++ [result]))
  | _ => return

/-- The function being read, with its name and its result type. -/
def currentFunction? (analysis : Analysis) : Option (ExprId × String × TypeId) := do
  let id ← analysis.currentFn
  let (result, _) ← analysis.arena.signature? id
  let name := match analysis.arena.kind id with
    | .fnDef name _ _ _ => name
    | _ => ""
  return (id, name, result)

def buildReturn (keyword : String) (value : Option ExprId) (span : Span) : Check ExprId := do
  match currentFunction? (← get) with
  | none =>
    refuse (SyntaxProblem.unexpectedTokenDetailed keyword "return outside of a function") span
  | some (function, name, result) =>
    let value ← checkReturnValue name value result span
    let id ← addNode (.fnReturn value) result span
    recordReturn function id
    return id

end ScalarLang.Check
