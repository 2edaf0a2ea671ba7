import ScalarLang.Analysis.Variable

/-! Declarations of functions. A prototype can be followed by one definition that completes it. -/

namespace ScalarLang

structure Prototype where
  name : Name
  params : List Local
  result : TypeId
  ty : TypeId
  deriving Repr

namespace Check

def makePrototype (name : Name) (params : List Local) (result : TypeId) : Check Prototype := do
  return ⟨name, params, result, ← addType (.function result (params.map Local.ty))⟩

def addDefinition (proto : Prototype) (span : Span) : Check ExprId :=
  addNode (.fnDef proto.name.text (proto.params.map Local.name) none []) proto.ty span

/-- Whether two function types take equal parameters. -/
def sameParams : Ty → Ty → Bool
  | .function _ left, .function _ right => Ty.areEqual left right
  | _, _ => false

def sameResult : Ty → Ty → Bool
  | .function left _, .function right _ => left.isEqual right
  | _, _ => false

/-- A conflicting declaration stays outside of the overloads. Its body is still checked. -/
def refuseFunction (proto : Prototype) (problem : Problem) (previous : ExprId) (span : Span) :
    Check ExprId := do
  let place := (← Check.arena).spanOf previous
  error problem proto.name.span
  message (Remark.previousDeclaration proto.name.text) place
  addDefinition proto span

def redeclareFunction (proto : Prototype) (previous : ExprId) (hasBody : Bool) (span : Span) :
    Check ExprId := do
  let arena ← Check.arena
  let isSame := hasBody && sameResult (arena.formOf previous) (arena.types.form proto.ty)
  match arena.kind previous with
  | .fnDef name _ none returns =>
    if isSame then
      setKind previous (.fnDef name (proto.params.map Local.name) none returns)
      return previous
    else
      refuseFunction proto (SemanticProblem.functionAlreadyDeclared proto.name.text) previous span
  | _ =>
    refuseFunction proto (SemanticProblem.functionAlreadyDeclared proto.name.text) previous span

/-- The definition of a function: a new one, or the prototype that this declaration completes. -/
def declareFunction (proto : Prototype) (hasBody : Bool) (span : Span) : Check ExprId := do
  let analysis ← get
  let name := proto.name.text
  match analysis.global? name with
  | some previous => refuseFunction proto (SemanticProblem.nameIsVariable name) previous span
  | none =>
    let overloads := (analysis.overloads? name).getD []
    let ty := analysis.arena.types.form proto.ty
    match overloads.find? fun id => sameParams (analysis.arena.formOf id) ty with
    | some previous => redeclareFunction proto previous hasBody span
    | none =>
      let id ← addDefinition proto span
      addFunction name id
      return id

/-- Makes the parameters of a function the first locals of its body. -/
def addParameters (params : List Local) : Check Unit :=
  params.forM fun param => discard <| addLocal param.name param.ty param.span

/-- Gives a definition its body. A function with a result should return somewhere. -/
def completeFunction (proto : Prototype) (id body : ExprId) (span : Span) : Check Unit := do
  let arena ← Check.arena
  match arena.kind id with
  | .fnDef name params _ returns =>
    setKind id (.fnDef name params (some body) returns)
    let result := arena.types.form proto.result
    if returns.isEmpty && !result.isVoid && !result.isError then
      warning (Remark.missingReturn proto.name.text) span
  | _ => return

end Check

end ScalarLang
