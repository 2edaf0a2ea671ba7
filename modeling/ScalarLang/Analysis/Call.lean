import ScalarLang.Analysis.Conversion

/-! Calls. Of several functions of one name a call runs the one whose parameters fit best: exactly,
but for const, or through conversions. -/

namespace ScalarLang.Check

/-- A function with its parameter types written out. -/
structure Candidate where
  id : ExprId
  params : List Ty

def candidates (arena : Arena) (overloads : List ExprId) (count : Nat) : List Candidate :=
  (overloads.filterMap fun id =>
    (arena.signature? id).map fun signature => ⟨id, signature.2.map arena.types.form⟩).filter
    fun candidate => candidate.params.length = count

/-- The ways in which an argument can fit a parameter, best first. -/
def tiers : List (Ty → Ty → Bool) := [Ty.isEqualWithConst, Ty.isEqual, Ty.isConvertible]

def Candidate.accepts (candidate : Candidate) (fits : Ty → Ty → Bool) (args : List Ty) : Bool :=
  (args.zip candidate.params).all fun pair => fits pair.1 pair.2

/-- The candidates of the first way in which any of them fits. -/
def bestMatches (candidates : List Candidate) (args : List Ty) :
    List (Ty → Ty → Bool) → List ExprId
  | [] => []
  | fits :: rest =>
    match candidates.filter fun candidate => candidate.accepts fits args with
    | [] => bestMatches candidates args rest
    | found => found.map Candidate.id

def reportCandidates (name : String) (overloads : List ExprId) : Check Unit :=
  overloads.forM fun id => do
    let arena ← Check.arena
    message (Remark.candidateOverload (name ++ ": " ++ (arena.formOf id).name)) (arena.spanOf id)

def selectOverload (name : String) (overloads args : List ExprId) (span : Span) :
    Check (Option ExprId) := do
  let arena ← Check.arena
  let types := args.map arena.formOf
  match bestMatches (candidates arena overloads args.length) types tiers with
  | [id] => return some id
  | [] =>
    error (SemanticProblem.noMatchingOverload name (", ".intercalate (types.map Ty.name))) span
    reportCandidates name overloads
    return none
  | tied =>
    error (SemanticProblem.ambiguousCall name) span
    reportCandidates name tied
    return none

/-- Reports every argument that does not fit, from the given place on. -/
def checkArguments (arena : Arena) : Nat → List (ExprId × TypeId) → Check Bool
  | _, [] => return true
  | index, (arg, param) :: rest => do
    let received := arena.formOf arg
    let expected := arena.types.form param
    let fits := received.isConvertible expected
    if !fits then
      error (SemanticProblem.argumentTypeMatchError index expected.name received.name)
        (arena.spanOf arg)
    return (← checkArguments arena (index + 1) rest) && fits

/-- The span from the first argument to the last. Without arguments it is the closing token. -/
def argumentSpan (arena : Arena) (args : List ExprId) (closing : Span) : Span :=
  match args.head?, args.getLast? with
  | some first, some last => (arena.spanOf first).through (arena.spanOf last)
  | _, _ => closing

/-- With a single function of the name, mismatches are reported one by one. -/
def checkOnlyOverload (name : String) (id : ExprId) (args : List ExprId) (closing : Span) :
    Check (Option ExprId) := do
  let arena ← Check.arena
  match arena.signature? id with
  | none => return none
  | some (_, params) =>
    let expected := params.length
    let received := args.length
    if received ≠ expected then
      let problem := if received > expected
        then SemanticProblem.unexpectedArguments name expected received
        else SemanticProblem.missingArguments name expected received
      error problem (argumentSpan arena args closing)
      reportCandidates name [id]
      return none
    else
      return if ← checkArguments arena 1 (args.zip params) then some id else none

def resolve (name : String) (overloads args : List ExprId) (span closing : Span) :
    Check (Option ExprId) :=
  match overloads with
  | [id] => checkOnlyOverload name id args closing
  | overloads => selectOverload name overloads args span

/-- The call of a name, whose arguments end at the closing token. -/
def buildCall (name : String) (args : List ExprId) (span closing : Span) : Check ExprId := do
  let analysis ← get
  match analysis.overloads? name with
  | none =>
    if (analysis.meaning? name).isSome then refuse (SemanticProblem.nameIsVariable name) span
    else refuse (SemanticProblem.functionNotDeclared name) span
  | some overloads =>
    if args.any analysis.arena.isError then errorExpr span
    else
      match ← resolve name overloads args span closing with
      | none => errorExpr span
      | some callee =>
        match (← Check.arena).signature? callee with
        | none => errorExpr span
        | some (result, params) =>
          let args ← (args.zip params).mapM fun pair => convertTo pair.1 pair.2
          addNode (.fnCall callee args) result span

end ScalarLang.Check
