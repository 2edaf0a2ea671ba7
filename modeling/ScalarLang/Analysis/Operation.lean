import ScalarLang.Analysis.Conversion

/-! Operators and assignments applied to checked operands. -/

namespace ScalarLang.Check

/-- A literal takes the scalar type of the other operand, but a floating literal never becomes an
integer or a bool. -/
def takesType (arena : Arena) (literal : ExprId) (own other : Scalar) : Bool :=
  (arena.kind literal).isLiteral && (other.isFloating || !own.isFloating)

/-- The literal with the type of the other operand, if it takes it. -/
def adopt (arena : Arena) (literal : ExprId) (own other : Scalar) (otherType : TypeId) :
    Check (Option ExprId) := do
  if takesType arena literal own other then
    retypeLiteral literal (← withConst otherType false) true
  else return none

/-- The operands with the one type or the other. The right one adopts a type first. -/
def adoptEither (arena : Arena) (lhs rhs : ExprId) (left right : Scalar) :
    Check (Option (ExprId × ExprId)) := do
  match ← adopt arena rhs right left (arena.typeOf lhs) with
  | some rhs => return some (lhs, rhs)
  | none => return (← adopt arena lhs left right (arena.typeOf rhs)).map fun lhs => (lhs, rhs)

/-- The operands with one scalar type, or none if that cannot be. -/
def adoptScalar (arena : Arena) (lhs rhs : ExprId) : Check (Option (ExprId × ExprId)) :=
  match (arena.formOf lhs).scalar?, (arena.formOf rhs).scalar? with
  | some left, some right => adoptEither arena lhs rhs left right
  | _, _ => return none

/-- Both operands with one type, or none if they have none in common. -/
def matchOperands (lhs rhs : ExprId) (span : Span) : Check (Option (ExprId × ExprId)) := do
  let arena ← Check.arena
  let left := arena.formOf lhs
  let right := arena.formOf rhs
  if left.isEqual right then return some (lhs, rhs)
  else
    let matched ← adoptScalar arena lhs rhs
    if matched.isNone then
      error (SemanticProblem.typeMatchError left.name right.name) span
    return matched

/-- Comparisons and logic give a bool, all else the type of the operands. -/
def resultType (op : BinaryOp) (operand : TypeId) : Check TypeId :=
  if op.isComparison || op.isLogic then addType (.scalar .bool false) else withConst operand false

/-- The operation on operands of one type. -/
def buildMatched (lhs : ExprId) (op : BinaryOp) (rhs : ExprId) (span : Span) : Check ExprId := do
  let arena ← Check.arena
  let operand := arena.formOf lhs
  if operand.supports op then
    addNode (.binary lhs op rhs) (← resultType op (arena.typeOf lhs)) span
  else refuse (SemanticProblem.unsupportedOperator op.symbol operand.name) span

def buildBinary (lhs : ExprId) (op : BinaryOp) (rhs : ExprId) (span : Span) : Check ExprId := do
  let arena ← Check.arena
  if arena.isError lhs || arena.isError rhs then errorExpr span
  else
    match ← matchOperands lhs rhs span with
    | none => errorExpr span
    | some (lhs, rhs) => buildMatched lhs op rhs span

def negatePayload (payload : Payload) : Scalar → Option Payload
  | .f32 => some (payload ^^^ 0x80000000)
  | .f64 => some (payload ^^^ 0x8000000000000000)
  | scalar => if scalar.isSigned then some (0 - payload) else none

/-- The literal with its sign changed. -/
def negateLiteral? (arena : Arena) (id : ExprId) : Option Payload :=
  match arena.kind id, (arena.formOf id).scalar? with
  | .literal payload, some scalar => negatePayload payload scalar
  | _, _ => none

def refuseOperand (op : UnaryOp) (child : ExprId) (span : Span) : Check ExprId := do
  let arena ← Check.arena
  refuse (SemanticProblem.unsupportedOperator op.symbol (arena.formOf child).name) span

def buildNegation (child : ExprId) (span : Span) : Check ExprId := do
  let arena ← Check.arena
  let ty := arena.formOf child
  let typeId := arena.typeOf child
  match ty.scalar? with
  | none | some .bool => refuseOperand .negate child span
  | some scalar =>
    if scalar.isUnsigned then
      warning (Remark.negateUnsigned ty.name) span
      addNode (.unary .negate child) (← withConst typeId false) span
    else
      match negateLiteral? arena child with
      | some payload => addNode (.literal payload) typeId span
      | none => addNode (.unary .negate child) (← withConst typeId false) span

/-- Increments and decrements need a variable that is not const, of a scalar type with numbers. -/
def buildStep (op : UnaryOp) (child : ExprId) (span : Span) : Check ExprId := do
  let arena ← Check.arena
  let ty := arena.formOf child
  match arena.kind child with
  | .varRead name _ =>
    if ty.isConst then refuse (SemanticProblem.writeToConst name) span
    else if ty.scalar?.any (!·.isBool) then addNode (.unary op child) (arena.typeOf child) span
    else refuseOperand op child span
  | _ => refuse SemanticProblem.notAnLvalue span

def buildAddress (child : ExprId) (span : Span) : Check ExprId := do
  let arena ← Check.arena
  match arena.kind child with
  | .varRead _ _ =>
    addNode (.unary .addressOf child) (← addType (.pointer false (arena.typeOf child))) span
  | _ => refuse SemanticProblem.notAnLvalue span

def buildDereference (child : ExprId) (span : Span) : Check ExprId := do
  let arena ← Check.arena
  match arena.types.shape (arena.typeOf child) with
  | .pointer _ pointee => addNode (.unary .dereference child) pointee span
  | _ => refuseOperand .dereference child span

def buildNot (child : ExprId) (span : Span) : Check ExprId := do
  if (← Check.arena).formOf child |>.isBool then
    addNode (.unary .boolNot child) (← addType (.scalar .bool false)) span
  else refuseOperand .boolNot child span

def buildComplement (child : ExprId) (span : Span) : Check ExprId := do
  let arena ← Check.arena
  if (arena.formOf child).scalar?.any Scalar.isIntegral then
    addNode (.unary .bitNot child) (← withConst (arena.typeOf child) false) span
  else refuseOperand .bitNot child span

def buildUnary (op : UnaryOp) (child : ExprId) (span : Span) : Check ExprId := do
  if (← Check.arena).isError child then errorExpr span
  else
    match op with
    | .negate => buildNegation child span
    | .boolNot => buildNot child span
    | .bitNot => buildComplement child span
    | .preIncrement | .preDecrement | .postIncrement | .postDecrement => buildStep op child span
    | .addressOf => buildAddress child span
    | .dereference => buildDereference child span

/-- Stores a value in a variable. -/
def buildWrite (lhs : ExprId) (name : String) (slot : Slot) (value : ExprId) (span : Span) :
    Check ExprId := do
  let arena ← Check.arena
  if arena.isError value then errorExpr span
  else
    let ty := arena.typeOf lhs
    addNode (.varWrite name (← convertTo value ty) slot) ty span

/-- What is assigned. A compound assignment stores the result of its operator. -/
def assignedValue (lhs : ExprId) (op : Option BinaryOp) (rhs : ExprId) (span : Span) :
    Check ExprId :=
  match op with
  | some op => buildBinary lhs op rhs span
  | none => return rhs

def buildAssignment (lhs : ExprId) (op : Option BinaryOp) (rhs : ExprId) : Check ExprId := do
  let arena ← Check.arena
  let span := (arena.spanOf lhs).through (arena.spanOf rhs)
  if arena.isError lhs || arena.isError rhs then errorExpr span
  else
    match arena.kind lhs with
    | .varRead name slot =>
      if (arena.formOf lhs).isConst then refuse (SemanticProblem.writeToConst name) span
      else buildWrite lhs name slot (← assignedValue lhs op rhs span) span
    | _ =>
      error SemanticProblem.notAnLvalue (arena.spanOf lhs)
      errorExpr span

end ScalarLang.Check
