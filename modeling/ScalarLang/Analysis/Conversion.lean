import ScalarLang.Analysis.Basic

/-! Conversions of expressions. A literal changes its type in place; any other expression gets a
conversion around it. -/

namespace ScalarLang.Check

/-- A literal of the target type for a literal, if both types are scalar. -/
def retypeLiteral (id : ExprId) (target : TypeId) (reportsLoss : Bool) : Check (Option ExprId) := do
  let arena ← Check.arena
  let span := arena.spanOf id
  match arena.kind id, (arena.formOf id).scalar?, (arena.types.form target).scalar? with
  | .literal payload, some source, some scalar =>
    if reportsLoss && Literal.changes payload source scalar then
      warning (Remark.literalTruncated span.lexeme (arena.types.form target).name) span
    return some (← addNode (.literal (Literal.convert payload source scalar)) target span)
  | _, _, _ => return none

/-- The expression as a value of the type where one is required. Conversions that change a value
or take place at run time are reported. -/
def convertTo (id : ExprId) (target : TypeId) : Check ExprId := do
  let arena ← Check.arena
  let source := arena.formOf id
  let goal := arena.types.form target
  let span := arena.spanOf id
  if arena.isError id || source.isEqual goal then return id
  else if !source.isConvertible goal then
    refuse (SemanticProblem.typeMatchError goal.name source.name) span
  else
    match ← retypeLiteral id target true with
    | some literal => return literal
    | none =>
      warning (Remark.implicitConversion source.name goal.name) span
      addNode (.convert id) target span

/-- The conversion that `as` asks for. -/
def castTo (id : ExprId) (target : TypeId) (span : Span) : Check ExprId := do
  let arena ← Check.arena
  let source := arena.formOf id
  let goal := arena.types.form target
  if arena.isError id then return id
  else if source.isEqual goal then
    warning (Remark.uselessConversion goal.name) span
    return id
  else if !source.isConvertible goal then
    refuse (SemanticProblem.invalidConversion source.name goal.name) span
  else
    match ← retypeLiteral id target false with
    | some literal => return literal
    | none => addNode (.convert id) target span

end ScalarLang.Check
