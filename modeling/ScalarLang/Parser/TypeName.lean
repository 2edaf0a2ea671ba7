import ScalarLang.Parser.Grammar

/-! Type names. Const is a mark of scalars and pointers; before any other type it has no effect. -/

namespace ScalarLang.TypeName

def pointer (typename : Parse TypeId) (isConst : Bool) : Parse TypeId := do
  discard Step.advance
  discard (Parse.expect .less "'<'")
  let pointee ← typename
  Parse.closeAngle
  Check.addType (.pointer isConst pointee)

def params (typename : Parse TypeId) : Parse (List TypeId) := do
  discard (Parse.expect .openParen "'('")
  if ← Step.accept .closeParen then return []
  let params ← Parse.commaList (fun _ => typename) [] (← Step.remaining)
  discard (Parse.expect .closeParen "')'")
  return params

def function (typename : Parse TypeId) : Parse TypeId := do
  discard Step.advance
  let params ← params typename
  discard (Parse.expect .arrow "'->'")
  let result ← typename
  Check.addType (.function result params)

def parse (typename : Parse TypeId) : Parse TypeId := do
  let isConst ← Step.accept .const
  let token ← Step.current
  match token.kind with
  | .scalar scalar =>
    discard Step.advance
    Check.addType (.scalar scalar isConst)
  | .void =>
    discard Step.advance
    Check.addType .void
  | .ptr => pointer typename isConst
  | .fn => function typename
  | .error =>
    discard Step.advance
    failure
  | _ => Parse.fail (SyntaxProblem.expectedTypename token.lexeme) token.span

end ScalarLang.TypeName
