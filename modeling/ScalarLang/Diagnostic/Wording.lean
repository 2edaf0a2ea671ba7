import ScalarLang.Diagnostic.Problem

/-! The names and the words of problems, and tips on how to mend them. -/

namespace ScalarLang

open Text (quote)

namespace SyntaxProblem

def name : SyntaxProblem → String
  | unexpectedToken _ => "UnexpectedToken"
  | expectedToken _ _ => "ExpectedToken"
  | unexpectedTokenDetailed _ _ => "UnexpectedTokenDetailed"
  | expectedDeclaration _ => "ExpectedDeclaration"
  | expectedTypename _ => "ExpectedTypename"
  | unclosedParenthesis => "UnclosedParenthesis"
  | unclosedScope => "UnclosedScope"
  | nestingTooDeep _ => "NestingTooDeep"

def message : SyntaxProblem → String
  | unexpectedToken token => "unexpected token: " ++ quote token
  | expectedToken expected token => "expected " ++ expected ++ ", found " ++ quote token
  | unexpectedTokenDetailed token message =>
    "unexpected token (" ++ message ++ "): " ++ quote token
  | expectedDeclaration token => "expected a declaration, found " ++ quote token
  | expectedTypename token => "expected a type name, found " ++ quote token
  | unclosedParenthesis => "unclosed parenthesis delimiter"
  | unclosedScope => "unclosed scope delimiter"
  | nestingTooDeep limit => "nesting exceeds the limit of " ++ toString limit

def tip : SyntaxProblem → Option String
  | expectedToken expected _ =>
    if expected = "';'" then some "did you miss a semicolon?" else none
  | _ => none

end SyntaxProblem

namespace SemanticProblem

def name : SemanticProblem → String
  | variableAlreadyDeclared _ => "VariableAlreadyDeclared"
  | variableNotDeclared _ => "VariableNotDeclared"
  | voidVariable _ => "VoidVariable"
  | duplicateParameter _ => "DuplicateParameter"
  | functionAlreadyDeclared _ => "FunctionAlreadyDeclared"
  | functionNotDeclared _ => "FunctionNotDeclared"
  | nameIsFunction _ => "NameIsFunction"
  | nameIsVariable _ => "NameIsVariable"
  | unexpectedArguments _ _ _ => "UnexpectedArguments"
  | missingArguments _ _ _ => "MissingArguments"
  | argumentTypeMatchError _ _ _ => "ArgumentTypeMatchError"
  | noMatchingOverload _ _ => "NoMatchingOverload"
  | ambiguousCall _ => "AmbiguousCall"
  | typeMatchError _ _ => "TypeMatchError"
  | invalidConversion _ _ => "InvalidConversion"
  | unsupportedOperator _ _ => "UnsupportedOperator"
  | notAnLvalue => "NotAnLvalue"
  | writeToConst _ => "WriteToConst"
  | conditionNotBool _ => "ConditionNotBool"
  | missingReturnValue _ _ => "MissingReturnValue"
  | unexpectedReturnValue _ => "UnexpectedReturnValue"
  | expectedExplicitValue => "ExpectedExplicitValue"

/-- The end of messages that compare what was asked for with what came. -/
def expectedReceived (expected received : String) : String :=
  "expected " ++ expected ++ ", received " ++ received

def message : SemanticProblem → String
  | variableAlreadyDeclared name => "variable " ++ quote name ++ " already declared"
  | variableNotDeclared name => "variable " ++ quote name ++ " not declared"
  | voidVariable name => "variable " ++ quote name ++ " cannot have type void"
  | duplicateParameter name => "parameter " ++ quote name ++ " declared twice"
  | functionAlreadyDeclared name =>
    "function " ++ quote name ++ " already declared with this signature"
  | functionNotDeclared name => "function " ++ quote name ++ " not declared"
  | nameIsFunction name => quote name ++ " is a function, not a variable"
  | nameIsVariable name => quote name ++ " is a variable, not a function"
  | unexpectedArguments function expected received =>
    "too many arguments to " ++ quote function ++ ": "
      ++ expectedReceived (toString expected) (toString received)
  | missingArguments function expected received =>
    "missing arguments to " ++ quote function ++ ": "
      ++ expectedReceived (toString expected) (toString received)
  | argumentTypeMatchError index expected received =>
    "argument " ++ toString index ++ " types do not match: " ++ expectedReceived expected received
  | noMatchingOverload function arguments =>
    "no overload of " ++ quote function ++ " matches the arguments (" ++ arguments ++ ")"
  | ambiguousCall function => "call to " ++ quote function ++ " is ambiguous"
  | typeMatchError expected received =>
    "types do not match: " ++ expectedReceived expected received
  | invalidConversion source target => "cannot convert " ++ source ++ " to " ++ target
  | unsupportedOperator operator typeName =>
    "type " ++ typeName ++ " does not support operator " ++ operator
  | notAnLvalue => "expression is not assignable"
  | writeToConst name => "cannot write to const variable " ++ quote name
  | conditionNotBool typeName => "condition must be of type bool, received " ++ typeName
  | missingReturnValue function typeName =>
    "function " ++ quote function ++ " must return a value of type " ++ typeName
  | unexpectedReturnValue function =>
    "function " ++ quote function ++ " returns void and cannot return a value"
  | expectedExplicitValue => "expected explicit value when no type is given"

def tip : SemanticProblem → Option String
  | variableNotDeclared name => some
      ("declare `" ++ name ++ "` with `var " ++ name ++ ": <type> = <value>;` before using it")
  | unexpectedArguments _ expected received | missingArguments _ expected received => some
      ("Expected " ++ toString expected ++ " arguments, received " ++ toString received)
  | invalidConversion _ _ => some
      "only built-in scalars convert to each other, and pointers to pointers"
  | writeToConst name => some ("remove `const` from the type of `" ++ name ++ "`")
  | expectedExplicitValue => some "Expected explicit value when no type is given"
  | _ => none

end SemanticProblem

namespace Remark

def name : Remark → String
  | unusedExpressionResult => "UnusedExpressionResult"
  | uselessConversion _ => "UselessConversion"
  | implicitConversion _ _ => "ImplicitConversion"
  | literalTruncated _ _ => "LiteralTruncated"
  | negateUnsigned _ => "NegateUnsigned"
  | missingReturn _ => "MissingReturn"
  | previousDeclaration _ => "PreviousDeclaration"
  | candidateOverload _ => "CandidateOverload"

def message : Remark → String
  | unusedExpressionResult => "expression result is unused"
  | uselessConversion typeName => "useless conversion to " ++ typeName
  | implicitConversion source target => "implicit conversion from " ++ source ++ " to " ++ target
  | literalTruncated literal typeName => "literal " ++ literal ++ " does not fit in " ++ typeName
  | negateUnsigned typeName => "negating a value of unsigned type " ++ typeName
  | missingReturn function => "function " ++ quote function ++ " never returns a value"
  | previousDeclaration name => quote name ++ " was previously declared here"
  | candidateOverload signature => "candidate: " ++ signature

def tip : Remark → Option String
  | implicitConversion _ target => some
      ("write `as " ++ target ++ "` to make the conversion explicit")
  | literalTruncated _ typeName => some
      ("write `as " ++ typeName ++ "` if the truncated value is intended")
  | _ => none

end Remark

namespace Problem

def name : Problem → String
  | lexical fault => fault.name
  | syntactic problem => problem.name
  | semantic problem => problem.name
  | remark r => r.name

def message : Problem → String
  | lexical fault => fault.message
  | syntactic problem => problem.message
  | semantic problem => problem.message
  | remark r => r.message

def tip : Problem → Option String
  | lexical fault => fault.tip
  | syntactic problem => problem.tip
  | semantic problem => problem.tip
  | remark r => r.tip

end Problem

end ScalarLang
