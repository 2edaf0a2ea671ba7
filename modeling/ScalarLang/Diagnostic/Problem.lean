import ScalarLang.Token.Fault

/-! What a diagnostic can say. Problems are grouped by where they are found: in a token, in the
order of the tokens, in the meaning of the program. Remarks are about programs that are not wrong,
or point to another place. -/

namespace ScalarLang

inductive SyntaxProblem where
  | unexpectedToken (token : String)
  | expectedToken (expected token : String)
  | unexpectedTokenDetailed (token message : String)
  | expectedDeclaration (token : String)
  | expectedTypename (token : String)
  | unclosedParenthesis
  | unclosedScope
  | nestingTooDeep (limit : Nat)
  deriving DecidableEq, Repr

inductive SemanticProblem where
  | variableAlreadyDeclared (variableName : String)
  | variableNotDeclared (variableName : String)
  | voidVariable (variableName : String)
  | duplicateParameter (parameter : String)
  | functionAlreadyDeclared (function : String)
  | functionNotDeclared (function : String)
  | nameIsFunction (name : String)
  | nameIsVariable (name : String)
  | unexpectedArguments (function : String) (expected received : Nat)
  | missingArguments (function : String) (expected received : Nat)
  | argumentTypeMatchError (index : Nat) (expected received : String)
  | noMatchingOverload (function arguments : String)
  | ambiguousCall (function : String)
  | typeMatchError (expected received : String)
  | invalidConversion (source target : String)
  | unsupportedOperator (operator typeName : String)
  | notAnLvalue
  | writeToConst (variableName : String)
  | conditionNotBool (typeName : String)
  | missingReturnValue (function typeName : String)
  | unexpectedReturnValue (function : String)
  | expectedExplicitValue
  deriving DecidableEq, Repr

inductive Remark where
  | unusedExpressionResult
  | uselessConversion (typeName : String)
  | implicitConversion (source target : String)
  | literalTruncated (literal typeName : String)
  | negateUnsigned (typeName : String)
  | missingReturn (function : String)
  | previousDeclaration (name : String)
  | candidateOverload (signature : String)
  deriving DecidableEq, Repr

inductive Problem where
  | lexical (fault : LexicalFault)
  | syntactic (problem : SyntaxProblem)
  | semantic (problem : SemanticProblem)
  | remark (remark : Remark)
  deriving DecidableEq, Repr

instance : Coe LexicalFault Problem := ⟨.lexical⟩
instance : Coe SyntaxProblem Problem := ⟨.syntactic⟩
instance : Coe SemanticProblem Problem := ⟨.semantic⟩
instance : Coe Remark Problem := ⟨.remark⟩

namespace Problem

def isLexical : Problem → Bool
  | lexical _ => true
  | _ => false

def isSyntactic : Problem → Bool
  | syntactic _ => true
  | _ => false

end Problem

end ScalarLang
