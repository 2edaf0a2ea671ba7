import ScalarLang.Scalar

/-! Types written out in full, and the relations between them. The error type is the type of
expressions that are already known to be wrong. It equals every type, so that one mistake is not
reported twice. -/

namespace ScalarLang

inductive Ty where
  | void
  | scalar (scalar : Scalar) (isConst : Bool)
  | pointer (isConst : Bool) (pointee : Ty)
  | function (result : Ty) (params : List Ty)
  | error
  deriving Repr, Inhabited

namespace Ty

def isConst : Ty → Bool
  | scalar _ isConst => isConst
  | pointer isConst _ => isConst
  | _ => false

def isError : Ty → Bool
  | error => true
  | _ => false

def isVoid : Ty → Bool
  | void => true
  | _ => false

def isPointer : Ty → Bool
  | pointer _ _ => true
  | _ => false

def scalar? : Ty → Option Scalar
  | scalar s _ => some s
  | _ => none

def isBool (ty : Ty) : Bool := ty.scalar?.any Scalar.isBool

/-- Whether a binary operator takes the type as its left operand. Pointers can only be compared. -/
def supports (ty : Ty) (op : BinaryOp) : Bool :=
  match ty with
  | scalar s _ => s.operators.contains op
  | pointer _ _ => op = .equal || op = .notEqual
  | error => true
  | void | function _ _ => false

mutual
/-- Equality that overlooks whether the types themselves are const. Below a pointer const
counts. -/
def isEqual : Ty → Ty → Bool
  | error, _ => true
  | _, error => true
  | void, void => true
  | scalar left _, scalar right _ => left = right
  | pointer _ left, pointer _ right => left.isConst = right.isConst && isEqual left right
  | function left leftParams, function right rightParams =>
    isEqual left right && areEqual leftParams rightParams
  | _, _ => false

def areEqual : List Ty → List Ty → Bool
  | [], [] => true
  | left :: lefts, right :: rights => isEqual left right && areEqual lefts rights
  | _, _ => false
end

def isEqualWithConst (left right : Ty) : Bool :=
  left.isConst = right.isConst && left.isEqual right

/-- Whether a value of one type can become one of the other, silently or by `as`. -/
def isConvertible (source target : Ty) : Bool :=
  source.isEqual target ||
    match source, target with
    | scalar _ _, scalar _ _ => true
    | pointer _ _, pointer _ _ => true
    | _, _ => false

def constMark (isConst : Bool) : String := if isConst then "const " else ""

mutual
/-- The type as it is written in a source. -/
def name : Ty → String
  | void => "void"
  | error => "<error>"
  | scalar s isConst => constMark isConst ++ s.name
  | pointer isConst pointee => constMark isConst ++ "PTR<" ++ name pointee ++ ">"
  | function result params =>
    "fn(" ++ ", ".intercalate (names params) ++ ") -> " ++ name result

def names : List Ty → List String
  | [] => []
  | ty :: rest => name ty :: names rest
end

end Ty

end ScalarLang
