import ScalarLang.Literal
import ScalarLang.Operator
import ScalarLang.Source.Span
import ScalarLang.Ty.Table

/-! Expressions. Declarations and control flow are expressions too. A node refers to its children by
their place in an arena; the definition that a call runs is no child of the call. -/

namespace ScalarLang

structure ExprId where
  index : Nat
  deriving DecidableEq, Repr, Inhabited

/-- Where a variable lives. -/
inductive Slot where
  | global
  | local (index : Nat)
  deriving DecidableEq, Repr, Inhabited

/-- What an expression is, over any type of children. -/
inductive ExprKind (Child : Type) where
  /-- Stands for anything that was found to be wrong. -/
  | error
  | literal (payload : Payload)
  | unary (op : UnaryOp) (child : Child)
  | binary (lhs : Child) (op : BinaryOp) (rhs : Child)
  /-- Conversion to the type of the node. -/
  | convert (child : Child)
  | varDecl (name : String) (init : Option Child) (isGlobal : Bool)
  | varRead (name : String) (slot : Slot)
  | varWrite (name : String) (value : Child) (slot : Slot)
  | fnReturn (value : Option Child)
  /-- A prototype has no body. The returns of the body are listed in source order. -/
  | fnDef (name : String) (params : List String) (body : Option Child) (returns : List ExprId)
  | fnCall (callee : ExprId) (args : List Child)
  | scope (body : List Child)
  | condition (cond thenBranch : Child) (otherwise : Option Child)
  deriving DecidableEq, Repr, Inhabited

namespace ExprKind

variable {Child : Type}

def name : ExprKind Child → String
  | error => "Error"
  | literal _ => "Literal"
  | unary _ _ => "Unary"
  | binary _ _ _ => "Binary"
  | convert _ => "Convert"
  | varDecl _ _ _ => "VarDecl"
  | varRead _ _ => "VarRead"
  | varWrite _ _ _ => "VarWrite"
  | fnReturn _ => "FnReturn"
  | fnDef _ _ _ _ => "FnDef"
  | fnCall _ _ => "FnCall"
  | scope _ => "Scope"
  | condition _ _ _ => "Condition"

/-- The children in source order. -/
def children : ExprKind Child → List Child
  | unary _ child | convert child => [child]
  | binary lhs _ rhs => [lhs, rhs]
  | varDecl _ init _ => init.toList
  | varWrite _ value _ => [value]
  | fnReturn value => value.toList
  | fnDef _ _ body _ => body.toList
  | fnCall _ args => args
  | scope body => body
  | condition cond thenBranch otherwise => cond :: thenBranch :: otherwise.toList
  | error | literal _ | varRead _ _ => []

def map {Target : Type} (f : Child → Target) : ExprKind Child → ExprKind Target
  | error => .error
  | literal payload => .literal payload
  | unary op child => .unary op (f child)
  | binary lhs op rhs => .binary (f lhs) op (f rhs)
  | convert child => .convert (f child)
  | varDecl name init isGlobal => .varDecl name (init.map f) isGlobal
  | varRead name slot => .varRead name slot
  | varWrite name value slot => .varWrite name (f value) slot
  | fnReturn value => .fnReturn (value.map f)
  | fnDef name params body returns => .fnDef name params (body.map f) returns
  | fnCall callee args => .fnCall callee (args.map f)
  | scope body => .scope (body.map f)
  | condition cond thenBranch otherwise =>
    .condition (f cond) (f thenBranch) (otherwise.map f)

/-- The kind without its children, which only leave their places. -/
def label (kind : ExprKind Child) : ExprKind Unit := kind.map fun _ => ()

def isError : ExprKind Child → Bool
  | error => true
  | _ => false

def isLiteral : ExprKind Child → Bool
  | literal _ => true
  | _ => false

/-- Definitions, scopes and calls compare equal to nothing. -/
def isComparable : ExprKind Child → Bool
  | fnDef _ _ _ _ | fnCall _ _ | scope _ => false
  | _ => true

end ExprKind

structure Node where
  kind : ExprKind ExprId
  ty : TypeId
  span : Span
  deriving Repr, Inhabited

namespace Node

def isError (node : Node) : Bool := node.kind.isError

def isLiteral (node : Node) : Bool := node.kind.isLiteral

end Node

end ScalarLang
