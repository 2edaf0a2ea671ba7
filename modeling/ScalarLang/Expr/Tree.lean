import ScalarLang.Expr.Basic

/-! Expression trees: expressions with their children in place. Equality of trees looks at neither
types nor spans. -/

namespace ScalarLang

inductive Tree where
  | node (label : ExprKind Unit) (ty : Ty) (span : Span) (children : List Tree)
  deriving Repr

namespace Tree

def label : Tree → ExprKind Unit
  | node label _ _ _ => label

def ty : Tree → Ty
  | node _ ty _ _ => ty

def span : Tree → Span
  | node _ _ span _ => span

def children : Tree → List Tree
  | node _ _ _ children => children

/-- Stands for a place outside the arena. -/
def missing : Tree := node .error .error .nowhere []

mutual
def fold {α : Type} (f : ExprKind Unit → Ty → List α → α) : Tree → α
  | node label ty _ children => f label ty (foldAll f children)

def foldAll {α : Type} (f : ExprKind Unit → Ty → List α → α) : List Tree → List α
  | [] => []
  | tree :: rest => fold f tree :: foldAll f rest
end

mutual
/-- Every node with its depth, parents before children. -/
def listing (depth : Nat) : Tree → List (Nat × Tree)
  | node label ty span children =>
    (depth, node label ty span children) :: listings (depth + 1) children

def listings (depth : Nat) : List Tree → List (Nat × Tree)
  | [] => []
  | tree :: rest => listing depth tree ++ listings depth rest
end

mutual
def isEqual : Tree → Tree → Bool
  | node left _ _ lefts, node right _ _ rights =>
    left.isComparable && left = right && areEqual lefts rights

def areEqual : List Tree → List Tree → Bool
  | [], [] => true
  | left :: lefts, right :: rights => isEqual left right && areEqual lefts rights
  | _, _ => false
end

/-- The number of nodes on the longest way down. -/
def height : Tree → Nat := fold fun _ _ heights => heights.foldr max 0 + 1

end Tree

end ScalarLang
