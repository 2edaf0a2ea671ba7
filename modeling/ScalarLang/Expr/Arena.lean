import ScalarLang.Expr.Tree

/-! The arena of all types and expressions of a program. Nodes are added at the end and keep their
place and their contents, except that a function definition is completed later. -/

namespace ScalarLang

structure Arena where
  types : TypeTable
  nodes : Array Node
  deriving Repr

namespace Arena

def empty : Arena := ⟨.empty, #[]⟩

def addType (arena : Arena) (shape : TypeShape) : TypeId × Arena :=
  let (id, types) := arena.types.add shape
  (id, { arena with types })

def withConst (arena : Arena) (id : TypeId) (isConst : Bool) : TypeId × Arena :=
  let (id, types) := arena.types.withConst id isConst
  (id, { arena with types })

def addNode (arena : Arena) (node : Node) : ExprId × Arena :=
  (⟨arena.nodes.size⟩, { arena with nodes := arena.nodes.push node })

def node? (arena : Arena) (id : ExprId) : Option Node := arena.nodes[id.index]?

/-- A place outside the arena counts as an error expression without a type. -/
def node (arena : Arena) (id : ExprId) : Node :=
  (arena.node? id).getD ⟨.error, ⟨arena.types.size⟩, .nowhere⟩

def kind (arena : Arena) (id : ExprId) : ExprKind ExprId := (arena.node id).kind

def typeOf (arena : Arena) (id : ExprId) : TypeId := (arena.node id).ty

def spanOf (arena : Arena) (id : ExprId) : Span := (arena.node id).span

/-- The type of an expression written out. -/
def formOf (arena : Arena) (id : ExprId) : Ty := arena.types.form (arena.typeOf id)

/-- Whether an expression is known to be wrong. -/
def isError (arena : Arena) (id : ExprId) : Bool :=
  (arena.kind id).isError || (arena.formOf id).isError

def setKind (arena : Arena) (id : ExprId) (kind : ExprKind ExprId) : Arena :=
  { arena with nodes := arena.nodes.setIfInBounds id.index { arena.node id with kind } }

def functionName (arena : Arena) (id : ExprId) : String :=
  match arena.kind id with
  | .fnDef name _ _ _ => name
  | _ => "<error>"

/-- The result and parameter types of an expression of function type. -/
def signature? (arena : Arena) (id : ExprId) : Option (TypeId × List TypeId) :=
  match arena.types.shape (arena.typeOf id) with
  | .function result params => some (result, params)
  | _ => none

/-- The tree below a node, to a given depth. -/
def treeWithin (arena : Arena) : Nat → ExprId → Tree
  | 0, _ => .missing
  | depth + 1, id =>
    let node := arena.node id
    .node node.kind.label (arena.types.form node.ty) node.span
      (node.kind.children.map (arena.treeWithin depth))

/-- The tree below a node. No way down that repeats no node is longer than the arena. -/
def tree (arena : Arena) (id : ExprId) : Tree := arena.treeWithin (arena.nodes.size + 1) id

end Arena

end ScalarLang
