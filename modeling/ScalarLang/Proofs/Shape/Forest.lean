import ScalarLang.Proofs.Analysis.Growth
import ScalarLang.Proofs.Expr.Outline

/-! How deep expressions nest and where they return. Operators of one rank and conversions after one
another make chains, which are as deep as they are long; nothing else grows deeper without another
level of nesting around it. -/

namespace ScalarLang

namespace ExprKind

variable {Child Target : Type}

/-- An operation or a conversion, which continues what its first operand is. -/
def isLink : ExprKind Child → Bool
  | binary _ _ _ | convert _ => true
  | _ => false

def isReturn : ExprKind Child → Bool
  | fnReturn _ => true
  | _ => false

@[simp]
theorem isLink_label (kind : ExprKind Child) : kind.label.isLink = kind.isLink := by
  cases kind <;> rfl

theorem isLink_plain {kind : ExprKind ExprId} (links : kind.isLink = true) :
    kind.isDefinition = false ∧ kind ≠ .error ∧ kind.isReturn = false := by
  cases kind with
  | binary | convert => exact ⟨rfl, nofun, rfl⟩
  | _ => cases links

end ExprKind

namespace Tree

mutual
/-- The number of nodes on the longest way down, where all links of a chain count as one node. -/
def nesting : Tree → Nat
  | node _ _ _ [] => 1
  | node label _ _ (first :: operands) =>
    if label.isLink && first.label.isLink then max (nesting first) (nestings operands + 1)
    else max (nesting first) (nestings operands) + 1

def nestings : List Tree → Nat
  | [] => 0
  | tree :: rest => max (nesting tree) (nestings rest)
end

/-- The number of links that go on with one another from the root down. -/
def chain : Tree → Nat
  | node _ _ _ [] => 1
  | node label _ _ (first :: _) =>
    if label.isLink && first.label.isLink then chain first + 1 else 1

mutual
/-- The number of links in the longest chain of a tree, or one. -/
def longestChain : Tree → Nat
  | node label ty span children => max (chain (node label ty span children)) (longestChains children)

def longestChains : List Tree → Nat
  | [] => 0
  | tree :: rest => max (longestChain tree) (longestChains rest)
end

theorem height_node (label : ExprKind Unit) (ty : Ty) (span : Span) (children : List Tree) :
    (node label ty span children).height = (children.map height).foldr max 0 + 1 := by
  rw [height, fold, foldAll_eq_map]

theorem nesting_node_le (label : ExprKind Unit) (ty : Ty) (span : Span) (children : List Tree) :
    (node label ty span children).nesting ≤ nestings children + 1 := by
  cases children with
  | nil => simp [nesting, nestings]
  | cons first operands =>
    rw [nesting, nestings]
    split <;> omega

theorem chain_le_longestChain (tree : Tree) : tree.chain ≤ tree.longestChain := by
  cases tree with
  | node =>
    rw [longestChain]
    exact Nat.le_max_left _ _

mutual
/-- On each level of nesting a tree goes down one chain at most. -/
theorem height_add_le (bound : Nat) : (tree : Tree) → tree.longestChain ≤ bound →
    tree.height + bound ≤ tree.nesting * bound + tree.chain
  | node label ty span [], within => by
    rw [height_node, nesting, chain, List.map_nil, List.foldr_nil]
    omega
  | node label ty span (first :: operands), within => by
    rw [longestChain, longestChains] at within
    have inFirst := height_add_le bound first (by omega)
    have inOperands := heights_le bound operands (by omega)
    have short : first.chain ≤ bound := (chain_le_longestChain first).trans (by omega)
    rw [height_node, List.map_cons, List.foldr_cons, nesting, chain]
    split
    · rw [← Nat.mul_max_mul_right, Nat.succ_mul]
      omega
    · rw [Nat.succ_mul, ← Nat.mul_max_mul_right]
      omega

theorem heights_le (bound : Nat) : (trees : List Tree) → longestChains trees ≤ bound →
    (trees.map height).foldr max 0 ≤ nestings trees * bound
  | [], _ => Nat.zero_le _
  | tree :: rest, within => by
    rw [longestChains] at within
    have inTree := height_add_le bound tree (by omega)
    have inRest := heights_le bound rest (by omega)
    have short : tree.chain ≤ bound := (chain_le_longestChain tree).trans (by omega)
    rw [List.map_cons, List.foldr_cons, nestings, ← Nat.mul_max_mul_right]
    omega
end

/-- A tree is no higher than its nesting, so many times as its longest chain has links. -/
theorem height_le (tree : Tree) : tree.height ≤ tree.nesting * tree.longestChain := by
  have bound := height_add_le _ tree (Nat.le_refl _)
  have short := tree.chain_le_longestChain
  omega

/-- A chain of a conversion, a sum and a product counts once: below it is nothing but literals. -/
example :
    let one : Tree := node (.literal 1) .void .nowhere []
    let product := node (.binary () .mul ()) .void .nowhere [one, one]
    let sum := node (.binary () .sum ()) .void .nowhere [product, one]
    let tree := node (.convert ()) .void .nowhere [sum]
    tree.nesting = 2 ∧ tree.longestChain = 3 ∧ tree.height = 4 := by decide

end Tree

namespace Arena

/-- An expression and everything below it, parents before children, to a given depth. -/
def preorderWithin (arena : Arena) : Nat → ExprId → List ExprId
  | 0, _ => []
  | depth + 1, id => id :: (arena.kind id).children.flatMap (arena.preorderWithin depth)

def preorder (arena : Arena) (id : ExprId) : List ExprId :=
  arena.preorderWithin (arena.nodes.size + 1) id

/-- The returns that an expression reaches, in the order of the source. -/
def returnsBelow (arena : Arena) (id : ExprId) : List ExprId :=
  (arena.preorder id).filter fun below => (arena.kind below).isReturn

variable {arena later : Arena} {id : ExprId} {ids : List ExprId} {depth deeper : Nat}
  {returns others : List ExprId}

theorem Grounded.preorder_eq (grounded : arena.Grounded) (id : ExprId) :
    arena.preorder id = id :: (arena.kind id).children.flatMap arena.preorder := by
  have step (depth other : Nat) (id : ExprId)
      (same : ∀ child ∈ (arena.kind id).children,
        arena.preorderWithin depth child = arena.preorderWithin other child) :
      arena.preorderWithin (depth + 1) id = arena.preorderWithin (other + 1) id :=
    congrArg (id :: ·) (List.flatMap_congr same)
  exact congrArg (id :: ·) (List.flatMap_congr fun child member => grounded.within_child step member)

/-- What an expression itself adds to the returns. -/
def ownReturns (kind : ExprKind ExprId) (id : ExprId) : List ExprId :=
  if kind.isReturn then [id] else []

/-- Expressions side by side that nest no deeper than the depth, and all returns in them in the order
of the source. No definition is among them, so that they stay as they are. -/
inductive Forest (arena : Arena) : Nat → List ExprId → List ExprId → Prop
  | nil {depth : Nat} : Forest arena depth [] []
  | node {depth : Nat} {id : ExprId} {node : Node} {ids inside returns : List ExprId}
      (found : arena.node? id = some node) (plain : node.kind.isDefinition = false)
      (children : Forest arena depth node.kind.children inside)
      (rest : Forest arena (depth + 1) ids returns) :
      Forest arena (depth + 1) (id :: ids) (ownReturns node.kind id ++ inside ++ returns)
  | link {depth : Nat} {id first : ExprId} {node : Node} {operands ids returns : List ExprId}
      (found : arena.node? id = some node) (links : node.kind.isLink = true)
      (children : node.kind.children = first :: operands)
      (continued : (arena.kind first).isLink = true) (chain : Forest arena (depth + 1) [first] [])
      (others : Forest arena depth operands []) (rest : Forest arena (depth + 1) ids returns) :
      Forest arena (depth + 1) (id :: ids) returns

abbrev Nests (arena : Arena) (depth : Nat) (id : ExprId) (returns : List ExprId) : Prop :=
  arena.Forest depth [id] returns

/-- No deeper than the depth, but a link may add one more node, to which others add nothing. -/
def Operand (arena : Arena) (depth : Nat) (id : ExprId) : Prop :=
  0 < depth ∧
    (arena.Nests depth id [] ∨ (arena.kind id).isLink = true ∧ arena.Nests (depth + 1) id [])

theorem Forest.mono (forest : arena.Forest depth ids returns) (more : depth ≤ deeper) :
    arena.Forest deeper ids returns := by
  induction forest generalizing deeper with
  | nil => exact .nil
  | node found plain _ _ ihChildren ihRest =>
    obtain ⟨deeper, rfl⟩ := Nat.exists_eq_add_one_of_ne_zero (n := deeper) (by omega)
    exact .node found plain (ihChildren (by omega)) (ihRest more)
  | link found links children continued _ _ _ ihChain ihOthers ihRest =>
    obtain ⟨deeper, rfl⟩ := Nat.exists_eq_add_one_of_ne_zero (n := deeper) (by omega)
    exact .link found links children continued (ihChain more) (ihOthers (by omega)) (ihRest more)

/-- Nothing but definitions ever changes. -/
theorem Grows.node? (grows : arena.Grows later) {node : Node} (found : arena.node? id = some node)
    (plain : node.kind.isDefinition = false) : later.node? id = some node := by
  obtain ⟨after, found, ty, span, becomes⟩ := grows.nodes id node found
  have same : after = node := by
    obtain ⟨kind, _, _⟩ := after
    cases ty
    cases span
    cases becomes.eq plain
    rfl
  rw [found, same]

theorem Grows.isLink (grows : arena.Grows later) (links : (arena.kind id).isLink = true) :
    (later.kind id).isLink = true := by
  obtain ⟨plain, known, -⟩ := ExprKind.isLink_plain links
  rwa [grows.kind known plain]

theorem Forest.grow (forest : arena.Forest depth ids returns) (grows : arena.Grows later) :
    later.Forest depth ids returns := by
  induction forest with
  | nil => exact .nil
  | node found plain _ _ children rest => exact .node (grows.node? found plain) plain children rest
  | link found links children continued _ _ _ chain others rest =>
    exact .link (grows.node? found (ExprKind.isLink_plain links).1) links children
      (grows.isLink continued) chain others rest

theorem Forest.cons (first : arena.Nests depth id returns) (rest : arena.Forest depth ids others) :
    arena.Forest depth (id :: ids) (returns ++ others) := by
  cases first with
  | node found plain children none =>
    cases none
    rw [List.append_nil]
    exact .node found plain children rest
  | link found links children continued chain operands none =>
    cases none
    exact .link found links children continued chain operands rest

/-- An expression over others. -/
theorem Forest.over {node : Node} (children : arena.Forest depth node.kind.children returns)
    (found : arena.node? id = some node) (plain : node.kind.isDefinition = false) :
    arena.Nests (depth + 1) id (ownReturns node.kind id ++ returns) := by
  simpa using Forest.node found plain children .nil

theorem Forest.pos (nests : arena.Nests depth id returns) : 0 < depth := by
  cases nests <;> exact Nat.succ_pos _

theorem Forest.operand (nests : arena.Nests depth id []) : arena.Operand depth id :=
  ⟨nests.pos, .inl nests⟩

/-- Several expressions without returns. -/
theorem Forest.ofAll (all : ∀ id ∈ ids, arena.Nests depth id []) : arena.Forest depth ids [] := by
  induction ids with
  | nil => exact .nil
  | cons id ids ih =>
    exact Forest.cons (all id List.mem_cons_self)
      (ih fun other member => all other (List.mem_cons_of_mem _ member))

namespace Operand

theorem nests (operand : arena.Operand depth id) : arena.Nests (depth + 1) id [] := by
  obtain ⟨-, nests | ⟨-, nests⟩⟩ := operand
  · exact nests.mono (Nat.le_succ _)
  · exact nests

theorem mono (operand : arena.Operand depth id) (more : depth ≤ deeper) :
    arena.Operand deeper id := by
  obtain ⟨pos, nests | ⟨links, nests⟩⟩ := operand
  · exact ⟨Nat.lt_of_lt_of_le pos more, .inl (nests.mono more)⟩
  · exact ⟨Nat.lt_of_lt_of_le pos more, .inr ⟨links, nests.mono (Nat.succ_le_succ more)⟩⟩

theorem grow (operand : arena.Operand depth id) (grows : arena.Grows later) :
    later.Operand depth id := by
  obtain ⟨pos, nests | ⟨links, nests⟩⟩ := operand
  · exact ⟨pos, .inl (nests.grow grows)⟩
  · exact ⟨pos, .inr ⟨grows.isLink links, nests.grow grows⟩⟩

/-- A link goes on with its first operand: the chain gets longer, but nothing gets deeper. -/
theorem link {node : Node} {first : ExprId} {operands : List ExprId}
    (continued : arena.Operand depth first) (others : arena.Forest depth operands [])
    (found : arena.node? id = some node) (links : node.kind.isLink = true)
    (children : node.kind.children = first :: operands) : arena.Operand depth id := by
  have same : (arena.kind id).isLink = true := by rwa [Arena.kind, node_of_node? found]
  obtain ⟨plain, -, noReturn⟩ := ExprKind.isLink_plain links
  obtain ⟨pos, nests | ⟨goesOn, chain⟩⟩ := continued
  · have below : arena.Forest depth node.kind.children [] := by
      rw [children]
      exact nests.cons others
    have whole := below.over found plain
    rw [ownReturns, noReturn] at whole
    exact ⟨pos, .inr ⟨same, whole⟩⟩
  · exact ⟨pos, .inr ⟨same, .link found links children goesOn chain others .nil⟩⟩

end Operand

/-- The trees nest no deeper than is said of the expressions. -/
theorem Forest.nestings_le (forest : arena.Forest depth ids returns) (grounded : arena.Grounded) :
    Tree.nestings (ids.map arena.tree) ≤ depth := by
  induction forest with
  | nil => exact Nat.zero_le _
  | @node depth id node ids _ _ found _ _ _ children rest =>
    have kind : arena.kind id = node.kind := by rw [Arena.kind, node_of_node? found]
    rw [List.map_cons, Tree.nestings, grounded.tree_eq id, kind]
    have deepest := Tree.nesting_node_le node.kind.label (arena.formOf id) (arena.spanOf id)
      (node.kind.children.map arena.tree)
    omega
  | @link depth id first node operands ids _ found links children continued _ _ _ chain others rest =>
    have kind : arena.kind id = node.kind := by rw [Arena.kind, node_of_node? found]
    have goesOn : (arena.tree first).label.isLink = true := by
      rw [grounded.tree_eq first, Tree.label, ExprKind.isLink_label, continued]
    rw [List.map_singleton, Tree.nestings, Tree.nestings] at chain
    rw [List.map_cons, Tree.nestings, grounded.tree_eq id, kind, children, List.map_cons,
      Tree.nesting, ExprKind.isLink_label, links, goesOn]
    simp only [Bool.and_self, if_true]
    omega

theorem Forest.nesting_le (nests : arena.Nests depth id returns) (grounded : arena.Grounded) :
    (arena.tree id).nesting ≤ depth := by
  have bound := nests.nestings_le grounded
  rw [List.map_singleton, Tree.nestings, Tree.nestings] at bound
  omega

/-- In pre-order the returns come as is said of the expressions. -/
theorem Forest.returns_eq (forest : arena.Forest depth ids returns) (grounded : arena.Grounded) :
    ids.flatMap arena.returnsBelow = returns := by
  have root (id : ExprId) {node : Node} (found : arena.node? id = some node) :
      arena.returnsBelow id = ownReturns node.kind id ++
        node.kind.children.flatMap arena.returnsBelow := by
    have kind : arena.kind id = node.kind := by rw [Arena.kind, node_of_node? found]
    rw [returnsBelow, grounded.preorder_eq id, kind, List.filter_cons, kind, ownReturns,
      List.filter_flatMap]
    split <;> rfl
  induction forest with
  | nil => rfl
  | node found _ _ _ children rest => rw [List.flatMap_cons, root _ found, children, rest]
  | link found links children _ _ _ _ chain others rest =>
    rw [List.flatMap_singleton] at chain
    rw [List.flatMap_cons, root _ found, children, List.flatMap_cons, chain, others, rest, ownReturns,
      (ExprKind.isLink_plain links).2.2]
    rfl

end Arena

end ScalarLang
