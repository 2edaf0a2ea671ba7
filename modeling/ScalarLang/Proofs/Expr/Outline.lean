import Mathlib.Data.Finset.Card
import Mathlib.Logic.Relation
import Mathlib.Order.WellFounded
import ScalarLang.Expr.Arena

/-! Expressions unfolded without their types and places in the source. Where the way down from an
expression to its children always ends, the depth at which trees are cut off makes no difference. -/

namespace ScalarLang

/-- What is written, kind by kind: a tree without types and spans. -/
inductive Outline where
  | node (kind : ExprKind Outline)

namespace ExprKind

variable {Child Target : Type}

/-- The kinds that equal nothing, not even themselves. -/
inductive NeverEqual : ExprKind Child → Prop
  | fnDef (name : String) (params : List String) (body : Option Child) (returns : List ExprId) :
      NeverEqual (.fnDef name params body returns)
  | scope (body : List Child) : NeverEqual (.scope body)
  | fnCall (callee : ExprId) (args : List Child) : NeverEqual (.fnCall callee args)

theorem isComparable_iff (kind : ExprKind Child) : kind.isComparable = true ↔ ¬kind.NeverEqual := by
  cases kind with
  | fnDef name params body returns =>
    exact iff_of_false nofun (not_not.mpr (.fnDef name params body returns))
  | scope body => exact iff_of_false nofun (not_not.mpr (.scope body))
  | fnCall callee args => exact iff_of_false nofun (not_not.mpr (.fnCall callee args))
  | _ => exact ⟨fun _ => nofun, fun _ => rfl⟩

@[simp]
theorem label_map (kind : ExprKind Child) (f : Child → Target) :
    (kind.map f).label = kind.label := by
  cases kind <;> simp [label, map, Function.comp_def]

@[simp]
theorem children_map (kind : ExprKind Child) (f : Child → Target) :
    (kind.map f).children = kind.children.map f := by
  cases kind with
  | varDecl name init isGlobal => cases init <;> rfl
  | fnReturn value => cases value <;> rfl
  | fnDef name params body returns => cases body <;> rfl
  | condition cond thenBranch otherwise => cases otherwise <;> rfl
  | _ => rfl

@[simp]
theorem isComparable_map (kind : ExprKind Child) (f : Child → Target) :
    (kind.map f).isComparable = kind.isComparable := by
  cases kind <;> rfl

theorem isComparable_label (kind : ExprKind Child) :
    kind.label.isComparable = kind.isComparable :=
  kind.isComparable_map _

/-- A kind is what its label says over its children, none of which is left out. -/
theorem eq_iff_label_children {kind other : ExprKind Child} :
    kind = other ↔ kind.label = other.label ∧ kind.children = other.children := by
  have inj (a b : Option Child) : a.toList = b.toList ↔ a = b := by
    cases a <;> cases b <;> simp
  refine ⟨fun same => same ▸ ⟨rfl, rfl⟩, fun ⟨labels, children⟩ => ?_⟩
  cases kind <;> cases other <;> simp_all [label, map, ExprKind.children]

theorem map_eq_map {kind other : ExprKind Child} {f g : Child → Target} :
    kind.map f = other.map g ↔
      kind.label = other.label ∧ kind.children.map f = other.children.map g := by
  rw [eq_iff_label_children, label_map, label_map, children_map, children_map]

theorem map_congr {kind : ExprKind Child} {f g : Child → Target}
    (same : ∀ child ∈ kind.children, f child = g child) : kind.map f = kind.map g :=
  map_eq_map.mpr ⟨rfl, List.map_congr_left same⟩

end ExprKind

namespace Outline

inductive Contains : Outline → ExprKind Outline → Prop
  | root (kind : ExprKind Outline) : Contains (.node kind) kind
  | inside {kind found : ExprKind Outline} {child : Outline} (member : child ∈ kind.children)
      (contains : Contains child found) : Contains (.node kind) found

/-- No definition, scope or call occurs anywhere. -/
def Comparable (outline : Outline) : Prop :=
  ∀ kind, outline.Contains kind → ¬kind.NeverEqual

theorem comparable_node {kind : ExprKind Outline} :
    (node kind).Comparable ↔
      kind.isComparable = true ∧ ∀ child ∈ kind.children, child.Comparable := by
  rw [ExprKind.isComparable_iff]
  constructor
  · intro comparable
    exact ⟨comparable kind (.root kind),
      fun child member found contains => comparable found (.inside member contains)⟩
  · rintro ⟨root, children⟩ found contains
    cases contains with
    | root => exact root
    | inside member contains => exact children _ member found contains

end Outline

theorem Tree.foldAll_eq_map {α : Type} (f : ExprKind Unit → Ty → List α → α)
    (trees : List Tree) : foldAll f trees = trees.map (fold f) := by
  induction trees with
  | nil => rfl
  | cons tree rest ih => rw [foldAll, ih, List.map_cons]

namespace Arena

variable {arena : Arena} {id child : ExprId}

/-- The way down from an expression to its children always ends. -/
def Grounded (arena : Arena) : Prop :=
  WellFounded fun child id => child ∈ (arena.kind id).children

namespace Grounded

open Classical in
/-- An expression unfolded: its kind over its children unfolded. -/
noncomputable def outline (grounded : arena.Grounded) : ExprId → Outline :=
  WellFounded.fix grounded fun id unfolded => .node <| (arena.kind id).map fun child =>
    if member : child ∈ (arena.kind id).children then unfolded child member else .node .error

theorem outline_eq (grounded : arena.Grounded) (id : ExprId) :
    grounded.outline id = .node ((arena.kind id).map grounded.outline) := by
  refine (WellFounded.fix_eq grounded _ id).trans (congrArg _ ?_)
  exact ExprKind.map_congr fun child member => dif_pos member

end Grounded

def Below (arena : Arena) : ExprId → ExprId → Prop :=
  Relation.ReflTransGen fun child id => child ∈ (arena.kind id).children

open Classical in
/-- The places of the arena that an expression reaches down to, its own among them. -/
noncomputable def places (arena : Arena) (id : ExprId) : Finset Nat :=
  {index ∈ Finset.range arena.nodes.size | arena.Below ⟨index⟩ id}

open Classical in
theorem mem_places {index : Nat} :
    index ∈ arena.places id ↔ index < arena.nodes.size ∧ arena.Below ⟨index⟩ id := by
  rw [places, Finset.mem_filter, Finset.mem_range]

open Classical in
theorem card_places_le (arena : Arena) (id : ExprId) :
    (arena.places id).card ≤ arena.nodes.size :=
  (Finset.card_filter_le _ _).trans_eq (Finset.card_range _)

/-- Nothing outside of the arena has children. -/
theorem index_lt_of_child (member : child ∈ (arena.kind id).children) :
    id.index < arena.nodes.size := by
  by_contra outside
  have absent : arena.node? id = none := by
    rw [node?, Array.getElem?_eq_none (Nat.le_of_not_lt outside)]
  rw [kind, node, absent] at member
  cases member

namespace Grounded

/-- No expression is below itself, so that fewer places are left with each step down. -/
theorem card_places_lt (grounded : arena.Grounded) (member : child ∈ (arena.kind id).children) :
    (arena.places child).card < (arena.places id).card := by
  have own : id.index ∈ arena.places id := mem_places.mpr ⟨index_lt_of_child member, .refl⟩
  have gone : id.index ∉ arena.places child := by
    intro again
    have circle := Relation.TransGen.tail' (mem_places.mp again).2 member
    exact grounded.transGen.irrefl.irrefl id circle
  refine Finset.card_lt_card ⟨fun index reached => ?_, fun all => gone (all own)⟩
  obtain ⟨inside, below⟩ := mem_places.mp reached
  exact mem_places.mpr ⟨inside, below.tail member⟩

/-- No way down is longer than there are places below its start. Whatever is computed on the way
down comes out the same, at whatever greater depth the way is cut off. -/
theorem within_eq {α : Type} (grounded : arena.Grounded) {within : Nat → ExprId → α}
    (step : ∀ depth other id, (∀ child ∈ (arena.kind id).children,
      within depth child = within other child) → within (depth + 1) id = within (other + 1) id)
    {depth other : Nat} (enough : (arena.places id).card < depth)
    (enoughOther : (arena.places id).card < other) : within depth id = within other id := by
  induction depth generalizing other id with
  | zero => omega
  | succ depth ih =>
    cases other with
    | zero => omega
    | succ other =>
      refine step depth other id fun child member => ?_
      have fewer := grounded.card_places_lt member
      exact ih (by omega) (by omega)

/-- From the size of the arena on, the depth of the children makes no difference. -/
theorem within_child {α : Type} (grounded : arena.Grounded) {within : Nat → ExprId → α}
    (step : ∀ depth other id, (∀ child ∈ (arena.kind id).children,
      within depth child = within other child) → within (depth + 1) id = within (other + 1) id)
    (member : child ∈ (arena.kind id).children) :
    within arena.nodes.size child = within (arena.nodes.size + 1) child := by
  have fewer := grounded.card_places_lt member
  have bound := arena.card_places_le id
  exact grounded.within_eq step (by omega) (by omega)

/-- A tree is its root over the trees of the children. -/
theorem tree_eq (grounded : arena.Grounded) (id : ExprId) :
    arena.tree id = .node (arena.kind id).label (arena.formOf id) (arena.spanOf id)
      ((arena.kind id).children.map arena.tree) := by
  have step (depth other : Nat) (id : ExprId)
      (same : ∀ child ∈ (arena.kind id).children,
        arena.treeWithin depth child = arena.treeWithin other child) :
      arena.treeWithin (depth + 1) id = arena.treeWithin (other + 1) id :=
    congrArg (Tree.node _ _ _) (List.map_congr_left same)
  have trees : (arena.kind id).children.map (arena.treeWithin arena.nodes.size) =
      (arena.kind id).children.map arena.tree :=
    List.map_congr_left fun child member => grounded.within_child step member
  unfold tree treeWithin
  exact congrArg _ trees

theorem fold_tree {α : Type} (grounded : arena.Grounded) (f : ExprKind Unit → Ty → List α → α)
    (id : ExprId) :
    (arena.tree id).fold f = f (arena.kind id).label (arena.formOf id)
      ((arena.kind id).children.map fun child => (arena.tree child).fold f) := by
  rw [grounded.tree_eq id, Tree.fold, Tree.foldAll_eq_map, List.map_map]
  rfl

theorem isEqual_tree (grounded : arena.Grounded) (id other : ExprId) :
    (arena.tree id).isEqual (arena.tree other) =
      ((arena.kind id).label.isComparable && (arena.kind id).label = (arena.kind other).label &&
        Tree.areEqual ((arena.kind id).children.map arena.tree)
          ((arena.kind other).children.map arena.tree)) := by
  rw [grounded.tree_eq id, grounded.tree_eq other, Tree.isEqual]

end Grounded

end Arena

end ScalarLang
