import ScalarLang.Expr.Hash
import ScalarLang.Expr.Printer
import ScalarLang.Proofs.Expr.Outline
import ScalarLang.Proofs.Reach.Accounting
import ScalarLang.Proofs.Reach.WellFormed

/-! Calls and functions refer to each other in circles, but the way down from an expression to its
children always ends. So do the recursions over types and expressions, which look at nothing else. -/

namespace ScalarLang

namespace TypeTable

variable {table : TypeTable}

/-- The way down from a type to its parts ends. -/
theorem parts_wellFounded
    (earlier : ∀ ty entry, table.get? ty = some entry → ∀ part ∈ entry.shape.parts,
      part.index < ty.index) :
    WellFounded fun part ty => part ∈ (table.shape ty).parts := by
  refine Subrelation.wf (fun {part ty} member => ?_) (measure TypeId.index).wf
  cases found : table.get? ty with
  | none => simp [shape, found, TypeShape.parts] at member
  | some entry => exact earlier ty entry found part (by simpa [shape, found] using member)

end TypeTable

namespace Arena

variable {arena : Arena} {id child : ExprId}

/-- Children rank below what they are children of. A definition, whose body comes after it, ranks
above everything else. -/
def rank (arena : Arena) (id : ExprId) : Nat :=
  if (arena.kind id).isDefinition then arena.nodes.size else min id.index arena.nodes.size

theorem rank_of_part (part : arena.HasPart id) : arena.rank id = id.index := by
  have inside : id.index < arena.nodes.size := part.has
  obtain ⟨node, found, plain⟩ := part
  rw [rank, Arena.kind, node_of_node? found, if_neg (by simp [plain])]
  omega

theorem WellFormed.rank_lt (wellFormed : arena.WellFormed)
    (member : child ∈ (arena.kind id).children) : arena.rank child < arena.rank id := by
  have known : arena.kind id ≠ .error := by
    intro wrong
    rw [wrong] at member
    cases member
  obtain ⟨part, earlier⟩ := wellFormed.children id _ (node?_of_kind known) child member
  have inside : id.index < arena.nodes.size := has_of_kind known
  have childInside : child.index < arena.nodes.size := part.has
  rw [rank_of_part part]
  unfold rank
  cases definition : (arena.kind id).isDefinition with
  | true => exact childInside
  | false =>
    have before : child.index < id.index := earlier definition
    simp only [Bool.false_eq_true, if_false]
    omega

theorem WellFormed.grounded (wellFormed : arena.WellFormed) : arena.Grounded :=
  Subrelation.wf wellFormed.rank_lt (measure arena.rank).wf

/-- Types and expressions can be read through their places alone: the recursions down to parts and
children end, and what is computed of an expression is computed of its children. -/
structure Terminates (arena : Arena) : Prop where
  parts : WellFounded fun part ty => part ∈ (arena.types.shape ty).parts
  form : ∀ ty, arena.types.form ty = (arena.types.shape ty).writeOut arena.types.form
  children : WellFounded fun child id => child ∈ (arena.kind id).children
  tree : ∀ id, arena.tree id = .node (arena.kind id).label (arena.formOf id) (arena.spanOf id)
    ((arena.kind id).children.map arena.tree)
  dump : ∀ id, arena.dump id =
    ((arena.kind id).label.rendering arena.functionName (arena.formOf id)).render
      ((arena.kind id).children.map arena.dump)
  hash : ∀ leaf id, (arena.tree id).hash leaf =
    if (arena.kind id).label.isComparable then
      ((arena.kind id).label.leafHashes leaf ++
        (arena.kind id).children.map (fun child => (arena.tree child).hash leaf) ++
        (arena.kind id).label.missingHashes).foldl hashCombine (arena.kind id).label.tag
    else 0
  isEqual : ∀ id other, (arena.tree id).isEqual (arena.tree other) =
    ((arena.kind id).label.isComparable && (arena.kind id).label = (arena.kind other).label &&
      Tree.areEqual ((arena.kind id).children.map arena.tree)
        ((arena.kind other).children.map arena.tree))

theorem WellFormed.terminates (wellFormed : arena.WellFormed) (written : arena.types.Written) :
    arena.Terminates where
  parts := TypeTable.parts_wellFounded wellFormed.parts
  form := written.form
  children := wellFormed.grounded
  tree := wellFormed.grounded.tree_eq
  dump id := wellFormed.grounded.fold_tree
    (fun label ty items => (label.rendering arena.functionName ty).render items) id
  hash _ id := wellFormed.grounded.fold_tree _ id
  isEqual := wellFormed.grounded.isEqual_tree

end Arena

namespace Session

variable {s t : Session}

/-- Every expression of a parsed source can be unfolded. -/
theorem grounded_parse (source : String) : (parse source).analysis.arena.Grounded :=
  (((run_parse source).kept (kept_ofSource source)).wellFormed
    ((course_parse source).linked (linked_ofSource source))).arena.grounded

/-- At every point of a parse the arena is well-formed and everything in it can be read to its end.
Whatever is done from there on, types and expressions keep their contents, but a definition may get
other names for as many parameters, more returns, and once a body. -/
theorem wellFormed_of_course (source : String) :
    (ofSource source).Course (ScalarLang.parse source) ∧
    ∀ s, (ofSource source).Course s →
      s.WellFormed ∧ s.analysis.arena.Terminates ∧
      (∀ t, s.Course t → s.analysis.arena.Extends t.analysis.arena) ∧
      ∀ (levels : Nat) {α : Type} {parse : Parse α},
        (Grammar.ofLevels levels).Production s parse → s.Course (parse.attempt s).2 := by
  refine ⟨course_parse source, fun s course => ?_⟩
  have kept : s.Kept := course.run.kept (kept_ofSource source)
  have wellFormed := kept.wellFormed (course.linked (linked_ofSource source))
  refine ⟨wellFormed, wellFormed.arena.terminates kept.analysis.written,
    fun t course => course.extends, fun levels α parse production => ?_⟩
  exact kept.course_production production

set_option maxRecDepth 100000 in
/-- A function that calls itself and completes its prototype, with another name for its parameter. -/
example : (ScalarLang.parse
    "fn f(a: i64) -> i64; fn f(b: i64) -> i64 \x7b return f(b); \x7d").analysis.arena.dump ⟨0⟩ =
      "(fn f (b) (scope (return (call f b@0))))" := by decide +kernel

end Session

end ScalarLang
