import ScalarLang.Expr.Hash
import ScalarLang.Proofs.Expr.Outline
import ScalarLang.Proofs.Reach.Trees

/-! Two expressions are equal if the same is written, and no definition, scope or call in it. What is
computed from the kinds alone does not tell them apart then, so equal expressions have equal hashes. -/

namespace ScalarLang

/-- Lists of trees are compared tree by tree. -/
theorem Tree.areEqual_map_iff {tree : ExprId → Tree} {outline : ExprId → Outline}
    {ids others : List ExprId}
    (each : ∀ id ∈ ids, ∀ other, (tree id).isEqual (tree other) = true ↔
      outline id = outline other ∧ (outline id).Comparable) :
    areEqual (ids.map tree) (others.map tree) = true ↔
      ids.map outline = others.map outline ∧ ∀ id ∈ ids, (outline id).Comparable := by
  induction ids generalizing others with
  | nil => cases others <;> simp [areEqual]
  | cons id ids ih =>
    cases others with
    | nil => simp [areEqual]
    | cons other others =>
      have first := each id List.mem_cons_self other
      have rest := @ih others fun id member => each id (List.mem_cons_of_mem _ member)
      simp only [List.map_cons, areEqual, Bool.and_eq_true, first, rest, List.cons.injEq,
        List.forall_mem_cons]
      tauto

/-- Where equal keys have equal values, equal lists of keys have equal lists of values. -/
theorem map_eq_map_of_keys {α β γ : Type} {key : α → β} {value : α → γ} {xs ys : List α}
    (keys : xs.map key = ys.map key)
    (determined : ∀ x ∈ xs, ∀ y, key x = key y → value x = value y) :
    xs.map value = ys.map value := by
  induction xs generalizing ys with
  | nil =>
    cases ys with
    | nil => rfl
    | cons y ys => simp at keys
  | cons x xs ih =>
    cases ys with
    | nil => simp at keys
    | cons y ys =>
      obtain ⟨first, rest⟩ := List.cons.inj keys
      rw [List.map_cons, List.map_cons, determined x List.mem_cons_self y first,
        ih rest fun x member => determined x (List.mem_cons_of_mem _ member)]

namespace Arena

variable {arena : Arena} {id other : ExprId}

namespace Grounded

/-- Equality of trees is equality of what is written, where nothing in it equals nothing. -/
theorem isEqual_tree_iff (grounded : arena.Grounded) (id other : ExprId) :
    (arena.tree id).isEqual (arena.tree other) = true ↔
      grounded.outline id = grounded.outline other ∧ (grounded.outline id).Comparable := by
  induction id using WellFounded.induction grounded generalizing other with
  | h id ih =>
    rw [grounded.isEqual_tree, grounded.outline_eq id, grounded.outline_eq other,
      Outline.comparable_node, Outline.node.injEq, ExprKind.map_eq_map]
    simp only [Bool.and_eq_true, Tree.areEqual_map_iff ih, decide_eq_true_eq,
      ExprKind.children_map, ExprKind.isComparable_map, ExprKind.isComparable_label,
      List.forall_mem_map]
    tauto

/-- Whatever is computed of a tree without a look at the types is computed of what is written. -/
theorem fold_eq_of_outline_eq {α : Type} (grounded : arena.Grounded)
    (f : ExprKind Unit → List α → α) (same : grounded.outline id = grounded.outline other) :
    ((arena.tree id).fold fun label _ => f label) =
      (arena.tree other).fold fun label _ => f label := by
  induction id using WellFounded.induction grounded generalizing other with
  | h id ih =>
    rw [grounded.outline_eq id, grounded.outline_eq other, Outline.node.injEq,
      ExprKind.map_eq_map] at same
    rw [grounded.fold_tree, grounded.fold_tree, same.1,
      map_eq_map_of_keys same.2 fun child member other same => ih child member same]

/-- Two expressions are equal just when the same is written for both, without a definition, a scope
or a call at any depth. So equality is symmetric and transitive, and reflexive without those. -/
theorem isEqual_iff_outline (grounded : arena.Grounded) :
    (∀ a b, (arena.tree a).isEqual (arena.tree b) = true ↔
      grounded.outline a = grounded.outline b ∧ (grounded.outline a).Comparable) ∧
    (∀ a b, (arena.tree a).isEqual (arena.tree b) = (arena.tree b).isEqual (arena.tree a)) ∧
    (∀ a b c, (arena.tree a).isEqual (arena.tree b) = true →
      (arena.tree b).isEqual (arena.tree c) = true →
      (arena.tree a).isEqual (arena.tree c) = true) ∧
    ∀ a, (arena.tree a).isEqual (arena.tree a) = true ↔ (grounded.outline a).Comparable := by
  refine ⟨grounded.isEqual_tree_iff, fun a b => ?symm, fun a b c => ?trans, fun a => ?refl⟩
  case symm =>
    rw [Bool.eq_iff_iff, grounded.isEqual_tree_iff, grounded.isEqual_tree_iff]
    constructor
    · rintro ⟨same, comparable⟩
      exact ⟨same.symm, same ▸ comparable⟩
    · rintro ⟨same, comparable⟩
      exact ⟨same.symm, same ▸ comparable⟩
  case trans =>
    simp only [grounded.isEqual_tree_iff]
    rintro ⟨first, comparable⟩ ⟨second, -⟩
    exact ⟨first.trans second, comparable⟩
  case refl => simp only [grounded.isEqual_tree_iff, true_and]

set_option maxRecDepth 100000 in
/-- Two sums over variables of different types read the same. The return of a call equals nothing. -/
theorem isEqual_iff_outline_sums :
    let arena := (parse
      "fn f(a: i64) \x7b a + 1; \x7d fn g(a: u8) -> u8 \x7b a + 1; return g(a); \x7d").analysis.arena
    ∃ grounded : arena.Grounded,
      (arena.formOf ⟨3⟩).name = "i64" ∧ (arena.formOf ⟨9⟩).name = "u8" ∧
      grounded.outline ⟨3⟩ = grounded.outline ⟨9⟩ ∧ (grounded.outline ⟨3⟩).Comparable ∧
      ¬(grounded.outline ⟨12⟩).Comparable := by
  refine ⟨Session.grounded_parse _, by decide +kernel, by decide +kernel,
    and_assoc.mp ⟨((isEqual_iff_outline _).1 _ _).mp (by decide +kernel), fun comparable => ?_⟩⟩
  exact absurd (((isEqual_iff_outline _).2.2.2 _).mpr comparable) (by decide +kernel)

/-- A hash is mixed from the kind and the hashes of the children, for any hash of the leaves, and
equal expressions have equal hashes. -/
theorem hash_eq_of_isEqual (grounded : arena.Grounded) (leaf : LeafHash) :
    (∀ id, (arena.tree id).hash leaf =
      if (arena.kind id).isComparable then
        ((arena.kind id).label.leafHashes leaf ++
          (arena.kind id).children.map (fun child => (arena.tree child).hash leaf) ++
          (arena.kind id).label.missingHashes).foldl hashCombine (arena.kind id).label.tag
      else 0) ∧
    ∀ a b, (arena.tree a).isEqual (arena.tree b) = true →
      (arena.tree a).hash leaf = (arena.tree b).hash leaf := by
  refine ⟨fun id => ?_, fun a b equal => ?_⟩
  · rw [Tree.hash, grounded.fold_tree, ExprKind.isComparable_label]
  · obtain ⟨same, -⟩ := (grounded.isEqual_tree_iff a b).mp equal
    exact grounded.fold_eq_of_outline_eq _ same

set_option maxRecDepth 100000 in
/-- Two sums over variables of different types hash alike. -/
theorem hash_eq_of_isEqual_sums :
    let arena := (parse
      "fn f(a: i64) \x7b a + 1; \x7d fn g(a: u8) -> u8 \x7b a + 1; return g(a); \x7d").analysis.arena
    (arena.tree ⟨3⟩).hash .mixing = (arena.tree ⟨9⟩).hash .mixing :=
  (hash_eq_of_isEqual (Session.grounded_parse _) .mixing).2 ⟨3⟩ ⟨9⟩ (by decide +kernel)

end Grounded

end Arena

end ScalarLang
