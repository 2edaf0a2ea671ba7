import Mathlib.Data.Multiset.AddSub
import Mathlib.Data.Multiset.MapFold
import ScalarLang.Proofs.Analysis.Growth
import ScalarLang.Proofs.Literals.Magnitude

/-! The literals that expressions carry. Each literal is carried once, and what they are worth is
what their magnitudes are together. -/

namespace ScalarLang

namespace TypeTable

def Exact (table : TypeTable) : Prop :=
  ∀ id entry, table.get? id = some entry → ∀ scalar isConst,
    entry.shape = .scalar scalar isConst ∨ entry.form = .scalar scalar isConst →
      scalar.isFloating = false

variable {table : TypeTable} {id : TypeId} {scalar : Scalar} {isConst : Bool}

theorem Exact.form (exact : table.Exact) (form : table.form id = .scalar scalar isConst) :
    scalar.isFloating = false := by
  unfold TypeTable.form at form
  cases found : table.get? id with
  | none => simp [found] at form
  | some entry => exact exact id entry found scalar isConst (.inr (by simpa [found] using form))

theorem Exact.shape (exact : table.Exact) (shape : table.shape id = .scalar scalar isConst) :
    scalar.isFloating = false := by
  unfold TypeTable.shape at shape
  cases found : table.get? id with
  | none => simp [found] at shape
  | some entry => exact exact id entry found scalar isConst (.inl (by simpa [found] using shape))

theorem Exact.add (exact : table.Exact) {shape : TypeShape}
    (whole : ∀ scalar isConst, shape = .scalar scalar isConst → scalar.isFloating = false) :
    (table.add shape).2.Exact := by
  intro id entry found scalar isConst isScalar
  rw [get?_add] at found
  split at found
  · cases found
    refine whole scalar isConst ?_
    rcases isScalar with same | written
    · exact same
    · cases shape with
      | scalar => simpa [TypeShape.writeOut] using written
      | _ => cases written
  · exact exact id entry found scalar isConst isScalar

theorem Exact.withConst (exact : table.Exact) (id : TypeId) (isConst : Bool) :
    (table.withConst id isConst).2.Exact := by
  unfold TypeTable.withConst
  cases marked : remark? (table.shape id) isConst with
  | none => exact exact
  | some shape =>
    refine exact.add fun scalar isConst same => ?_
    subst same
    cases before : table.shape id with
    | scalar scalar wasConst =>
      rw [before, remark?] at marked
      split at marked
      · cases marked
      · cases marked
        exact exact.shape before
    | pointer wasConst pointee =>
      rw [before, remark?] at marked
      split at marked <;> cases marked
    | _ =>
      rw [before] at marked
      cases marked

end TypeTable

/-- Whatever has children, or a name, and keeps the values of its children: no error, literal,
conversion or definition. -/
def ExprKind.isInner {Child : Type} : ExprKind Child → Bool
  | error | literal _ | convert _ | fnDef _ _ _ _ => false
  | _ => true

theorem ExprKind.isInner_literal {Child : Type} {kind : ExprKind Child}
    (literal : kind.isLiteral = true) : kind.isInner = false := by
  cases kind with
  | literal => rfl
  | _ => cases literal

namespace Arena

def magnitude (arena : Arena) (id : ExprId) : Nat :=
  match arena.kind id, (arena.formOf id).scalar? with
  | .literal payload, some scalar => Literal.magnitude payload scalar
  | _, _ => 0

def IsLiteral (arena : Arena) (id : ExprId) : Prop :=
  ∃ payload scalar isConst, arena.kind id = .literal payload ∧
    arena.formOf id = .scalar scalar isConst

/-- What stands for an expression when its literals are counted: for a definition its body. -/
def root (arena : Arena) (id : ExprId) : List ExprId :=
  if (arena.kind id).isDefinition then (arena.kind id).children else [id]

/-- The literals below expressions, in the order of the source. No conversions and no errors are
among them. -/
inductive Carries (arena : Arena) : List ExprId → List ExprId → Prop
  | done : Carries arena [] []
  | literal {id rest others} (isLiteral : arena.IsLiteral id) (next : Carries arena rest others) :
      Carries arena (id :: rest) (id :: others)
  | inner {id rest inside others} (isInner : (arena.kind id).isInner = true)
      (children : Carries arena (arena.kind id).children inside)
      (next : Carries arena rest others) : Carries arena (id :: rest) (inside ++ others)

variable {arena before after : Arena} {id : ExprId} {ids more literals others : List ExprId}

theorem magnitude_of_literal {payload : Payload} {scalar : Scalar} {isConst : Bool}
    (kind : arena.kind id = .literal payload) (form : arena.formOf id = .scalar scalar isConst) :
    arena.magnitude id = Literal.magnitude payload scalar := by
  unfold magnitude
  rw [kind, form]
  rfl

theorem IsLiteral.grow (isLiteral : before.IsLiteral id) (grows : before.Grows after) :
    after.IsLiteral id ∧ after.magnitude id = before.magnitude id := by
  obtain ⟨payload, scalar, isConst, kind, form⟩ := isLiteral
  have known : before.kind id ≠ .error := by
    rw [kind]
    nofun
  have kindOn : after.kind id = .literal payload :=
    (grows.kind known (by rw [kind]; rfl)).trans kind
  have formOn : after.formOf id = .scalar scalar isConst :=
    (grows.formOf known (by rw [form]; nofun)).trans form
  refine ⟨⟨payload, scalar, isConst, kindOn, formOn⟩, ?_⟩
  rw [magnitude_of_literal kindOn formOn, magnitude_of_literal kind form]

theorem kind_of_inner (isInner : (arena.kind id).isInner = true) :
    arena.kind id ≠ .error ∧ (arena.kind id).isDefinition = false := by
  generalize arena.kind id = kind at isInner
  cases kind with
  | error | literal | convert | fnDef => cases isInner
  | _ => exact ⟨nofun, rfl⟩

namespace Carries

theorem isLiteral (carries : arena.Carries ids literals) : ∀ id ∈ literals, arena.IsLiteral id := by
  induction carries with
  | done => nofun
  | literal isLiteral _ ih =>
    intro id member
    rcases List.mem_cons.mp member with rfl | member
    · exact isLiteral
    · exact ih id member
  | inner _ _ _ inside others =>
    intro id member
    rcases List.mem_append.mp member with member | member
    · exact inside id member
    · exact others id member

theorem grow (carries : before.Carries ids literals) (grows : before.Grows after) :
    after.Carries ids literals := by
  induction carries with
  | done => exact .done
  | literal isLiteral _ ih => exact .literal (isLiteral.grow grows).1 ih
  | inner isInner _ _ inside others =>
    obtain ⟨known, plain⟩ := kind_of_inner isInner
    have kind := grows.kind known plain
    refine .inner ?_ ?_ others
    · rwa [kind]
    · rwa [kind]

theorem worth_grow (carries : before.Carries ids literals) (grows : before.Grows after) :
    literals.map after.magnitude = literals.map before.magnitude :=
  List.map_congr_left fun id member => ((carries.isLiteral id member).grow grows).2

theorem append (first : arena.Carries ids literals) (rest : arena.Carries more others) :
    arena.Carries (ids ++ more) (literals ++ others) := by
  induction first with
  | done => exact rest
  | literal isLiteral _ ih => exact .literal isLiteral ih
  | inner isInner children _ _ ih =>
    rw [List.append_assoc]
    exact .inner isInner children ih

theorem split (carries : arena.Carries (ids ++ more) literals) :
    ∃ front back, arena.Carries ids front ∧ arena.Carries more back ∧ literals = front ++ back := by
  induction ids generalizing literals with
  | nil => exact ⟨[], literals, .done, carries, rfl⟩
  | cons id ids ih =>
    cases carries with
    | literal isLiteral next =>
      obtain ⟨front, back, first, rest, rfl⟩ := ih next
      exact ⟨id :: front, back, .literal isLiteral first, rest, rfl⟩
    | @inner _ _ inside _ isInner children next =>
      obtain ⟨front, back, first, rest, rfl⟩ := ih next
      exact ⟨inside ++ front, back, .inner isInner children first, rest,
        (List.append_assoc _ _ _).symm⟩

theorem perm (carries : arena.Carries ids literals) (reordered : ids.Perm more) :
    ∃ others, arena.Carries more others ∧ literals.Perm others := by
  induction reordered generalizing literals with
  | nil => exact ⟨literals, carries, .refl _⟩
  | cons id _ ih =>
    cases carries with
    | literal isLiteral next =>
      obtain ⟨others, carried, same⟩ := ih next
      exact ⟨id :: others, .literal isLiteral carried, same.cons id⟩
    | inner isInner children next =>
      obtain ⟨others, carried, same⟩ := ih next
      exact ⟨_ ++ others, .inner isInner children carried, same.append_left _⟩
  | swap one other rest =>
    obtain ⟨first, _, carriedFirst, carriedRest, rfl⟩ :=
      split (show arena.Carries ([other] ++ ([one] ++ rest)) literals from carries)
    obtain ⟨second, last, carriedSecond, carriedLast, rfl⟩ := split carriedRest
    refine ⟨second ++ (first ++ last), carriedSecond.append (carriedFirst.append carriedLast), ?_⟩
    rw [← List.append_assoc, ← List.append_assoc]
    exact List.perm_append_comm.append_right last
  | trans _ _ ih ihOn =>
    obtain ⟨middle, carried, same⟩ := ih carries
    obtain ⟨others, carried, sameOn⟩ := ihOn carried
    exact ⟨others, carried, same.trans sameOn⟩

/-- The literals that one of the expressions carries are among those of all. -/
theorem each (carries : arena.Carries ids literals) (member : id ∈ ids) :
    ∃ inside, arena.Carries [id] inside ∧ inside ⊆ literals := by
  obtain ⟨front, back, rfl⟩ := List.append_of_mem member
  obtain ⟨before, _, -, rest, rfl⟩ := carries.split
  obtain ⟨inside, after, one, -, rfl⟩ :=
    split (show arena.Carries ([id] ++ back) _ from rest)
  exact ⟨inside, one, fun found member => by simp [member]⟩

theorem children (carries : arena.Carries [id] literals) :
    arena.IsLiteral id ∧ literals = [id] ∨
      (arena.kind id).isInner = true ∧ arena.Carries (arena.kind id).children literals := by
  cases carries with
  | literal isLiteral next =>
    cases next
    exact .inl ⟨isLiteral, rfl⟩
  | inner isInner children next =>
    cases next
    rw [List.append_nil]
    exact .inr ⟨isInner, children⟩

end Carries

theorem IsLiteral.index_lt (isLiteral : arena.IsLiteral id) : id.index < arena.nodes.size := by
  obtain ⟨_, _, _, kind, _⟩ := isLiteral
  have found := node?_of_kind (show arena.kind id ≠ .error by rw [kind]; nofun)
  exact (Array.getElem?_eq_some_iff.mp found).1

/-- The expressions carry different literals, and that is what they are worth. No type is
floating. -/
structure Holds (arena : Arena) (ids : List ExprId) (worth : Multiset Nat) : Prop where
  exact : arena.types.Exact
  carried : ∃ literals, arena.Carries ids literals ∧ literals.Nodup ∧
    (literals.map arena.magnitude : Multiset Nat) = worth

namespace Holds

variable {rest : List ExprId} {worth : Multiset Nat} {kind : ExprKind ExprId} {ty : TypeId}
  {span : Span} {payload : Payload} {scalar : Scalar} {isConst : Bool}

theorem nil (exact : arena.types.Exact) : arena.Holds [] 0 :=
  ⟨exact, [], .done, List.nodup_nil, rfl⟩

theorem grow (holds : before.Holds ids worth) (grows : before.Grows after)
    (exact : after.types.Exact) : after.Holds ids worth := by
  obtain ⟨-, literals, carries, distinct, rfl⟩ := holds
  refine ⟨exact, literals, carries.grow grows, distinct, ?_⟩
  rw [carries.worth_grow grows]

theorem perm (holds : arena.Holds ids worth) (reordered : ids.Perm more) :
    arena.Holds more worth := by
  obtain ⟨exact, literals, carries, distinct, rfl⟩ := holds
  obtain ⟨others, carried, same⟩ := carries.perm reordered
  refine ⟨exact, others, carried, same.nodup_iff.mp distinct, ?_⟩
  exact (Multiset.coe_eq_coe.mpr (same.map _)).symm

/-- An expression without children carries nothing. -/
theorem drop (holds : arena.Holds (id :: rest) worth) (isInner : (arena.kind id).isInner = true)
    (leaf : (arena.kind id).children = []) : arena.Holds rest worth := by
  obtain ⟨exact, literals, carries, distinct, rfl⟩ := holds
  refine ⟨exact, literals, ?_, distinct, rfl⟩
  cases carries with
  | literal isLiteral next =>
    obtain ⟨payload, _, _, kind, _⟩ := isLiteral
    rw [kind] at isInner
    cases isInner
  | inner _ children next =>
    rw [leaf] at children
    cases children
    exact next

/-- A literal is worth its magnitude. -/
theorem takeLiteral (holds : arena.Holds (id :: rest) worth)
    (literal : (arena.kind id).isLiteral = true) :
    ∃ others, arena.Holds rest others ∧ worth = arena.magnitude id ::ₘ others := by
  obtain ⟨exact, literals, carries, distinct, rfl⟩ := holds
  cases carries with
  | literal isLiteral next =>
    obtain ⟨-, distinct⟩ := List.nodup_cons.mp distinct
    exact ⟨_, ⟨exact, _, next, distinct, rfl⟩, rfl⟩
  | inner isInner =>
    rw [ExprKind.isInner_literal literal] at isInner
    cases isInner

/-- What is added in the place of its children is worth the same. -/
theorem addNode (holds : arena.Holds (kind.children ++ rest) worth)
    (isInner : kind.isInner = true) :
    (arena.addNode ⟨kind, ty, span⟩).2.Holds
      ((arena.addNode ⟨kind, ty, span⟩).1 :: rest) worth := by
  have grown := holds.grow (addNode_grows arena ⟨kind, ty, span⟩) holds.exact
  have added :
      (arena.addNode ⟨kind, ty, span⟩).2.kind (arena.addNode ⟨kind, ty, span⟩).1 = kind := by
    rw [Arena.kind, node_added]
  obtain ⟨exact, literals, carries, distinct, same⟩ := grown
  obtain ⟨inside, others, children, next, rfl⟩ := carries.split
  refine ⟨exact, inside ++ others, .inner ?_ ?_ next, distinct, same⟩
  · rwa [added]
  · rwa [added]

theorem added_literal (payload : Payload) (span : Span)
    (form : arena.types.form ty = .scalar scalar isConst) :
    (arena.addNode ⟨.literal payload, ty, span⟩).2.IsLiteral
        (arena.addNode ⟨.literal payload, ty, span⟩).1 ∧
      (arena.addNode ⟨.literal payload, ty, span⟩).2.magnitude
        (arena.addNode ⟨.literal payload, ty, span⟩).1 = Literal.magnitude payload scalar := by
  have kind : (arena.addNode ⟨.literal payload, ty, span⟩).2.kind
      (arena.addNode ⟨.literal payload, ty, span⟩).1 = .literal payload := by
    rw [Arena.kind, node_added]
  have formOf : (arena.addNode ⟨.literal payload, ty, span⟩).2.formOf
      (arena.addNode ⟨.literal payload, ty, span⟩).1 = .scalar scalar isConst := by
    rw [Arena.formOf, Arena.typeOf, node_added]
    exact form
  exact ⟨⟨payload, scalar, isConst, kind, formOf⟩, magnitude_of_literal kind formOf⟩

/-- A literal that is added is none of those before. -/
theorem addLiteral (holds : arena.Holds rest worth)
    (form : arena.types.form ty = .scalar scalar isConst) :
    (arena.addNode ⟨.literal payload, ty, span⟩).2.Holds
      ((arena.addNode ⟨.literal payload, ty, span⟩).1 :: rest)
      (Literal.magnitude payload scalar ::ₘ worth) := by
  obtain ⟨isLiteral, magnitude⟩ := added_literal payload span form
  obtain ⟨exact, literals, carries, distinct, rfl⟩ := holds
  have grows := addNode_grows arena ⟨.literal payload, ty, span⟩
  refine ⟨exact, _, .literal isLiteral (carries.grow grows), List.nodup_cons.mpr ⟨?_, distinct⟩, ?_⟩
  · intro member
    exact Nat.lt_irrefl _ (carries.isLiteral _ member).index_lt
  · rw [List.map_cons, magnitude, carries.worth_grow grows, ← Multiset.cons_coe]

/-- A literal gives way to another of the same magnitude. -/
theorem retype (holds : arena.Holds (id :: rest) worth) (literal : (arena.kind id).isLiteral = true)
    (form : arena.types.form ty = .scalar scalar isConst)
    (same : Literal.magnitude payload scalar = arena.magnitude id) :
    (arena.addNode ⟨.literal payload, ty, span⟩).2.Holds
      ((arena.addNode ⟨.literal payload, ty, span⟩).1 :: rest) worth := by
  obtain ⟨others, left, rfl⟩ := holds.takeLiteral literal
  rw [← same]
  exact left.addLiteral form

end Holds

/-- Whatever else is held, the ones are worth in the one arena what the others are in the other. -/
def Keeps (before : Arena) (ids : List ExprId) (after : Arena) (more : List ExprId) : Prop :=
  ∀ rest worth, before.Holds (ids ++ rest) worth → after.Holds (more ++ rest) worth

namespace Keeps

variable {a b c : Arena} {xs ys zs ws : List ExprId} {x y : ExprId}

theorem refl (a : Arena) (xs : List ExprId) : a.Keeps xs a xs := fun _ _ holds => holds

theorem trans (first : a.Keeps xs b ys) (next : b.Keeps ys c zs) : a.Keeps xs c zs :=
  fun rest worth holds => next rest worth (first rest worth holds)

theorem append (first : a.Keeps xs b ys) (next : b.Keeps zs c ws) :
    a.Keeps (xs ++ zs) c (ys ++ ws) := by
  intro rest worth holds
  rw [List.append_assoc] at holds ⊢
  have moved := (first (zs ++ rest) worth holds).perm (List.perm_append_comm_assoc ys zs rest)
  have kept := next (ys ++ rest) worth moved
  exact kept.perm (List.perm_append_comm_assoc ws ys rest)

/-- Where all else is kept, so is any expression. -/
theorem idle (first : a.Keeps [] b []) (next : b.Keeps xs c ys) : a.Keeps xs c ys :=
  first.append next

theorem cons (first : a.Keeps [x] b [y]) (next : b.Keeps xs c ys) : a.Keeps (x :: xs) c (y :: ys) :=
  first.append next

theorem ofGrows (grows : a.Grows b) (exact : a.types.Exact → b.types.Exact) : a.Keeps [] b [] :=
  fun _ _ holds => holds.grow grows (exact holds.exact)

end Keeps

end Arena

end ScalarLang
