import ScalarLang.Proofs.Analysis.Regular
import ScalarLang.Proofs.Analysis.Valid

/-! Conversions of checked expressions give checked expressions of the type that was asked for. -/

namespace ScalarLang

namespace Check

variable {a : Analysis} {α : Type}

theorem addType_sound (shape : TypeShape) :
    (addType shape).Yields .expression .meaning a fun ty b =>
      a.Sound → shape ≠ .error → (∀ part ∈ shape.parts, a.arena.types.form part ≠ .error) →
        b.Sound ∧ b.arena.types.form ty = shape.writeOut a.arena.types.form := by
  have changes : a.Changes .expression (addType shape a).2 := .single (.addType shape)
  refine ⟨changes, fun _ sound right parts => ?_⟩
  exact ⟨sound.keep changes.grown (sound.types.add right parts), TypeTable.form_added _ _⟩

theorem withConst_sound (ty : TypeId) (isConst : Bool) :
    (Check.withConst ty isConst).Yields .expression .meaning a fun marked b =>
      a.Sound → a.arena.types.form ty ≠ .error →
        b.Sound ∧ b.arena.types.form marked = (a.arena.types.form ty).withConst isConst := by
  have changes : a.Changes .expression (Check.withConst ty isConst a).2 :=
    RegularOf.withConst ty isConst a
  refine ⟨changes, fun _ sound known => ?_⟩
  obtain ⟨types, form⟩ := sound.types.withConst known isConst
  exact ⟨sound.keep changes.grown types, form⟩

theorem warning_sound (remark : Remark) (span : Span) :
    (warning remark span).Yields .expression .meaning a fun _ b => a.Sound → b.Sound := by
  have changes : a.Changes .expression (warning remark span a).2 := .single (.warning remark span)
  exact ⟨changes, fun _ sound => sound.keep changes.grown sound.types⟩

/-- A refused construct is a mistake. -/
theorem refuse_mistaken (problem : SemanticProblem) (span : Span) {post : ExprId → Analysis → Prop} :
    (refuse problem span).Yields .expression .meaning a post :=
  .bind (.error problem span) fun _ _ _ =>
    .mono (.run (.errorExpr span)) fun _ _ _ impossible => impossible.elim

end Check

namespace Analysis

variable {a : Analysis}

/-- An expression of a kind and a type can be added: its children are checked, and it satisfies
the rules. -/
structure Fits (a : Analysis) (kind : ExprKind ExprId) (ty : TypeId) (span : Span) : Prop where
  known : a.arena.types.form ty ≠ .error
  children : ∀ child ∈ kind.children, a.Valid child
  typed : a.program.TypedAs a.currentFn (a.arena.types.form ty) kind
  named : a.program.ScopedAs Eq a.frame a.frame (a.arena.types.form ty) span.start kind

structure Has (a : Analysis) (id : ExprId) (ty : Ty) : Prop where
  sound : a.Sound
  valid : a.Valid id
  form : a.arena.formOf id = ty

end Analysis

namespace ExprKind

/-- Expressions that declare nothing and start no scope. -/
def isOperand : ExprKind ExprId → Bool
  | varDecl _ _ _ | scope _ | fnDef _ _ _ _ => false
  | _ => true

theorem isOperand_plain {kind : ExprKind ExprId} (operand : kind.isOperand = true) :
    kind.isDefinition = false := by
  cases kind with
  | fnDef => cases operand
  | _ => rfl

theorem isOperand_after {kind : ExprKind ExprId} (operand : kind.isOperand = true)
    (frame inside : Frame) (ty : Ty) : frame.after inside ty kind = inside := by
  cases kind with
  | varDecl | scope | fnDef => cases operand
  | _ => rfl

end ExprKind

namespace Check

variable {a : Analysis}

/-- An expression that satisfies the rules in a frame is checked there. -/
theorem addNode_checks {kind : ExprKind ExprId} (plain : kind.isDefinition = false) (ty : TypeId)
    (span : Span) (frame inside : Frame) :
    (addNode kind ty span).Yields .expression .meaning a fun id b =>
      a.Sound → a.arena.types.form ty ≠ .error →
        a.program.Checks frame kind.children inside →
        a.program.TypedAs frame.function (a.arena.types.form ty) kind →
        a.program.ScopedAs Eq frame inside (a.arena.types.form ty) span.start kind →
        b.Sound ∧ b.program.Checks frame [id] (frame.after inside (a.arena.types.form ty) kind) ∧
          b.arena.node id = ⟨kind, ty, span⟩ ∧ b.arena.types = a.arena.types := by
  have changes : a.Changes .expression (addNode kind ty span a).2 := .single (Analysis.Change.addNode kind ty span)
  have added : NodeAdded a ⟨kind, ty, span⟩ (addNode kind ty span a).1
      (addNode kind ty span a).2 := ⟨Arena.node_added _ _, rfl⟩
  refine ⟨changes, fun _ sound known children typed named => ?_⟩
  refine ⟨sound.keep changes.grown (by rw [added.types]; exact sound.types), ?_, added.node,
    added.types⟩
  exact Program.Checks.add added changes.grown.program known plain children typed named

theorem addNode_has {kind : ExprKind ExprId} (operand : kind.isOperand = true) (ty : TypeId)
    (span : Span) :
    (addNode kind ty span).Yields .expression .meaning a fun id b =>
      a.Sound → a.Fits kind ty span → b.Has id (a.arena.types.form ty) := by
  have plain := ExprKind.isOperand_plain operand
  have changes : a.Changes .expression (addNode kind ty span a).2 := .single (Analysis.Change.addNode kind ty span)
  refine ⟨changes, fun clean sound fits => ?_⟩
  obtain ⟨kept, walk, node, types⟩ := (addNode_checks plain ty span _ _).2 clean sound fits.known
    (.all fits.children) fits.typed fits.named
  rw [ExprKind.isOperand_after operand] at walk
  refine ⟨kept, ?_, ?_⟩
  · unfold Analysis.Valid
    rwa [sound.frame_eq changes.grown]
  · rw [Arena.formOf, Arena.typeOf, node, types]

theorem literal_fits (payload : Payload) {ty : TypeId} (known : a.arena.types.form ty ≠ .error)
    (span : Span) : a.Fits (.literal payload) ty span :=
  ⟨known, nofun, True.intro, True.intro⟩

/-- A literal that takes another type takes it exactly; anything else is left as it is. -/
theorem retypeLiteral_has (id : ExprId) (target : TypeId) (reportsLoss : Bool) :
    (retypeLiteral id target reportsLoss).Yields .expression .meaning a fun retyped b =>
      a.Sound → a.Valid id → a.arena.types.form target ≠ .error →
        (retyped = none → b.Has id (a.arena.formOf id)) ∧
        ∀ new, retyped = some new → b.Has new (a.arena.types.form target) := by
  refine .look ?_
  dsimp only
  split
  · rename_i payload source scalar _ _ _
    have added (b : Analysis) : Yields .expression .meaning (do
        return some (← addNode (.literal (Literal.convert payload source scalar)) target
          (a.arena.spanOf id)) : Check (Option ExprId)) b fun retyped c =>
        b.Sound → b.arena.types.form target ≠ .error →
          ∃ new, retyped = some new ∧ c.Has new (b.arena.types.form target) :=
      .bind (addNode_has rfl _ _) fun new c _ => .pure fun built sound known =>
        ⟨new, rfl, built sound (literal_fits _ known _)⟩
    split
    · refine .bind (warning_sound _ _) fun _ b changes => .mono (added b) ?_
      intro retyped c built warned sound _ known
      have same := changes.grows.types.form known
      obtain ⟨new, rfl, has⟩ := built (warned sound) (by rwa [same])
      exact ⟨nofun, fun _ found => by cases found; rwa [← same]⟩
    · refine .mono (added a) ?_
      intro retyped c built sound _ known
      obtain ⟨new, rfl, has⟩ := built sound known
      exact ⟨nofun, fun _ found => by cases found; exact has⟩
  · refine .pure ?_
    exact fun sound valid _ => ⟨fun _ => ⟨sound, valid, rfl⟩, nofun⟩

theorem convert_fits {id : ExprId} {target : TypeId} (valid : a.Valid id)
    (known : a.arena.types.form target ≠ .error)
    (convertible : (a.arena.formOf id).isConvertible (a.arena.types.form target) = true)
    (differs : (a.arena.formOf id).isEqual (a.arena.types.form target) = false) (span : Span) :
    a.Fits (.convert id) target span := by
  refine ⟨known, ?_, ⟨convertible, differs⟩, True.intro⟩
  intro child member
  cases List.mem_singleton.mp member
  exact valid

/-- Where a value of a type is required, one is given. -/
theorem convertTo_has (id : ExprId) (target : TypeId) :
    (convertTo id target).Yields .expression .meaning a fun new b =>
      a.Sound → a.Valid id → a.arena.types.form target ≠ .error →
        ∃ ty, b.Has new ty ∧ ty.isEqual (a.arena.types.form target) = true := by
  refine .look ?_
  dsimp only
  split
  · rename_i same
    refine .pure fun sound valid _ => ⟨_, ⟨sound, valid, rfl⟩, ?_⟩
    rwa [valid.known, Bool.false_or] at same
  · rename_i other
    split
    · exact refuse_mistaken _ _
    · rename_i convertible
      refine .bind (retypeLiteral_has id target true) fun retyped b changes => ?_
      cases retyped with
      | some literal =>
        exact .pure fun retyped sound valid known =>
          ⟨_, (retyped sound valid known).2 literal rfl, Ty.isEqual_refl _⟩
      | none =>
        refine .bind (warning_sound _ _) fun _ c changesOn => .mono (addNode_has rfl _ _) ?_
        intro new d built warned retyped sound valid known
        obtain ⟨soundB, validB, formB⟩ := (retyped sound valid known).1 rfl
        have soundC := warned soundB
        have validC := validB.keep soundB changesOn.grown
        have through : a.Changes .expression c := changes.trans changesOn
        have target := through.grows.types.form known
        have form := (validB.formOf_keep changesOn.grown).trans formB
        rw [Bool.not_eq_true', Bool.not_eq_false] at convertible
        rw [valid.known, Bool.false_or, Bool.not_eq_true] at other
        have has := built soundC (convert_fits validC (by rwa [target]) (by rwa [form, target])
          (by rwa [form, target]) _)
        rw [target] at has
        exact ⟨_, has, Ty.isEqual_refl _⟩

/-- What `as` gives is checked. -/
theorem castTo_valid (id : ExprId) (target : TypeId) (span : Span) :
    (castTo id target span).Yields .expression .meaning a fun new b =>
      a.Sound → a.Valid id → a.arena.types.form target ≠ .error → b.Sound ∧ b.Valid new := by
  refine .look ?_
  dsimp only
  split
  · exact .pure fun sound valid _ => ⟨sound, valid⟩
  · split
    · refine .bind (warning_sound _ _) fun _ b changes => .pure fun warned sound valid _ => ?_
      exact ⟨warned sound, valid.keep sound changes.grown⟩
    · rename_i other
      split
      · exact refuse_mistaken _ _
      · rename_i convertible
        refine .bind (retypeLiteral_has id target false) fun retyped b changes => ?_
        cases retyped with
        | some literal =>
          refine .pure fun retyped sound valid known => ?_
          have has := (retyped sound valid known).2 literal rfl
          exact ⟨has.sound, has.valid⟩
        | none =>
          refine .mono (addNode_has rfl _ _) fun new c built retyped sound valid known => ?_
          obtain ⟨soundB, validB, formB⟩ := (retyped sound valid known).1 rfl
          have target := changes.grows.types.form known
          rw [Bool.not_eq_true', Bool.not_eq_false] at convertible
          rw [Bool.not_eq_true] at other
          have has := built soundB (convert_fits validB (by rwa [target]) (by rwa [formB, target])
            (by rwa [formB, target]) _)
          exact ⟨has.sound, has.valid⟩

end Check

end ScalarLang
