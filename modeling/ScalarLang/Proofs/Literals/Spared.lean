import ScalarLang.Proofs.Analysis.Yields
import ScalarLang.Proofs.Literals.Carried

/-! Semantic actions that spare the literals: as long as nothing is wrong and no loss is reported,
what an expression is built from and the expression are worth the same. -/

namespace ScalarLang

/-- Whether a value takes another type, or a literal another number, without being asked to. -/
def Problem.isLoss : Problem → Bool
  | remark (.implicitConversion _ _) | remark (.literalTruncated _ _) => true
  | _ => false

namespace Report

def reports (report : Report) (diagnostic : Diagnostic) : Prop :=
  diagnostic ∈ report.diagnostics.toList

theorem reports_add {report : Report} {diagnostic added : Diagnostic} :
    (report.add added).reports diagnostic ↔ report.reports diagnostic ∨ diagnostic = added := by
  unfold reports add
  obtain ⟨severity, problem, span⟩ := added
  cases severity <;> simp

end Report

namespace Analysis

variable {a b : Analysis} {adds : Additions} {extent : Extent}

structure Lossless (a : Analysis) : Prop where
  silent : ∀ diagnostic, a.report.reports diagnostic → diagnostic.problem.isLoss = false
  right : ∀ id node, a.arena.node? id = some node → node.kind ≠ .error

/-- Whatever is wrong stays so, and nothing that was reported is taken back. -/
theorem Lossless.before (lossless : b.Lossless) (grows : a.arena.Grows b.arena)
    (reports : ∀ diagnostic, a.report.reports diagnostic → b.report.reports diagnostic) :
    a.Lossless := by
  constructor
  · intro diagnostic reported
    exact lossless.silent diagnostic (reports diagnostic reported)
  · intro id node found wrong
    obtain ⟨later, foundLater, becomes⟩ := grows.nodes id node found
    have same : later.kind = node.kind := becomes.kind.eq (by rw [wrong]; rfl)
    exact lossless.right id later foundLater (same.trans wrong)

theorem ChangeOf.reports (change : a.ChangeOf adds extent b) {diagnostic : Diagnostic}
    (reported : a.report.reports diagnostic) : b.report.reports diagnostic := by
  obtain same | ⟨added, -, -, more⟩ := change.report
  · rwa [same]
  · rw [more, Report.reports_add]
    exact .inl reported

theorem ChangesOf.reports (changes : a.ChangesOf adds extent b) {diagnostic : Diagnostic}
    (reported : a.report.reports diagnostic) : b.report.reports diagnostic := by
  induction changes with
  | refl => exact reported
  | tail _ change ih => exact change.reports ih

theorem ChangesOf.lossless (changes : a.ChangesOf adds extent b) (lossless : b.Lossless) : a.Lossless :=
  lossless.before changes.grows fun _ => changes.reports

end Analysis

namespace Check

variable {α β : Type} {a : Analysis}

/-- If there is no loss in the end there was none before, and the action ends as is said. -/
def Spares (check : Check α) (a : Analysis) (post : α → Analysis → Prop) : Prop :=
  (check a).2.Lossless → a.Lossless ∧ post (check a).1 (check a).2

namespace Spares

variable {check : Check α} {next : α → Check β} {post : α → Analysis → Prop}
  {last : β → Analysis → Prop}

instance : Judgement.Guards @Spares (fun _ => True) (fun a b => b.Lossless → a.Lossless)
    (fun _ b => b.Lossless) (fun a => a) where
  iff _ _ _ := ⟨fun spares _ => ⟨fun lossless => (spares lossless).1, fun lossless => (spares lossless).2⟩,
    fun spares lossless => ⟨(spares trivial).1 lossless, (spares trivial).2 lossless⟩⟩
  refl _ lossless := lossless
  trans first rest lossless := first (rest lossless)
  keeps _ _ := trivial
  parts _ rest lossless := ⟨rest lossless, lossless⟩

export Judgement.Guards (pure bind)
export Judgement.Lawful (mono)
export Lawful (look get)

/-- One action passes on what it makes of the expressions. -/
theorem seq {ids : List ExprId} {made : α → List ExprId} {result : β → List ExprId}
    (first : check.Spares a fun x b => a.arena.Keeps ids b.arena (made x))
    (rest : ∀ x b, (next x).Spares b fun y c => b.arena.Keeps (made x) c.arena (result y)) :
    (check >>= next).Spares a fun y c => a.arena.Keeps ids c.arena (result y) :=
  bind first fun x b _ => mono (rest x b) fun _ _ kept before => before.trans kept

/-- An action that has nothing to do with the expressions is followed by one that keeps them. -/
theorem andThen {ids : List ExprId} {result : β → List ExprId}
    (first : check.Spares a fun _ b => a.arena.Keeps [] b.arena [])
    (rest : ∀ x b, (next x).Spares b fun y c => b.arena.Keeps ids c.arena (result y)) :
    (check >>= next).Spares a fun y c => a.arena.Keeps ids c.arena (result y) :=
  bind first fun x b _ => mono (rest x b) fun _ _ kept idle => idle.idle kept

/-- What an action does, as an equation. -/
theorem run (regular : check.Regular .declaration) : check.Spares a fun x b => check a = (x, b) :=
  fun lossless => ⟨(regular a).lossless lossless, rfl⟩

/-- What an action does whether or not there is a loss. -/
theorem always (regular : check.Regular .declaration) (holds : post (check a).1 (check a).2) :
    check.Spares a post :=
  fun lossless => ⟨(regular a).lossless lossless, holds⟩

/-- An error that is added is there in the end. -/
theorem errorExpr {post : ExprId → Analysis → Prop} (span : Span) :
    (Check.errorExpr span).Spares a post := by
  intro lossless
  have wrong : (Check.errorExpr span a).2.arena.kind (Check.errorExpr span a).1 = .error :=
    congrArg Node.kind (Arena.node_added _ _)
  have inside : (Check.errorExpr span a).1.index < (Check.errorExpr span a).2.arena.nodes.size := by
    change a.arena.nodes.size < (a.arena.nodes.push _).size
    simp
  have found := Array.getElem?_eq_getElem inside
  have kind := lossless.right (Check.errorExpr span a).1 _ found
  rw [Arena.kind, Arena.node_of_node? found] at wrong
  exact absurd wrong kind

theorem refuse {post : ExprId → Analysis → Prop} (problem : Problem) (span : Span) :
    (Check.refuse problem span).Spares a post := by
  intro lossless
  have impossible : (Check.errorExpr span).Spares (Check.error problem span a).2 fun _ _ => False :=
    errorExpr span
  exact (impossible lossless).2.elim

/-- A loss that is reported stays so. -/
theorem loss {remark : Remark} {span : Span} {next : Unit → Check β}
    (isLoss : (Problem.remark remark).isLoss = true) (regular : (next ()).Regular .declaration) :
    (Check.warning remark span >>= next).Spares a last := by
  intro lossless
  have told : (Check.warning remark span a).2.report.reports ⟨.warning, .remark remark, span⟩ :=
    Report.reports_add.mpr (.inr rfl)
  have silent := lossless.silent _ ((regular (Check.warning remark span a).2).reports told)
  rw [isLoss] at silent
  cases silent

end Spares

/-- Where no type is added the literals stay what they are. -/
theorem Spares.idle {check : Check α} (regular : check.Regular .declaration)
    (same : (check a).2.arena.types = a.arena.types) :
    check.Spares a fun _ b => a.arena.Keeps [] b.arena [] :=
  .always regular (.ofGrows (regular a).grows fun exact => same ▸ exact)

theorem error_spares (problem : SemanticProblem) (span : Span) :
    (error problem span).Spares a fun _ b => a.arena.Keeps [] b.arena [] :=
  .idle (.error problem span) rfl

theorem message_spares (remark : Remark) (span : Span) :
    (message remark span).Spares a fun _ b => a.arena.Keeps [] b.arena [] :=
  .idle (.message remark span) rfl

theorem warning_spares (remark : Remark) (span : Span) :
    (warning remark span).Spares a fun _ b => a.arena.Keeps [] b.arena [] :=
  .idle (.warning remark span) rfl

/-- The definition of a function changes. -/
theorem setKind_spares {id : ExprId} {kind : ExprKind ExprId}
    (changes : a.Changes .declaration (setKind id kind a).2) :
    (setKind id kind).Spares a fun _ b => a.arena.Keeps [] b.arena [] :=
  fun lossless => ⟨changes.lossless lossless, .ofGrows changes.grows fun exact => exact⟩

/-- A type that is not floating changes nothing. -/
theorem addType_spares {shape : TypeShape}
    (whole : ∀ scalar isConst, shape = .scalar scalar isConst → scalar.isFloating = false) :
    (addType shape).Spares a fun _ b => a.arena.Keeps [] b.arena [] :=
  .always (.addType shape) (.ofGrows (Arena.addType_grows _ _) fun exact => exact.add whole)

theorem withConst_spares (id : TypeId) (isConst : Bool) :
    (withConst id isConst).Spares a fun _ b => a.arena.Keeps [] b.arena [] := by
  have regular : (withConst id isConst).Regular .declaration := .withConst id isConst
  exact .always regular (.ofGrows (regular a).grows fun exact => exact.withConst id isConst)

/-- An expression is worth what its children are. -/
theorem addNode_spares {kind : ExprKind ExprId} (isInner : kind.isInner = true) (ty : TypeId)
    (span : Span) : (addNode kind ty span).Spares a fun id b =>
      a.arena.Keeps kind.children b.arena [id] :=
  .always (.addNode kind ty span) fun _ _ holds => holds.addNode isInner

/-- A literal takes the place of another of the same magnitude. -/
theorem retype_spares {id : ExprId} {old new : Payload} {source scalar : Scalar}
    {wasConst isConst : Bool} {ty : TypeId} (kind : a.arena.kind id = .literal old)
    (own : a.arena.formOf id = .scalar source wasConst)
    (form : a.arena.types.form ty = .scalar scalar isConst)
    (same : source.isFloating = false → scalar.isFloating = false →
      Literal.magnitude new scalar = Literal.magnitude old source) (span : Span) :
    (addNode (.literal new) ty span).Spares a fun literal b =>
      a.arena.Keeps [id] b.arena [literal] := by
  refine .always (.addNode _ _ _) ?_
  intro rest worth holds
  have literal : (a.arena.kind id).isLiteral = true := by
    rw [kind]
    rfl
  apply Arena.Holds.retype holds literal form
  rw [same (holds.exact.form own) (holds.exact.form form), Arena.magnitude_of_literal kind own]

end Check

end ScalarLang
