import ScalarLang.Proofs.Analysis.Changes
import ScalarLang.Proofs.Analysis.Growth

/-! Reasoning about semantic actions. An action yields what it is said to yield when it is made of
elementary changes and without a mistake ends as is said. What is wrong with the form of a program is
reported while its tokens are consumed; semantic actions only add errors of meaning. -/

namespace ScalarLang

/-- Which errors count: those of the tokens and their order, or all. -/
inductive Rigor where
  | form | meaning

namespace Rigor

def counts : Rigor → Problem → Bool
  | form, problem => problem.isLexical || problem.isSyntactic
  | meaning, _ => true

@[simp] theorem counts_lexical (rigor : Rigor) (fault : LexicalFault) :
    rigor.counts (.lexical fault) = true := by cases rigor <;> rfl

@[simp] theorem counts_syntactic (rigor : Rigor) (problem : SyntaxProblem) :
    rigor.counts (.syntactic problem) = true := by cases rigor <;> rfl

end Rigor

namespace Report

def mistakes (rigor : Rigor) (report : Report) : Nat :=
  report.diagnostics.toList.countP fun diagnostic =>
    diagnostic.severity = .error && rigor.counts diagnostic.problem

theorem mistakes_add (rigor : Rigor) (report : Report) (diagnostic : Diagnostic) :
    (report.add diagnostic).mistakes rigor = report.mistakes rigor +
      if diagnostic.severity = .error ∧ rigor.counts diagnostic.problem then 1 else 0 := by
  obtain ⟨severity, problem, span⟩ := diagnostic
  cases severity <;> simp [add, mistakes, List.countP_append, List.countP_cons]

def Counted (report : Report) : Prop := report.errorCount = report.mistakes .meaning

theorem Counted.add {report : Report} (counted : report.Counted) (diagnostic : Diagnostic) :
    (report.add diagnostic).Counted := by
  obtain ⟨severity, problem, span⟩ := diagnostic
  unfold Counted at *
  rw [mistakes_add, ← counted]
  cases severity <;> simp [Report.add, Rigor.counts]

end Report

namespace Analysis

def mistakes (rigor : Rigor) (analysis : Analysis) : Nat := analysis.report.mistakes rigor

variable {adds : Additions} {extent : Extent} {analysis after : Analysis} {rigor : Rigor}

theorem mistakes_tell (severity : Severity) (problem : Problem) (span : Span) :
    (Check.tell severity problem span analysis).2.mistakes rigor = analysis.mistakes rigor +
      if severity = .error ∧ rigor.counts problem then 1 else 0 :=
  Report.mistakes_add rigor analysis.report ⟨severity, problem, span⟩

theorem mistakes_error {problem : Problem} (counts : rigor.counts problem) (span : Span) :
    (Check.error problem span analysis).2.mistakes rigor = analysis.mistakes rigor + 1 := by
  simp [Check.error, mistakes_tell, counts]

/-- A change either leaves the report alone or adds a diagnostic about the meaning. -/
theorem ChangeOf.report (change : analysis.ChangeOf adds extent after) :
    after.report = analysis.report ∨ ∃ diagnostic : Diagnostic,
      diagnostic.problem.isLexical = false ∧ diagnostic.problem.isSyntactic = false ∧
        after.report = analysis.report.add diagnostic := by
  cases change with
  | error problem span => exact .inr ⟨⟨.error, problem, span⟩, rfl, rfl, rfl⟩
  | warning remark span => exact .inr ⟨⟨.warning, remark, span⟩, rfl, rfl, rfl⟩
  | message remark span => exact .inr ⟨⟨.message, remark, span⟩, rfl, rfl, rfl⟩
  | _ => exact .inl rfl

theorem ChangeOf.mistakes_le (change : analysis.ChangeOf adds extent after) :
    analysis.mistakes rigor ≤ after.mistakes rigor := by
  unfold mistakes
  obtain same | ⟨diagnostic, -, -, added⟩ := change.report
  · exact Nat.le_of_eq (congrArg _ same.symm)
  · rw [added, Report.mistakes_add]
    exact Nat.le_add_right _ _

theorem ChangeOf.form_same (change : analysis.ChangeOf adds extent after) :
    after.mistakes .form = analysis.mistakes .form := by
  unfold mistakes
  obtain same | ⟨diagnostic, notLexical, notSyntactic, added⟩ := change.report
  · rw [same]
  · simp [added, Report.mistakes_add, Rigor.counts, notLexical, notSyntactic]

theorem ChangeOf.counted (change : analysis.ChangeOf adds extent after) (counted : analysis.report.Counted) :
    after.report.Counted := by
  obtain same | ⟨diagnostic, -, -, added⟩ := change.report
  · rwa [same]
  · rw [added]
    exact counted.add diagnostic

theorem ChangesOf.mistakes_le (changes : analysis.ChangesOf adds extent after) :
    analysis.mistakes rigor ≤ after.mistakes rigor := by
  induction changes with
  | refl => exact Nat.le_refl _
  | tail _ change ih => exact Nat.le_trans ih change.mistakes_le

theorem ChangesOf.form_same (changes : analysis.ChangesOf adds extent after) :
    after.mistakes .form = analysis.mistakes .form := by
  induction changes with
  | refl => rfl
  | tail _ change ih => exact change.form_same.trans ih

theorem ChangesOf.counted (changes : analysis.ChangesOf adds extent after) (counted : analysis.report.Counted) :
    after.report.Counted := by
  induction changes with
  | refl => exact counted
  | tail _ change ih => exact change.counted ih

end Analysis

end ScalarLang

namespace ScalarLang.Check

variable {α β : Type}

def Yields (extent : Analysis.Extent) (rigor : Rigor) {α : Type} (check : Check α) (a : Analysis)
    (post : α → Analysis → Prop) : Prop :=
  a.Changes extent (check a).2 ∧ ((check a).2.mistakes rigor = a.mistakes rigor →
    post (check a).1 (check a).2)

structure TypeAdded (a : Analysis) (added : TypeShape) (id : TypeId) (b : Analysis) : Prop where
  shape : b.arena.types.shape id = added
  form : b.arena.types.form id = added.writeOut a.arena.types.form
  nodes : b.arena.nodes = a.arena.nodes

structure NodeAdded (a : Analysis) (node : Node) (id : ExprId) (b : Analysis) : Prop where
  node : b.arena.node id = node
  types : b.arena.types = a.arena.types

namespace Yields

variable {extent : Analysis.Extent} {rigor : Rigor} {a : Analysis} {check : Check α}
  {post : α → Analysis → Prop}

instance : Judgement.Guards (@Yields extent rigor) (fun _ => True) (fun a b => a.Changes extent b)
    (fun a b => b.mistakes rigor = a.mistakes rigor) (fun a => a) where
  iff _ _ _ := ⟨fun yields _ => yields, fun yields => yields trivial⟩
  refl _ := .refl
  trans first rest := first.trans rest
  keeps _ _ := trivial
  parts := by
    intro a b c changes changesOn same
    have before : a.mistakes rigor ≤ b.mistakes rigor := changes.mistakes_le
    have after : b.mistakes rigor ≤ c.mistakes rigor := changesOn.mistakes_le
    constructor <;> omega

export Judgement.Guards (pure bind)
export Judgement.Lawful (mono)
export Lawful (look get)

/-- What an action does, as an equation. -/
theorem run (regular : check.Regular extent) :
    check.Yields extent rigor a fun x b => check a = (x, b) :=
  ⟨regular a, fun _ => rfl⟩

theorem addType (shape : TypeShape) :
    (Check.addType shape).Yields extent rigor a fun id b => TypeAdded a shape id b :=
  ⟨.single (.addType shape), fun _ =>
    ⟨TypeTable.shape_added _ _, TypeTable.form_added _ _, rfl⟩⟩

theorem addNode (kind : ExprKind ExprId) (ty : TypeId) (span : Span) :
    (Check.addNode kind ty span).Yields extent rigor a fun id b => NodeAdded a ⟨kind, ty, span⟩ id b :=
  ⟨.single (Analysis.Change.addNode kind ty span), fun _ => ⟨Arena.node_added _ _, rfl⟩⟩

/-- After an error nothing is claimed where errors of meaning count. -/
theorem error (problem : SemanticProblem) (span : Span) :
    (Check.error problem span).Yields extent .meaning a fun _ _ => False := by
  refine ⟨.single (.error problem span), fun same => ?_⟩
  have more : (Check.error problem span a).2.mistakes .meaning = a.mistakes .meaning + 1 :=
    Analysis.mistakes_error rfl span
  omega

/-- Errors of meaning never make a mistake in the form. -/
theorem holds (yields : check.Yields extent .form a post) : post (check a).1 (check a).2 :=
  yields.2 yields.1.form_same

end Yields

end ScalarLang.Check
