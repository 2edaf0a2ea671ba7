import Mathlib.Data.List.Infix
import ScalarLang.Proofs.Reach.Names
import ScalarLang.Proofs.Scope.Frame

/-! How the body of a function fails. An error stands for a statement that fails, so that a body fails
for one reason only: the source ends before the brace that would close it. -/

namespace ScalarLang

namespace Report

variable {earlier middle later : Report} {diagnostic : Diagnostic}

theorem mem_since_of_earlier (appended : middle.diagnostics.toList <+: later.diagnostics.toList)
    (reported : diagnostic ∈ since earlier middle) : diagnostic ∈ since earlier later :=
  (List.IsPrefix.drop appended _).subset reported

theorem mem_since_of_later (appended : earlier.diagnostics.toList <+: middle.diagnostics.toList)
    (reported : diagnostic ∈ since middle later) : diagnostic ∈ since earlier later := by
  have longer : earlier.diagnostics.size ≤ middle.diagnostics.size := by
    simpa using appended.length_le
  exact (List.drop_sublist_drop_left _ longer).subset reported

end Report

theorem Analysis.Told.appended {before after : Report} (told : Told before after) :
    before.diagnostics.toList <+: after.diagnostics.toList := by
  rcases told with rfl | ⟨diagnostic, rfl⟩
  · exact List.prefix_rfl
  · have pushed : (before.add diagnostic).diagnostics = before.diagnostics.push diagnostic := by
      unfold Report.add
      split <;> rfl
    rw [pushed, Array.toList_push]
    exact List.prefix_append _ _

namespace Session

variable {s t u : Session} {opening : Span}

/-- Diagnostics stay in the report. -/
theorem Run.appended (run : s.Run t) :
    s.analysis.report.diagnostics.toList <+: t.analysis.report.diagnostics.toList :=
  run.keeps (p := fun u =>
      s.analysis.report.diagnostics.toList <+: u.analysis.report.diagnostics.toList)
    (fun move earlier => earlier.trans move.told.appended) List.prefix_rfl

/-- The source has ended, and it was reported that the brace at the span was never closed. -/
structure Unclosed (opening : Span) (s t : Session) : Prop where
  ended : t.tokens.current.kind = .eof
  reported : ⟨.error, SyntaxProblem.unclosedScope, opening⟩ ∈
    Report.since s.analysis.report t.analysis.report

theorem Unclosed.after (unclosed : Unclosed opening t u) (run : s.Run t) : Unclosed opening s u :=
  ⟨unclosed.ended, Report.mem_since_of_later run.appended unclosed.reported⟩

theorem Unclosed.before (unclosed : Unclosed opening s t) (run : t.Run u)
    (ended : u.tokens.current.kind = .eof) : Unclosed opening s u :=
  ⟨ended, Report.mem_since_of_earlier run.appended unclosed.reported⟩

end Session

namespace Parse

variable {α β : Type} {s : Session} {ends : Session → Prop}

def Fails (parse : Parse α) (s : Session) (ends : Session → Prop) : Prop :=
  s.Kept → (parse.attempt s).1 = none → ends (parse.attempt s).2

namespace Fails

variable {parse : Parse α} {next : α → Parse β}

theorem pure (x : α) : (pure x : Parse α).Fails s ends :=
  fun _ failed => nomatch (show some x = none from failed)

theorem step (step : Step α) : (liftM step : Parse α).Fails s ends :=
  fun _ failed => nomatch (show some (step s).1 = none from failed)

theorem mono {other : Session → Prop} (fails : parse.Fails s other)
    (weaken : ∀ t, other t → ends t) : parse.Fails s ends :=
  fun kept failed => weaken _ (fails kept failed)

theorem bind {mid : α → Analysis → Prop} (safe : parse.Safe s mid) (first : parse.Fails s ends)
    (rest : ∀ x t, parse.attempt s = (some x, t) → s.Run t → mid x t.analysis →
      (next x).Fails t ends) :
    (parse >>= next).Fails s ends := by
  intro kept failed
  obtain ⟨course, given, -⟩ := safe kept
  have fails := first kept
  rw [bind_attempt] at failed ⊢
  cases found : parse.attempt s with
  | mk result t =>
    rw [found] at failed course given fails
    cases result with
    | none => exact fails rfl
    | some x => exact rest x t found course.run (given x rfl) (course.run.kept kept) failed

/-- A look at the session. -/
theorem look {step : Step α} {x : α} (sees : step s = (x, s)) (rest : (next x).Fails s ends) :
    (liftM step >>= next).Fails s ends := by
  unfold Fails
  rwa [look_attempt sees]

theorem advance {next : Token → Parse β}
    (rest : (next (Step.advance s).1).Fails (Step.advance s).2 ends) :
    (liftM Step.advance >>= next).Fails s ends := by
  refine .bind (.step .advance) (.step _) fun token t ran _ _ => ?_
  cases ran
  exact rest

theorem inLocalScope (inside : parse.Fails s.openScope fun t => ends (t.closeScope s.analysis)) :
    parse.inLocalScope.Fails s ends :=
  fun kept => inside (Session.Move.openScope.kept kept)

theorem inFunction {id : ExprId} (inside : parse.Fails (s.setFunction (some id)) fun t =>
    ends (t.setFunction s.analysis.currentFn)) : (parse.inFunction id).Fails s ends :=
  fun kept => inside ((Session.Move.setFunction (some id)).kept kept)

end Fails

theorem expect_present {kind : TokenKind} (present : s.tokens.current.kind = kind)
    (expected : String) :
    (Parse.expect kind expected).attempt s = (some s.tokens.current, (Step.advance s).2) := by
  change Parse.attempt (if s.tokens.current.kind = kind then (liftM Step.advance : Parse Token)
    else _) s = _
  rw [if_pos present]
  change (some (Step.advance s).1, (Step.advance s).2) = _
  rw [Step.advance_apply]

end Parse

variable {rigor : Rigor} {n : Nat} {grammar : Grammar} {s : Session}

namespace Statement

/-- Every statement consumes something, so that the rounds suffice for all tokens. -/
theorem round_shortens (reads : Reads rigor n grammar) (formed : s.tokens.Formed)
    (more : s.tokens.current.kind ≠ .eof) :
    (Step.progressing (recovered grammar) s).2.tokens.pending.length <
      s.tokens.pending.length := by
  have yields := recovered_yields reads s
  have leads : s.Leads (Step.progressing (recovered grammar) s).2 :=
    (Step.Yields.progressing more yields (fun _ _ one => statement_consumes one) formed).1
  exact leads.pending_lt formed (Step.Yields.progressing_consumes formed yields)

theorem unclosed_fails (opening : Span) (ended : s.tokens.current.kind = .eof) :
    (Parse.fail SyntaxProblem.unclosedScope opening : Parse (List ExprId)).Fails s
      (s.Unclosed opening) := by
  refine fun _ _ => ⟨ended, ?_⟩
  change _ ∈ Report.since s.analysis.report
    (Check.tell .error SyntaxProblem.unclosedScope opening s.analysis).2.report
  rw [Report.since_of_append (Check.tell_diagnostics .error _ opening s.analysis)]
  exact List.mem_singleton_self _

theorem untilClosed_fails (reads : Reads rigor n grammar) (safe : grammar.Safe) (opening : Span)
    (fuel : Nat) {s : Session} (enough : s.tokens.pending.length ≤ fuel) :
    (untilClosed grammar opening fuel).Fails s (s.Unclosed opening) := by
  induction fuel generalizing s with
  | zero =>
    intro kept
    have spent := List.eq_nil_of_length_eq_zero (Nat.le_zero.mp enough)
    exact unclosed_fails opening (kept.tokens.current_eof_iff.mpr spent) kept
  | succ fuel ih =>
    refine .look rfl ?_
    split
    · exact .step (discard Step.advance >>= fun _ => pure [])
    · rename_i ended
      exact unclosed_fails opening ended
    · rename_i more
      intro kept
      have shorter := round_shortens reads kept.tokens more
      have round := Parse.Safe.step (.progressing (recovered_safe safe s) fun _ _ _ run => run.part)
      refine Parse.Fails.bind round (.step _) (fun id t ran run _ => ?_) kept
      have after : (Step.progressing (recovered grammar) s).2 = t := congrArg Prod.snd ran
      rw [after] at shorter
      refine .bind (untilClosed_safe safe opening fuel t) ?_ fun _ _ _ _ _ => .pure _
      exact (ih (by omega)).mono fun u unclosed => unclosed.after run

theorem scope_fails (reads : Reads rigor n grammar) (safe : grammar.Safe)
    (present : s.tokens.current.kind = .openCurly) :
    (scope grammar).Fails s (s.Unclosed s.tokens.current.span) := by
  refine .bind (.expect _ _) ?_ fun opening t ran run _ => ?_
  · intro _ failed
    rw [Parse.expect_present present] at failed
    cases failed
  · rw [Parse.expect_present present] at ran
    cases ran
    refine .inLocalScope <| .look rfl <| .bind (untilClosed_safe safe _ _ _) ?_ fun _ _ _ _ _ =>
      .look rfl (.step _)
    refine (untilClosed_fails reads safe _ _ (Nat.le_refl _)).mono fun u unclosed => ?_
    have inside := unclosed.after (.single .openScope)
    have outside := inside.before (.single (.closeScope (Step.advance s).2.analysis)) unclosed.ended
    exact outside.after run

/-- A body that is one statement never fails. -/
theorem body_fails (reads : Reads rigor n grammar) (safe : grammar.Safe)
    (starts : Function.startsBody s.tokens.current.kind = true) :
    (body grammar).Fails s fun t => s.tokens.current.kind = .openCurly ∧
      s.Unclosed s.tokens.current.span t := by
  refine .look rfl ?_
  split
  · rename_i noColon
    have present : s.tokens.current.kind = .openCurly := by
      unfold Function.startsBody at starts
      split at starts
      · assumption
      · exact absurd ‹_› noColon
      · cases starts
    exact (scope_fails reads safe present).mono fun _ unclosed => ⟨present, unclosed⟩
  · refine .advance ?_
    have inside := Step.Safe.inLocalScope (recovered_safe safe (Step.advance s).2.openScope)
      fun _ _ _ run => run.part
    exact .bind (.step inside) (.step _) fun _ _ _ _ _ => .look rfl (.step _)

end Statement

namespace Function

theorem body_fails (reads : Statement.Reads rigor n grammar) (safe : grammar.Safe) (id : ExprId)
    {params : List Local} (typed : ∀ param ∈ params, Check.Typed param.ty s.analysis)
    (starts : startsBody s.tokens.current.kind = true) :
    (body grammar id params).Fails s fun t => s.tokens.current.kind = .openCurly ∧
      s.Unclosed s.tokens.current.span t := by
  let inside := (s.setFunction (some id)).openScope
  have entered : s.Run inside := .tail (.single (.setFunction _)) .openScope
  have declares : (liftM (Check.addParameters params) : Parse Unit).Safe inside fun _ _ => True :=
    .check (Check.addParameters_safe typed)
  refine .inFunction (.inLocalScope (.bind declares (.step _) fun _ t ran run _ => ?_))
  have same : t.tokens = s.tokens := congrArg (fun after => after.2.tokens) ran.symm
  rw [← same] at starts ⊢
  refine (Statement.body_fails reads safe starts).mono fun u ⟨present, unclosed⟩ => ?_
  refine ⟨present, (unclosed.after (entered.trans run)).before ?_ unclosed.ended⟩
  exact .tail (.single (.closeScope _)) (.setFunction _)

end Function

end ScalarLang
