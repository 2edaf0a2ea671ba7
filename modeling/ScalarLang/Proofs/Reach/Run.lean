import ScalarLang.Proofs.Parser.Program
import ScalarLang.Proofs.Reach.Declaration

/-! Runs: the elementary moves of a parse one after another, each of which is allowed where it is
made. Whatever holds along runs holds at every point of a parse. -/

namespace ScalarLang

namespace Report

structure Tallied (report : Report) : Prop where
  errors : report.errorCount = (report.ofSeverity .error).length
  warnings : report.warningCount = (report.ofSeverity .warning).length

theorem tallied_empty : Report.empty.Tallied := ⟨rfl, rfl⟩

theorem Tallied.add {report : Report} (tallied : report.Tallied) (diagnostic : Diagnostic) :
    (report.add diagnostic).Tallied := by
  obtain ⟨severity, problem, span⟩ := diagnostic
  obtain ⟨errors, warnings⟩ := tallied
  unfold ofSeverity at errors warnings
  cases severity <;> constructor <;> simp [Report.add, ofSeverity, errors, warnings]

end Report

namespace Analysis

variable {a b : Analysis}

def Told (before after : Report) : Prop := after = before ∨ ∃ diagnostic, after = before.add diagnostic

theorem Told.errors_le (told : Told a.report b.report) : a.errors ≤ b.errors := by
  unfold errors
  rcases told with same | ⟨⟨severity, problem, span⟩, added⟩
  · exact Nat.le_of_eq (by rw [same])
  · rw [added]
    cases severity with
    | error => exact Nat.le_succ _
    | warning | message => exact Nat.le_refl _

theorem Edit.told (edit : a.Edit b) : Told a.report b.report := by
  cases edit with
  | tell severity span => exact .inr ⟨_, rfl⟩
  | _ => exact .inl rfl

/-- What moves between scopes and functions leave as it is. -/
structure Adjusts (a b : Analysis) : Prop where
  arena : b.arena = a.arena
  globals : b.globals = a.globals
  functions : b.functions = a.functions
  locals : ∀ found ∈ b.locals, found ∈ a.locals
  told : Told a.report b.report

theorem Adjusts.kept (adjusts : a.Adjusts b) (kept : a.Kept) : b.Kept := by
  obtain ⟨arena, globals, functions, locals, told⟩ := adjusts
  obtain ⟨written, closed, blamed, tabled⟩ := kept
  have more := told.errors_le
  refine ⟨arena ▸ written, ⟨?_, ?_, ?_⟩, ⟨?_, ?_⟩, ⟨?_, ?_⟩⟩
  · rw [arena]
    exact closed.types
  · rw [arena]
    exact closed.nodes
  · rw [arena]
    exact fun found member => closed.locals found (locals found member)
  · rw [arena]
    exact fun id node found wrong => Nat.lt_of_lt_of_le (blamed.nodes id node found wrong) more
  · rw [arena]
    exact fun ty entry found wrong => Nat.lt_of_lt_of_le (blamed.types ty entry found wrong) more
  · rw [arena]
    unfold Analysis.global? Analysis.overloads?
    rw [globals, functions]
    exact tabled.globals
  · rw [arena]
    unfold Analysis.overloads?
    rw [functions]
    exact tabled.functions

theorem adjusts_blame (a : Analysis) (token : Token) : a.Adjusts (a.blame token) := by
  unfold blame
  split
  · rename_i fault _
    exact ⟨rfl, rfl, rfl, fun _ member => member, .inr ⟨⟨.error, fault, token.span⟩, rfl⟩⟩
  · exact ⟨rfl, rfl, rfl, fun _ member => member, .inl rfl⟩

end Analysis

namespace Session

inductive Move (s : Session) : Session → Prop
  | consume : Move s (Step.advance s).2
  | split {kind : TokenKind} {lexeme : String}
      (long : TokenStream.afterAngle? s.tokens.current.kind = some (kind, lexeme)) :
      Move s { s with
        tokens := s.tokens.replaceCurrent (TokenStream.shorten s.tokens.current kind lexeme) }
  | edit {after : Analysis} (edit : s.analysis.Edit after) : Move s { s with analysis := after }
  | openScope : Move s s.openScope
  | closeScope (before : Analysis) : Move s (s.closeScope before)
  | setFunction (function : Option ExprId) : Move s (s.setFunction function)
  | enter : Move s s.enter
  | leave : Move s s.leave
  | list (id : ExprId) : Move s (addToProgram id s).2

abbrev Run : Session → Session → Prop := Relation.ReflTransGen Move

/-- What holds at every point of a parse. -/
structure Kept (s : Session) : Prop where
  tokens : s.tokens.Formed
  analysis : s.analysis.Kept
  tallied : s.analysis.report.Tallied
  program : s.program.Nodup

variable {s t : Session}

/-- A move either makes a change that is allowed or leaves what is known as it is. -/
theorem Move.analysis (move : s.Move t) :
    s.analysis.Edit t.analysis ∨ s.analysis.Adjusts t.analysis := by
  have same : s.analysis.Adjusts s.analysis :=
    ⟨rfl, rfl, rfl, fun _ member => member, .inl rfl⟩
  cases move with
  | edit edit => exact .inl edit
  | consume =>
    rw [Step.advance_apply]
    exact .inr (Analysis.adjusts_blame _ _)
  | split | enter | leave => exact .inr same
  | openScope | setFunction => exact .inr ⟨rfl, rfl, rfl, fun _ member => member, .inl rfl⟩
  | closeScope => exact .inr ⟨rfl, rfl, rfl, fun _ member => List.mem_of_mem_take member, .inl rfl⟩
  | list =>
    rw [addToProgram_apply]
    exact .inr same

theorem Move.told (move : s.Move t) : Analysis.Told s.analysis.report t.analysis.report := by
  rcases move.analysis with edit | adjusts
  · exact edit.told
  · exact adjusts.told

theorem Move.grows (move : s.Move t) : s.analysis.arena.Grows t.analysis.arena := by
  rcases move.analysis with edit | adjusts
  · exact edit.grows
  · rw [adjusts.arena]
    exact .refl _

theorem listed_nodup {program : List ExprId} (nodup : program.Nodup) (id : ExprId) :
    (listed program id).Nodup := by
  unfold listed
  split
  · exact nodup
  · rename_i new
    refine List.nodup_append.mpr ⟨nodup, List.pairwise_singleton _ _, ?_⟩
    rintro one member other last rfl
    rw [List.mem_singleton.mp last] at member
    exact new (List.contains_iff_mem.mpr member)

theorem mem_listed {program : List ExprId} {id other : ExprId} :
    other ∈ listed program id ↔ other ∈ program ∨ other = id := by
  unfold listed
  split
  · rename_i known
    refine ⟨.inl, fun member => member.elim (fun before => before) ?_⟩
    rintro rfl
    exact List.contains_iff_mem.mp known
  · rw [List.mem_append, List.mem_singleton]

theorem Move.tokens (move : s.Move t) (formed : s.tokens.Formed) : t.tokens.Formed := by
  cases move with
  | consume =>
    rw [Step.advance_apply]
    exact formed.advance
  | split long => exact (TokenStream.Move.split long).formed formed
  | list =>
    rw [addToProgram_apply]
    exact formed
  | _ => exact formed

theorem Move.program (move : s.Move t) (nodup : s.program.Nodup) : t.program.Nodup := by
  cases move with
  | consume =>
    rw [Step.advance_apply]
    exact nodup
  | list id =>
    rw [addToProgram_apply]
    exact listed_nodup nodup id
  | _ => exact nodup

theorem Move.kept (move : s.Move t) (kept : s.Kept) : t.Kept := by
  refine ⟨move.tokens kept.tokens, ?_, ?_, move.program kept.program⟩
  · rcases move.analysis with edit | adjusts
    · exact edit.kept kept.analysis
    · exact adjusts.kept kept.analysis
  · rcases move.told with same | ⟨diagnostic, added⟩
    · exact same ▸ kept.tallied
    · exact added ▸ kept.tallied.add diagnostic

namespace Run

/-- What every move keeps is kept by every run. -/
theorem keeps {p : Session → Prop} (run : s.Run t)
    (keep : ∀ {u v : Session}, u.Move v → p u → p v) (first : p s) : p t := by
  induction run with
  | refl => exact first
  | tail _ move ih => exact keep move ih

theorem kept (run : s.Run t) (kept : s.Kept) : t.Kept :=
  run.keeps Move.kept kept

theorem grows (run : s.Run t) : s.analysis.arena.Grows t.analysis.arena :=
  run.keeps (p := fun u => s.analysis.arena.Grows u.analysis.arena)
    (fun move grows => grows.trans move.grows) (.refl _)

theorem errors_le (run : s.Run t) : s.analysis.errors ≤ t.analysis.errors :=
  run.keeps (fun move more => Nat.le_trans more move.told.errors_le) (Nat.le_refl _)

end Run

/-- A move as it is made in a parse: no body is given twice, and only what is in the arena is
listed. -/
structure Turn (s t : Session) : Prop where
  move : s.Move t
  bodies : s.analysis.arena.Completes t.analysis.arena
  listed : ∀ id ∈ t.program, id ∈ s.program ∨ t.analysis.arena.Has id

abbrev Course : Session → Session → Prop := Relation.ReflTransGen Turn

/-- A move that leaves the arena and the program as they are. -/
theorem Turn.quiet (move : s.Move t) (arena : t.analysis.arena = s.analysis.arena)
    (program : t.program = s.program) : s.Turn t :=
  ⟨move, arena ▸ .refl _, fun _ member => .inl (program ▸ member)⟩

theorem Turn.consume (s : Session) : s.Turn (Step.advance s).2 := by
  refine .quiet .consume ?_ ?_
  · rw [Step.advance_apply]
    exact (Analysis.adjusts_blame _ _).arena
  · rw [Step.advance_apply]

theorem Turn.list {id : ExprId} (has : s.analysis.arena.Has id) : s.Turn (addToProgram id s).2 := by
  refine ⟨.list id, ?_, ?_⟩
  · rw [addToProgram_apply]
    exact .refl _
  · rw [addToProgram_apply]
    intro other member
    rcases mem_listed.mp member with before | rfl
    · exact .inl before
    · exact .inr has

namespace Course

theorem run (course : s.Course t) : s.Run t :=
  Relation.ReflTransGen.mono (fun _ _ turn => Turn.move turn) s t course

theorem ofAnalysis {b : Analysis} (course : s.analysis.Course b) :
    s.Course { s with analysis := b } := by
  induction course with
  | refl => exact .refl
  | tail _ turn ih => exact ih.tail ⟨.edit turn.edit, turn.bodies, fun _ member => .inl member⟩

end Course

theorem kept_ofSource (source : String) : (ofSource source).Kept :=
  ⟨TokenStream.ofSource_formed source, Analysis.kept_empty, Report.tallied_empty, List.nodup_nil⟩

end Session

variable {α β : Type} {s : Session}

namespace Step

/-- A step that takes its course and ends as is said. -/
def Safe (step : Step α) (s : Session) (post : α → Analysis → Prop) : Prop :=
  s.Kept → s.Course (step s).2 ∧ post (step s).1 (step s).2.analysis

namespace Safe

variable {step : Step α} {post : α → Analysis → Prop}

instance : Judgement.Follows @Safe Session.Kept Session.Course Session.Run Session.analysis where
  iff _ _ _ := Iff.rfl
  refl _ := .refl
  trans first rest := first.trans rest
  keeps kept course := course.run.kept kept
  knows course := course.run
  further first rest := first.trans rest

export Judgement.Follows (pure bind drop)
export Judgement.Lawful (congr mono look)

theorem check {check : Check α} (safe : check.Safe s.analysis post) :
    (liftM check : Step α).Safe s post :=
  fun kept => ⟨.ofAnalysis (safe kept.analysis).1, (safe kept.analysis).2⟩

/-- Of an error token the fault is reported. -/
theorem advance : Step.advance.Safe s fun _ b =>
    s.tokens.current.kind = .error → s.analysis.errors < b.errors := by
  refine fun kept => ⟨.single (.consume s), fun wrong => ?_⟩
  obtain ⟨fault, found⟩ := Option.isSome_iff_exists.mp (kept.tokens.current_marked.mpr wrong)
  rw [advance_apply, Analysis.blame, found]
  exact Nat.lt_succ_self _

theorem advanceTimes (count : Nat) : (Step.advanceTimes count).Safe s fun _ _ => True := by
  induction count generalizing s with
  | zero => exact .pure trivial
  | succ count ih => exact .bind (.drop .advance) fun _ _ _ _ => ih

theorem accept (kind : TokenKind) : (Step.accept kind).Safe s fun _ _ => True := by
  refine .look rfl ?_
  split
  · exact .bind (.drop .advance) fun _ _ _ _ => .pure trivial
  · exact .pure trivial

/-- What is given stays so while tokens are consumed. -/
theorem progressing (safe : step.Safe s post)
    (keep : ∀ x (t u : Session), t.Run u → post x t.analysis → post x u.analysis) :
    (Step.progressing step).Safe s post := by
  refine .look rfl <| .bind safe fun x t run holds => .look rfl ?_
  split
  · exact fun kept => ⟨.single (.consume t), keep x t _ (.single .consume) holds⟩
  · exact .pure holds

theorem inLocalScope (inside : step.Safe s.openScope post)
    (keep : ∀ x (t u : Session), t.Run u → post x t.analysis → post x u.analysis) :
    (Step.inLocalScope step).Safe s post := by
  intro kept
  have opens : s.Turn s.openScope := .quiet .openScope rfl rfl
  obtain ⟨course, holds⟩ := inside (opens.move.kept kept)
  have closes : (step s.openScope).2.Turn ((step s.openScope).2.closeScope s.analysis) :=
    .quiet (.closeScope s.analysis) rfl rfl
  exact ⟨(course.head opens).tail closes, keep _ _ _ (.single closes.move) holds⟩

theorem inFunction {id : ExprId} (inside : step.Safe (s.setFunction (some id)) post)
    (keep : ∀ x (t u : Session), t.Run u → post x t.analysis → post x u.analysis) :
    (Step.inFunction id step).Safe s post := by
  intro kept
  have enters : s.Turn (s.setFunction (some id)) := .quiet (.setFunction _) rfl rfl
  obtain ⟨course, holds⟩ := inside (enters.move.kept kept)
  have leaves : (step (s.setFunction (some id))).2.Turn
      ((step (s.setFunction (some id))).2.setFunction s.analysis.currentFn) :=
    .quiet (.setFunction _) rfl rfl
  exact ⟨(course.head enters).tail leaves, keep _ _ _ (.single leaves.move) holds⟩

theorem deeper (inside : step.Safe s.enter post) : (Step.deeper step).Safe s post := by
  intro kept
  have enters : s.Turn s.enter := .quiet .enter rfl rfl
  obtain ⟨course, holds⟩ := inside (enters.move.kept kept)
  exact ⟨(course.head enters).tail (.quiet .leave rfl rfl), holds⟩

end Safe

end Step

namespace Parse

/-- A parse that fails has reported an error. -/
def Safe (parse : Parse α) (s : Session) (post : α → Analysis → Prop) : Prop :=
  parse.attempt.Safe s fun found b =>
    (∀ x ∈ found, post x b) ∧ (found = none → s.analysis.errors < b.errors)

namespace Safe

variable {parse : Parse α} {post : α → Analysis → Prop}

instance : Follows @Safe @Step.Safe Session.Kept Session.Course Session.Run
    (fun s t => s.analysis.errors < t.analysis.errors) Session.analysis where
  steps := inferInstance
  iff _ _ _ := Iff.rfl
  later run more := Nat.lt_of_le_of_lt run.errors_le more

export Follows (pure bind drop)
export Lawful (mono look)

theorem step {step : Step α} (safe : step.Safe s post) : (liftM step : Parse α).Safe s post :=
  Follows.step safe

/-- What the session is known to end with is given too. -/
theorem also {ends : Analysis → Prop} (safe : parse.Safe s post)
    (holds : ends (parse.attempt s).2.analysis) : parse.Safe s fun x b => post x b ∧ ends b := by
  intro kept
  obtain ⟨course, given, fails⟩ := safe kept
  exact ⟨course, fun x found => ⟨given x found, holds⟩, fails⟩

theorem check {check : Check α} (safe : check.Safe s.analysis post) :
    (liftM check : Parse α).Safe s post :=
  step (.check safe)

theorem fail {problem : Problem} (notLexical : problem.isLexical = false) (span : Span) :
    (Parse.fail problem span : Parse α).Safe s post := by
  intro kept
  obtain ⟨course, more⟩ := Step.Safe.check (.error notLexical span) kept
  exact ⟨course, nofun, fun _ => more⟩

/-- Of an error token its fault is all there is to say. -/
theorem errorToken (wrong : s.tokens.current.kind = .error) :
    (Functor.discard (liftM Step.advance : Parse Token) >>= fun _ => failure : Parse α).Safe s
      post := by
  intro kept
  obtain ⟨course, more⟩ := Step.Safe.advance kept
  exact ⟨course, nofun, fun _ => more wrong⟩

theorem expect (kind : TokenKind) (expected : String) :
    (Parse.expect kind expected).Safe s fun _ _ => True := by
  refine .look rfl ?_
  split
  · exact .mono (step .advance) fun _ _ _ => trivial
  · split
    · rename_i wrong
      exact errorToken wrong
    · exact fail rfl _

theorem closeAngle : Parse.closeAngle.Safe s fun _ _ => True := by
  refine .look rfl ?_
  split
  · rename_i kind lexeme long
    exact fun _ => ⟨.single (.quiet (.split long) rfl rfl), fun _ _ => trivial, nofun⟩
  · exact .drop (.expect _ _)

theorem inLocalScope (inside : parse.Safe s.openScope post)
    (keep : ∀ x (t u : Session), t.Run u → post x t.analysis → post x u.analysis) :
    parse.inLocalScope.Safe s post :=
  Step.Safe.inLocalScope inside fun _ t u run ⟨holds, fails⟩ =>
    ⟨fun x found => keep x t u run (holds x found),
      fun absent => Nat.lt_of_lt_of_le (fails absent) run.errors_le⟩

theorem inFunction {id : ExprId} (inside : parse.Safe (s.setFunction (some id)) post)
    (keep : ∀ x (t u : Session), t.Run u → post x t.analysis → post x u.analysis) :
    (parse.inFunction id).Safe s post :=
  Step.Safe.inFunction inside fun _ t u run ⟨holds, fails⟩ =>
    ⟨fun x found => keep x t u run (holds x found),
      fun absent => Nat.lt_of_lt_of_le (fails absent) run.errors_le⟩

theorem deeper (inside : parse.Safe s.enter post) : parse.deeper.Safe s post :=
  Step.Safe.deeper inside

theorem commaList {item : List α → Parse α}
    (keep : ∀ x (t u : Session), t.Run u → post x t.analysis → post x u.analysis)
    (each : ∀ before t, s.Run t → (item before).Safe t post) (fuel : Nat) {before : List α}
    (known : ∀ x ∈ before, post x s.analysis) :
    (Parse.commaList item before fuel).Safe s fun xs b => ∀ x ∈ xs, post x b :=
  Follows.commaList (fun _ => .accept .comma) keep each fuel known

end Safe

end Parse

end ScalarLang
