import ScalarLang.Proofs.Failed.Body
import ScalarLang.Proofs.Simulation.Within

/-! A declaration that fails declares nothing. A variable is declared after its semicolon, and so is a
function that has no body. A function that has one is declared before its body is read, but then
nothing fails unless the source ends in the body. -/

namespace ScalarLang

namespace Session

/-- No name is declared and no expression has changed. There may be more types and diagnostics, and
expressions that nothing from before refers to. -/
structure DeclaresNothing (s t : Session) : Prop where
  globals : t.analysis.globals = s.analysis.globals
  functions : t.analysis.functions = s.analysis.functions
  program : t.program = s.program
  nodes : ∀ id node, s.analysis.arena.node? id = some node →
    t.analysis.arena.node? id = some node

/-- After a prototype there is a brace that is never closed, which was reported at the brace when
the source had ended. -/
def OpensBody (grammar : Grammar) (s t : Session) : Prop :=
  ∃ proto header, (Function.prototype grammar).attempt s = (some proto, header) ∧
    header.tokens.current.kind = .openCurly ∧ header.Unclosed header.tokens.current.span t

/-- The source ended in the body of the function that is declared. -/
def UnclosedBody (grammar : Grammar) (s t : Session) : Prop :=
  s.tokens.current.kind = .fn ∧ (Step.advance s).2.OpensBody grammar t

variable {s t u : Session} {grammar : Grammar}

theorem DeclaresNothing.refl (s : Session) : s.DeclaresNothing s :=
  ⟨rfl, rfl, rfl, fun _ _ found => found⟩

theorem DeclaresNothing.trans (first : s.DeclaresNothing t) (rest : t.DeclaresNothing u) :
    s.DeclaresNothing u :=
  ⟨rest.globals.trans first.globals, rest.functions.trans first.functions,
    rest.program.trans first.program,
    fun id node found => rest.nodes id node (first.nodes id node found)⟩

/-- Expressions declare nothing. -/
theorem declaresNothing_change {after : Analysis} (change : t.analysis.Change .expression after)
    (same : s.DeclaresNothing t) : s.DeclaresNothing { t with analysis := after } := by
  obtain ⟨globals, functions, program, nodes⟩ := same
  cases change with
  | addNode kind ty span =>
    refine ⟨globals, functions, program, fun id node found => ?_⟩
    exact Arena.node?_addNode_of_node? (nodes id node found) ⟨kind, ty, span⟩
  | rename _ outside | complete _ outside | addFunction _ _ outside => cases outside
  | addReturn _ inside | addLocal _ _ _ inside | addGlobal _ _ inside => exact absurd rfl inside
  | error | warning | message | addType => exact ⟨globals, functions, program, nodes⟩

theorem declaresNothing_lasts (s : Session) :
    Lasts (fun _ => True) .any .expression s.DeclaresNothing :=
  .ofAny (fun _ same => ⟨same.globals, same.functions, same.program, same.nodes⟩)
    (fun _ _ _ same => ⟨same.globals, same.functions, same.program, same.nodes⟩)
    declaresNothing_change

end Session

namespace Simulation

/-- One and the same parse as long as nothing is declared. -/
abbrev declaringNothing (s : Session) : Simulation := within (fun _ => True) s.DeclaresNothing

theorem declaringNothing_sound (s : Session) : (declaringNothing s).SoundExpressions :=
  within_expressions s.declaresNothing_lasts

theorem declaringNothing_grammars (s : Session) (levels : Nat) :
    (declaringNothing s).ExpressionGrammars (.ofLevels levels) (.ofLevels levels) :=
  (declaringNothing_sound s).expressionLevels
    (within_deepens fun _ _ same => ⟨same.globals, same.functions, same.program, same.nodes⟩) levels

end Simulation

variable {α β : Type} {rigor : Rigor} {n : Nat} {grammar : Grammar} {s : Session}

namespace Parse

def Spares (s : Session) (parse : Parse α) : Prop :=
  ∀ t, s.DeclaresNothing t → (parse.attempt t).1 = none → s.DeclaresNothing (parse.attempt t).2

namespace Spares

variable {parse : Parse α} {next : α → Parse β}

theorem step (step : Step α) : Spares s (liftM step) :=
  fun t _ failed => nomatch (show some (step t).1 = none from failed)

theorem bind {R : α → α → Prop} (first : (Simulation.declaringNothing s).Parses R parse parse)
    (rest : ∀ x, Spares s (next x)) : Spares s (parse >>= next) := by
  intro t same failed
  obtain ⟨-, -, here⟩ := first t t ⟨rfl, same⟩
  rw [bind_attempt] at failed ⊢
  cases found : parse.attempt t with
  | mk result u =>
    rw [found] at failed here
    cases result with
    | none => exact here
    | some x => exact rest x u here failed

end Spares

end Parse

section

variable (parts : ∀ s, (Simulation.declaringNothing s).ExpressionGrammars grammar grammar)

include parts

/-- Nothing can go wrong with a variable once it is declared. -/
theorem Statement.variableDeclaration_spares (s : Session) :
    Parse.Spares s (variableDeclaration grammar) := by
  have sound := Simulation.declaringNothing_sound s
  refine .bind (.step sound.step) fun start => .bind (sound.expect _ _) fun name => ?_
  refine .bind (sound.after _ (parts s).typename) fun declared => ?_
  refine .bind (sound.after _ ((parts s).binary _)) fun init => .bind sound.semicolon fun _ => ?_
  exact .bind (.step sound.previousSpan) fun stop => .step _

/-- A function that has no body is declared after its semicolon. -/
theorem Function.parse_fails (reads : Statement.Reads rigor n grammar) (safe : grammar.Safe)
    (start : Span) (isExternal : Bool) (s : Session) :
    (parse grammar start isExternal).Fails s fun t =>
      s.DeclaresNothing t ∨ isExternal = false ∧ s.OpensBody grammar t := by
  have sound := Simulation.declaringNothing_sound s
  have held := (sound.prototypes (parts s) s s ⟨rfl, .refl s⟩).2.2
  refine .bind (prototype_safe safe s) (fun _ _ => .inl held) fun proto header ran run shaped => ?_
  rw [ran] at held
  refine .look rfl ?_
  dsimp only
  cases starts : !isExternal && startsBody header.tokens.current.kind with
  | false =>
    have ended := (sound.semicolon header header ⟨rfl, held⟩).2.2
    refine .bind Statement.semicolon_safe (fun _ _ => .inl ended) fun _ u _ runOn _ => ?_
    have declares := Check.declareFunction_safe (shaped.grow runOn.grows) false
      (start.through u.tokens.previous)
    exact .look rfl (.bind (.check declares) (.step _) fun id _ _ _ _ => .pure id)
  | true =>
    rw [Bool.and_eq_true, Bool.not_eq_true'] at starts
    obtain ⟨inside, starts⟩ := starts
    have declares := Check.declareFunction_safe shaped true (start.through header.tokens.previous)
    refine .look rfl (.bind (.check declares) (.step _) fun id u ranOn runOn _ => ?_)
    have typed (param : Local) (member : param ∈ proto.params) :=
      runOn.typed (shaped.params param member)
    refine .bind (body_safe safe id typed) ?_ fun body _ _ _ _ => ?_
    · have same : u.tokens = header.tokens := congrArg (fun after => after.2.tokens) ranOn.symm
      rw [← same] at starts
      refine (body_fails reads safe id typed starts).mono fun t ⟨present, unclosed⟩ => .inr ?_
      rw [same] at present unclosed
      exact ⟨inside, proto, header, ran, present, unclosed.after runOn⟩
    · exact .step (do
        Check.completeFunction proto id body _
        return id)

namespace Declaration

/-- Before its body, a declaration that fails has declared nothing. -/
theorem byKind?_fails (reads : Statement.Reads rigor n grammar) (safe : grammar.Safe)
    {parse : Parse ExprId} {recovery : Recovery}
    (found : byKind? grammar s.tokens.current.kind = some (parse, recovery)) :
    parse.Fails s fun t => s.DeclaresNothing t ∨ s.UnclosedBody grammar t := by
  have sound := Simulation.declaringNothing_sound s
  have started := (sound.step s s ⟨rfl, .refl s⟩).2.2
  unfold byKind? at found
  split at found
  · cases found
    exact fun _ failed => .inl (Statement.variableDeclaration_spares parts s s (.refl s) failed)
  · rename_i present
    cases found
    refine .advance ((Function.parse_fails parts reads safe _ false _).mono fun t ends => ?_)
    rcases ends with same | ⟨-, opens⟩
    · exact .inl (started.trans same)
    · exact .inr ⟨present, opens⟩
  · cases found
    refine .advance ?_
    have marked := (Simulation.Parses.discard (sound.expect .fn "'fn'") _ _ ⟨rfl, started⟩).2.2
    refine .bind (.drop (.expect _ _)) (fun _ _ => .inl marked) fun _ u ran _ _ => ?_
    rw [ran] at marked
    refine (Function.parse_fails parts reads safe _ true u).mono fun v ends => ?_
    rcases ends with same | ⟨inside, -⟩
    · exact .inl (marked.trans same)
    · cases inside
  · cases found

/-- A failed declaration has declared nothing, unless the source ended in its body. -/
theorem parse_fails (reads : Statement.Reads rigor n grammar) (safe : grammar.Safe) (kept : s.Kept)
    (failed : (parse grammar s).1 = none) :
    s.DeclaresNothing (parse grammar s).2 ∨ s.UnclosedBody grammar (parse grammar s).2 := by
  have sound := Simulation.declaringNothing_sound s
  rw [parse, Step.currentKind_bind_apply] at failed ⊢
  cases found : byKind? grammar s.tokens.current.kind with
  | none => exact .inl (sound.refuse s s ⟨rfl, .refl s⟩).2.2
  | some entry =>
    obtain ⟨declare, recovery⟩ := entry
    rw [found] at failed
    dsimp only at failed ⊢
    have fails := byKind?_fails parts reads safe found kept
    obtain ⟨post, declareSafe⟩ : ∃ post, declare.Safe s post :=
      ⟨_, byKind?_safe safe found s⟩
    have run := (declareSafe kept).1.run
    rw [Step.bind_apply] at failed ⊢
    cases result : (declare.attempt s).1 with
    | some id =>
      rw [result] at failed
      cases failed
    | none =>
      change s.DeclaresNothing (recovery.run (declare.attempt s).2).2 ∨
        s.UnclosedBody grammar (recovery.run (declare.attempt s).2).2
      have formed := (run.kept kept).tokens
      rcases fails result with same | ⟨present, proto, header, parsed, opens, unclosed⟩
      · exact .inl (sound.recovery recovery _ _ ⟨rfl, same⟩).2.2
      · have yields : recovery.run.Yields rigor (declare.attempt s).2 fun _ _ => True :=
          recovery.run_yields
        have skips := (yields formed).1
        refine .inr ⟨present, proto, header, parsed, opens, unclosed.before ?_ ?_⟩
        · exact (Recovery.run_safe recovery (run.kept kept)).1.run
        · have spent := formed.current_eof_iff.mp unclosed.ended
          have none := skips.pending_le formed
          rw [spent] at none
          have empty := List.eq_nil_of_length_eq_zero (Nat.le_zero.mp none)
          exact (skips.formed formed).current_eof_iff.mpr empty

end Declaration

end

namespace Session

/-- Between declarations, one that fails leaves the variables, the functions of every name, the
program and every expression as they were, unless the source ended in the body of the function that it
declares, which was reported. -/
theorem failed_declaresNothing (source : String) (rounds : Nat)
    (failed : (Declaration.parse (.atDepth 0)
      (readDeclarations (.atDepth 0) rounds (ofSource source)).2).1 = none) :
    let s := (readDeclarations (.atDepth 0) rounds (ofSource source)).2
    let t := (Declaration.parse (.atDepth 0) s).2
    s.DeclaresNothing t ∨ s.UnclosedBody (.atDepth 0) t := by
  have safe : (Grammar.atDepth 0).Safe := Grammar.ofLevels_safe nestingLimit
  have reads : Statement.Reads .form nestingLimit (.atDepth 0) := Grammar.ofLevels_reads nestingLimit
  have parts (s : Session) := Simulation.declaringNothing_grammars s nestingLimit
  have start := kept_ofSource source
  have kept := (readDeclarations_safe safe rounds (ofSource source) start).1.run.kept start
  exact Declaration.parse_fails parts reads safe kept failed

set_option maxRecDepth 100000 in
/-- A variable without the value that is announced is not declared. -/
theorem failed_declaresNothing_variable :
    let s := (readDeclarations (.atDepth 0) 1 (ofSource "var x = 1; var y = ; fn f() \x7b\x7d")).2
    (Declaration.parse (.atDepth 0) s).1 = none ∧
      s.DeclaresNothing (Declaration.parse (.atDepth 0) s).2 := by
  have failed : (Declaration.parse (.atDepth 0) (readDeclarations (.atDepth 0) 1
      (ofSource "var x = 1; var y = ; fn f() \x7b\x7d")).2).1 = none := by decide +kernel
  have noFunction : (readDeclarations (.atDepth 0) 1
      (ofSource "var x = 1; var y = ; fn f() \x7b\x7d")).2.tokens.current.kind ≠ .fn := by
    decide +kernel
  rcases failed_declaresNothing "var x = 1; var y = ; fn f() \x7b\x7d" 1 failed with same | ⟨function, -⟩
  · exact ⟨failed, same⟩
  · exact absurd function noFunction

set_option maxRecDepth 100000 in
/-- A function whose body is never closed has failed, but it is declared. -/
example :
    let parsed := Declaration.parse (.atDepth 0) (ofSource "fn f() \x7b x;")
    parsed.1 = none ∧ parsed.2.analysis.functions.length = 1 := by decide +kernel

end Session

end ScalarLang
