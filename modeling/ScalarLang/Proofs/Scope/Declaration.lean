import ScalarLang.Proofs.Analysis.Defined
import ScalarLang.Proofs.Scope.Productions

/-! Every level of the grammar, functions and declarations leave what surrounds them as it was.
Between declarations outside of functions nothing surrounds the place. -/

namespace ScalarLang

open Parse.Restores

namespace Grammar

variable {α : Type}

theorem refusal_restores : (refusal : Parse α).Restores :=
  .bind (.step .current) fun _ => .fail _ _

/-- One level deeper a statement declares what it declares. -/
theorem statement_deeper {parse : Parse α} {s : Session}
    (inside : s.enter.Restored (parse.attempt s.enter).2 ∨
      s.tokens.current.kind = .var ∧ parse.Declares s.enter) :
    s.Restored (parse.deeper.attempt s).2 ∨
      s.tokens.current.kind = .var ∧ parse.deeper.Declares s := by
  rcases inside with ⟨depth, scope⟩ | ⟨var, succeeds, ⟨depth, scope⟩⟩
  · exact .inl ⟨congrArg (· - 1) depth, scope⟩
  · exact .inr ⟨var, succeeds, ⟨congrArg (· - 1) depth, scope⟩⟩

theorem ofLevels_framed (n : Nat) : (ofLevels n).Framed := by
  induction n with
  | zero =>
    exact
      { typename := refusal_restores
        binary := fun _ => refusal_restores
        primary := refusal_restores
        statement := fun s => .inl (refusal_restores s)
        condition := fun _ => refusal_restores }
  | succ n ih =>
    exact
      { typename := .deeper (TypeName.parse_restores ih.typename)
        binary := fun limit => .deeper (Expression.binary_restores ih limit)
        primary := .deeper (Expression.primary_restores ih)
        statement := fun s => statement_deeper (Statement.parse_declares ih s.enter)
        condition := fun start => .deeper (Statement.condition_restores ih start) }

end Grammar

variable {grammar : Grammar} (framed : grammar.Framed)

namespace Function

include framed

theorem parameter_restores (before : List Local) : (parameter grammar before).Restores :=
  .bind (.expect _ _) fun _ => .bind (.discard (.expect _ _)) fun _ =>
    .bind framed.typename fun _ => .check (.ofRegular (Check.declareParameter_regular _ _ _))

theorem params_restores : (params grammar).Restores := by
  refine .bind (.step (.accept _)) fun closed => ?_
  split
  · exact .pure _
  · refine .bind (.step .remaining) fun fuel => ?_
    refine .bind (.commaList (parameter_restores framed) [] fuel) fun params => ?_
    exact .bind (.discard (.expect _ _)) fun _ => .pure _

theorem result_restores : (result grammar).Restores := by
  refine .bind (.step (.accept _)) fun written => ?_
  split
  · exact framed.typename
  · exact .check (.ofRegular (.addType _))

theorem prototype_restores : (prototype grammar).Restores :=
  .bind (.expect _ _) fun _ => .bind (.discard (.expect _ _)) fun _ =>
    .bind (params_restores framed) fun _ => .bind (result_restores framed) fun _ =>
      .check (.ofRegular (Check.makePrototype_regular _ _ _))

/-- The parameters are locals of the scope of the body. -/
theorem body_restores (id : ExprId) (params : List Local) : (body grammar id params).Restores := by
  have parameters : (liftM (Check.addParameters params) : Parse Unit).Extends := by
    intro s
    change s.Extended { s with analysis := (Check.addParameters params s.analysis).2 }
    rw [Check.addParameters_apply]
    exact ⟨rfl, rfl, rfl, List.prefix_append _ _⟩
  refine .inFunction id (.inLocalScope ?_)
  exact .bind parameters fun _ => .ofRestores (Statement.body_restores framed)

theorem parse_restores (start : Span) (isExternal : Bool) :
    (parse grammar start isExternal).Restores := by
  refine .bind (prototype_restores framed) fun proto => .bind (.step .currentKind) fun kind => ?_
  dsimp only
  cases !isExternal && startsBody kind with
  | true =>
    refine .bind (.step .previousSpan) fun stop => ?_
    refine .bind (.check (Check.declareFunction_keeps _ _ _)) fun id => ?_
    refine .bind (body_restores framed _ _) fun body => ?_
    exact .bind (.check (Check.completeFunction_keeps _ _ _ _)) fun _ => .pure _
  | false =>
    refine .bind Statement.semicolon_restores fun _ => .bind (.step .previousSpan) fun stop => ?_
    exact .bind (.check (Check.declareFunction_keeps _ _ _)) fun _ => .pure _

end Function

namespace Declaration

theorem refuse_restores : refuse.Restores := by
  refine .bind .current fun token => ?_
  split
  · exact .bind (.discard .advance) fun _ => Recovery.run_restores _
  · exact .bind (.check (.tell _ _ _)) fun _ => Recovery.run_restores _

include framed

theorem byKind?_restores {kind : TokenKind} {read : Parse ExprId} {recovery : Recovery}
    (entry : byKind? grammar kind = some (read, recovery)) :
    kind = .var ∧ read = Statement.variableDeclaration grammar ∨ read.Restores := by
  unfold byKind? at entry
  split at entry
  · cases entry
    exact .inl ⟨rfl, rfl⟩
  · cases entry
    exact .inr (.bind (.step .advance) fun _ => Function.parse_restores framed _ _)
  · cases entry
    exact .inr (.bind (.step .advance) fun _ => .bind (.discard (.expect _ _)) fun _ =>
      Function.parse_restores framed _ _)
  · cases entry

/-- A declaration that fails declares nothing, and one that succeeds declares a local only where
there is a function. -/
theorem parse_declares (s : Session) :
    s.Restored (parse grammar s).2 ∨
      s.tokens.current.kind = .var ∧ (parse grammar s).1.isSome ∧
        s.Declared (parse grammar s).2 := by
  rw [parse, Step.currentKind_bind_apply]
  cases entry : byKind? grammar s.tokens.current.kind with
  | none => exact .inl (Step.Restores.bind refuse_restores (fun _ => .pure _) s)
  | some found =>
    obtain ⟨read, recovery⟩ := found
    have inside : s.Restored (read.attempt s).2 ∨
        s.tokens.current.kind = .var ∧ read.Declares s := by
      rcases byKind?_restores framed entry with ⟨var, rfl⟩ | restores
      · exact (Statement.variableDeclaration_declares framed s).imp id fun declares =>
          ⟨var, declares⟩
      · exact .inl (restores s)
    unfold Parse.Declares at inside
    dsimp only
    rw [Step.bind_apply]
    generalize read.attempt s = after at inside ⊢
    obtain ⟨result, t⟩ := after
    cases result with
    | some id => exact inside
    | none =>
      rcases inside with restored | ⟨-, found, -⟩
      · have recovers := Step.Restores.bind (Recovery.run_restores recovery)
          fun _ => .pure (none : Option ExprId)
        exact .inl (restored.trans (recovers t))
      · cases found

end Declaration

namespace Session

/-- Nothing surrounds the place: no construct that nests, no scope and no function. -/
structure Outermost (s : Session) : Prop where
  depth : s.depth = 0
  locals : s.analysis.locals = []
  scopeStart : s.analysis.scopeStart = 0
  currentFn : s.analysis.currentFn = none

variable {s t : Session}

theorem Outermost.restored (outermost : s.Outermost) (restored : s.Restored t) : t.Outermost where
  depth := restored.depth.trans outermost.depth
  locals := restored.scope.locals.trans outermost.locals
  scopeStart := restored.scope.scopeStart.trans outermost.scopeStart
  currentFn := restored.scope.currentFn.trans outermost.currentFn

include framed

/-- Outside of functions no declaration declares a local. -/
theorem readDeclaration_restored (outermost : s.Outermost) :
    s.Restored (readDeclaration grammar s).2 := by
  have declared : s.Restored (Declaration.parse grammar s).2 := by
    rcases Declaration.parse_declares framed s with restored | ⟨-, -, declared⟩
    · exact restored
    · have inFunction := declared.scope.inFunction
      rw [outermost.currentFn] at inFunction
      cases inFunction
  have added : s.Restored (addDeclaration grammar s).2 := by
    cases result : (Declaration.parse grammar s).1 with
    | none => rwa [addDeclaration_none result]
    | some id =>
      rw [addDeclaration_some result]
      exact declared.trans ⟨rfl, .refl _⟩
  rw [readDeclaration, Step.progressing_apply]
  split
  · exact added.trans (Step.Restores.advance _)
  · exact added

theorem readDeclarations_outermost (outermost : s.Outermost) (fuel : Nat) :
    (readDeclarations grammar fuel s).2.Outermost := by
  induction fuel generalizing s with
  | zero => exact outermost
  | succ fuel ih =>
    rw [readDeclarations_succ]
    split
    · exact outermost
    · exact ih (outermost.restored (readDeclaration_restored framed outermost))

end Session

end ScalarLang
