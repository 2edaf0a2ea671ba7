import ScalarLang.Parser.Program
import ScalarLang.Proofs.Reach.Run
import ScalarLang.Proofs.Reach.Turns
import ScalarLang.Proofs.Simulation.Within

/-! Every production makes a run, gives parts of the arena, and fails only after an error was
reported. Statements complete no definition: while the body of a function is read, the function
itself is still without one, and so is every other prototype. -/

namespace ScalarLang

variable {id : ExprId}

namespace Analysis

variable {adds : Additions} {a b : Analysis}

theorem ChangeOf.isPrototype (change : a.ChangeOf adds .statement b) (proto : a.arena.IsPrototype id) :
    b.arena.IsPrototype id := by
  obtain ⟨name, params, returns, kind⟩ := proto
  have known : a.arena.kind id ≠ .error := by
    rw [kind]
    nofun
  cases change with
  | addType => exact ⟨name, params, returns, (Arena.kind_addType known _).trans kind⟩
  | addNode => exact ⟨name, params, returns, (Arena.kind_addNode known _).trans kind⟩
  | rename _ outside | complete _ outside | addFunction _ _ outside => cases outside
  | @addReturn other name' params' body' returns' result _ definition =>
    have set := Arena.kind_setKind known other (.fnDef name' params' body' (returns' ++ [result]))
    by_cases here : id = other
    · subst here
      cases kind.symm.trans definition
      exact ⟨_, _, _, set.trans (if_pos rfl)⟩
    · exact ⟨name, params, returns, (set.trans (if_neg here)).trans kind⟩
  | error | warning | message | addLocal | addGlobal => exact ⟨name, params, returns, kind⟩

end Analysis

namespace Simulation

/-- One and the same parse as long as the definition has no body. -/
abbrev keepingPrototype (id : ExprId) : Simulation :=
  within (fun _ => True) fun s => s.analysis.arena.IsPrototype id

theorem keepingPrototype_sound (id : ExprId) : (keepingPrototype id).SoundStatements :=
  have lasts : Session.Lasts (fun _ => True) .any .statement
      fun s => s.analysis.arena.IsPrototype id :=
    .ofAny (fun _ proto => proto) (fun _ _ _ proto => proto) fun change => change.isPrototype
  within_statements lasts nofun fun _ _ _ _ proto => proto

theorem keepingPrototype_grammars (id : ExprId) (levels : Nat) :
    (keepingPrototype id).Grammars (.ofLevels levels) (.ofLevels levels) :=
  (keepingPrototype_sound id).levels (within_deepens fun _ _ proto => proto) levels

end Simulation

/-- The body of a function leaves the function without a body. -/
theorem Function.body_isPrototype {grammar : Grammar}
    (parts : (Simulation.keepingPrototype id).Grammars grammar grammar) (function : ExprId)
    (params : List Local) {s : Session} (proto : s.analysis.arena.IsPrototype id) :
    ((body grammar function params).attempt s).2.analysis.arena.IsPrototype id := by
  have same : List.Forall₂ Eq params params := List.forall₂_same.mpr fun _ _ => rfl
  have sound := Simulation.keepingPrototype_sound id
  exact (sound.functionBodies parts rfl same s s ⟨rfl, proto⟩).2.2

abbrev Check.Typed (ty : TypeId) (b : Analysis) : Prop := b.arena.types.Has ty

abbrev Check.Scope (id : ExprId) (b : Analysis) : Prop := b.arena.IsScope id

namespace Session.Run

variable {s t : Session}

theorem part (run : s.Run t) {id : ExprId} (part : s.analysis.arena.HasPart id) :
    t.analysis.arena.HasPart id :=
  part.grow run.grows

theorem typed (run : s.Run t) {ty : TypeId} (typed : s.analysis.arena.types.Has ty) :
    t.analysis.arena.types.Has ty :=
  typed.grow run.grows.types

theorem scope (run : s.Run t) {id : ExprId} (scope : s.analysis.arena.IsScope id) :
    t.analysis.arena.IsScope id :=
  scope.grow run.grows

end Session.Run

structure Grammar.Safe (grammar : Grammar) : Prop where
  typename : ∀ s, grammar.typename.Safe s Check.Typed
  binary : ∀ limit s, (grammar.binary limit).Safe s Check.Part
  primary : ∀ s, grammar.primary.Safe s Check.Part
  statement : ∀ s, grammar.statement.Safe s Check.Part
  condition : ∀ start s, (grammar.condition start).Safe s Check.Part
  prototypes : ∀ id, (Simulation.keepingPrototype id).Grammars grammar grammar

variable {s : Session} {grammar : Grammar}

theorem Recovery.run_safe (recovery : Recovery) : recovery.run.Safe s fun _ _ => True := by
  obtain ⟨count, run, -⟩ := recovery.run_consumes s
  exact .congr _ run (.advanceTimes count)

namespace TypeName

variable {inner : Parse TypeId}

theorem pointer_safe (safe : ∀ s, inner.Safe s Check.Typed) (isConst : Bool) (s : Session) :
    (pointer inner isConst).Safe s Check.Typed := by
  refine .bind (.drop (.step .advance)) fun _ t _ _ => ?_
  refine .bind (.drop (.expect _ _)) fun _ u _ _ => .bind (safe u) fun pointee v _ typed => ?_
  refine .bind .closeAngle fun _ w run _ => .check (.mono (.addType nofun ?_) fun _ _ added => added.1)
  exact fun part member => List.mem_singleton.mp member ▸ run.typed typed

theorem params_safe (safe : ∀ s, inner.Safe s Check.Typed) (s : Session) :
    (params inner).Safe s fun tys b => ∀ ty ∈ tys, Check.Typed ty b := by
  refine .bind (.drop (.expect _ _)) fun _ t _ _ => .bind (.step (.accept _)) fun closed u _ _ => ?_
  split
  · exact .pure nofun
  · refine .look rfl <| .bind (.commaList (fun _ _ _ run => run.typed) (fun _ v _ => safe v) _ nofun)
      fun tys v _ typed => ?_
    exact .bind (.drop (.expect _ _)) fun _ w run _ => .pure fun ty member =>
      run.typed (typed ty member)

theorem function_safe (safe : ∀ s, inner.Safe s Check.Typed) (s : Session) :
    (function inner).Safe s Check.Typed := by
  refine .bind (.drop (.step .advance)) fun _ t _ _ => ?_
  refine .bind (params_safe safe t) fun tys u _ typed => ?_
  refine .bind (.drop (.expect _ _)) fun _ v run _ => .bind (safe v) fun result w runOn returns => ?_
  refine .check (.mono (.addType nofun fun part member => ?_) fun _ _ added => added.1)
  rcases List.mem_cons.mp member with rfl | member
  · exact returns
  · exact runOn.typed (run.typed (typed part member))

theorem parse_safe (safe : ∀ s, inner.Safe s Check.Typed) (s : Session) :
    (parse inner).Safe s Check.Typed := by
  refine .bind (.step (.accept _)) fun isConst t _ _ => .look rfl ?_
  split
  · exact .bind (.drop (.step .advance)) fun _ _ _ _ =>
      .check (.mono (.addType nofun nofun) fun _ _ added => added.1)
  · exact .bind (.drop (.step .advance)) fun _ _ _ _ =>
      .check (.mono (.addType nofun nofun) fun _ _ added => added.1)
  · exact pointer_safe safe _ t
  · exact function_safe safe t
  · rename_i wrong
    exact .errorToken wrong
  · exact .fail rfl _

end TypeName

namespace Expression

theorem closeParen_safe (opening : Span) (s : Session) :
    (closeParen opening).Safe s fun _ _ => True := by
  refine .look rfl ?_
  split
  · exact .drop (.step .advance)
  · exact .fail rfl _
  · exact .fail rfl _
  · exact .fail rfl _
  · exact .drop (.expect _ _)

/-- Parentheses are abandoned after an error only. -/
theorem abandonParenthesis_safe (start : Span) (blamed : 0 < s.analysis.errors) :
    (abandonParenthesis start).Safe s Check.Part :=
  .bind (Recovery.run_safe _) fun _ _ run _ => .look rfl <|
    .check (.errorExpr (Nat.lt_of_lt_of_le blamed run.errors_le) _)

theorem group_safe (safe : grammar.Safe) (s : Session) : (group grammar).Safe s Check.Part := by
  refine .bind .advance fun opening t _ _ => ?_
  dsimp only
  have inside : Parse.Safe (do
      let id ← grammar.expression
      closeParen opening.span
      return id) t Check.Part :=
    .bind (safe.binary _ t) fun _ u _ part => .bind (closeParen_safe _ u) fun _ _ run _ =>
      .pure (run.part part)
  refine .bind inside fun found u _ ⟨parts, failed⟩ => ?_
  cases found with
  | some id => exact .pure (parts id rfl)
  | none => exact abandonParenthesis_safe _ (Nat.zero_lt_of_lt (failed rfl))

theorem argument_safe (safe : grammar.Safe) (opening : Span) (s : Session) :
    (argument grammar opening).Safe s Check.Part := by
  refine .bind (safe.binary _ s) fun id t _ part => .look rfl ?_
  split
  · exact .bind (closeParen_safe _ t) fun _ _ run _ => .pure (run.part part)
  · exact .pure part

theorem arguments_safe (safe : grammar.Safe) (s : Session) :
    (arguments grammar).Safe s fun ids b => ∀ id ∈ ids, Check.Part id b := by
  refine .bind (.step .advance) fun opening t _ _ => .bind (.step (.accept _)) fun closed u _ _ => ?_
  split
  · exact .pure nofun
  · exact .look rfl (.commaList (fun _ _ _ run => run.part) (fun _ v _ => argument_safe safe _ v) _ nofun)

theorem call_safe (safe : grammar.Safe) (name : Token) (s : Session) :
    (call grammar name).Safe s Check.Part := by
  refine .bind (arguments_safe safe s) fun found t _ ⟨parts, failed⟩ => ?_
  cases found with
  | some args => exact .look rfl (.check (Check.buildCall_safe _ (parts args rfl) _ _))
  | none => exact abandonParenthesis_safe _ (Nat.zero_lt_of_lt (failed rfl))

theorem named_safe (safe : grammar.Safe) (s : Session) : (named grammar).Safe s Check.Part := by
  refine .bind .advance fun name t _ _ => .look rfl ?_
  split
  · exact call_safe safe name t
  · refine .bind (.check (Check.buildRead_safe _ _)) fun id u _ part => .look rfl ?_
    split
    · exact .bind .advance fun _ _ run _ => .check (Check.buildUnary_safe _ (run.part part) _)
    · exact .pure part

theorem unary_safe (safe : grammar.Safe) (op : UnaryOp) (s : Session) :
    (unary grammar op).Safe s Check.Part := by
  refine .bind (.step .advance) fun operator t _ _ => .bind (safe.primary t) fun child u _ part => ?_
  exact .look rfl (.check (Check.buildUnary_safe _ part _))

theorem primary_safe (safe : grammar.Safe) (s : Session) : (primary grammar).Safe s Check.Part := by
  refine .look rfl ?_
  split
  · exact .bind (.drop (.step .advance)) fun _ _ _ _ => .check (Check.buildLiteral_safe _ _ _)
  · exact .step (named_safe safe s)
  · exact .step (group_safe safe s)
  · rename_i wrong
    have blames : Parse.Safe (discard (liftM Step.advance) : Parse Unit) s fun _ b => 0 < b.errors :=
      .bind (.step .advance) fun _ _ _ more => .pure (Nat.zero_lt_of_lt (more wrong))
    exact .bind blames fun _ _ _ blamed => .check (.errorExpr blamed _)
  · split
    · exact unary_safe safe _ s
    · exact .fail rfl _

theorem join_safe (safe : grammar.Safe) {lhs : ExprId} (connective : Connective)
    (part : Check.Part lhs s.analysis) : (join grammar lhs connective).Safe s Check.Part := by
  refine .look rfl ?_
  cases connective with
  | conversion =>
    refine .bind (safe.typename s) fun target t run typed => .look rfl ?_
    exact .check (Check.castTo_safe (run.part part) typed _)
  | assignment op =>
    refine .bind (safe.binary _ s) fun rhs t run right => ?_
    exact .check (Check.buildAssignment_safe (run.part part) _ right)
  | operation op =>
    refine .bind (safe.binary _ s) fun rhs t run right => .look rfl ?_
    exact .check (Check.buildBinary_safe (run.part part) _ right _)

theorem extend_safe (safe : grammar.Safe) {lhs : ExprId} (connective : Connective)
    (part : Check.Part lhs s.analysis) : (extend grammar lhs connective).Safe s Check.Part :=
  .bind (.drop (.step .advance)) fun _ _ run _ => join_safe safe connective (run.part part)

theorem climb_safe (safe : grammar.Safe) (limit : Nat) {lhs : ExprId} (fuel : Nat)
    (part : Check.Part lhs s.analysis) : (climb grammar limit lhs fuel).Safe s Check.Part := by
  induction fuel generalizing s lhs with
  | zero => exact .pure part
  | succ fuel ih =>
    refine .look rfl ?_
    split
    · exact .pure part
    · split
      · exact .pure part
      · exact .bind (extend_safe safe _ part) fun _ _ _ part => ih part

theorem binary_safe (safe : grammar.Safe) (limit : Nat) (s : Session) :
    (binary grammar limit).Safe s Check.Part :=
  .bind (primary_safe safe s) fun _ _ _ part => .look rfl (climb_safe safe limit _ part)

end Expression

namespace Statement

theorem semicolon_safe : semicolon.Safe s fun _ _ => True := .drop (.expect _ _)

theorem expression_safe (safe : grammar.Safe) (s : Session) :
    (expression grammar).Safe s Check.Part := by
  refine .bind (safe.binary _ s) fun id t _ part => .bind semicolon_safe fun _ u run _ => ?_
  exact .bind (.check (Check.checkUsed_safe _)) fun _ _ runOn _ => .pure (runOn.part (run.part part))

theorem after_safe {α : Type} {kind : TokenKind} {parse : Parse α} {post : α → Analysis → Prop}
    (safe : ∀ s, parse.Safe s post) (s : Session) :
    (after kind parse).Safe s fun found b => ∀ x ∈ found, post x b := by
  refine .bind (.step (.accept _)) fun taken t _ _ => ?_
  split
  · refine .bind (safe t) fun x u _ holds => .pure ?_
    rintro y ⟨⟩
    exact holds
  · exact .pure nofun

theorem variableDeclaration_safe (safe : grammar.Safe) (s : Session) :
    (variableDeclaration grammar).Safe s Check.Part := by
  refine .bind (.step .advance) fun start t _ _ => .bind (.expect _ _) fun name u _ _ => ?_
  refine .bind (after_safe safe.typename u) fun declared v _ typed => ?_
  refine .bind (after_safe (safe.binary _) v) fun init w run part => ?_
  refine .bind semicolon_safe fun _ x runOn _ => .look rfl (.check (Check.declareVariable_safe _ ?_ ?_ _))
  · exact fun ty member => runOn.typed (run.typed (typed ty member))
  · exact fun id member => runOn.part (part id member)

theorem recovered_safe (safe : grammar.Safe) (s : Session) :
    (recovered grammar).Safe s Check.Part := by
  refine .look rfl <| .bind (safe.statement s) fun found t _ ⟨parts, failed⟩ => ?_
  cases found with
  | some id => exact .pure (parts id rfl)
  | none =>
    refine .bind (Recovery.run_safe _) fun _ u run _ => .look rfl (.check (.errorExpr ?_ _))
    exact Nat.lt_of_lt_of_le (Nat.zero_lt_of_lt (failed rfl)) run.errors_le

theorem untilClosed_safe (safe : grammar.Safe) (opening : Span) (fuel : Nat) (s : Session) :
    (untilClosed grammar opening fuel).Safe s fun ids b => ∀ id ∈ ids, Check.Part id b := by
  induction fuel generalizing s with
  | zero => exact .fail rfl _
  | succ fuel ih =>
    refine .look rfl ?_
    split
    · exact .bind (.drop (.step .advance)) fun _ _ _ _ => .pure nofun
    · exact .fail rfl _
    · refine .bind (.step (.progressing (recovered_safe safe s) fun _ _ _ run => run.part))
        fun id t _ part => .bind (ih t) fun ids u run parts => .pure fun other member => ?_
      rcases List.mem_cons.mp member with rfl | member
      · exact run.part part
      · exact parts other member

theorem scope_safe (safe : grammar.Safe) (s : Session) : (scope grammar).Safe s Check.Scope := by
  refine .bind (.expect _ _) fun opening t _ _ => .inLocalScope ?_ fun _ _ _ run => run.scope
  refine .look rfl <| .bind (untilClosed_safe safe _ _ _) fun ids u _ parts => ?_
  exact .look rfl (.check (Check.buildScope_safe parts _))

theorem body_safe (safe : grammar.Safe) (s : Session) : (body grammar).Safe s Check.Scope := by
  refine .look rfl ?_
  split
  · exact scope_safe safe s
  · refine .bind (.step .advance) fun colon t _ _ => ?_
    refine .bind (.step (.inLocalScope (recovered_safe safe _) fun _ _ _ run => run.part))
      fun id u _ part => .look rfl (.check (Check.buildScope_safe ?_ _))
    exact fun other member => List.mem_singleton.mp member ▸ part

theorem otherwise_safe (safe : grammar.Safe) (s : Session) :
    (otherwise grammar).Safe s Check.MaybePart := by
  have branch {parse : Parse ExprId} {t : Session} (safe : parse.Safe t Check.Part) :
      Parse.Safe (do return some (← parse)) t Check.MaybePart := by
    refine .bind safe fun id u _ part => .pure ?_
    rintro other ⟨⟩
    exact part
  refine .look rfl ?_
  split
  · exact .bind (.step .advance) fun _ t _ _ => branch (safe.condition _ t)
  · refine .bind (.drop (.step .advance)) fun _ t _ _ => branch ?_
    exact .mono (body_safe safe t) fun _ _ scope => scope.part
  · exact .pure nofun

theorem condition_safe (safe : grammar.Safe) (start : Span) (s : Session) :
    (condition grammar start).Safe s Check.Part := by
  refine .bind (safe.binary _ s) fun cond t _ condPart => ?_
  refine .bind (.check (Check.checkCondition_safe _)) fun _ u run _ => ?_
  refine .bind (body_safe safe u) fun thenBranch v runOn thenScope => ?_
  refine .bind (otherwise_safe safe v) fun branch w runLast parts => .look rfl ?_
  exact .check (Check.buildCondition_safe (runLast.part (runOn.part (run.part condPart)))
    (runLast.part thenScope.part) parts _)

theorem returnValue_safe (safe : grammar.Safe) (s : Session) :
    (returnValue grammar).Safe s Check.MaybePart := by
  refine .look rfl ?_
  split
  · exact .pure nofun
  · refine .bind (safe.binary _ s) fun id t _ part => .pure ?_
    rintro other ⟨⟩
    exact part

theorem returnStatement_safe (safe : grammar.Safe) (s : Session) :
    (returnStatement grammar).Safe s Check.Part := by
  refine .bind (.step .advance) fun start t _ _ => .bind (returnValue_safe safe t) fun value u _ part => ?_
  refine .bind semicolon_safe fun _ v run _ => .look rfl (.check (Check.buildReturn_safe _ ?_ _))
  exact fun id member => run.part (part id member)

theorem parse_safe (safe : grammar.Safe) (s : Session) : (parse grammar).Safe s Check.Part := by
  refine .look rfl ?_
  split
  · exact variableDeclaration_safe safe s
  · exact .bind (.step .advance) fun _ t _ _ => condition_safe safe _ t
  · exact returnStatement_safe safe s
  · exact .mono (scope_safe safe s) fun _ _ scope => scope.part
  · exact expression_safe safe s

end Statement

namespace Grammar

theorem refusal_safe {α : Type} {post : α → Analysis → Prop} (s : Session) :
    (refusal : Parse α).Safe s post :=
  .look rfl (.fail rfl _)

theorem ofLevels_safe (levels : Nat) : (ofLevels levels).Safe := by
  induction levels with
  | zero => exact ⟨refusal_safe, fun _ => refusal_safe, refusal_safe, refusal_safe,
      fun _ => refusal_safe, fun id => Simulation.keepingPrototype_grammars id 0⟩
  | succ levels ih =>
    exact ⟨fun s => .deeper (TypeName.parse_safe ih.typename _),
      fun limit s => .deeper (Expression.binary_safe ih limit _),
      fun s => .deeper (Expression.primary_safe ih _),
      fun s => .deeper (Statement.parse_safe ih _),
      fun start s => .deeper (Statement.condition_safe ih start _),
      fun id => Simulation.keepingPrototype_grammars id (levels + 1)⟩

end Grammar

namespace Function

theorem parameter_safe (safe : grammar.Safe) (before : List Local) (s : Session) :
    (parameter grammar before).Safe s fun param b => Check.Typed param.ty b := by
  refine .bind (.expect _ _) fun name t _ _ => .bind (.drop (.expect _ _)) fun _ u _ _ => ?_
  exact .bind (safe.typename u) fun ty v _ typed => .check (Check.declareParameter_safe _ _ typed)

theorem params_safe (safe : grammar.Safe) (s : Session) :
    (params grammar).Safe s fun params b => ∀ param ∈ params, Check.Typed param.ty b := by
  refine .bind (.step (.accept _)) fun closed t _ _ => ?_
  split
  · exact .pure nofun
  · refine .look rfl <| .bind (.commaList (fun _ _ _ run => run.typed)
      (fun before u _ => parameter_safe safe before u) _ nofun) fun params u _ typed => ?_
    exact .bind (.drop (.expect _ _)) fun _ _ run _ => .pure fun param member =>
      run.typed (typed param member)

theorem result_safe (safe : grammar.Safe) (s : Session) : (result grammar).Safe s Check.Typed := by
  refine .bind (.step (.accept _)) fun taken t _ _ => ?_
  split
  · exact safe.typename t
  · exact .check (.mono (.addType nofun nofun) fun _ _ added => added.1)

theorem prototype_safe (safe : grammar.Safe) (s : Session) :
    (prototype grammar).Safe s fun proto b => b.Shaped proto := by
  refine .bind (.expect _ _) fun name t _ _ => .bind (.drop (.expect _ _)) fun _ u _ _ => ?_
  refine .bind (params_safe safe u) fun params v _ typed => .bind (result_safe safe v) fun ty w run returns => ?_
  exact .check (Check.makePrototype_safe _ returns fun param member => run.typed (typed param member))

theorem body_safe (safe : grammar.Safe) (id : ExprId) {params : List Local}
    (typed : ∀ param ∈ params, Check.Typed param.ty s.analysis) :
    (body grammar id params).Safe s Check.Scope := by
  refine .inFunction (.inLocalScope ?_ fun _ _ _ run => run.scope) fun _ _ _ run => run.scope
  exact .bind (.check (Check.addParameters_safe typed)) fun _ t _ _ => Statement.body_safe safe t

theorem parse_safe (safe : grammar.Safe) (start : Span) (isExternal : Bool) (s : Session) :
    (parse grammar start isExternal).Safe s fun id b => b.arena.Has id := by
  refine .bind (prototype_safe safe s) fun proto t _ shaped => .look rfl ?_
  dsimp only
  have declared (hasBody : Bool) (u : Session) (run : t.Run u) : Parse.Safe (do
      let span := start.through (← Step.previousSpan)
      let id ← Check.declareFunction proto hasBody span
      if hasBody then
        let body ← body grammar id proto.params
        Check.completeFunction proto id body span
      return id) u fun id b => b.arena.Has id := by
    have shaped : u.analysis.Shaped proto := shaped.grow run.grows
    refine .look rfl <| .bind (.check (Check.declareFunction_safe shaped hasBody _)) ?_
    intro id v runOn ⟨defines, fresh⟩
    split
    · have typed (param : Local) (member : param ∈ proto.params) := runOn.typed (shaped.params param member)
      have bodySafe : (body grammar id proto.params).Safe v fun body b =>
          Check.Scope body b ∧ b.arena.IsPrototype id :=
        .also (body_safe safe id typed)
          (body_isPrototype (safe.prototypes id) id proto.params fresh)
      refine .bind bodySafe fun body w run ⟨scope, fresh⟩ => ?_
      refine .bind (.check (Check.completeFunction_safe _ fresh scope _)) fun _ x runOn _ => ?_
      exact .pure ((defines.has.grow run.grows).grow runOn.grows)
    · exact .pure defines.has
  split
  · exact .bind Statement.semicolon_safe fun _ u run _ => declared _ u run
  · exact declared _ t .refl

end Function

end ScalarLang
