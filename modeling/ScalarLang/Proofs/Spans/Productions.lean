import ScalarLang.Parser.Program
import ScalarLang.Proofs.Parser.Program
import ScalarLang.Proofs.Spans.Actions
import ScalarLang.Proofs.Spans.Parses

/-! Every production keeps spans in order. Spans start at consumed tokens and end at tokens consumed
later, and the end token is not consumed. Only a statement that fails starts at a token that may
still be there after recovery; then its span goes back over the gap before it. -/

namespace ScalarLang

open Session

structure Grammar.Orders (source : String) (grammar : Grammar) : Prop where
  typename : ∀ s, grammar.typename.Orders source s fun _ _ => True
  binary : ∀ limit s, (grammar.binary limit).Orders source s (Behind source s.tokens.previous.start)
  primary : ∀ s, grammar.primary.Orders source s (Behind source s.tokens.previous.start)
  statement : ∀ s, grammar.statement.Orders source s fun _ _ => True
  condition : ∀ {start low s}, start.Between source low s.tokens.previous.start →
    (grammar.condition start).Orders source s fun _ _ => True

variable {source : String} {grammar : Grammar} {s : Session} {low : Position}

theorem Recovery.run_orders (recovery : Recovery) :
    recovery.run.Orders source s fun _ _ => True := by
  obtain ⟨count, run, left⟩ := recovery.run_consumes s
  exact .given fun inOrder => .congr _ run (.advanceTimes count (left inOrder.anchored.formed))

namespace TypeName

variable {inner : Parse TypeId}

theorem pointer_orders (orders : ∀ s, inner.Orders source s fun _ _ => True) (isConst : Bool)
    (more : s.tokens.current.kind ≠ .eof) :
    (pointer inner isConst).Orders source s fun _ _ => True := by
  refine .bind (.discard (.step (.advance more))) fun _ t _ _ => ?_
  refine .bind (.discard (.expect (by decide))) fun _ u _ _ => ?_
  refine .bind (orders u) fun pointee v _ _ => ?_
  exact .bind .closeAngle fun _ w _ _ => .run (.addType _)

theorem params_orders (orders : ∀ s, inner.Orders source s fun _ _ => True) (s : Session) :
    (params inner).Orders source s fun _ _ => True := by
  refine .bind (.discard (.expect (by decide))) fun _ t _ _ => ?_
  refine .bind (.step (.accept (by decide))) fun closed u _ _ => ?_
  split
  · exact .pure trivial
  · refine .look rfl <| .bind (.commaList (fun _ _ => True) (fun _ _ _ _ _ => trivial)
      (fun _ v _ _ => orders v) _ trivial) fun tys v _ _ => ?_
    exact .bind (.discard (.expect (by decide))) fun _ _ _ _ => .pure trivial

theorem function_orders (orders : ∀ s, inner.Orders source s fun _ _ => True)
    (more : s.tokens.current.kind ≠ .eof) :
    (function inner).Orders source s fun _ _ => True := by
  refine .bind (.discard (.step (.advance more))) fun _ t _ _ => ?_
  refine .bind (params_orders orders t) fun tys u _ _ => ?_
  refine .bind (.discard (.expect (by decide))) fun _ v _ _ => .bind (orders v) fun result w _ _ => ?_
  exact .run (.addType _)

theorem parse_orders (orders : ∀ s, inner.Orders source s fun _ _ => True) (s : Session) :
    (parse inner).Orders source s fun _ _ => True := by
  refine .bind (.step (.accept (by decide))) fun isConst t _ _ => ?_
  refine .given fun inOrder => .look rfl ?_
  split
  · rename_i name
    exact .bind (.discard (.step (.advance (name ▸ nofun)))) fun _ _ _ _ => .run (.addType _)
  · rename_i name
    exact .bind (.discard (.step (.advance (name ▸ nofun)))) fun _ _ _ _ => .run (.addType _)
  · rename_i name
    exact pointer_orders orders _ (name ▸ nofun)
  · rename_i name
    exact function_orders orders (name ▸ nofun)
  · rename_i wrong
    exact .bind (.discard (.step (.advance (wrong ▸ nofun)))) fun _ _ _ _ => .failure
  · exact .fail _ inOrder.anchored.told

end TypeName

namespace Expression

theorem closeParen_orders {opening : Span} (sits : opening.Sits source) (s : Session) :
    (closeParen opening).Orders source s fun _ _ => True := by
  refine .look rfl ?_
  split
  · rename_i closing
    exact .mono (.discard (.step (.advance (closing ▸ nofun)))) fun _ _ _ => trivial
  · exact .fail _ (.inl sits)
  · exact .fail _ (.inl sits)
  · exact .fail _ (.inl sits)
  · exact .mono (.discard (.expect (by decide))) fun _ _ _ => trivial

theorem abandonParenthesis_orders {start : Span}
    (took : start.Between source low s.tokens.previous.start) :
    (abandonParenthesis start).Orders source s (Behind source low) := by
  refine .bind (Recovery.run_orders _) fun _ t onward _ => .look rfl (.build (.errorExpr ?_))
  exact onward.inOrder.through (took.widen le_rfl onward.previous)

theorem group_orders (orders : grammar.Orders source) (more : s.tokens.current.kind ≠ .eof) :
    (group grammar).Orders source s (Behind source s.tokens.previous.start) := by
  refine .bind (.advance more) fun opening t onward took => ?_
  have inside : Parse.Orders source (do
      let id ← grammar.expression
      closeParen opening.span
      return id) t (Behind source t.tokens.previous.start) :=
    .bind (orders.binary _ t) fun _ u _ read => .bind (closeParen_orders took.sits u)
      fun _ _ on _ => .pure (read.on on)
  refine .bind inside fun found u on read => ?_
  cases found with
  | some id => exact .pure (Arena.Starts.widen (read id rfl) onward.previous le_rfl)
  | none => exact abandonParenthesis_orders (took.widen le_rfl on.previous)

theorem argument_orders (orders : grammar.Orders source) {opening : Span} (sits : opening.Sits source)
    (s : Session) :
    (argument grammar opening).Orders source s (Behind source s.tokens.previous.start) := by
  refine .bind (orders.binary _ s) fun id t _ read => .look rfl ?_
  split
  · exact .bind (closeParen_orders sits t) fun _ _ on _ => .pure (read.on on)
  · exact .pure read

abbrev Argued (source : String) (low : Position) (args : List ExprId) (t : Session) : Prop :=
  Check.Rising source t.analysis.arena low t.tokens.previous.start args

theorem Argued.on {args : List ExprId} {t u : Session} (onward : t.Onward source u)
    (argued : Argued source low args t) : Argued source low args u := by
  obtain ⟨starts, sorted⟩ := argued
  refine ⟨fun id member => Behind.on (starts id member) onward, ?_⟩
  refine sorted.imp_of_mem fun {first second} member after before => ?_
  rwa [Arena.At.spanOf_grow (starts first member) onward.grows,
    Arena.At.spanOf_grow (starts second after) onward.grows]

theorem Argued.concat {args : List ExprId} {t u : Session} {id : ExprId}
    (argued : Argued source low args t) (onward : t.Onward source u)
    (read : Behind source t.tokens.previous.start id u) (behind : low ≤ t.tokens.previous.start) :
    Argued source low (args ++ [id]) u := by
  obtain ⟨starts, sorted⟩ := argued.on onward
  refine ⟨fun other member => ?_, List.pairwise_append.mpr ⟨sorted, List.pairwise_singleton _ _, ?_⟩⟩
  · rcases List.mem_append.mp member with member | member
    · exact starts other member
    · exact List.mem_singleton.mp member ▸ Arena.Starts.widen read behind le_rfl
  · intro first member other last
    have first := argued.starts first member
    rw [List.mem_singleton.mp last, Arena.At.spanOf_grow first onward.grows]
    exact le_trans first.spanOf.before read.spanOf.after

theorem arguments_orders (orders : grammar.Orders source) (more : s.tokens.current.kind ≠ .eof) :
    (arguments grammar).Orders source s (Argued source s.tokens.previous.start) := by
  refine .bind (.step (.advance more)) fun opening t onward took => ?_
  refine .bind (.step (.accept (by decide))) fun closed u on _ => ?_
  have none (v : Session) : Argued source s.tokens.previous.start [] v := ⟨nofun, .nil⟩
  split
  · exact .pure (none u)
  · refine .look rfl (.commaList _ (fun _ _ _ on argued => argued.on on) ?_ _ (none u))
    intro before v further argued
    have behind := ((onward.trans on).trans further).previous
    exact .mono (argument_orders orders took.sits v).onward fun id w ⟨on, read⟩ =>
      argued.concat on read behind

theorem call_orders (orders : grammar.Orders source) {name : Token} (took : Took source low name s)
    (more : s.tokens.current.kind ≠ .eof) :
    (call grammar name).Orders source s (Behind source low) := by
  refine .bind (arguments_orders orders more) fun found t onward argued => ?_
  have took := Took.on took onward
  cases found with
  | none => exact abandonParenthesis_orders took
  | some args =>
    refine .look rfl (.build (Check.buildCall_orders _ (argued args rfl) ?_ ?_))
    · exact onward.inOrder.through took
    · exact onward.inOrder.anchored.previous

theorem named_orders (orders : grammar.Orders source) (more : s.tokens.current.kind ≠ .eof) :
    (named grammar).Orders source s (Behind source s.tokens.previous.start) := by
  refine .bind (.advance more) fun name t _ took => .look rfl ?_
  split
  · rename_i opening
    exact call_orders orders took (opening ▸ nofun)
  · refine .bind (.build (Check.buildRead_orders _ took)) fun id u onward read => .look rfl ?_
    have took := Took.on took onward
    split
    · rename_i steps
      refine .bind (.advance fun last => ?_) fun operator v on later => ?_
      · rw [last] at steps
        cases steps
      · exact .build (Check.buildUnary_orders _ _ (took.through later))
    · exact .pure read

theorem unary_orders (orders : grammar.Orders source) (op : UnaryOp)
    (more : s.tokens.current.kind ≠ .eof) :
    (unary grammar op).Orders source s (Behind source s.tokens.previous.start) := by
  refine .bind (.step (.advance more)) fun operator t _ took => ?_
  refine .bind (orders.primary t) fun child u on read => .look rfl ?_
  exact .build (Check.buildUnary_orders _ _ (took.through read.spanOf))

theorem primary_orders (orders : grammar.Orders source) (s : Session) :
    (primary grammar).Orders source s (Behind source s.tokens.previous.start) := by
  refine .given fun inOrder => .look rfl ?_
  split
  · rename_i literal
    exact .bind (.skipCurrent (literal ▸ nofun)) fun _ _ _ took =>
      .build (Check.buildLiteral_orders _ _ took)
  · rename_i name
    exact .step (named_orders orders (name ▸ nofun))
  · rename_i opening
    exact .step (group_orders orders (opening ▸ nofun))
  · rename_i wrong
    exact .bind (.skipCurrent (wrong ▸ nofun)) fun _ _ _ took => .build (.errorExpr took)
  · split
    · rename_i leads
      refine unary_orders orders _ fun last => ?_
      rw [last] at leads
      cases leads
    · exact .fail _ inOrder.anchored.told

theorem join_orders (orders : grammar.Orders source) {lhs : ExprId} (connective : Connective)
    (read : Behind source low lhs s) :
    (join grammar lhs connective).Orders source s (Behind source low) := by
  have place := read.spanOf
  refine .look rfl ?_
  cases connective with
  | conversion =>
    refine .bind (orders.typename s) fun target t on _ => .look rfl ?_
    refine .build (Check.castTo_orders (read.on on) _ ?_)
    exact on.inOrder.through (place.widen le_rfl on.previous)
  | assignment op =>
    refine .bind (orders.binary _ s) fun rhs t on right => ?_
    exact .build (Check.buildAssignment_orders (Arena.At.grow read on.grows) op right)
  | operation op =>
    refine .bind (orders.binary _ s) fun rhs t on right => .look rfl ?_
    have behind : low ≤ s.tokens.previous.start := le_trans place.after place.before
    have right' := Arena.Starts.widen right behind le_rfl
    exact .build (Check.buildBinary_orders (read.on on) op right' (place.through right.spanOf))

theorem extend_orders (orders : grammar.Orders source) {lhs : ExprId} (connective : Connective)
    (read : Behind source low lhs s) (more : s.tokens.current.kind ≠ .eof) :
    (extend grammar lhs connective).Orders source s (Behind source low) :=
  .bind (.discard (.step (.advance more))) fun _ _ on _ => join_orders orders connective (read.on on)

theorem climb_orders (orders : grammar.Orders source) (limit : Nat) {lhs : ExprId} (fuel : Nat)
    (read : Behind source low lhs s) :
    (climb grammar limit lhs fuel).Orders source s (Behind source low) := by
  induction fuel generalizing s lhs with
  | zero => exact .pure read
  | succ fuel ih =>
    refine .look rfl ?_
    split
    · exact .pure read
    · rename_i found
      split
      · exact .pure read
      · refine .bind (extend_orders orders _ read fun last => ?_) fun _ _ _ read => ih read
        rw [last] at found
        cases found

theorem binary_orders (orders : grammar.Orders source) (limit : Nat) (s : Session) :
    (binary grammar limit).Orders source s (Behind source s.tokens.previous.start) :=
  .bind (primary_orders orders s) fun _ _ _ read => .look rfl (climb_orders orders limit _ read)

end Expression

namespace Statement

theorem semicolon_orders : semicolon.Orders source s fun _ _ => True :=
  .mono (.discard (.expect (by decide))) fun _ _ _ => trivial

theorem expression_orders (orders : grammar.Orders source) (s : Session) :
    (expression grammar).Orders source s fun _ _ => True := by
  refine .bind (orders.binary _ s) fun id t _ read => .bind semicolon_orders fun _ u on _ => ?_
  exact .bind (.run (Check.checkUsed_orders (read.on on))) fun _ _ _ _ => .pure trivial

theorem after_orders {α : Type} {kind : TokenKind} {parse : Parse α} {post : α → Session → Prop}
    (notLast : kind ≠ .eof) (orders : ∀ t, s.Onward source t → parse.Orders source t post) :
    (after kind parse).Orders source s fun found t => ∀ x ∈ found, post x t := by
  refine .bind (.step (.accept notLast)) fun taken t onward _ => ?_
  split
  · refine .bind (orders t onward) fun x u _ holds => .pure ?_
    rintro y ⟨⟩
    exact holds
  · exact .pure nofun

theorem variableDeclaration_orders (orders : grammar.Orders source)
    (more : s.tokens.current.kind ≠ .eof) :
    (variableDeclaration grammar).Orders source s fun _ _ => True := by
  refine .bind (.step (.advance more)) fun start t _ took => ?_
  refine .bind (.expect (by decide)) fun name u on named => ?_
  refine .bind (after_orders (by decide) fun t _ => orders.typename t) fun declared v onTwo _ => ?_
  have init : (after .assignment grammar.expression).Orders source v
      (MaybeBehind source v.tokens.previous.start) :=
    after_orders (by decide) fun w further => .mono (orders.binary _ w) fun _ _ read =>
      Arena.Starts.widen read further.previous le_rfl
  refine .bind init fun init w onThree read => .bind semicolon_orders fun _ x onFour _ => .look rfl ?_
  have read : MaybeBehind source v.tokens.previous.start init x := fun id member =>
    (read id member).on onFour
  have took := Took.on took (((on.trans onTwo).trans onThree).trans onFour)
  have place := (onFour.inOrder.through took).sits
  exact .run (Check.declareVariable_orders named.sits declared read place)

/-- Where nothing was consumed, a failed statement is left with the gap before it. -/
theorem recovered_orders (orders : grammar.Orders source) (s : Session) :
    (recovered grammar).Orders source s fun _ _ => True := by
  refine .given fun inOrder => .look rfl <| .bind (orders.statement s) fun found t onward _ => ?_
  cases found with
  | some id => exact .pure trivial
  | none =>
    refine .bind (Recovery.run_orders _) fun _ u on _ => .look rfl ?_
    have reached := onward.trans on
    have place : (s.tokens.current.span.through u.tokens.previous).Ordered ∨
        (s.tokens.current.span.through u.tokens.previous).Gap source := by
      rcases reached.past with same | later
      · rw [same]
        exact inOrder.follows.back inOrder.tokens
      · exact .inl (le_trans later reached.inOrder.tokens.previous)
    exact .run (.errorAt place)

theorem untilClosed_orders (orders : grammar.Orders source) {opening : Span}
    (sits : opening.Sits source) (fuel : Nat) (s : Session) :
    (untilClosed grammar opening fuel).Orders source s fun _ _ => True := by
  induction fuel generalizing s with
  | zero => exact .fail _ (.inl sits)
  | succ fuel ih =>
    refine .look rfl ?_
    split
    · rename_i closing
      exact .bind (.discard (.step (.advance (closing ▸ nofun)))) fun _ _ _ _ => .pure trivial
    · exact .fail _ (.inl sits)
    · rename_i more
      refine .bind (.step (.progressing more (recovered_orders orders s))) fun id t _ _ => ?_
      exact .bind (ih t) fun ids u _ _ => .pure trivial

theorem scope_orders (orders : grammar.Orders source) (s : Session) :
    (scope grammar).Orders source s fun _ _ => True := by
  refine .bind (.expect (by decide)) fun opening t _ took => .inLocalScope (.look rfl ?_)
  refine .bind (untilClosed_orders orders took.sits _ _) fun ids u on _ => .look rfl ?_
  exact .run (Check.buildScope_orders ids (on.inOrder.through (took.widen le_rfl on.previous)))

theorem body_orders (orders : grammar.Orders source) (s : Session) :
    (body grammar).Orders source s fun _ _ => True := by
  refine .look rfl ?_
  split
  · exact scope_orders orders s
  · rename_i colon
    have more : s.tokens.current.kind ≠ .eof := of_not_not colon ▸ nofun
    refine .bind (.step (.advance more)) fun colon t _ took => ?_
    refine .bind (.step (.inLocalScope (recovered_orders orders _))) fun id u on _ => .look rfl ?_
    exact .run (Check.buildScope_orders [id] (on.inOrder.through (took.on on)))

theorem otherwise_orders (orders : grammar.Orders source) (s : Session) :
    (otherwise grammar).Orders source s fun _ _ => True := by
  refine .look rfl ?_
  split
  · rename_i branch
    refine .bind (.step (.advance (branch ▸ nofun))) fun start t _ took => ?_
    exact .bind (orders.condition took) fun _ _ _ _ => .pure trivial
  · rename_i branch
    refine .bind (.discard (.step (.advance (branch ▸ nofun)))) fun _ t _ _ => ?_
    exact .bind (body_orders orders t) fun _ _ _ _ => .pure trivial
  · exact .pure trivial

theorem condition_orders (orders : grammar.Orders source) {start : Span}
    (took : start.Between source low s.tokens.previous.start) :
    (condition grammar start).Orders source s fun _ _ => True := by
  refine .bind (orders.binary _ s) fun cond t on read => ?_
  refine .bind (.run (Check.checkCondition_orders read)) fun _ u onTwo _ => ?_
  refine .bind (body_orders orders u) fun thenBranch v onThree _ => ?_
  refine .bind (otherwise_orders orders v) fun branch w onFour _ => .look rfl ?_
  have reached := ((on.trans onTwo).trans onThree).trans onFour
  exact .run (Check.buildCondition_orders _ _ _
    (reached.inOrder.through (took.widen le_rfl reached.previous)))

theorem returnValue_orders (orders : grammar.Orders source) (s : Session) :
    (returnValue grammar).Orders source s (MaybeBehind source s.tokens.previous.start) := by
  refine .look rfl ?_
  split
  · exact .pure nofun
  · refine .bind (orders.binary _ s) fun id t _ read => .pure ?_
    rintro other ⟨⟩
    exact read

theorem returnStatement_orders (orders : grammar.Orders source)
    (more : s.tokens.current.kind ≠ .eof) :
    (returnStatement grammar).Orders source s fun _ _ => True := by
  refine .bind (.step (.advance more)) fun start t _ took => ?_
  refine .bind (returnValue_orders orders t) fun value u on read => ?_
  refine .bind semicolon_orders fun _ v onTwo _ => .look rfl ?_
  have read : MaybeBehind source t.tokens.previous.start value v := fun id member =>
    (read id member).on onTwo
  have place := (onTwo.inOrder.through (Took.on took (on.trans onTwo))).sits
  exact .run (Check.buildReturn_orders _ read place)

theorem parse_orders (orders : grammar.Orders source) (s : Session) :
    (parse grammar).Orders source s fun _ _ => True := by
  refine .look rfl ?_
  split
  · rename_i starts
    exact variableDeclaration_orders orders (starts ▸ nofun)
  · rename_i starts
    exact .bind (.step (.advance (starts ▸ nofun))) fun _ t _ took => condition_orders orders took
  · rename_i starts
    exact returnStatement_orders orders (starts ▸ nofun)
  · exact scope_orders orders s
  · exact expression_orders orders s

end Statement

namespace Grammar

theorem refusal_orders {α : Type} {post : α → Session → Prop} (s : Session) :
    (refusal : Parse α).Orders source s post :=
  .given fun inOrder => .look rfl (.fail _ inOrder.anchored.told)

theorem ofLevels_orders (source : String) (levels : Nat) : (ofLevels levels).Orders source := by
  induction levels with
  | zero =>
    exact ⟨fun s => refusal_orders s, fun _ s => refusal_orders s, fun s => refusal_orders s,
      fun s => refusal_orders s, fun {_ _ s} _ => refusal_orders s⟩
  | succ levels ih =>
    constructor
    · exact fun s => .deeper (TypeName.parse_orders ih.typename _) fun _ _ _ => trivial
    · exact fun limit s => .deeper (Expression.binary_orders ih limit _) fun _ _ read => read
    · exact fun s => .deeper (Expression.primary_orders ih _) fun _ _ read => read
    · exact fun s => .deeper (Statement.parse_orders ih _) fun _ _ _ => trivial
    · exact fun took => .deeper (Statement.condition_orders ih took) fun _ _ _ => trivial

end Grammar

namespace Function

theorem parameter_orders (orders : grammar.Orders source) (before : List Local) (s : Session) :
    (parameter grammar before).Orders source s fun param _ => param.span.Sits source := by
  refine .bind (.expect (by decide)) fun name t _ named => ?_
  refine .bind (.discard (.expect (by decide))) fun _ u _ _ => ?_
  refine .bind (orders.typename u) fun ty v _ _ => ?_
  exact .mono (.check (Check.declareParameter_orders _ named.sits ty)) fun _ _ given => given.1

theorem params_orders (orders : grammar.Orders source) (s : Session) :
    (params grammar).Orders source s fun params _ => ∀ param ∈ params, param.span.Sits source := by
  refine .bind (.step (.accept (by decide))) fun closed t _ _ => ?_
  split
  · exact .pure nofun
  · have each (before : List Local) (u : Session)
        (placed : ∀ param ∈ before, param.span.Sits source) :
        (parameter grammar before).Orders source u fun param _ =>
          ∀ other ∈ before ++ [param], other.span.Sits source :=
      .mono (parameter_orders orders before u) fun param _ ordered =>
        List.forall_mem_append.mpr ⟨placed, List.forall_mem_singleton.mpr ordered⟩
    let known (params : List Local) (_ : Session) : Prop := ∀ param ∈ params, param.span.Sits source
    refine .look rfl <| .bind (.commaList known (fun _ _ _ _ placed => placed)
      (fun before u _ => each before u) _ nofun) fun params u _ placed => ?_
    exact .bind (.discard (.expect (by decide))) fun _ _ _ _ => .pure placed

theorem result_orders (orders : grammar.Orders source) (s : Session) :
    (result grammar).Orders source s fun _ _ => True := by
  refine .bind (.step (.accept (by decide))) fun taken t _ _ => ?_
  split
  · exact orders.typename t
  · exact .run (.addType _)

theorem prototype_orders (orders : grammar.Orders source) (s : Session) :
    (prototype grammar).Orders source s fun proto _ => Check.Placed source proto := by
  refine .bind (.expect (by decide)) fun name t _ named => ?_
  refine .bind (.discard (.expect (by decide))) fun _ u _ _ => ?_
  refine .bind (params_orders orders u) fun params v _ placed => ?_
  refine .bind (result_orders orders v) fun ty w _ _ => ?_
  exact .mono (.check (Check.makePrototype_orders named.sits placed ty)) fun _ _ given => given.1

theorem body_orders (orders : grammar.Orders source) (id : ExprId) {params : List Local}
    (placed : ∀ param ∈ params, param.span.Sits source) :
    (body grammar id params).Orders source s fun _ _ => True :=
  .inFunction (.inLocalScope (.bind (.run (Check.addParameters_orders placed)) fun _ t _ _ =>
    Statement.body_orders orders t))

theorem parse_orders (orders : grammar.Orders source) {start : Span} (isExternal : Bool)
    (took : start.Between source low s.tokens.previous.start) :
    (parse grammar start isExternal).Orders source s fun _ _ => True := by
  refine .bind (prototype_orders orders s) fun proto t onward placed => .look rfl ?_
  dsimp only
  have declared (hasBody : Bool) (u : Session) (on : t.Onward source u) : Parse.Orders source (do
      let span := start.through (← Step.previousSpan)
      let id ← Check.declareFunction proto hasBody span
      if hasBody then
        let body ← body grammar id proto.params
        Check.completeFunction proto id body span
      return id) u fun _ _ => True := by
    have reached := onward.trans on
    have place := (reached.inOrder.through (took.widen le_rfl reached.previous)).sits
    refine .look rfl <| .bind (.run (Check.declareFunction_orders placed hasBody place)) ?_
    intro id v _ _
    split
    · refine .bind (body_orders orders id placed.params) fun body w _ _ => ?_
      exact .bind (.run (Check.completeFunction_orders _ _ _ place)) fun _ x _ _ => .pure trivial
    · exact .pure trivial
  refine .given fun inOrder => ?_
  split
  · exact .bind Statement.semicolon_orders fun _ u on _ => declared _ u on
  · exact declared _ t inOrder.refl

end Function

namespace Declaration

theorem byKind?_orders (orders : grammar.Orders source) {kind : TokenKind} {parse : Parse ExprId}
    {recovery : Recovery} (found : byKind? grammar kind = some (parse, recovery))
    (more : s.tokens.current.kind ≠ .eof) : parse.Orders source s fun _ _ => True := by
  unfold byKind? at found
  split at found <;> cases found
  · exact Statement.variableDeclaration_orders orders more
  · exact .bind (.step (.advance more)) fun _ t _ took => Function.parse_orders orders _ took
  · exact .bind (.step (.advance more)) fun _ t _ took =>
      .bind (.discard (.expect (by decide))) fun _ u on _ =>
        Function.parse_orders orders _ (Took.on took on)

theorem refuse_orders (s : Session) : refuse.Orders source s fun _ _ => True := by
  refine .given fun inOrder => .look rfl ?_
  split
  · rename_i wrong
    exact .bind (.discard (.advance (wrong ▸ nofun))) fun _ _ _ _ => Recovery.run_orders _
  · exact .bind (.run (.tell _ _ inOrder.anchored.told)) fun _ _ _ _ => Recovery.run_orders _

theorem parse_orders (orders : grammar.Orders source) (s : Session) :
    (parse grammar).Orders source s fun _ _ => True := by
  refine .look rfl ?_
  split
  · exact .bind (refuse_orders s) fun _ _ _ _ => .pure trivial
  · rename_i parse recovery found
    have more : s.tokens.current.kind ≠ .eof := fun last => by
      rw [last] at found
      cases found
    refine .bind (byKind?_orders orders found more) fun result t _ _ => ?_
    cases result with
    | some id => exact .pure trivial
    | none => exact .bind (Recovery.run_orders _) fun _ _ _ _ => .pure trivial

end Declaration

namespace Session

theorem addDeclaration_orders (orders : grammar.Orders source) (s : Session) :
    (addDeclaration grammar).Orders source s fun _ _ => True := by
  refine .bind (Declaration.parse_orders orders s) fun found t _ _ => ?_
  cases found with
  | none => exact .pure trivial
  | some id =>
    intro inOrder
    change t.Onward source (addToProgram id t).2 ∧ True
    rw [addToProgram_apply]
    exact ⟨⟨⟨inOrder.tokens, inOrder.follows, inOrder.anchored, inOrder.orderly⟩, .refl _, le_rfl,
      .refl _⟩, trivial⟩

theorem readDeclarations_orders (orders : grammar.Orders source) (fuel : Nat) (s : Session) :
    (readDeclarations grammar fuel).Orders source s fun _ _ => True := by
  induction fuel generalizing s with
  | zero => exact .pure trivial
  | succ fuel ih =>
    refine .look rfl ?_
    split
    · exact .pure trivial
    · rename_i more
      have more : s.tokens.current.kind ≠ .eof := by simpa [atEnd] using more
      exact .bind (.progressing more (addDeclaration_orders orders s)) fun _ t _ _ => ih t

/-- Everything that is known of a source is at a span in it. -/
theorem parse_orderly (source : String) : (parse source).analysis.Orderly source := by
  by_cases empty : (scan source).1 = []
  · have idle : parse source = ofSource source := by
      change (readDeclarations _ (scan source).1.length (ofSource source)).2 = _
      rw [empty]
      rfl
    rw [idle]
    exact ofSource_orderly source
  · have reads := readDeclarations_orders (Grammar.ofLevels_orders source nestingLimit)
      (scan source).1.length (ofSource source)
    exact (reads (ofSource_inOrder empty)).1.inOrder.orderly

/-- Every diagnostic is at a span in order, and so is every expression but for those errors that stand
in a gap, for a statement of which nothing was consumed. -/
theorem parse_spansOrdered (source : String) :
    (∀ diagnostic ∈ (parse source).analysis.report.diagnostics,
      diagnostic.span.start ≤ diagnostic.span.stop) ∧
    ∀ id node, (parse source).analysis.arena.node? id = some node →
      node.span.start ≤ node.span.stop ∨ node.kind = .error ∧ node.span.Gap source := by
  have orderly := parse_orderly source
  refine ⟨fun diagnostic member => (orderly.diagnostics diagnostic member).ordered, ?_⟩
  intro id node found
  rcases orderly.nodes id node found with sits | ⟨wrong, ordered | gap⟩
  · exact .inl sits.ordered
  · exact .inl ordered
  · exact .inr ⟨wrong, gap⟩

set_option maxRecDepth 100000 in
/-- A statement cannot start with the keyword of a function, which is not skipped either. The error
that stands for it goes back to the brace before it. -/
theorem parse_spansOrdered_function :
    let source := "fn f() \x7b fn \x7d"
    ∃ id node, (parse source).analysis.arena.node? id = some node ∧
      ¬ node.span.start ≤ node.span.stop ∧ node.span.Gap source := by
  intro source
  have placed : ((parse source).analysis.arena.node? ⟨1⟩).map (fun node =>
      (node.span.start, node.span.stop)) = some (⟨1, 9, source⟩, ⟨1, 8, source⟩) := by decide +kernel
  obtain ⟨node, found, place⟩ := Option.map_eq_some_iff.mp placed
  obtain ⟨start, stop⟩ := Prod.mk.inj place
  have backward : ¬ node.span.start ≤ node.span.stop := by
    rw [start, stop, Position.le_iff]
    decide
  exact ⟨_, node, found, backward,
    (((parse_spansOrdered source).2 _ node found).resolve_left backward).2⟩

end Session

end ScalarLang
