import ScalarLang.Parser.Session
import ScalarLang.Proofs.Parser.Yields
import ScalarLang.Proofs.Spans.Checks

/-! Parses that keep spans in order. A parse reads on: what is consumed last never starts earlier than
what was consumed last before, and what is built starts in between. -/

namespace ScalarLang

namespace Session

variable {source : String} {s t u : Session} {low high : Position} {span : Span} {id : ExprId}

/-- The tokens and everything that is known are in the order of the source. -/
structure InOrder (source : String) (s : Session) : Prop where
  tokens : s.tokens.Upright
  follows : s.tokens.Follows source
  anchored : s.tokens.Anchored source
  orderly : s.analysis.Orderly source

/-- Tokens are read on, in order, and what was known is known. -/
structure Onward (source : String) (s t : Session) : Prop where
  inOrder : t.InOrder source
  past : s.tokens.Past t.tokens
  previous : s.tokens.previous.start ≤ t.tokens.previous.start
  grows : s.analysis.arena.Grows t.analysis.arena

theorem InOrder.refl (inOrder : s.InOrder source) : s.Onward source s :=
  ⟨inOrder, .refl _, le_rfl, .refl _⟩

theorem Onward.trans (first : s.Onward source t) (second : t.Onward source u) : s.Onward source u :=
  ⟨second.inOrder, first.past.trans second.past first.inOrder.tokens,
    le_trans first.previous second.previous, first.grows.trans second.grows⟩

/-- The expression starts behind the place, and before what was consumed last ends. -/
abbrev Behind (source : String) (low : Position) (id : ExprId) (t : Session) : Prop :=
  t.analysis.arena.Starts source low t.tokens.previous.start id

abbrev MaybeBehind (source : String) (low : Position) (found : Option ExprId) (t : Session) : Prop :=
  ∀ id ∈ found, Behind source low id t

abbrev Took (source : String) (low : Position) (token : Token) (t : Session) : Prop :=
  token.span.Between source low t.tokens.previous.start

theorem Behind.on (read : Behind source low id t) (onward : t.Onward source u) :
    Behind source low id u :=
  Arena.Starts.widen (Arena.At.grow read onward.grows) le_rfl onward.previous

theorem Took.on {token : Token} (took : Took source low token t) (onward : t.Onward source u) :
    Took source low token u :=
  took.widen le_rfl onward.previous

/-- From a consumed token to the one consumed last. -/
theorem InOrder.through (inOrder : t.InOrder source)
    (took : span.Between source low t.tokens.previous.start) :
    (span.through t.tokens.previous).Between source low t.tokens.previous.start :=
  ⟨took.after, took.before, le_trans took.before inOrder.tokens.previous, took.sits.opens,
    inOrder.anchored.previous.closes⟩

theorem ofSource_orderly (source : String) : (ofSource source).analysis.Orderly source := by
  refine ⟨fun id node found => ?_, nofun, nofun, nofun, nofun⟩
  simp [Session.ofSource, Analysis.empty, Arena.empty, Arena.node?] at found

theorem ofSource_inOrder (some : (scan source).1 ≠ []) : (ofSource source).InOrder source :=
  ⟨TokenStream.ofSource_upright source, TokenStream.ofSource_follows source,
    TokenStream.ofSource_anchored some, ofSource_orderly source⟩

end Session

variable {α β γ : Type} {source : String} {s : Session} {low : Position}

namespace Step

/-- From the session on a step keeps everything in order, and ends as is said. -/
def Orders (source : String) {α : Type} (step : Step α) (s : Session) (post : α → Session → Prop) :
    Prop :=
  s.InOrder source → s.Onward source (step s).2 ∧ post (step s).1 (step s).2

namespace Orders

variable {step : Step α} {post : α → Session → Prop}

instance : Judgement.Follows (@Orders source) (Session.InOrder source) (Session.Onward source)
    (Session.Onward source) (fun s => s) where
  iff _ _ _ := Iff.rfl
  refl inOrder := inOrder.refl
  trans first rest := first.trans rest
  keeps _ onward := onward.inOrder
  knows onward := onward
  further first rest := first.trans rest

export Judgement.Follows (given pure bind discard drop)
export Judgement.Lawful (congr mono look)

theorem check {check : Check α} {given : α → Arena → Prop}
    (orders : check.Orders source s.analysis given) :
    (liftM check : Step α).Orders source s fun x t =>
      given x t.analysis.arena ∧ t.tokens = s.tokens := by
  intro inOrder
  obtain ⟨orderly, grows, holds⟩ := orders inOrder.orderly
  exact ⟨⟨⟨inOrder.tokens, inOrder.follows, inOrder.anchored, orderly⟩, .refl _, le_rfl, grows⟩,
    holds, rfl⟩

theorem run {check : Check α} {given : α → Arena → Prop}
    (orders : check.Orders source s.analysis given) :
    (liftM check : Step α).Orders source s fun _ _ => True :=
  mono (.check orders) fun _ _ _ => trivial

theorem build {check : Check ExprId}
    (orders : check.Orders source s.analysis
      (Check.Starting source low s.tokens.previous.start)) :
    (liftM check : Step ExprId).Orders source s (Session.Behind source low) := by
  refine mono (.check orders) ?_
  rintro id t ⟨starts, same⟩
  rwa [Session.Behind, same]

/-- The token is consumed in order, and so is its fault. -/
theorem advance (more : s.tokens.current.kind ≠ .eof) :
    Step.advance.Orders source s (Session.Took source s.tokens.previous.start) := by
  intro inOrder
  have current := (inOrder.anchored.current more).sits
  have behind := inOrder.tokens.behind
  rw [advance_apply]
  have blamed : (s.analysis.blame s.tokens.current).Orderly source ∧
      s.analysis.arena.Grows (s.analysis.blame s.tokens.current).arena := by
    unfold Analysis.blame
    split
    · rename_i fault _
      obtain ⟨orderly, grows, -⟩ := Check.Orders.tell .error fault (.inl current) inOrder.orderly
      exact ⟨orderly, grows⟩
    · exact ⟨inOrder.orderly, .refl _⟩
  refine ⟨⟨⟨inOrder.tokens.advance, inOrder.follows.advance, inOrder.anchored.advance more,
    blamed.1⟩, .advance _, behind, blamed.2⟩, ?_⟩
  exact ⟨behind, le_rfl, current⟩

theorem advanceTimes (count : Nat) (present : count ≤ s.tokens.pending.length) :
    (Step.advanceTimes count).Orders source s fun _ _ => True := by
  induction count generalizing s with
  | zero => exact .pure trivial
  | succ count ih =>
    intro inOrder
    have more : s.tokens.current.kind ≠ .eof := by
      intro ended
      have spent := inOrder.anchored.formed.current_eof_iff.mp ended
      simp [spent] at present
    have left : count ≤ (Step.advance s).2.tokens.pending.length := by
      rw [advance_apply, TokenStream.advance, List.length_tail]
      exact Nat.le_sub_one_of_lt present
    obtain ⟨onward, -⟩ := advance more inOrder
    obtain ⟨on, -⟩ := ih left onward.inOrder
    exact ⟨onward.trans on, trivial⟩

theorem accept {kind : TokenKind} (notLast : kind ≠ .eof) :
    (Step.accept kind).Orders source s fun _ _ => True := by
  refine .look rfl ?_
  split
  · rename_i here
    have more : s.tokens.current.kind ≠ .eof := fun last => notLast (here.symm.trans last)
    exact .bind (.discard (.advance more)) fun _ _ _ _ => .pure trivial
  · exact .pure trivial

theorem progressing (more : s.tokens.current.kind ≠ .eof)
    (inside : step.Orders source s fun _ _ => True) :
    (Step.progressing step).Orders source s fun _ _ => True := by
  refine .given fun inOrder => .look rfl <| .bind inside fun x t onward _ => .look rfl ?_
  split
  · rename_i same
    have more := inOrder.anchored.idle more onward.inOrder.anchored same
    exact .bind (.discard (.advance more)) fun _ _ _ _ => .pure trivial
  · exact .pure trivial

theorem inLocalScope (inside : step.Orders source s.openScope fun _ _ => True) :
    (Step.inLocalScope step).Orders source s fun _ _ => True := by
  intro inOrder
  obtain ⟨tokens, follows, anchored, nodes, diagnostics, locals, globals, functions⟩ := inOrder
  obtain ⟨⟨last, past, previous, grows⟩, -⟩ :=
    inside ⟨tokens, follows, anchored, nodes, diagnostics, locals, globals, functions⟩
  obtain ⟨tokens, follows, anchored, nodes, diagnostics, locals, globals, functions⟩ := last
  refine ⟨⟨⟨tokens, follows, anchored, nodes, diagnostics, ?_, globals, functions⟩, past, previous,
    grows⟩, trivial⟩
  exact fun found member => locals found (List.mem_of_mem_take member)

theorem inFunction {id : ExprId}
    (inside : step.Orders source (s.setFunction (some id)) fun _ _ => True) :
    (Step.inFunction id step).Orders source s fun _ _ => True := by
  intro inOrder
  obtain ⟨tokens, follows, anchored, nodes, diagnostics, locals, globals, functions⟩ := inOrder
  obtain ⟨⟨last, past, previous, grows⟩, -⟩ :=
    inside ⟨tokens, follows, anchored, nodes, diagnostics, locals, globals, functions⟩
  obtain ⟨tokens, follows, anchored, nodes, diagnostics, locals, globals, functions⟩ := last
  exact ⟨⟨⟨tokens, follows, anchored, nodes, diagnostics, locals, globals, functions⟩, past,
    previous, grows⟩, trivial⟩

theorem deeper (inside : step.Orders source s.enter post)
    (keep : ∀ x t, post x t → post x t.leave) : (Step.deeper step).Orders source s post := by
  intro inOrder
  obtain ⟨⟨last, past, previous, grows⟩, holds⟩ :=
    inside ⟨inOrder.tokens, inOrder.follows, inOrder.anchored, inOrder.orderly⟩
  exact ⟨⟨⟨last.tokens, last.follows, last.anchored, last.orderly⟩, past, previous, grows⟩,
    keep _ _ holds⟩

end Orders

end Step

namespace Parse

/-- A parse that keeps everything in order, and ends as is said if it succeeds. -/
def Orders (source : String) {α : Type} (parse : Parse α) (s : Session) (post : α → Session → Prop) :
    Prop :=
  parse.attempt.Orders source s fun found t => ∀ x ∈ found, post x t

namespace Orders

variable {parse : Parse α} {post : α → Session → Prop}

instance : Follows (@Orders source) (@Step.Orders source) (Session.InOrder source)
    (Session.Onward source) (Session.Onward source) (fun _ _ => True) (fun s => s) where
  steps := inferInstance
  iff _ _ _ := by simp only [Orders, Step.Orders, implies_true, and_true]
  later _ _ := trivial

export Follows (given pure bind discard drop)
export Lawful (mono look)

theorem step {step : Step α} (orders : step.Orders source s post) :
    (liftM step : Parse α).Orders source s post :=
  Follows.step orders

/-- With how far it was read on. -/
theorem onward (orders : parse.Orders source s post) :
    parse.Orders source s fun x t => s.Onward source t ∧ post x t := by
  intro inOrder
  obtain ⟨onward, holds⟩ := orders inOrder
  exact ⟨onward, fun x found => ⟨onward, holds x found⟩⟩

/-- The current token, which was looked at before. -/
theorem skipCurrent (more : s.tokens.current.kind ≠ .eof) :
    (Functor.discard (liftM Step.advance) : Parse Unit).Orders source s fun _ =>
      Session.Took source s.tokens.previous.start s.tokens.current := by
  intro inOrder
  obtain ⟨onward, took⟩ := Step.Orders.advance more inOrder
  have same : (Step.advance s).1 = s.tokens.current := by rw [Step.advance_apply]
  exact ⟨onward, fun _ _ => same ▸ took⟩

theorem check {check : Check α} {given : α → Arena → Prop}
    (orders : check.Orders source s.analysis given) :
    (liftM check : Parse α).Orders source s fun x t =>
      given x t.analysis.arena ∧ t.tokens = s.tokens :=
  step (.check orders)

theorem run {check : Check α} {given : α → Arena → Prop}
    (orders : check.Orders source s.analysis given) :
    (liftM check : Parse α).Orders source s fun _ _ => True :=
  step (.run orders)

theorem build {check : Check ExprId}
    (orders : check.Orders source s.analysis
      (Check.Starting source low s.tokens.previous.start)) :
    (liftM check : Parse ExprId).Orders source s (Session.Behind source low) :=
  step (.build orders)

theorem failure : (failure : Parse α).Orders source s post :=
  Step.Orders.pure nofun

theorem fail (problem : Problem) {span : Span} (told : span.Told source) :
    (Parse.fail problem span : Parse α).Orders source s post :=
  bind (run (.tell _ _ told)) fun _ _ _ _ => failure

theorem expect {kind : TokenKind} (notLast : kind ≠ .eof) {expected : String} :
    (Parse.expect kind expected).Orders source s (Session.Took source s.tokens.previous.start) := by
  refine .given fun inOrder => .look rfl ?_
  split
  · rename_i here
    exact step (.advance fun last => notLast (here.symm.trans last))
  · split
    · rename_i wrong
      exact bind (.discard (.step (.advance (wrong ▸ nofun)))) fun _ _ _ _ => failure
    · exact fail _ inOrder.anchored.told

theorem closeAngle : Parse.closeAngle.Orders source s fun _ _ => True := by
  refine .look rfl ?_
  split
  · rename_i kind lexeme long
    intro inOrder
    refine ⟨⟨⟨inOrder.tokens.split long, inOrder.follows.split inOrder.tokens long,
      inOrder.anchored.split long, inOrder.orderly⟩, .split _ _ _, ?_, .refl _⟩, fun _ _ => trivial⟩
    exact (TokenStream.Past.split _ _ _).previous inOrder.tokens
  · exact mono (.discard (.expect (by decide))) fun _ _ _ => trivial

theorem inLocalScope (inside : parse.Orders source s.openScope fun _ _ => True) :
    parse.inLocalScope.Orders source s fun _ _ => True :=
  Step.Orders.mono (.inLocalScope (.mono inside fun _ _ _ => trivial)) fun _ _ _ _ _ => trivial

theorem inFunction {id : ExprId}
    (inside : parse.Orders source (s.setFunction (some id)) fun _ _ => True) :
    (parse.inFunction id).Orders source s fun _ _ => True :=
  Step.Orders.mono (.inFunction (.mono inside fun _ _ _ => trivial)) fun _ _ _ _ _ => trivial

theorem deeper (inside : parse.Orders source s.enter post)
    (keep : ∀ x t, post x t → post x t.leave) : parse.deeper.Orders source s post :=
  Step.Orders.deeper inside fun _ _ holds x found => keep x _ (holds x found)

/-- Items with commas between them. What is known of those before is known until the next, which adds
to it. -/
theorem commaList (known : List α → Session → Prop) {item : List α → Parse α}
    (keep : ∀ xs t u, t.Onward source u → known xs t → known xs u)
    (each : ∀ before t, s.Onward source t → known before t →
      (item before).Orders source t fun x u => known (before ++ [x]) u)
    (fuel : Nat) {before : List α} (holds : known before s) :
    (Parse.commaList item before fuel).Orders source s known := by
  induction fuel generalizing s before with
  | zero =>
    refine given fun inOrder => bind (each before s inOrder.refl holds) fun x t _ more => ?_
    exact pure more
  | succ fuel ih =>
    refine given fun inOrder => bind (each before s inOrder.refl holds) fun x t onward more => ?_
    refine bind (step (.accept (by decide))) fun taken u on _ => ?_
    have through := onward.trans on
    split
    · exact ih (fun before v further => each before v (through.trans further)) (keep _ t u on more)
    · exact pure (keep _ t u on more)

end Orders

end Parse

end ScalarLang
