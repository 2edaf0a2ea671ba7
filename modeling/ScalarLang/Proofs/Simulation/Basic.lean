import Mathlib.Data.List.Forall2
import ScalarLang.Proofs.Parser.Program
import ScalarLang.Proofs.Parser.Yields

/-! Simulations: two parses side by side, with a relation for each kind of data that they pass on.
Whatever every elementary step and every semantic action preserves, whole productions preserve. The
first of them is over tokens of the same kinds: whatever the names and values are and whatever is
known of them, the runs stay in step, and succeed or fail together. -/

namespace ScalarLang

variable {α β γ δ : Type}

namespace TokenStream

/-- The same kinds are left, and as many tokens are consumed. -/
structure Alike (t u : TokenStream) : Prop where
  pending : t.pending.map Token.kind = u.pending.map Token.kind
  last : t.endToken.kind = u.endToken.kind
  consumed : t.consumed = u.consumed

variable {t u : TokenStream}

theorem Alike.length (alike : t.Alike u) : t.pending.length = u.pending.length := by
  have lengths := congrArg List.length alike.pending
  rwa [List.length_map, List.length_map] at lengths

theorem Alike.current (alike : t.Alike u) : t.current.kind = u.current.kind := by
  have heads : (t.pending.map Token.kind).headD t.endToken.kind =
      (u.pending.map Token.kind).headD u.endToken.kind := by
    rw [alike.pending, alike.last]
  unfold TokenStream.current
  cases left : t.pending <;> cases right : u.pending <;> simpa [left, right] using heads

theorem Alike.advance (alike : t.Alike u) : t.advance.Alike u.advance := by
  refine ⟨?_, alike.last, congrArg (· + 1) alike.consumed⟩
  have tails := congrArg List.tail alike.pending
  rwa [← List.map_tail, ← List.map_tail] at tails

theorem Alike.replaceCurrent (alike : t.Alike u) {token other : Token}
    (same : token.kind = other.kind) : (t.replaceCurrent token).Alike (u.replaceCurrent other) := by
  refine ⟨?_, alike.last, alike.consumed⟩
  have tails := alike.advance.pending
  simp only [TokenStream.replaceCurrent, List.map_cons, same]
  exact congrArg (other.kind :: ·) tails

theorem Alike.takeWhile (alike : t.Alike u) (skips : TokenKind → Bool) :
    (t.pending.takeWhile fun token => skips token.kind).length =
      (u.pending.takeWhile fun token => skips token.kind).length := by
  have prefixes := congrArg (fun kinds => (kinds.takeWhile skips).length) alike.pending
  simp only [List.takeWhile_map, List.length_map] at prefixes
  exact prefixes

end TokenStream

/-- From alike tokens the steps come to alike tokens, with related results. -/
def Step.Lockstep (R : α → β → Prop) (first : Step α) (second : Step β) : Prop :=
  ∀ s t : Session, s.tokens.Alike t.tokens →
    R (first s).1 (second t).1 ∧ (first s).2.tokens.Alike (second t).2.tokens

/-- Parses in lockstep succeed or fail together. -/
def Parse.Lockstep (R : α → β → Prop) (first : Parse α) (second : Parse β) : Prop :=
  Step.Lockstep (Option.Rel R) first.attempt second.attempt

/-- Steps in lockstep whose results do not matter. -/
abbrev Step.Blind (first : Step α) (second : Step β) : Prop :=
  Step.Lockstep (fun _ _ => True) first second

abbrev Parse.Blind (first : Parse α) (second : Parse β) : Prop :=
  Parse.Lockstep (fun _ _ => True) first second

/-- When the data of two parses correspond. -/
structure Simulation where
  session : Session → Session → Prop
  token : Token → Token → Prop
  span : Span → Span → Prop
  type : TypeId → TypeId → Prop
  expr : ExprId → ExprId → Prop
  param : Local → Local → Prop
  prototype : Prototype → Prototype → Prop

/-- Of a longer token only the angle is consumed. -/
theorem Parse.closeAngle_apply (s : Session) :
    Parse.closeAngle.attempt s =
      match TokenStream.afterAngle? s.tokens.current.kind with
      | some (kind, lexeme) => (some (), { s with
          tokens := s.tokens.replaceCurrent (TokenStream.shorten s.tokens.current kind lexeme) })
      | none => (discard (Parse.expect .greater "'>'") : Parse Unit).attempt s := by
  change Parse.attempt (match TokenStream.afterAngle? s.tokens.current.kind with
    | some (kind, lexeme) => (modify fun session => { session with
        tokens := session.tokens.replaceCurrent
          (TokenStream.shorten s.tokens.current kind lexeme) } : Parse Unit)
    | none => discard (Parse.expect .greater "'>'")) s = _
  split <;> rfl

namespace Simulation

theorem forall₂_eq {xs ys : List α} (related : List.Forall₂ Eq xs ys) : xs = ys := by
  rwa [List.forall₂_eq_eq_eq] at related

theorem rel_eq {x y : Option α} (related : Option.Rel Eq x y) : x = y := by
  cases related with
  | some same => rw [same]
  | none => rfl

variable (sim : Simulation)

/-- From corresponding sessions the steps come to corresponding sessions, with related results. -/
def Steps (R : α → β → Prop) (first : Step α) (second : Step β) : Prop :=
  ∀ s t : Session, sim.session s t →
    R (first s).1 (second t).1 ∧ sim.session (first s).2 (second t).2

/-- Corresponding parses succeed or fail together. -/
def Parses (R : α → β → Prop) (first : Parse α) (second : Parse β) : Prop :=
  sim.Steps (Option.Rel R) first.attempt second.attempt

def Checks (R : α → β → Prop) (first : Check α) (second : Check β) : Prop :=
  sim.Steps R (liftM first) (liftM second)

/-- Steps that correspond whatever their results are. -/
abbrev Follows (first : Step α) (second : Step β) : Prop := sim.Steps (fun _ _ => True) first second

/-- What expressions, type names and prototypes are read with corresponds: tokens of the same kinds
are seen, and what is given corresponds. -/
structure SoundExpressions : Prop where
  alike {s t} : sim.session s t → s.tokens.Alike t.tokens
  kind {x y} : sim.token x y → x.kind = y.kind
  tokenSpan {x y} : sim.token x y → sim.span x.span y.span
  through {a b c d} : sim.span a b → sim.span c d → sim.span (a.through c) (b.through d)
  current {s t} : sim.session s t → sim.token s.tokens.current t.tokens.current
  previous {s t} : sim.session s t → sim.span s.tokens.previous t.tokens.previous
  place {s t x y} : sim.session s t → sim.expr x y →
    sim.span (s.analysis.arena.spanOf x) (t.analysis.arena.spanOf y)
  advance {s t} : sim.session s t → sim.session (Step.advance s).2 (Step.advance t).2
  split {s t kind lexeme} : sim.session s t →
    TokenStream.afterAngle? s.tokens.current.kind = some (kind, lexeme) →
      sim.session
        { s with
          tokens := s.tokens.replaceCurrent (TokenStream.shorten s.tokens.current kind lexeme) }
        { t with
          tokens := t.tokens.replaceCurrent (TokenStream.shorten t.tokens.current kind lexeme) }
  complain (problem : String → SyntaxProblem) {x y a b} : sim.token x y → sim.span a b →
    sim.Checks (fun _ _ => True) (Check.error (problem x.lexeme) a)
      (Check.error (problem y.lexeme) b)
  scalarType (scalar : Scalar) (isConst : Bool) :
    sim.Checks sim.type (Check.addType (.scalar scalar isConst))
      (Check.addType (.scalar scalar isConst))
  voidType : sim.Checks sim.type (Check.addType .void) (Check.addType .void)
  pointerType (isConst : Bool) {x y} : sim.type x y →
    sim.Checks sim.type (Check.addType (.pointer isConst x)) (Check.addType (.pointer isConst y))
  functionType {x y xs ys} : sim.type x y → List.Forall₂ sim.type xs ys →
    sim.Checks sim.type (Check.addType (.function x xs)) (Check.addType (.function y ys))
  errorExpr {a b} : sim.span a b → sim.Checks sim.expr (Check.errorExpr a) (Check.errorExpr b)
  literal {scalar : Scalar} {x y a b} : x.kind = .literal scalar → sim.token x y → sim.span a b →
    sim.Checks sim.expr (Check.buildLiteral scalar x.payload a)
      (Check.buildLiteral scalar y.payload b)
  read {x y a b} : sim.token x y → sim.span a b →
    sim.Checks sim.expr (Check.buildRead x.lexeme a) (Check.buildRead y.lexeme b)
  unary (op : UnaryOp) {x y a b} : sim.expr x y → sim.span a b →
    sim.Checks sim.expr (Check.buildUnary op x a) (Check.buildUnary op y b)
  call {x y xs ys a b c d} : sim.token x y → List.Forall₂ sim.expr xs ys → sim.span a b →
    sim.span c d →
      sim.Checks sim.expr (Check.buildCall x.lexeme xs a c) (Check.buildCall y.lexeme ys b d)
  cast {x y p q a b} : sim.expr x y → sim.type p q → sim.span a b →
    sim.Checks sim.expr (Check.castTo x p a) (Check.castTo y q b)
  assignment (op : Option BinaryOp) {x y z w} : sim.expr x y → sim.expr z w →
    sim.Checks sim.expr (Check.buildAssignment x op z) (Check.buildAssignment y op w)
  binary (op : BinaryOp) {x y z w a b} : sim.expr x y → sim.expr z w → sim.span a b →
    sim.Checks sim.expr (Check.buildBinary x op z a) (Check.buildBinary y op w b)
  parameter {xs ys x y p q} : List.Forall₂ sim.param xs ys → sim.token x y → sim.type p q →
    sim.Checks sim.param (Check.declareParameter xs ⟨x.lexeme, x.span⟩ p)
      (Check.declareParameter ys ⟨y.lexeme, y.span⟩ q)
  makePrototype {x y xs ys p q} : sim.token x y → List.Forall₂ sim.param xs ys → sim.type p q →
    sim.Checks sim.prototype (Check.makePrototype ⟨x.lexeme, x.span⟩ xs p)
      (Check.makePrototype ⟨y.lexeme, y.span⟩ ys q)

structure SoundStatements : Prop extends SoundExpressions sim where
  openScope {s t} : sim.session s t → sim.session s.openScope t.openScope
  closeScope {s t u v} : sim.session s t → sim.session u v →
    sim.session (u.closeScope s.analysis) (v.closeScope t.analysis)
  enterFunction {s t x y} : sim.session s t → sim.expr x y →
    sim.session (s.setFunction (some x)) (t.setFunction (some y))
  leaveFunction {s t u v} : sim.session s t → sim.session u v →
    sim.session (u.setFunction s.analysis.currentFn) (v.setFunction t.analysis.currentFn)
  addParameters {xs ys} : List.Forall₂ sim.param xs ys →
    sim.Checks (fun _ _ => True) (Check.addParameters xs) (Check.addParameters ys)
  used {x y} : sim.expr x y → sim.Checks (fun _ _ => True) (Check.checkUsed x) (Check.checkUsed y)
  condition {x y} : sim.expr x y →
    sim.Checks (fun _ _ => True) (Check.checkCondition x) (Check.checkCondition y)
  branches {x y z w o p a b} : sim.expr x y → sim.expr z w → Option.Rel sim.expr o p →
    sim.span a b → sim.Checks sim.expr (Check.buildCondition x z o a) (Check.buildCondition y w p b)
  block {xs ys a b} : List.Forall₂ sim.expr xs ys → sim.span a b →
    sim.Checks sim.expr (Check.buildScope xs a) (Check.buildScope ys b)
  returned {x y o p a b} : sim.token x y → Option.Rel sim.expr o p → sim.span a b →
    sim.Checks sim.expr (Check.buildReturn x.lexeme o a) (Check.buildReturn y.lexeme p b)
  declare {x y o p i j a b} : sim.token x y → Option.Rel sim.type o p → Option.Rel sim.expr i j →
    sim.span a b →
      sim.Checks sim.expr (Check.declareVariable ⟨x.lexeme, x.span⟩ o i a)
        (Check.declareVariable ⟨y.lexeme, y.span⟩ p j b)

/-- The elementary steps and the semantic actions correspond. -/
structure Sound : Prop extends SoundStatements sim where
  list {x y} : sim.expr x y → sim.Follows (Session.addToProgram x) (Session.addToProgram y)
  params {p q} : sim.prototype p q → List.Forall₂ sim.param p.params q.params
  function (hasBody : Bool) {p q a b} : sim.prototype p q → sim.span a b →
    sim.Checks sim.expr (Check.declareFunction p hasBody a) (Check.declareFunction q hasBody b)
  complete {p q x y z w a b} : sim.prototype p q → sim.expr x y → sim.expr z w → sim.span a b →
    sim.Checks (fun _ _ => True) (Check.completeFunction p x z a) (Check.completeFunction q y w b)

/-- How deeply two parses nest makes no difference to what corresponds. -/
structure Deepens : Prop where
  enter {s t} : sim.session s t → sim.session s.enter t.enter
  leave {s t} : sim.session s t → sim.session s.leave t.leave

structure ExpressionGrammars (first second : Grammar) : Prop where
  typename : sim.Parses sim.type first.typename second.typename
  binary (limit : Nat) : sim.Parses sim.expr (first.binary limit) (second.binary limit)
  primary : sim.Parses sim.expr first.primary second.primary

structure Grammars (first second : Grammar) : Prop extends ExpressionGrammars sim first second where
  statement : sim.Parses sim.expr first.statement second.statement
  condition {a b} : sim.span a b → sim.Parses sim.expr (first.condition a) (second.condition b)

variable {sim} {R : α → β → Prop} {S : γ → δ → Prop}

namespace Steps

variable {first : Step α} {second : Step β} {next : α → Step γ} {other : β → Step δ}

theorem pure {x : α} {y : β} (related : R x y) : sim.Steps R (pure x) (pure y) :=
  fun _ _ same => ⟨related, same⟩

theorem bind (begins : sim.Steps R first second)
    (rest : ∀ x y, R x y → sim.Steps S (next x) (other y)) :
    sim.Steps S (first >>= next) (second >>= other) := by
  intro s t same
  obtain ⟨related, same⟩ := begins s t same
  exact rest _ _ related _ _ same

/-- What is the same in both may be looked at. -/
theorem andThen {first second : Step α} {next : α → Step γ} {other : α → Step δ}
    (begins : sim.Steps Eq first second) (rest : ∀ x, sim.Steps S (next x) (other x)) :
    sim.Steps S (first >>= next) (second >>= other) :=
  bind begins fun x _ same => same ▸ rest x

theorem mono {T : α → β → Prop} (steps : sim.Steps R first second)
    (weaken : ∀ x y, R x y → T x y) : sim.Steps T first second := by
  intro s t same
  obtain ⟨related, same⟩ := steps s t same
  exact ⟨weaken _ _ related, same⟩

theorem discard (steps : sim.Steps R first second) :
    sim.Follows (discard first) (discard second) := by
  intro s t same
  exact ⟨trivial, (steps s t same).2⟩

theorem session {next : Session → Step γ} {other : Session → Step δ}
    (rest : ∀ s t : Session, sim.session s t → sim.Steps S (next s) (other t)) :
    sim.Steps S (get >>= next) (get >>= other) :=
  fun s t same => rest s t same s t same

end Steps

namespace SoundExpressions

variable {first : Step α} {second : Step β} (sound : sim.SoundExpressions)

include sound

theorem currentKind : sim.Steps Eq Step.currentKind Step.currentKind :=
  fun _ _ same => ⟨(sound.alike same).current, same⟩

theorem currentToken : sim.Steps sim.token Step.current Step.current :=
  fun _ _ same => ⟨sound.current same, same⟩

theorem remaining : sim.Steps Eq Step.remaining Step.remaining :=
  fun _ _ same => ⟨(sound.alike same).length, same⟩

theorem consumed : sim.Steps Eq Step.consumed Step.consumed :=
  fun _ _ same => ⟨(sound.alike same).consumed, same⟩

theorem previousSpan : sim.Steps sim.span Step.previousSpan Step.previousSpan :=
  fun _ _ same => ⟨sound.previous same, same⟩

theorem step : sim.Steps sim.token Step.advance Step.advance := by
  intro s t same
  refine ⟨?_, sound.advance same⟩
  rw [Step.advance_apply, Step.advance_apply]
  exact sound.current same

theorem advanceTimes (count : Nat) :
    sim.Follows (Step.advanceTimes count) (Step.advanceTimes count) := by
  induction count with
  | zero => exact .pure trivial
  | succ count ih => exact .bind (.discard sound.step) fun _ _ _ => ih

theorem accept (kind : TokenKind) : sim.Steps Eq (Step.accept kind) (Step.accept kind) := by
  refine .andThen sound.currentKind fun found => ?_
  split
  · exact .bind (.discard sound.step) fun _ _ _ => .pure rfl
  · exact .pure rfl

theorem progressing (steps : sim.Steps R first second) :
    sim.Steps R (Step.progressing first) (Step.progressing second) := by
  refine .andThen sound.consumed fun before => .bind steps fun x y related => ?_
  refine .andThen sound.consumed fun after => ?_
  split
  · exact .bind (.discard sound.step) fun _ _ _ => .pure related
  · exact .pure related

end SoundExpressions

namespace Parses

variable {first : Parse α} {second : Parse β} {next : α → Parse γ} {other : β → Parse δ}

theorem pure {x : α} {y : β} (related : R x y) : sim.Parses R (pure x) (pure y) :=
  Steps.pure (.some related)

theorem bind (begins : sim.Parses R first second)
    (rest : ∀ x y, R x y → sim.Parses S (next x) (other y)) :
    sim.Parses S (first >>= next) (second >>= other) := by
  rw [Parses, Parse.bind_following, Parse.bind_following]
  refine Steps.bind begins fun x y related => ?_
  cases related with
  | some related => exact rest _ _ related
  | none => exact Steps.pure .none

theorem mono {T : α → β → Prop} (parses : sim.Parses R first second)
    (weaken : ∀ x y, R x y → T x y) : sim.Parses T first second := by
  refine Steps.mono parses fun x y related => ?_
  cases related with
  | some related => exact .some (weaken _ _ related)
  | none => exact .none

theorem failure : sim.Parses R (failure : Parse α) (failure : Parse β) :=
  fun _ _ same => ⟨.none, same⟩

theorem step {first : Step α} {second : Step β} (steps : sim.Steps R first second) :
    sim.Parses R (liftM first) (liftM second) :=
  Steps.bind steps fun _ _ related => Steps.pure (.some related)

theorem andThen {first second : Step α} {next : α → Parse γ} {other : α → Parse δ}
    (begins : sim.Steps Eq first second) (rest : ∀ x, sim.Parses S (next x) (other x)) :
    sim.Parses S (liftM first >>= next) (liftM second >>= other) :=
  bind (.step begins) fun x _ same => same ▸ rest x

theorem check {first : Check α} {second : Check β} (checks : sim.Checks R first second) :
    sim.Parses R (liftM first) (liftM second) :=
  step checks

theorem session {next : Session → Parse γ} {other : Session → Parse δ}
    (rest : ∀ s t : Session, sim.session s t → sim.Parses S (next s) (other t)) :
    sim.Parses S (get >>= next) (get >>= other) :=
  fun s t same => rest s t same s t same

theorem discard (parses : sim.Parses R first second) :
    sim.Parses (fun _ _ => True) (discard first) (discard second) :=
  bind parses fun _ _ _ => pure trivial

theorem deeper (deepens : sim.Deepens) (parses : sim.Parses R first second) :
    sim.Parses R first.deeper second.deeper := by
  intro s t same
  obtain ⟨related, inside⟩ := parses s.enter t.enter (deepens.enter same)
  exact ⟨related, deepens.leave inside⟩

end Parses

namespace SoundExpressions

variable (sound : sim.SoundExpressions)

include sound

theorem failAt (problem : String → SyntaxProblem) {x y : Token} {a b : Span}
    (token : sim.token x y) (span : sim.span a b) :
    sim.Parses R (Parse.fail (problem x.lexeme) a : Parse α) (Parse.fail (problem y.lexeme) b) :=
  .bind (.check (sound.complain problem token span)) fun _ _ _ => .failure

/-- A problem that has nothing to do with a token. -/
theorem fail (problem : SyntaxProblem) {a b : Span} (span : sim.span a b) :
    sim.Parses R (Parse.fail problem a : Parse α) (Parse.fail problem b) :=
  fun s t same => sound.failAt (fun _ => problem) (sound.current same) span s t same

theorem expect (kind : TokenKind) (expected : String) :
    sim.Parses sim.token (Parse.expect kind expected) (Parse.expect kind expected) := by
  refine .bind (.step sound.currentToken) fun x y token => ?_
  rw [sound.kind token]
  split
  · exact .step sound.step
  · split
    · exact .bind (.discard (.step sound.step)) fun _ _ _ => .failure
    · exact sound.failAt (SyntaxProblem.expectedToken expected) token (sound.tokenSpan token)

theorem closeAngle : sim.Parses (fun _ _ => True) Parse.closeAngle Parse.closeAngle := by
  intro s t same
  rw [Parse.closeAngle_apply, Parse.closeAngle_apply, ← (sound.alike same).current]
  split
  · rename_i found
    exact ⟨.some trivial, sound.split same found⟩
  · exact Parses.discard (sound.expect .greater "'>'") s t same

theorem commaList {item : List α → Parse α} {other : List β → Parse β}
    (each : ∀ before after, List.Forall₂ R before after →
      sim.Parses R (item before) (other after))
    {before : List α} {after : List β} (related : List.Forall₂ R before after) (fuel : Nat) :
    sim.Parses (List.Forall₂ R) (Parse.commaList item before fuel)
      (Parse.commaList other after fuel) := by
  have joined {x y} (last : R x y) {xs : List α} {ys : List β} (front : List.Forall₂ R xs ys) :
      List.Forall₂ R (xs ++ [x]) (ys ++ [y]) := List.rel_append front (.cons last .nil)
  induction fuel generalizing before after with
  | zero => exact .bind (each _ _ related) fun _ _ last => .pure (joined last related)
  | succ fuel ih =>
    refine .bind (each _ _ related) fun x y last => .bind (.step (sound.accept .comma)) ?_
    intro taken _ same
    cases same
    split
    · exact ih (joined last related)
    · exact .pure (joined last related)

end SoundExpressions

namespace SoundStatements

variable (sound : sim.SoundStatements)

include sound

theorem inLocalScope {first : Step α} {second : Step β} (steps : sim.Steps R first second) :
    sim.Steps R (Step.inLocalScope first) (Step.inLocalScope second) := by
  intro s t same
  obtain ⟨related, inside⟩ := steps _ _ (sound.openScope same)
  exact ⟨related, sound.closeScope same inside⟩

theorem inFunction {first : Step α} {second : Step β} {x y : ExprId} (related : sim.expr x y)
    (steps : sim.Steps R first second) :
    sim.Steps R (Step.inFunction x first) (Step.inFunction y second) := by
  intro s t same
  obtain ⟨related, inside⟩ := steps _ _ (sound.enterFunction same related)
  exact ⟨related, sound.leaveFunction same inside⟩

theorem localScope {first : Parse α} {second : Parse β} (parses : sim.Parses R first second) :
    sim.Parses R first.inLocalScope second.inLocalScope :=
  sound.inLocalScope parses

theorem functionBody {x y : ExprId} {first : Parse α} {second : Parse β} (related : sim.expr x y)
    (parses : sim.Parses R first second) :
    sim.Parses R (first.inFunction x) (second.inFunction y) :=
  sound.inFunction related parses

end SoundStatements

end Simulation

end ScalarLang
