import ScalarLang.Proofs.Analysis.Regular
import ScalarLang.Proofs.Simulation.Productions

/-! One parse at a time. What elementary changes keep, and diagnostics and consumed tokens do, whole
productions keep: a parse is held against itself at the places where the property holds. -/

namespace ScalarLang

/-- A property of sessions that consumed tokens, diagnostics and changes of the extent leave as it
is. The current token is fit then to be made a literal of. -/
structure Session.Lasts (fits : Token → Prop) (adds : Analysis.Additions) (extent : Analysis.Extent)
    (holds : Session → Prop) : Prop where
  advance {s} : holds s → holds { s with tokens := s.tokens.advance }
  split {s kind lexeme} : TokenStream.afterAngle? s.tokens.current.kind = some (kind, lexeme) →
    holds s → holds { s with
      tokens := s.tokens.replaceCurrent (TokenStream.shorten s.tokens.current kind lexeme) }
  tell {s} (severity : Severity) (problem : Problem) (span : Span) : holds s →
    holds { s with analysis := (Check.tell severity problem span s.analysis).2 }
  change {s after} : s.analysis.ChangeOf adds extent after → holds s →
    holds { s with analysis := after }
  current {s} : holds s → fits s.tokens.current
  literal {token scalar a ty} : fits token → token.kind = .literal scalar →
    (a.arena.types.form ty).scalar? = some scalar → adds.Allows a (.literal token.payload) ty

/-- Any token is fit where any node may be added. -/
theorem Session.Lasts.ofAny {extent : Analysis.Extent} {holds : Session → Prop}
    (tokens : ∀ {s} (tokens : TokenStream), holds s → holds { s with tokens })
    (tell : ∀ {s} (severity : Severity) (problem : Problem) (span : Span), holds s →
      holds { s with analysis := (Check.tell severity problem span s.analysis).2 })
    (change : ∀ {s : Session} {after}, s.analysis.Change extent after → holds s →
      holds { s with analysis := after }) : Lasts (fun _ => True) .any extent holds :=
  ⟨tokens _, fun _ => tokens _, tell, change, fun _ => trivial, fun _ _ _ => trivial⟩

/-- A property of sessions that scopes and functions have nothing to do with. -/
def Session.Unscoped (holds : Session → Prop) : Prop :=
  ∀ s locals scopeStart currentFn, holds s →
    holds { s with analysis := { s.analysis with locals, scopeStart, currentFn } }

namespace Session.Lasts

variable {fits : Token → Prop} {adds : Analysis.Additions} {extent : Analysis.Extent}
  {holds : Session → Prop} {s : Session}

theorem changes (lasts : Lasts fits adds extent holds) {after : Analysis}
    (changes : s.analysis.ChangesOf adds extent after) (here : holds s) :
    holds { s with analysis := after } := by
  induction changes with
  | refl => exact here
  | @tail b c _ change ih => exact lasts.change (s := { s with analysis := b }) change ih

theorem step (lasts : Lasts fits adds extent holds) (here : holds s) : holds (Step.advance s).2 := by
  rw [Step.advance_apply, Analysis.blame]
  cases s.tokens.current.fault with
  | none => exact lasts.advance here
  | some fault =>
    exact lasts.advance (lasts.tell .error fault s.tokens.current.span here)

/-- A return outside of a function is a mistake; inside it is a change like others. -/
theorem buildReturn (lasts : Lasts fits adds extent holds) (inside : extent ≠ .expression) (keyword : String)
    (value : Option ExprId) (span : Span) (here : holds s) :
    holds { s with analysis := (Check.buildReturn keyword value span s.analysis).2 } := by
  cases found : Check.currentFunction? s.analysis with
  | some function =>
    exact lasts.changes (Check.buildReturn_changes inside found keyword value span) here
  | none =>
    have refused : Check.buildReturn keyword value span s.analysis = Check.refuse
        (SyntaxProblem.unexpectedTokenDetailed keyword "return outside of a function") span
          s.analysis := by
      rw [Check.buildReturn, Check.get_bind_apply, found]
    rw [refused]
    let problem : Problem :=
      SyntaxProblem.unexpectedTokenDetailed keyword "return outside of a function"
    let told : Session := { s with analysis := (Check.error problem span s.analysis).2 }
    have here : holds told := lasts.tell .error problem span here
    exact lasts.changes (s := told) (Check.RegularOf.errorExpr span told.analysis) here

end Session.Lasts

namespace Simulation

/-- One and the same parse where something holds of the session and of its tokens. -/
def within (fits : Token → Prop) (holds : Session → Prop) : Simulation where
  session s t := s = t ∧ holds s
  token x y := x = y ∧ fits x
  span := Eq
  type := Eq
  expr := Eq
  param := Eq
  prototype := Eq

variable {α : Type} {fits : Token → Prop} {adds : Analysis.Additions} {extent : Analysis.Extent}
  {holds : Session → Prop}

theorem within_checks (lasts : Session.Lasts fits adds extent holds) {check : Check α}
    (regular : check.RegularOf adds extent) : (within fits holds).Checks Eq check check := by
  rintro s _ ⟨rfl, here⟩
  exact ⟨rfl, rfl, lasts.changes (regular s.analysis) here⟩

theorem within_follows (lasts : Session.Lasts fits adds extent holds) {check : Check α}
    (regular : check.RegularOf adds extent) : (within fits holds).Checks (fun _ _ => True) check check :=
  (within_checks lasts regular).mono fun _ _ _ => trivial

theorem within_expressions (lasts : Session.Lasts fits adds extent holds) :
    (within fits holds).SoundExpressions where
  alike same := by
    cases same.1
    exact ⟨rfl, rfl, rfl⟩
  kind same := congrArg Token.kind same.1
  tokenSpan same := congrArg Token.span same.1
  through := by
    rintro a _ c _ rfl rfl
    rfl
  current := by
    rintro s _ ⟨rfl, here⟩
    exact ⟨rfl, lasts.current here⟩
  previous := by
    rintro s _ ⟨rfl, -⟩
    rfl
  place := by
    rintro s _ x _ ⟨rfl, -⟩ rfl
    rfl
  advance := by
    rintro s _ ⟨rfl, here⟩
    exact ⟨rfl, lasts.step here⟩
  split := by
    rintro s _ kind lexeme ⟨rfl, here⟩ long
    exact ⟨rfl, lasts.split long here⟩
  complain := by
    rintro problem x _ a _ ⟨rfl, -⟩ rfl s _ ⟨rfl, here⟩
    exact ⟨trivial, rfl, lasts.tell .error _ a here⟩
  scalarType _ _ := within_checks lasts (.addType _)
  voidType := within_checks lasts (.addType _)
  pointerType := by
    rintro isConst x _ rfl
    exact within_checks lasts (.addType _)
  functionType := by
    rintro x _ xs ys rfl params
    cases forall₂_eq params
    exact within_checks lasts (.addType _)
  errorExpr := by
    rintro a _ rfl
    exact within_checks lasts (.errorExpr _)
  literal := by
    rintro scalar x _ a _ kind ⟨rfl, fit⟩ rfl
    exact within_checks lasts
      (Check.buildLiteral_regularOf _ fun _ _ form => lasts.literal fit kind form)
  read := by
    rintro x _ a _ ⟨rfl, -⟩ rfl
    exact within_checks lasts (Check.buildRead_regular _ _)
  unary := by
    rintro op x _ a _ rfl rfl
    exact within_checks lasts (Check.buildUnary_regular _ _ _)
  call := by
    rintro x _ xs ys a _ c _ ⟨rfl, -⟩ args rfl rfl
    cases forall₂_eq args
    exact within_checks lasts (Check.buildCall_regular _ _ _ _)
  cast := by
    rintro x _ p _ a _ rfl rfl rfl
    exact within_checks lasts (Check.castTo_regular _ _ _)
  assignment := by
    rintro op x _ z _ rfl rfl
    exact within_checks lasts (Check.buildAssignment_regular _ _ _)
  binary := by
    rintro op x _ z _ a _ rfl rfl rfl
    exact within_checks lasts (Check.buildBinary_regular _ _ _ _)
  parameter := by
    rintro xs ys x _ p _ before ⟨rfl, -⟩ rfl
    cases forall₂_eq before
    exact within_checks lasts (Check.declareParameter_regular _ _ _)
  makePrototype := by
    rintro x _ xs ys p _ ⟨rfl, -⟩ params rfl
    cases forall₂_eq params
    exact within_checks lasts (Check.makePrototype_regular _ _ _)

theorem within_statements (lasts : Session.Lasts fits adds extent holds) (inside : extent ≠ .expression)
    (unscoped : Session.Unscoped holds) : (within fits holds).SoundStatements where
  toSoundExpressions := within_expressions lasts
  openScope := by
    rintro s _ ⟨rfl, here⟩
    exact ⟨rfl, unscoped s _ _ _ here⟩
  closeScope := by
    rintro s _ u _ ⟨rfl, -⟩ ⟨rfl, here⟩
    exact ⟨rfl, unscoped u _ _ _ here⟩
  enterFunction := by
    rintro s _ x _ ⟨rfl, here⟩ rfl
    exact ⟨rfl, unscoped s _ _ _ here⟩
  leaveFunction := by
    rintro s _ u _ ⟨rfl, -⟩ ⟨rfl, here⟩
    exact ⟨rfl, unscoped u _ _ _ here⟩
  addParameters := by
    intro xs ys params
    cases forall₂_eq params
    exact within_follows lasts (Check.addParameters_regular inside _)
  used := by
    rintro x _ rfl
    exact within_follows lasts (Check.checkUsed_regular _)
  condition := by
    rintro x _ rfl
    exact within_follows lasts (Check.checkCondition_regular _)
  branches := by
    rintro x _ z _ o p a _ rfl rfl otherwise rfl
    cases rel_eq otherwise
    exact within_checks lasts (Check.buildCondition_regular _ _ _ _)
  block := by
    rintro xs ys a _ body rfl
    cases forall₂_eq body
    exact within_checks lasts (Check.buildScope_regular _ _)
  returned := by
    rintro x _ o p a _ ⟨rfl, -⟩ value rfl s _ ⟨rfl, here⟩
    cases rel_eq value
    exact ⟨rfl, rfl, lasts.buildReturn inside _ _ _ here⟩
  declare := by
    rintro x _ o p i j a _ ⟨rfl, -⟩ declared init rfl
    cases rel_eq declared
    cases rel_eq init
    exact within_checks lasts (Check.declareVariable_regular inside _ _ _ _)

/-- Where the depth has nothing to do with it, the property holds at every level. -/
theorem within_deepens (depth : ∀ s depth, holds s → holds { s with depth }) :
    (within fits holds).Deepens where
  enter := by
    rintro s _ ⟨rfl, here⟩
    exact ⟨rfl, depth s _ here⟩
  leave := by
    rintro s _ ⟨rfl, here⟩
    exact ⟨rfl, depth s _ here⟩

theorem within_sound (lasts : Session.Lasts fits adds .declaration holds) (unscoped : Session.Unscoped holds)
    (list : ∀ s program, holds s → holds { s with program }) : (within fits holds).Sound where
  toSoundStatements := within_statements lasts nofun unscoped
  list := by
    rintro x _ rfl s _ ⟨rfl, here⟩
    rw [Session.addToProgram_apply]
    exact ⟨trivial, rfl, list s _ here⟩
  params := by
    rintro p _ rfl
    exact List.forall₂_same.mpr fun _ _ => rfl
  function := by
    rintro hasBody p _ a _ rfl rfl
    exact within_checks lasts (Check.declareFunction_regular _ _ _)
  complete := by
    rintro p _ x _ z _ a _ rfl rfl rfl rfl
    exact within_follows lasts (Check.completeFunction_regular _ _ _ _)

end Simulation

end ScalarLang
