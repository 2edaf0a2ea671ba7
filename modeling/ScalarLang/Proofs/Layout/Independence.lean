import ScalarLang.Proofs.Expr.Outline
import ScalarLang.Proofs.Layout.Checks
import ScalarLang.Proofs.Simulation.Productions
import ScalarLang.Proofs.Token.Lexeme

/-! Layout independence. What a source means is a matter of its tokens: blanks, newlines and
comments between them change where things stand, and nothing else. -/

namespace ScalarLang

namespace Token

/-- What is wrong with a scanned token follows from its content. -/
def reportOf (content : TokenKind × String × Payload) :
    (TokenKind × String × Payload) × Option LexicalFault :=
  (content, if content.1 = .error then faultOf content.2.1 else none)

theorem OfPiece.report {token : Token} (scanned : token.OfPiece) (marked : token.Marked) :
    token.report = reportOf token.content := by
  refine Prod.ext rfl ?_
  change token.fault = if token.kind = .error then faultOf token.lexeme else none
  by_cases isError : token.kind = .error
  · rw [if_pos isError, scanned.fault]
  · rw [if_neg isError]
    simpa [Token.Marked, isError] using marked

end Token

namespace TokenStream

structure Same (t u : TokenStream) : Prop where
  pending : t.pending.map Token.report = u.pending.map Token.report
  last : t.endToken.report = u.endToken.report
  consumed : t.consumed = u.consumed

variable {t u : TokenStream}

theorem Same.alike (same : t.Same u) : t.Alike u where
  pending := by
    have kinds := congrArg (List.map fun report => report.1.1) same.pending
    rwa [List.map_map, List.map_map] at kinds
  last := congrArg (fun report => report.1.1) same.last
  consumed := same.consumed

theorem Same.current (same : t.Same u) : t.current.report = u.current.report := by
  have heads : (t.pending.map Token.report).headD t.endToken.report =
      (u.pending.map Token.report).headD u.endToken.report := by
    rw [same.pending, same.last]
  unfold TokenStream.current
  cases left : t.pending <;> cases right : u.pending <;> simpa [left, right] using heads

theorem Same.advance (same : t.Same u) : t.advance.Same u.advance := by
  refine ⟨?_, same.last, congrArg (· + 1) same.consumed⟩
  have tails := congrArg List.tail same.pending
  rwa [← List.map_tail, ← List.map_tail] at tails

theorem Same.replaceCurrent (same : t.Same u) {token other : Token}
    (report : token.report = other.report) :
    (t.replaceCurrent token).Same (u.replaceCurrent other) := by
  refine ⟨?_, same.last, same.consumed⟩
  have tails := same.advance.pending
  simp only [TokenStream.replaceCurrent, List.map_cons, report]
  exact congrArg (other.report :: ·) tails

/-- Sources with the same token contents have the same tokens. -/
theorem ofSource_same {source other : String}
    (contents : (tokenize source).map Token.content = (tokenize other).map Token.content) :
    (ofSource source).Same (ofSource other) := by
  have reports (source : String) : (ofSource source).pending.map Token.report =
      ((ofSource source).pending.map Token.content).map Token.reportOf := by
    rw [List.map_map]
    have marked := (ofSource_formed source).marked
    exact List.map_congr_left fun token member =>
      (ofSource_ofPiece source token member).report (marked token member)
  have unmarked (source : String) : (ofSource source).endToken.fault = none := by
    have formed := ofSource_formed source
    simpa [Token.Marked, formed.last] using formed.lastMarked
  have whole : ((ofSource source).pending ++ [(ofSource source).endToken]).map Token.content =
      ((ofSource other).pending ++ [(ofSource other).endToken]).map Token.content := contents
  rw [List.map_append, List.map_append, List.map_singleton, List.map_singleton] at whole
  obtain ⟨pending, last⟩ := List.append_inj' whole rfl
  refine ⟨?_, Prod.ext (List.singleton_inj.mp last) ?_, rfl⟩
  · rw [reports, reports, pending]
  · exact (unmarked source).trans (unmarked other).symm

end TokenStream

structure Session.Alike (s t : Session) : Prop where
  tokens : s.tokens.Same t.tokens
  analysis : s.analysis.Alike t.analysis
  depth : s.depth = t.depth
  program : s.program = t.program

namespace Analysis

variable {a b : Analysis}

theorem Alike.openScope (alike : a.Alike b) : a.locals.length = b.locals.length := by
  have lengths := congrArg List.length alike.locals
  rwa [List.length_map, List.length_map] at lengths

theorem Alike.blame (alike : a.Alike b) {x y : Token} (same : x.report = y.report) :
    (a.blame x).Alike (b.blame y) := by
  have fault : x.fault = y.fault := congrArg Prod.snd same
  unfold Analysis.blame
  rw [fault]
  split
  · exact (Check.error_alike rfl _ _ a b alike).2
  · exact alike

end Analysis

namespace Simulation

/-- Two parses of the same tokens: everything corresponds but spans. -/
def layout : Simulation where
  session := Session.Alike
  token x y := x.report = y.report
  span _ _ := True
  type := Eq
  expr := Eq
  param x y := x.content = y.content
  prototype := Prototype.Alike

variable {α β : Type} {R : α → β → Prop}

theorem layout_checks {first : Check α} {second : Check β} (alike : Check.Alike R first second) :
    layout.Checks R first second := by
  intro s t same
  obtain ⟨related, analysis⟩ := alike s.analysis t.analysis same.analysis
  exact ⟨related, { same with analysis }⟩

theorem layout_follows {first second : Check α} (alike : Check.Same first second) :
    layout.Checks (fun _ _ => True) first second :=
  (layout_checks alike).mono fun _ _ _ => trivial

theorem lexeme_eq {x y : Token} (same : x.report = y.report) : x.lexeme = y.lexeme :=
  congrArg (fun report => report.1.2.1) same

theorem layout_sound : layout.Sound where
  alike same := same.tokens.alike
  kind same := congrArg (fun report => report.1.1) same
  tokenSpan _ := trivial
  through _ _ := trivial
  current same := same.tokens.current
  previous _ := trivial
  place _ _ := trivial
  advance {s t} same := by
    simp only [Step.advance_apply]
    have current := same.tokens.current
    exact { same with
      tokens := same.tokens.advance
      analysis := same.analysis.blame current }
  split {s t kind lexeme} same long := by
    have current := same.tokens.current
    have payload : s.tokens.current.payload = t.tokens.current.payload :=
      congrArg (fun report => report.1.2.2) current
    have fault : s.tokens.current.fault = t.tokens.current.fault := congrArg Prod.snd current
    refine { same with tokens := same.tokens.replaceCurrent (Prod.ext ?_ fault) }
    exact Prod.ext rfl (Prod.ext rfl payload)
  openScope same := { same with
    analysis := { same.analysis with scopeStart := same.analysis.openScope } }
  closeScope {s t u v} before same := { same with
    analysis := { same.analysis with
      locals := by
        change (u.analysis.locals.take s.analysis.locals.length).map Local.content =
          (v.analysis.locals.take t.analysis.locals.length).map Local.content
        rw [List.map_take, List.map_take, same.analysis.locals, before.analysis.openScope]
      scopeStart := before.analysis.scopeStart } }
  enterFunction same id := { same with
    analysis := { same.analysis with currentFn := congrArg some id } }
  leaveFunction before same := { same with
    analysis := { same.analysis with currentFn := before.analysis.currentFn } }
  list {x y} id := by
    cases id
    intro s t same
    rw [Session.addToProgram_apply, Session.addToProgram_apply]
    exact ⟨trivial, { same with program := by rw [same.program] }⟩
  complain problem {x y} _ _ token _ := by
    rw [lexeme_eq token]
    exact layout_follows (Check.error_alike rfl _ _)
  scalarType _ _ := layout_checks (Check.addType_alike _)
  voidType := layout_checks (Check.addType_alike _)
  pointerType _ _ _ pointee := by
    cases pointee
    exact layout_checks (Check.addType_alike _)
  functionType result params := by
    cases result
    cases forall₂_eq params
    exact layout_checks (Check.addType_alike _)
  errorExpr _ := layout_checks (Check.errorExpr_alike _ _)
  literal {_ x y} _ _ _ token _ := by
    have payload : x.payload = y.payload := congrArg (fun report => report.1.2.2) token
    rw [payload]
    exact layout_checks (Check.buildLiteral_alike _ _ _ _)
  read token _ := by
    rw [lexeme_eq token]
    exact layout_checks (Check.buildRead_alike _ _ _)
  unary op _ _ _ _ child _ := by
    cases child
    exact layout_checks (Check.buildUnary_alike _ _ _ _)
  call token args _ _ := by
    cases forall₂_eq args
    rw [lexeme_eq token]
    exact layout_checks (Check.buildCall_alike _ _ _ _ _ _)
  cast child target _ := by
    cases child
    cases target
    exact layout_checks (Check.castTo_alike _ _ _ _)
  assignment op _ _ _ _ left right := by
    cases left
    cases right
    exact layout_checks (Check.buildAssignment_alike _ _ _)
  binary op _ _ _ _ _ _ left right _ := by
    cases left
    cases right
    exact layout_checks (Check.buildBinary_alike _ _ _ _ _)
  used id := by
    cases id
    exact layout_follows (Check.checkUsed_alike _)
  condition id := by
    cases id
    exact layout_follows (Check.checkCondition_alike _)
  branches cond thenBranch otherwise _ := by
    cases cond
    cases thenBranch
    cases rel_eq otherwise
    exact layout_checks (Check.buildCondition_alike _ _ _ _ _)
  block body _ := by
    cases forall₂_eq body
    exact layout_checks (Check.buildScope_alike _ _ _)
  returned token value _ := by
    cases rel_eq value
    rw [lexeme_eq token]
    exact layout_checks (Check.buildReturn_alike _ _ _ _)
  declare token declared init _ := by
    cases rel_eq declared
    cases rel_eq init
    rw [lexeme_eq token]
    exact layout_checks (Check.declareVariable_alike _ _ _ _ _ _ _)
  parameter before token ty := by
    cases ty
    rw [lexeme_eq token]
    exact layout_checks (Check.declareParameter_alike _ _ _ before _)
  makePrototype token params result := by
    cases result
    rw [lexeme_eq token]
    exact layout_checks (Check.makePrototype_alike _ _ _ params _)
  params alike := alike.params
  addParameters related := layout_checks (Check.addParameters_alike related)
  function hasBody _ _ _ _ proto _ := layout_checks (Check.declareFunction_alike proto _ _ _)
  complete proto id body _ := by
    cases id
    cases body
    exact layout_follows (Check.completeFunction_alike proto _ _ _ _)

theorem layout_deepens : layout.Deepens where
  enter same := { same with depth := congrArg (· + 1) same.depth }
  leave same := { same with depth := congrArg (· - 1) same.depth }

theorem layout_grammars (n : Nat) : layout.Grammars (.ofLevels n) (.ofLevels n) :=
  layout_sound.levels layout_deepens n

end Simulation

namespace Session

theorem ofSource_alike {source other : String}
    (contents : (tokenize source).map Token.content = (tokenize other).map Token.content) :
    (ofSource source).Alike (ofSource other) := by
  have empty : Analysis.empty.Alike Analysis.empty :=
    ⟨⟨rfl, rfl⟩, ⟨rfl, rfl, rfl⟩, rfl, rfl, rfl, rfl, rfl⟩
  exact ⟨TokenStream.ofSource_same contents, empty, rfl, rfl⟩

/-- Sources with the same tokens come to the same knowledge. -/
theorem parse_alike {source other : String}
    (contents : (tokenize source).map Token.content = (tokenize other).map Token.content) :
    (parse source).Alike (parse other) := by
  have start := ofSource_alike contents
  have rounds : (ofSource source).tokens.pending.length = (ofSource other).tokens.pending.length :=
    start.tokens.alike.length
  have reads := Simulation.layout_sound.readDeclarations (Simulation.layout_grammars nestingLimit)
    (ofSource source).tokens.pending.length _ _ start
  change Alike (readDeclarations (.ofLevels nestingLimit) _ (ofSource source)).2
    (readDeclarations (.ofLevels nestingLimit) _ (ofSource other)).2
  rw [← rounds]
  exact reads.2

end Session

namespace Arena

variable {a b : Arena}

theorem Alike.functionName (alike : a.Alike b) : a.functionName = b.functionName := by
  funext id
  rw [Arena.functionName, Arena.functionName, alike.kind]

/-- A dump shows no spans. -/
theorem Alike.treeWithin_dump (alike : a.Alike b) (names : ExprId → String) (depth : Nat)
    (id : ExprId) : (a.treeWithin depth id).dump names = (b.treeWithin depth id).dump names := by
  induction depth generalizing id with
  | zero => rfl
  | succ depth ih =>
    have kind : (a.node id).kind = (b.node id).kind := alike.kind id
    have ty : (a.node id).ty = (b.node id).ty := alike.typeOf id
    have parts (kind : ExprKind ExprId) :
        (kind.children.map (a.treeWithin depth)).map (Tree.dump names) =
          (kind.children.map (b.treeWithin depth)).map (Tree.dump names) := by
      rw [List.map_map, List.map_map]
      exact List.map_congr_left fun child _ => ih child
    unfold Tree.dump at parts ⊢
    simp only [Arena.treeWithin, Tree.fold, Tree.foldAll_eq_map, kind, ty, alike.types, parts]

theorem Alike.dump (alike : a.Alike b) : a.dump = b.dump := by
  funext id
  rw [Arena.dump, Arena.dump, Arena.tree, Arena.tree, alike.size, alike.functionName]
  exact alike.treeWithin_dump _ _ id

end Arena

/-- What a parse comes to, wherever in the source it was found. -/
structure Session.Outcome where
  dump : String
  /-- The type of each top-level expression. -/
  typeNames : List String
  errorCount : Nat
  warningCount : Nat
  /-- The severity and the name of each diagnostic in the order of the report. -/
  diagnostics : List (Severity × String)
  deriving DecidableEq

namespace Session

def outcome (s : Session) : Outcome where
  dump := s.analysis.arena.dumpProgram s.program
  typeNames := s.program.map fun id => (s.analysis.arena.formOf id).name
  errorCount := s.analysis.report.errorCount
  warningCount := s.analysis.report.warningCount
  diagnostics := s.analysis.report.diagnostics.toList.map Diagnostic.content

theorem Alike.outcome {s t : Session} (alike : s.Alike t) : s.outcome = t.outcome := by
  obtain ⟨-, analysis, -, program⟩ := alike
  have forms : s.analysis.arena.formOf = t.analysis.arena.formOf := funext analysis.arena.formOf
  simp only [Session.outcome, Arena.dumpProgram, analysis.arena.dump, forms, program,
    analysis.report.diagnostics, analysis.report.errorCount, analysis.report.warningCount]

/-- Sources with the same tokens come to the same outcome, whatever stands between the tokens. -/
theorem outcome_of_contents {source other : String}
    (contents : (tokenize source).map Token.content = (tokenize other).map Token.content) :
    (parse source).outcome = (parse other).outcome :=
  (parse_alike contents).outcome

set_option maxRecDepth 100000 in
/-- Comments and newlines between the tokens of a program with a warning and an error. -/
theorem outcome_of_contents_commented :
    (tokenize "var x: u8 = 300; var y = x @").map Token.content =
        (tokenize "var x/* narrow */:u8=300; // lossy\n\tvar y\n= x@").map Token.content ∧
      (parse "var x: u8 = 300; var y = x @").outcome =
        (parse "var x/* narrow */:u8=300; // lossy\n\tvar y\n= x@").outcome := by
  have same : (tokenize "var x: u8 = 300; var y = x @").map Token.content =
      (tokenize "var x/* narrow */:u8=300; // lossy\n\tvar y\n= x@").map Token.content := by
    decide +kernel
  exact ⟨same, outcome_of_contents same⟩

end Session

end ScalarLang
