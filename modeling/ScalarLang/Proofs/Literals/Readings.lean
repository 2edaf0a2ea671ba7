import ScalarLang.Proofs.Literals.Balance
import ScalarLang.Proofs.Parser.Declaration

/-! Whatever is read without a loss keeps the balance: the literals that are consumed are those that
the expressions carry. -/

namespace ScalarLang

namespace TypeName

variable {rigor : Rigor} {a b : Place} {ids : List ExprId} {total : Multiset Nat}

theorem added_balances {shape : TypeShape} {ty : TypeId} (balances : a.Balances ids total)
    (add : a.Does rigor (Check.addType shape) ty b)
    (whole : ∀ scalar isConst, shape = .scalar scalar isConst → scalar.isFloating = false) :
    b.Balances ids total := by
  refine balances.idle add.tokens ?_
  have after : (Check.addType shape a.analysis).2 = b.analysis := congrArg Prod.snd add.run
  rw [← after]
  exact .ofGrows (Arena.addType_grows _ _) fun exact => exact.add whole

/-- Type names have no literals. -/
theorem Reading.balances {n : Nat} {phrase : Phrase} (reading : Reading rigor n a phrase b)
    (balances : a.Balances ids total) : b.Balances ids total := by
  induction reading with
  | scalar const name add =>
    have atName := balances.mayTake const (by decide) rfl
    have whole := TokenKind.isFloating_of_isExact (atName.isExact name nofun) (.inr rfl)
    refine added_balances (atName.take name nofun rfl) add fun scalar isConst same => ?_
    cases same
    exact whole
  | void const name add =>
    have atName := balances.mayTake const (by decide) rfl
    exact added_balances (atName.take name nofun rfl) add (by nofun)
  | pointer const name opens _ closes add inside =>
    have atName := balances.mayTake const (by decide) rfl
    have opened := (atName.take name nofun rfl).take opens nofun rfl
    exact added_balances ((inside opened).close closes) add (by nofun)
  | function const name _ gives _ add takes returns =>
    have atName := balances.mayTake const (by decide) rfl
    have params := takes (atName.take name nofun rfl)
    have result := returns (params.take gives nofun rfl)
    exact added_balances result add (by nofun)
  | noParams opens closes => exact (balances.take opens nofun rfl).take closes nofun rfl
  | someParams opens _ _ closes inside =>
    exact (inside (balances.take opens nofun rfl)).take closes nofun rfl
  | lastTypename _ _ item => exact item balances
  | nextTypename _ separates _ item rest => exact rest ((item balances).take separates nofun rfl)

end TypeName

namespace Expression

/-- The expressions that a phrase goes on from. -/
def Phrase.before : Phrase → List ExprId
  | .argumentList before _ => before
  | .climb _ lhs _ | .extension lhs _ _ => [lhs]
  | _ => []

def Phrase.after : Phrase → List ExprId
  | .operand id | .argument id | .expression _ id | .climb _ _ id | .extension _ _ id => [id]
  | .arguments ids | .argumentList _ ids => ids

theorem leadingOp?_plain {kind : TokenKind} {op : UnaryOp} (isOp : kind.leadingOp? = some op) :
    kind.isLiteral = false := by
  cases kind with
  | literal => cases isOp
  | _ => rfl

theorem trailingOp?_plain {kind : TokenKind} {op : UnaryOp} (isOp : kind.trailingOp? = some op) :
    kind.isLiteral = false := by
  cases kind with
  | literal => cases isOp
  | _ => rfl

theorem connective?_plain {kind : TokenKind} {connective : Connective}
    (isOp : kind.connective? = some connective) : kind.isLiteral = false := by
  cases kind with
  | literal => cases isOp
  | _ => rfl

/-- Only one token asks for conversions. -/
theorem conversion_inexact {kind : TokenKind} (isOp : kind.connective? = some .conversion) :
    kind.isExact = false := by
  cases kind with
  | as => rfl
  | _ => cases isOp

variable {rigor : Rigor} {a b : Place} {beside : List ExprId} {total : Multiset Nat}

theorem Reading.balances {n : Nat} {phrase : Phrase} (reading : Reading rigor n a phrase b)
    (lossless : b.analysis.Lossless) (balances : a.Balances (phrase.before ++ beside) total) :
    b.Balances (phrase.after ++ beside) total := by
  induction reading generalizing beside with
  | literal takes build => exact balances.takeLiteral takes build lossless
  | read takes _ build =>
    obtain ⟨-, built⟩ := build.spares lossless (Check.buildRead_spares _ _)
    exact (balances.take takes nofun rfl).keep build.tokens built
  | step takes _ read isOp operates build =>
    obtain ⟨losslessOp, built⟩ := build.spares lossless (Check.buildUnary_spares _ _ _)
    have losslessRead := (operates.leads (trailingOp?_notLast isOp)).lossless losslessOp
    obtain ⟨-, named⟩ := read.spares losslessRead (Check.buildRead_spares _ _)
    have atOp := (balances.take takes nofun rfl).keep read.tokens named
    have operated := atOp.take operates (trailingOp?_notLast isOp) (trailingOp?_plain isOp)
    exact operated.keep build.tokens built
  | call takes opens _ build inside =>
    obtain ⟨losslessArgs, built⟩ := build.spares lossless (Check.buildCall_spares _ _ _ _)
    have opened := (balances.take takes nofun rfl).take opens nofun rfl
    exact (inside losslessArgs opened).keep build.tokens built
  | group opens _ closes inside =>
    have losslessInside := (closes.leads nofun).lossless lossless
    exact (inside losslessInside (balances.take opens nofun rfl)).take closes nofun rfl
  | unary isOp operates _ build inside =>
    obtain ⟨losslessChild, built⟩ := build.spares lossless (Check.buildUnary_spares _ _ _)
    have operated := balances.take operates (leadingOp?_notLast isOp) (leadingOp?_plain isOp)
    exact (inside losslessChild operated).keep build.tokens built
  | noArguments closes => exact balances.take closes nofun rfl
  | someArguments _ _ list => exact list lossless balances
  | separated _ _ inside => exact inside lossless balances
  | closed _ closes inside =>
    exact (inside ((closes.leads nofun).lossless lossless) balances).take closes nofun rfl
  | @lastArgument n a before id b _ _ item =>
    have read : b.Balances (id :: (before ++ beside)) total := item lossless balances
    exact read.rotate
  | @nextArgument n a before id b comma c ids d _ separates list item others =>
    have losslessItem := ((separates.leads nofun).trans list.leads).lossless lossless
    have read : b.Balances (id :: (before ++ beside)) total := item losslessItem balances
    exact others lossless (read.rotate.take separates nofun rfl)
  | expression _ rest first others =>
    exact others lossless (first (rest.leads.lossless lossless) balances)
  | stop => exact balances
  | extend _ _ _ rest one others =>
    exact others lossless (one (rest.leads.lossless lossless) balances)
  | conversion isOp takes =>
    have exact := balances.isExact takes (connective?_notLast isOp)
    rw [conversion_inexact isOp] at exact
    cases exact
  | @assignment n a kind op lhs token b rhs c id d isOp takes _ build inside =>
    obtain ⟨losslessRight, built⟩ := build.spares lossless (Check.buildAssignment_spares _ _ _)
    have taken := balances.take takes (connective?_notLast isOp) (connective?_plain isOp)
    have read : c.Balances (rhs :: lhs :: beside) total := inside losslessRight taken
    exact (read.perm (.swap lhs rhs beside)).keep build.tokens built
  | @operation n a kind op lhs token b rhs c id d isOp takes _ build inside =>
    obtain ⟨losslessRight, built⟩ := build.spares lossless (Check.buildBinary_spares _ _ _ _)
    have taken := balances.take takes (connective?_notLast isOp) (connective?_plain isOp)
    have read : c.Balances (rhs :: lhs :: beside) total := inside losslessRight taken
    exact (read.perm (.swap lhs rhs beside)).keep build.tokens built

end Expression

namespace Statement

def Phrase.made : Phrase → List ExprId
  | .statement id | .variableDeclaration id | .scope id | .body id | .condition _ id => [id]
  | .returnValue found | .otherwise found => found.toList
  | .untilClosed ids => ids

variable {rigor : Rigor} {a b : Place} {beside : List ExprId} {total : Multiset Nat}

theorem typed_balances {n : Nat} {declared : Option TypeId}
    (typed : a.After .colon (TypeName.Whole rigor n) declared b)
    (balances : a.Balances beside total) : b.Balances beside total := by
  cases typed with
  | present takes names => exact names.balances (balances.take takes nofun rfl)
  | absent => exact balances

theorem value_balances {n : Nat} {init : Option ExprId}
    (value : a.After .assignment (Expression.Whole rigor n) init b) (lossless : b.analysis.Lossless)
    (balances : a.Balances beside total) : b.Balances (init.toList ++ beside) total := by
  cases value with
  | present takes inside => exact inside.balances lossless (balances.take takes nofun rfl)
  | absent => exact balances

theorem Reading.balances {n : Nat} {phrase : Phrase} (reading : Reading rigor n a phrase b)
    (lossless : b.analysis.Lossless) (balances : a.Balances beside total) :
    b.Balances (phrase.made ++ beside) total := by
  induction reading generalizing beside with
  | declaration _ inside | scope _ inside | braces _ _ inside => exact inside lossless balances
  | condition takes _ inside | elif takes _ inside | «else» takes _ inside =>
    exact inside lossless (balances.take takes nofun rfl)
  | «return» takes _ ends build gives =>
    obtain ⟨losslessEnd, built⟩ := build.spares lossless (Check.buildReturn_spares _ _ _)
    have losslessValue := (ends.leads nofun).lossless losslessEnd
    have value := gives losslessValue (balances.take takes nofun rfl)
    exact (value.take ends nofun rfl).keep build.tokens built
  | expression _ inside ends check =>
    obtain ⟨losslessEnd, checked⟩ := check.spares lossless (Check.checkUsed_spares _)
    have read := inside.balances ((ends.leads nofun).lossless losslessEnd) balances
    exact (read.take ends nofun rfl).idle check.tokens checked
  | variableDeclaration takes names typed value ends build =>
    obtain ⟨losslessEnd, built⟩ := build.spares lossless (Check.declareVariable_spares _ _ _ _)
    have named := (balances.take takes nofun rfl).take names nofun rfl
    have init := value_balances value ((ends.leads nofun).lossless losslessEnd)
      (typed_balances typed named)
    exact (init.take ends nofun rfl).keep build.tokens built
  | noValue | noBranch => exact balances
  | value _ inside => exact inside.balances lossless balances
  | @block n a opening b ids c id d opens _ build inside =>
    have losslessScope : d.analysis.Lossless := ⟨lossless.silent, lossless.right⟩
    obtain ⟨losslessBody, built⟩ := build.spares losslessScope (Check.buildScope_spares _ _)
    have opened : b.openScope.Balances beside total :=
      (balances.take opens nofun rfl).same rfl rfl
    have made : d.Balances ([id] ++ beside) total :=
      (inside losslessBody opened).keep build.tokens built
    exact made.same rfl rfl
  | closed closes => exact balances.take closes nofun rfl
  | @next n a id b ids c _ _ one rest first others =>
    have made := first (rest.leads.lossless lossless) balances
    have all := others lossless made
    exact all.perm List.perm_middle
  | @colon n a colon b id c scope d takes _ build inside =>
    obtain ⟨losslessScope, built⟩ := build.spares lossless (Check.buildScope_spares _ _)
    have losslessBody : c.analysis.Lossless := ⟨losslessScope.silent, losslessScope.right⟩
    have opened : b.openScope.Balances beside total :=
      (balances.take takes nofun rfl).same rfl rfl
    have made : c.Balances ([id] ++ beside) total := inside losslessBody opened
    have closed : (c.closeScope b.analysis).Balances ([id] ++ beside) total := made.same rfl rfl
    exact closed.keep build.tokens built
  | @branches n start a cond b c thenBranch d branch e id f asks check inside rest build body
      others =>
    obtain ⟨losslessAll, built⟩ := build.spares lossless (Check.buildCondition_spares _ _ _ _)
    have losslessBody := rest.leads.lossless losslessAll
    obtain ⟨losslessCond, checked⟩ :=
      check.spares (inside.leads.lossless losslessBody) (Check.checkCondition_spares _)
    have asked := (asks.balances losslessCond balances).idle check.tokens checked
    have read : e.Balances (branch.toList ++ (thenBranch :: cond :: beside)) total :=
      others losslessAll (body losslessBody asked)
    have ordered : (branch.toList ++ (thenBranch :: cond :: beside)).Perm
        (cond :: thenBranch :: branch.toList ++ beside) := by
      refine List.perm_middle.trans ((List.perm_middle.cons thenBranch).trans ?_)
      exact .swap cond thenBranch _
    exact (read.perm ordered).keep build.tokens built

end Statement

namespace Function

/-- What a phrase makes of what it reads. A function adds its body. -/
def Phrase.made (after : Arena) : Phrase → List ExprId
  | .body _ _ inside => [inside]
  | .function _ _ id => after.root id
  | _ => []

variable {rigor : Rigor} {a b : Place} {beside : List ExprId} {total : Multiset Nat}

theorem Reading.balances {n : Nat} {phrase : Phrase} (reading : Reading rigor n a phrase b)
    (lossless : b.analysis.Lossless) (balances : a.Balances beside total) :
    b.Balances (phrase.made b.analysis.arena ++ beside) total := by
  induction reading generalizing beside with
  | parameter names separates typed build =>
    obtain ⟨-, built⟩ := build.spares lossless (Check.declareParameter_spares _ _ _)
    have named := (balances.take names nofun rfl).take separates nofun rfl
    exact (typed.balances named).idle build.tokens built
  | lastParameter _ _ item => exact item lossless balances
  | nextParameter _ separates rest item others =>
    have losslessItem := ((separates.leads nofun).trans rest.leads).lossless lossless
    exact others lossless ((item losslessItem balances).take separates nofun rfl)
  | noParams closes => exact balances.take closes nofun rfl
  | someParams _ _ closes list =>
    have losslessList := (closes.leads nofun).lossless lossless
    exact (list losslessList balances).take closes nofun rfl
  | result takes names => exact names.balances (balances.take takes nofun rfl)
  | noResult _ add => exact TypeName.added_balances balances add (by nofun)
  | prototype names opens _ gives build takes result =>
    obtain ⟨losslessResult, built⟩ := build.spares lossless (Check.makePrototype_spares _ _ _)
    have losslessParams := gives.leads.lossless losslessResult
    have opened := (balances.take names nofun rfl).take opens nofun rfl
    exact (result losslessResult (takes losslessParams opened)).idle build.tokens built
  | @body a id params b body c bind inside =>
    have losslessBody : c.analysis.Lossless := ⟨lossless.silent, lossless.right⟩
    have losslessBind := inside.leads.lossless losslessBody
    obtain ⟨-, bound⟩ := bind.spares losslessBind (Check.addParameters_spares _)
    have entered : (a.setFunction (some id)).openScope.Balances beside total :=
      balances.same rfl rfl
    have started := entered.idle bind.tokens bound
    have made : c.Balances ([body] ++ beside) total := inside.balances losslessBody started
    exact made.same rfl rfl
  | @declared a _ _ proto b _ c _ d declares _ ends build ih =>
    obtain ⟨losslessEnd, opens⟩ := build.spares lossless (Check.declareFunction_spares _ _ _)
    obtain ⟨_, _, _, kind⟩ := opens.definition
    have read : b.Balances beside total := ih ((ends.leads nofun).lossless losslessEnd) balances
    have declared := (read.take ends nofun rfl).idle build.tokens opens.keeps
    rw [Phrase.made, Arena.root, kind]
    exact declared
  | @defined a _ proto b id c body d e declares _ build inside complete ih ihBody =>
    have losslessBody := (complete.leads (Check.completeFunction_regular _ _ _ _)).lossless lossless
    have losslessOpen := inside.leads.lossless losslessBody
    obtain ⟨losslessProto, opens⟩ := build.spares losslessOpen (Check.declareFunction_spares _ _ _)
    obtain ⟨_, _, _, kind⟩ := opens.definition
    have read : b.Balances beside total := ih losslessProto balances
    have made : d.Balances ([body] ++ beside) total :=
      ihBody losslessBody (read.idle build.tokens opens.keeps)
    obtain ⟨-, keeps, root⟩ := complete.spares lossless (Check.completeFunction_spares _ _ _ _)
    have grows : Program.Grows ⟨[], c.analysis.arena⟩ ⟨[], d.analysis.arena⟩ :=
      ⟨inside.leads.grows, List.Subset.refl _⟩
    have opened : (c.analysis.arena.kind id).isDefinition = true := by
      rw [kind]
      rfl
    rw [Phrase.made, root (grows.isDefinition opened)]
    exact made.idle complete.tokens keeps

end Function

end ScalarLang
