import ScalarLang.Proofs.Parser.Bounds

/-! Closing angles, with what closes a pointer type as a parameter of the grammar. A parse consumes
an angle as a closing one where it would go another way if that angle were refused. -/

namespace ScalarLang

/-- The places of the characters of a token that can close a pointer type. -/
def Token.angles (token : Token) : List Position :=
  let start := token.span.start
  match token.kind with
  | .greater | .greaterEquals => [start]
  | .rightShift | .rightShiftEquals => [start, { start with column := start.column + 1 }]
  | _ => []

/-- Closes like `closeAngle`, but refuses the angle at the place. -/
def Parse.closeAngleBut (place : Position) : Parse Unit := do
  let token ← Step.current
  if token.angles.head? = some place then
    fail (SyntaxProblem.expectedToken "'>'" token.lexeme) token.span
  else closeAngle

namespace TypeName

def pointerWith (close : Parse Unit) (typename : Parse TypeId) (isConst : Bool) :
    Parse TypeId := do
  discard Step.advance
  discard (Parse.expect .less "'<'")
  let pointee ← typename
  close
  Check.addType (.pointer isConst pointee)

def parseWith (close : Parse Unit) (typename : Parse TypeId) : Parse TypeId := do
  let isConst ← Step.accept .const
  let token ← Step.current
  match token.kind with
  | .scalar scalar =>
    discard Step.advance
    Check.addType (.scalar scalar isConst)
  | .void =>
    discard Step.advance
    Check.addType .void
  | .ptr => pointerWith close typename isConst
  | .fn => function typename
  | .error =>
    discard Step.advance
    failure
  | _ => Parse.fail (SyntaxProblem.expectedTypename token.lexeme) token.span

theorem parseWith_closeAngle (typename : Parse TypeId) :
    parseWith Parse.closeAngle typename = parse typename := rfl

end TypeName

def Grammar.levelsWith (close : Parse Unit) : Nat → Grammar
  | 0 => refused
  | levels + 1 =>
    let inner := levelsWith close levels
    deepen
      { typename := TypeName.parseWith close inner.typename
        binary := Expression.binary inner
        primary := Expression.primary inner
        statement := Statement.parse inner
        condition := Statement.condition inner }

theorem Grammar.levelsWith_closeAngle (levels : Nat) :
    levelsWith Parse.closeAngle levels = ofLevels levels := by
  induction levels with
  | zero => rfl
  | succ levels ih => simp only [levelsWith, ofLevels, ih, TypeName.parseWith_closeAngle]

def Session.readTokens (grammar : Grammar) (session : Session) : Session :=
  (readDeclarations grammar session.tokens.pending.length session).2

def parseWith (close : Parse Unit) (source : String) : Session :=
  (Session.ofSource source).readTokens (.levelsWith close nestingLimit)

theorem parseWith_closeAngle (source : String) : parseWith Parse.closeAngle source = parse source := by
  rw [parseWith, Grammar.levelsWith_closeAngle]
  rfl

/-- The parse consumes the angle at the place as the closing angle of a pointer type: if just this
angle were refused, it would be another parse. -/
def ClosesAt (source : String) (place : Position) : Prop :=
  parseWith (Parse.closeAngleBut place) source ≠ parse source

variable {rigor : Rigor} {close : Parse Unit}

/-- What is consumed by a closer is a closing angle. -/
def Parse.Closer (rigor : Rigor) (close : Parse Unit) : Prop :=
  ∀ s : Session, close.Yields rigor s fun _ b => s.place.Closes b

theorem Parse.closeAngle_closer : closeAngle.Closer rigor := fun _ => .closeAngle

theorem Parse.closeAngleBut_closer (place : Position) : (closeAngleBut place).Closer rigor := by
  intro s
  refine .look rfl ?_
  split
  · exact .fail _ _
  · exact .closeAngle

namespace TypeName

variable {n : Nat} {inner : Parse TypeId}

theorem pointerWith_yields (closer : close.Closer rigor) (reads : Reads rigor n inner) {s : Session}
    (name : s.place.kind = .ptr) (isConst : Bool) :
    (pointerWith close inner isConst).Yields rigor s fun ty b =>
      ∀ a : Place, a.MayTake .const isConst s.place → Reading rigor (n + 1) a (.typename ty) b := by
  refine .bind (.discard (.step (.advance name (by decide)))) fun _ t _ => ?_
  refine .bind (.discard (.expect (by decide))) fun _ u _ => .bind (reads u) fun pointee v _ => ?_
  refine .bind (closer v) fun _ w _ => .mono (.check (.addType _)) ?_
  rintro ty b add closes inside ⟨opening, opens⟩ ⟨token, name⟩ a const
  exact .pointer const name opens inside closes add

theorem parseWith_reads (closer : close.Closer rigor) (reads : Reads rigor n inner) :
    Reads rigor (n + 1) (parseWith close inner) := by
  intro s
  refine .bind (.step (.accept (by decide))) fun isConst t _ => .look rfl ?_
  split
  · rename_i scalar name
    refine .bind (.discard (.step (.advance name nofun))) fun _ u _ => ?_
    refine .mono (.check (.addType _)) ?_
    rintro ty b add ⟨token, name⟩ const
    exact .scalar const name add
  · rename_i name
    refine .bind (.discard (.step (.advance name (by decide)))) fun _ u _ => ?_
    refine .mono (.check (.addType _)) ?_
    rintro ty b add ⟨token, name⟩ const
    exact .void const name add
  · rename_i name
    exact .mono (pointerWith_yields closer reads name isConst) fun _ _ reading const =>
      reading _ const
  · rename_i name
    exact .mono (function_yields reads name) fun _ _ reading const => reading _ _ const
  · rename_i wrong
    exact .errorToken wrong
  · exact .fail _ _

end TypeName

theorem Grammar.levelsWith_reads (closer : close.Closer rigor) (n : Nat) :
    Statement.Reads rigor n (levelsWith close n) := by
  induction n with
  | zero => exact ofLevels_reads 0
  | succ n ih =>
    exact
      { typename := fun s => .deeper (TypeName.parseWith_reads closer ih.typename s.enter)
        binary := fun limit s => .deeper (Expression.binary_yields ih.toReads limit s.enter)
        primary := fun s => .deeper (Expression.primary_yields ih.toReads s.enter)
        statement := fun s => .deeper (Statement.parse_yields ih s.enter)
        condition := fun start s => .deeper (Statement.condition_yields ih start s.enter) }

end ScalarLang
