import ScalarLang.Parser.Session
import ScalarLang.Proofs.Analysis.Growth
import ScalarLang.Proofs.Analysis.Yields
import ScalarLang.Proofs.Parser.Moves

/-! Where a parse is: the tokens that are left and what is known of the program. A parse leads from
one place to another by consuming tokens, by semantic actions and by reports about the form. -/

namespace ScalarLang

structure Place where
  tokens : TokenStream
  analysis : Analysis

namespace Analysis

def openScope (analysis : Analysis) : Analysis :=
  { analysis with scopeStart := analysis.locals.length }

def closeScope (before analysis : Analysis) : Analysis :=
  { analysis with
    locals := analysis.locals.take before.locals.length
    scopeStart := before.scopeStart }

def setFunction (currentFn : Option ExprId) (analysis : Analysis) : Analysis :=
  { analysis with currentFn }

def blame (analysis : Analysis) (token : Token) : Analysis :=
  match token.fault with
  | some fault => (Check.error fault token.span analysis).2
  | none => analysis

end Analysis

namespace Session

def place (session : Session) : Place := ⟨session.tokens, session.analysis⟩

end Session

namespace Place

def kind (place : Place) : TokenKind := place.tokens.current.kind

def mistakes (rigor : Rigor) (place : Place) : Nat := place.analysis.mistakes rigor

def consume (place : Place) : Place :=
  ⟨place.tokens.advance, place.analysis.blame place.tokens.current⟩

def splitAngle (place : Place) (kind : TokenKind) (lexeme : String) : Place :=
  { place with
    tokens := place.tokens.replaceCurrent (TokenStream.shorten place.tokens.current kind lexeme) }

def openScope (place : Place) : Place := { place with analysis := place.analysis.openScope }

def closeScope (before : Analysis) (place : Place) : Place :=
  { place with analysis := before.closeScope place.analysis }

def setFunction (currentFn : Option ExprId) (place : Place) : Place :=
  { place with analysis := place.analysis.setFunction currentFn }

/-- Everything that a parse can do between two places. Scopes and functions are left as they were
entered. -/
inductive Leads : Place → Place → Prop
  | refl (a : Place) : Leads a a
  | trans {a b c : Place} (first : Leads a b) (rest : Leads b c) : Leads a c
  | consume {a : Place} (more : a.kind ≠ .eof) : Leads a a.consume
  | split {a : Place} {kind : TokenKind} {lexeme : String}
      (long : TokenStream.afterAngle? a.kind = some (kind, lexeme)) :
      Leads a (a.splitAngle kind lexeme)
  | judge {a : Place} {analysis : Analysis} (changes : a.analysis.Changes .declaration analysis) :
      Leads a { a with analysis }
  | complain {a : Place} (problem : SyntaxProblem) (span : Span) :
      Leads a { a with analysis := (Check.error problem span a.analysis).2 }
  | scope {a b : Place} (inside : Leads a.openScope b) : Leads a (b.closeScope a.analysis)
  | function {a b : Place} (id : ExprId) (inside : Leads (a.setFunction (some id)) b) :
      Leads a (b.setFunction a.analysis.currentFn)

variable {a b : Place} {rigor : Rigor}

theorem mistakes_blame (rigor : Rigor) (analysis : Analysis) (token : Token) :
    (analysis.blame token).mistakes rigor =
      analysis.mistakes rigor + if token.fault.isSome then 1 else 0 := by
  unfold Analysis.blame
  cases token.fault with
  | none => rfl
  | some fault => simpa using Analysis.mistakes_error (Rigor.counts_lexical rigor fault) token.span

theorem Leads.moves (leads : a.Leads b) : a.tokens.Moves b.tokens := by
  induction leads with
  | refl | judge | complain => exact .refl
  | trans _ _ first rest => exact first.trans rest
  | consume more => exact .single (.consume more)
  | split long => exact .single (.split long)
  | scope _ inside | function _ _ inside => exact inside

theorem Leads.formed (leads : a.Leads b) (formed : a.tokens.Formed) : b.tokens.Formed :=
  leads.moves.formed formed

/-- Nothing that was reported is taken back. -/
theorem Leads.mistakes_le (rigor : Rigor) (leads : a.Leads b) : a.mistakes rigor ≤ b.mistakes rigor := by
  induction leads with
  | refl => exact Nat.le_refl _
  | trans _ _ first rest => exact Nat.le_trans first rest
  | consume =>
    unfold mistakes
    rw [Place.consume, mistakes_blame]
    exact Nat.le_add_right _ _
  | split => exact Nat.le_refl _
  | judge changes => exact changes.mistakes_le
  | complain problem span =>
    unfold mistakes
    rw [Analysis.mistakes_error (Rigor.counts_syntactic rigor problem)]
    exact Nat.le_succ _
  | scope _ inside | function _ _ inside => exact inside

theorem Leads.counted (leads : a.Leads b) (counted : a.analysis.report.Counted) :
    b.analysis.report.Counted := by
  induction leads with
  | refl | split => exact counted
  | trans _ _ first rest => exact rest (first counted)
  | @consume a _ =>
    unfold Place.consume Analysis.blame
    dsimp only
    split
    · exact counted.add _
    · exact counted
  | judge changes => exact changes.counted counted
  | complain => exact counted.add _
  | scope _ inside | function _ _ inside => exact inside counted

theorem blame_same (analysis : Analysis) (token : Token) :
    (analysis.blame token).arena = analysis.arena ∧
      (analysis.blame token).currentFn = analysis.currentFn := by
  unfold Analysis.blame
  split <;> exact ⟨rfl, rfl⟩

/-- Nothing that is known of types and expressions is lost. -/
theorem Leads.grows (leads : a.Leads b) : a.analysis.arena.Grows b.analysis.arena := by
  induction leads with
  | refl | split | complain => exact .refl _
  | trans _ _ first rest => exact first.trans rest
  | @consume a =>
    have same : a.consume.analysis.arena = a.analysis.arena :=
      (blame_same a.analysis a.tokens.current).1
    rw [same]
    exact .refl _
  | judge changes => exact changes.grows
  | scope _ inside | function _ _ inside => exact inside

theorem Leads.coherent (leads : a.Leads b) (coherent : a.analysis.arena.types.Coherent) :
    b.analysis.arena.types.Coherent := by
  induction leads with
  | refl | split | complain => exact coherent
  | trans _ _ first rest => exact rest (first coherent)
  | @consume a =>
    have same : a.consume.analysis.arena = a.analysis.arena :=
      (blame_same a.analysis a.tokens.current).1
    rwa [same]
  | judge changes => exact changes.coherent coherent
  | scope _ inside | function _ _ inside => exact inside coherent

/-- Every function that was entered was left again. -/
theorem Leads.currentFn (leads : a.Leads b) : b.analysis.currentFn = a.analysis.currentFn := by
  induction leads with
  | refl | split | complain => rfl
  | trans _ _ first rest => exact rest.trans first
  | @consume a => exact (blame_same a.analysis a.tokens.current).2
  | judge changes => exact changes.currentFn
  | scope _ inside => exact inside
  | function => rfl

theorem Leads.inFunction (leads : a.Leads b) (inside : a.analysis.InFunction) :
    b.analysis.InFunction :=
  inside.grow leads.grows leads.currentFn

structure Takes (a : Place) (kind : TokenKind) (token : Token) (b : Place) : Prop where
  current : a.tokens.current = token
  kind : token.kind = kind
  fault : token.fault = none
  after : b = { a with tokens := a.tokens.advance }

inductive MayTake (a : Place) (kind : TokenKind) : Bool → Place → Prop
  | taken {token : Token} {b : Place} (takes : a.Takes kind token b) : MayTake a kind true b
  | left (other : a.kind ≠ kind) : MayTake a kind false a

/-- What follows a token of the kind, if the token is there. -/
inductive After {α : Type} (kind : TokenKind) (Item : Place → α → Place → Prop) (a : Place) :
    Option α → Place → Prop
  | present {token : Token} {b : Place} {x : α} {c : Place} (takes : a.Takes kind token b)
      (item : Item b x c) : After kind Item a (some x) c
  | absent (other : a.kind ≠ kind) : After kind Item a none a

/-- The angle that closes a pointer type is consumed or taken off. -/
inductive Closes (a : Place) : Place → Prop
  | whole {token : Token} {b : Place} (takes : a.Takes .greater token b) : Closes a b
  | part {kind : TokenKind} {lexeme : String}
      (long : TokenStream.afterAngle? a.kind = some (kind, lexeme)) :
      Closes a (a.splitAngle kind lexeme)

/-- A semantic action has the result, and reports no error that counts. -/
structure Does {α : Type} (rigor : Rigor) (a : Place) (check : Check α) (x : α) (b : Place) :
    Prop where
  run : check a.analysis = (x, b.analysis)
  tokens : b.tokens = a.tokens
  clean : b.mistakes rigor = a.mistakes rigor

/-- Who consumed nothing left the current token there. -/
theorem Leads.more_of_idle (leads : a.Leads b) (formed : a.tokens.Formed) (more : a.kind ≠ .eof)
    (idle : b.tokens.consumed = a.tokens.consumed) : b.kind ≠ .eof := by
  intro ended
  have spent : b.tokens.pending = [] := (leads.formed formed).current_eof_iff.mp ended
  have total := leads.moves.total formed
  obtain ⟨rest, pending⟩ := formed.head_notLast more
  simp only [spent, pending, List.length_nil, List.length_cons] at total
  omega

theorem Takes.present {kind : TokenKind} {token : Token} (takes : a.Takes kind token b) :
    a.kind = kind :=
  (congrArg Token.kind takes.current).trans takes.kind

theorem Takes.leads {kind : TokenKind} {token : Token} (takes : a.Takes kind token b)
    (notLast : kind ≠ .eof) : a.Leads b := by
  have unfaulted : a.tokens.current.fault = none := takes.current ▸ takes.fault
  have consumed : a.consume = b := by
    simp [Place.consume, Analysis.blame, unfaulted, takes.after]
  exact consumed ▸ .consume (takes.present ▸ notLast)

theorem MayTake.leads {kind : TokenKind} {taken : Bool} (takes : a.MayTake kind taken b)
    (notLast : kind ≠ .eof) : a.Leads b := by
  cases takes with
  | taken takes => exact takes.leads notLast
  | left => exact .refl a

theorem After.leads {α : Type} {kind : TokenKind} {Item : Place → α → Place → Prop}
    {found : Option α} (follows : a.After kind Item found b) (notLast : kind ≠ .eof)
    (item : ∀ {c x d}, Item c x d → c.Leads d) : a.Leads b := by
  cases follows with
  | present takes inside => exact (takes.leads notLast).trans (item inside)
  | absent => exact .refl a

theorem Does.after {α : Type} {check : Check α} {x : α} (does : a.Does rigor check x b) :
    { a with analysis := (check a.analysis).2 } = b := by
  rw [does.run, ← does.tokens]

theorem Does.leads {α : Type} {check : Check α} {x : α} (does : a.Does rigor check x b)
    (regular : check.Regular .declaration) : a.Leads b :=
  does.after ▸ .judge (regular a.analysis)

/-- One place leads to another, and no mistake that counts is made on the way. -/
structure Reaches (rigor : Rigor) (a b : Place) : Prop where
  leads : a.Leads b
  clean : b.mistakes rigor = a.mistakes rigor

theorem Reaches.refl (rigor : Rigor) (a : Place) : Reaches rigor a a := ⟨.refl a, rfl⟩

theorem Reaches.trans {c : Place} (first : Reaches rigor a b) (rest : Reaches rigor b c) :
    Reaches rigor a c :=
  ⟨first.leads.trans rest.leads, rest.clean.trans first.clean⟩

theorem Reaches.scope (inside : Reaches rigor a.openScope b) :
    Reaches rigor a (b.closeScope a.analysis) :=
  ⟨.scope inside.leads, inside.clean⟩

theorem Reaches.function (id : ExprId) (inside : Reaches rigor (a.setFunction (some id)) b) :
    Reaches rigor a (b.setFunction a.analysis.currentFn) :=
  ⟨.function id inside.leads, inside.clean⟩

theorem Takes.reaches {kind : TokenKind} {token : Token} (takes : a.Takes kind token b)
    (notLast : kind ≠ .eof) : Reaches rigor a b :=
  ⟨takes.leads notLast, by rw [takes.after]; rfl⟩

theorem MayTake.reaches {kind : TokenKind} {taken : Bool} (takes : a.MayTake kind taken b)
    (notLast : kind ≠ .eof) : Reaches rigor a b := by
  cases takes with
  | taken takes => exact takes.reaches notLast
  | left => exact .refl rigor a

theorem After.reaches {α : Type} {kind : TokenKind} {Item : Place → α → Place → Prop}
    {found : Option α} (follows : a.After kind Item found b) (notLast : kind ≠ .eof)
    (item : ∀ {c x d}, Item c x d → Reaches rigor c d) : Reaches rigor a b := by
  cases follows with
  | present takes inside => exact (takes.reaches notLast).trans (item inside)
  | absent => exact .refl rigor a

theorem Closes.reaches (closes : a.Closes b) : Reaches rigor a b := by
  cases closes with
  | whole takes => exact takes.reaches nofun
  | part long => exact ⟨.split long, rfl⟩

theorem Does.reaches {α : Type} {check : Check α} {x : α} (does : a.Does rigor check x b)
    (regular : check.Regular .declaration) : Reaches rigor a b :=
  ⟨does.leads regular, does.clean⟩

theorem Takes.consumed {kind : TokenKind} {token : Token} (takes : a.Takes kind token b) :
    b.tokens.consumed = a.tokens.consumed + 1 := by
  rw [takes.after]
  rfl

theorem Leads.consumed_le (leads : a.Leads b) : a.tokens.consumed ≤ b.tokens.consumed :=
  leads.moves.consumed_le

/-- Whoever consumes something leaves less. -/
theorem Leads.pending_lt (leads : a.Leads b) (formed : a.tokens.Formed)
    (consumes : a.tokens.consumed < b.tokens.consumed) :
    b.tokens.pending.length < a.tokens.pending.length := by
  have total := leads.moves.total formed
  omega

theorem Takes.consumed_lt {c : Place} {kind : TokenKind} {token : Token}
    (takes : a.Takes kind token b) (rest : b.Leads c) : a.tokens.consumed < c.tokens.consumed := by
  have one := takes.consumed
  have after := rest.consumed_le
  omega

end Place

end ScalarLang
