import ScalarLang.Proofs.Parser.Replay
import ScalarLang.Proofs.Precedence.Integers

/-! Climbing by rank finds the tree of a text again. On the way the left operands of a tree are
what has been read so far, and a right operand is read under the rank of its operator. -/

namespace ScalarLang

namespace TokenStream

/-- The tokens start with the text, and what comes after it is there. -/
def Begins (tokens : TokenStream) : List Lexeme → TokenStream → Prop
  | [], after => after = tokens
  | lexeme :: text, after => tokens.current.written = lexeme ∧ tokens.advance.Begins text after

theorem Begins.append {tokens after : TokenStream} {text more : List Lexeme}
    (begins : tokens.Begins (text ++ more) after) :
    ∃ middle, tokens.Begins text middle ∧ middle.Begins more after := by
  induction text generalizing tokens with
  | nil => exact ⟨tokens, rfl, begins⟩
  | cons lexeme text ih =>
    obtain ⟨written, rest⟩ := begins
    obtain ⟨middle, first, last⟩ := ih rest
    exact ⟨middle, ⟨written, first⟩, last⟩

end TokenStream

namespace Place

variable {a b : Place} {slots : String → Slot} {tree : Arithmetic} {id : ExprId}

/-- Where an integer expression can be read: the tokens are well formed and the table of types is
coherent. -/
structure Readable (a : Place) : Prop where
  formed : a.tokens.Formed
  coherent : a.analysis.arena.types.Coherent

theorem Readable.on (ready : a.Readable) (leads : a.Leads b) : b.Readable :=
  ⟨leads.formed ready.formed, leads.coherent ready.coherent⟩

/-- A written token of a kind is taken. -/
theorem Readable.take {kind : TokenKind} {text : String} (ready : a.Readable)
    (written : a.tokens.current.written = ⟨kind, text⟩) (right : kind ≠ .error) :
    ∃ token, a.Takes kind token ⟨a.tokens.advance, a.analysis⟩ ∧ token.lexeme = text := by
  have present : a.tokens.current.kind = kind := congrArg Lexeme.kind written
  have unfaulted : a.tokens.current.fault = none := by
    have marked := ready.formed.current_marked
    simpa [Token.Marked, present, right] using marked
  exact ⟨a.tokens.current, ⟨rfl, present, unfaulted, rfl⟩, congrArg Lexeme.text written⟩

/-- The tree has been read on the way, and nothing was said about it. -/
structure Shown (slots : String → Slot) (a : Place) (tree : Arithmetic) (id : ExprId) (b : Place) :
    Prop where
  quietly : a.analysis.Quietly b.analysis
  shows : b.analysis.arena.Shows slots id tree

/-- An action that says nothing does what it does. -/
theorem does_quietly {check : Check ExprId} (a : Place)
    (quietly : a.analysis.Quietly (check a.analysis).2) :
    a.Does .meaning check (check a.analysis).1 ⟨a.tokens, (check a.analysis).2⟩ :=
  ⟨rfl, rfl, congrArg (Report.mistakes .meaning) quietly.report⟩

end Place

namespace Arithmetic

open Expression

variable {slots : String → Slot} {tree lhs rhs : Arithmetic} {operator : ArithmeticOp}
  {n limit : Nat} {a : Place} {after : TokenStream}

/-- Where a text ends a name must not go on as a call or a step. -/
def Closes (isEnclosed : Bool) (kind : TokenKind) : Prop :=
  isEnclosed = true ∨ kind ≠ .openParen ∧ kind.trailingOp? = none

theorem closes_operator (isEnclosed : Bool) (operator : ArithmeticOp) :
    Closes isEnclosed operator.op.tokenKind :=
  .inr operator.op.tokenKind_follows

theorem closes_closeParen (isEnclosed : Bool) : Closes isEnclosed .closeParen := .inr ⟨nofun, rfl⟩

def Declared (slots : String → Slot) (tree : Arithmetic) (analysis : Analysis) : Prop :=
  ∀ name ∈ tree.names, analysis.HasInteger slots name

theorem Declared.left {analysis : Analysis}
    (declared : (operate lhs operator rhs).Declared slots analysis) : lhs.Declared slots analysis :=
  fun name member => declared name (List.mem_append_left _ member)

theorem Declared.right {analysis : Analysis}
    (declared : (operate lhs operator rhs).Declared slots analysis) : rhs.Declared slots analysis :=
  fun name member => declared name (List.mem_append_right _ member)

theorem Declared.grow {before later : Analysis} (declared : tree.Declared slots before)
    (grows : before.Grows later) : tree.Declared slots later :=
  fun name member => (declared name member).grow grows

/-- The text of the tree, where it can be read, with what comes after it. -/
structure Stands (slots : String → Slot) (tree : Arithmetic) (text : List Lexeme) (a : Place)
    (after : TokenStream) : Prop where
  ready : a.Readable
  begins : a.tokens.Begins text after
  declared : tree.Declared slots a.analysis

/-- At every level and under every limit looser than the tree, its text is an operand and the
connectives that make the tree of it, before those that follow. -/
def Climbs (slots : String → Slot) (tree : Arithmetic) : Prop :=
  ∀ {n limit a after}, tree.Stands slots tree.render a after → tree.rank < limit →
    Ends tree.rank after.current.kind → Closes tree.endsEnclosed after.current.kind →
    tree.nesting ≤ n →
    ∃ first middle id b, Reading .meaning (n + 1) a (.operand first) middle ∧
      (∀ result c, Reading .meaning n b (.climb limit id result) c →
        Reading .meaning n middle (.climb limit first result) c) ∧
      a.Leads b ∧ b.tokens = after ∧ a.Shown slots tree id b

/-- Under a limit that what follows does not keep, the text is a whole expression. -/
theorem Climbs.expression (climbs : tree.Climbs slots)
    (stands : tree.Stands slots tree.render a after) (binds : tree.rank < limit)
    (ends : Ends limit after.current.kind) (closes : Closes tree.endsEnclosed after.current.kind)
    (fits : tree.nesting ≤ n) :
    ∃ id b, Reading .meaning (n + 1) a (.expression limit id) b ∧ b.tokens = after ∧
      a.Shown slots tree id b := by
  have endsOwn : Ends tree.rank after.current.kind :=
    fun connective found => Nat.le_trans (Nat.le_of_lt binds) (ends connective found)
  obtain ⟨first, middle, id, b, operand, goesOn, -, tokens, shown⟩ :=
    climbs stands binds endsOwn closes fits
  have stops : Reading .meaning n b (.climb limit id id) b := by
    refine .stop ?_
    rw [Place.kind, tokens]
    exact ends
  exact ⟨id, b, .expression operand (goesOn id b stops), tokens, shown⟩

/-- A name is an operand and nothing more. -/
theorem climbs_read (name : String) : (read name).Climbs slots := by
  intro n limit a after stands binds _ closes _
  obtain ⟨ready, ⟨written, after_eq⟩, declared⟩ := stands
  obtain ⟨token, takes, rfl⟩ := ready.take written nofun
  have declared := declared token.lexeme (List.mem_singleton.mpr rfl)
  obtain ⟨quietly, shows⟩ := Check.buildRead_integer declared token.span
  have build := Place.does_quietly ⟨a.tokens.advance, a.analysis⟩ quietly
  obtain ⟨notCall, notStep⟩ := closes.resolve_left Bool.false_ne_true
  have after_eq : after = a.tokens.advance := after_eq
  subst after_eq
  have operand := Reading.read (n := n) takes notCall build notStep
  exact ⟨_, _, _, _, operand, fun _ _ climb => climb, operand.leads, rfl, quietly, shows⟩

/-- Parentheses make an operand of every tree, one level deeper. -/
theorem Climbs.group (climbs : tree.Climbs slots)
    (stands : tree.Stands slots (enclosed tree.render) a after) (fits : tree.nesting + 1 ≤ n) :
    ∃ id b, Reading .meaning (n + 1) a (.operand id) b ∧ b.tokens = after ∧
      a.Shown slots tree id b := by
  obtain ⟨ready, begins, declared⟩ := stands
  obtain ⟨written, begins⟩ := begins
  obtain ⟨opening, opens, -⟩ := ready.take written nofun
  obtain ⟨last, inside, close, after_eq⟩ := begins.append
  have kind : last.current.kind = .closeParen := congrArg Lexeme.kind close
  cases n with
  | zero => omega
  | succ n =>
    have stands : tree.Stands slots tree.render ⟨a.tokens.advance, a.analysis⟩ last :=
      ⟨ready.on (opens.leads nofun), inside, declared⟩
    obtain ⟨id, b, reading, tokens, shown⟩ := climbs.expression stands
      tree.rank_lt_terminatorRank (by rw [kind]; nofun) (kind ▸ closes_closeParen _) (Nat.le_of_succ_le_succ fits)
    have readyClose := stands.ready.on reading.leads
    subst tokens
    obtain ⟨closing, closed, -⟩ := readyClose.take close nofun
    exact ⟨id, _, .group opens reading closed, after_eq.symm, shown.quietly, shown.shows⟩

/-- The left operand of an operator under a limit looser than the operator. -/
theorem Climbs.left (climbs : lhs.Climbs slots)
    (stands : lhs.Stands slots
      (if lhs.enclosesLeft operator then enclosed lhs.render else lhs.render) a after)
    (follows : after.current.kind = operator.op.tokenKind) (binds : operator.rank < limit)
    (fits : (if lhs.enclosesLeft operator then lhs.nesting + 1 else lhs.nesting) ≤ n) :
    ∃ first middle id b, Reading .meaning (n + 1) a (.operand first) middle ∧
      (∀ result c, Reading .meaning n b (.climb limit id result) c →
        Reading .meaning n middle (.climb limit first result) c) ∧
      a.Leads b ∧ b.tokens = after ∧ a.Shown slots lhs id b := by
  split at stands
  · rename_i looser
    rw [if_pos looser] at fits
    obtain ⟨id, b, operand, tokens, shown⟩ := climbs.group stands fits
    exact ⟨id, b, id, b, operand, fun _ _ climb => climb, operand.leads, tokens, shown⟩
  · rename_i notLooser
    rw [if_neg notLooser] at fits
    have rank : lhs.rank ≤ operator.rank := by simpa [enclosesLeft] using notLooser
    refine climbs stands (Nat.lt_of_le_of_lt rank binds) ?_ (follows ▸ closes_operator _ _) fits
    intro connective found
    rw [follows, BinaryOp.connective?_tokenKind] at found
    cases found
    exact rank

/-- The right operand of an operator is an expression under the rank of the operator. -/
theorem Climbs.right (climbs : rhs.Climbs slots)
    (stands : rhs.Stands slots
      (if enclosesRight operator rhs then enclosed rhs.render else rhs.render) a after)
    (ends : Ends operator.rank after.current.kind)
    (closes : Closes (enclosesRight operator rhs || rhs.endsEnclosed) after.current.kind)
    (fits : (if enclosesRight operator rhs then rhs.nesting + 2 else rhs.nesting + 1) ≤ n) :
    ∃ id b, Reading .meaning n a (.expression operator.rank id) b ∧ b.tokens = after ∧
      a.Shown slots rhs id b := by
  split at stands
  · rename_i looser
    rw [if_pos looser] at fits
    obtain ⟨levels, rfl⟩ := Nat.exists_eq_succ_of_ne_zero (n := n) (by omega)
    obtain ⟨id, b, operand, tokens, shown⟩ :=
      climbs.group stands (Nat.le_of_succ_le_succ fits)
    have stops : Reading .meaning levels b (.climb operator.rank id id) b := by
      refine .stop ?_
      rw [Place.kind, tokens]
      exact ends
    exact ⟨id, b, .expression operand stops, tokens, shown⟩
  · rename_i tighter
    rw [if_neg tighter] at fits
    obtain ⟨levels, rfl⟩ := Nat.exists_eq_succ_of_ne_zero (n := n) (by omega)
    have rank : rhs.rank < operator.rank := by simpa [enclosesRight] using tighter
    rw [Bool.eq_false_iff.mpr tighter, Bool.false_or] at closes
    exact climbs.expression stands rank ends closes (Nat.le_of_succ_le_succ fits)

/-- An operator joins its operands: the left one is what was read before it. -/
theorem Climbs.join (left : lhs.Climbs slots) (right : rhs.Climbs slots) :
    (operate lhs operator rhs).Climbs slots := by
  intro n limit a after stands binds ends closes fits
  obtain ⟨ready, begins, declared⟩ := stands
  obtain ⟨atOperator, beginsLeft, written, beginsRight⟩ := begins.append
  have follows : atOperator.current.kind = operator.op.tokenKind := congrArg Lexeme.kind written
  have fitsLeft := Nat.le_trans (Nat.le_max_left _ _) fits
  have fitsRight := Nat.le_trans (Nat.le_max_right _ _) fits
  obtain ⟨first, middle, lhsId, b, operand, goesOn, leads, rfl, shownLeft⟩ :=
    left.left ⟨ready, beginsLeft, declared.left⟩ follows binds fitsLeft
  have readyOperator := ready.on leads
  have notError : operator.op.tokenKind ≠ .error := by
    cases operator.op <;> nofun
  obtain ⟨token, takes, -⟩ := readyOperator.take written notError
  have leadsOn := takes.leads (connective?_notLast operator.op.connective?_tokenKind)
  have standsRight : rhs.Stands slots _ ⟨b.tokens.advance, b.analysis⟩ after :=
    ⟨readyOperator.on leadsOn, beginsRight, declared.right.grow shownLeft.quietly.toGrows⟩
  obtain ⟨rhsId, c, reading, rfl, shownRight⟩ := right.right standsRight ends closes fitsRight
  have showsLeft := shownLeft.shows.grow shownRight.quietly.arena
  have coherent := (standsRight.ready.on reading.leads).coherent
  obtain ⟨quietly, shows⟩ := Check.buildBinary_integer operator showsLeft shownRight.shows coherent
    ((b.analysis.arena.spanOf lhsId).through (c.analysis.arena.spanOf rhsId))
  have one := Reading.operation operator.op.connective?_tokenKind takes reading
    (Place.does_quietly c quietly)
  refine ⟨first, middle, _, _, operand, fun result d climb => goesOn result d ?_,
    leads.trans one.leads, rfl, (shownLeft.quietly.trans shownRight.quietly).trans quietly, shows⟩
  have isOp : b.kind.connective? = some (.operation operator.op) := by
    rw [Place.kind, follows]
    exact operator.op.connective?_tokenKind
  exact .extend isOp binds one climb

/-- The text of every tree is read as the tree. -/
theorem climbs (slots : String → Slot) (tree : Arithmetic) : tree.Climbs slots := by
  induction tree with
  | read name => exact climbs_read name
  | operate lhs operator rhs left right => exact left.join right

end Arithmetic

end ScalarLang
