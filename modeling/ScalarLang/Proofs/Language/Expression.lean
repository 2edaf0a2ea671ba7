import ScalarLang.Proofs.Language.TypeName
import ScalarLang.Proofs.Parser.Expression

/-! The language of expressions. An expression is a flat chain of operands, connectives between
them. How deep an operand nests depends on the operators before it that are still open: each of
them has a limit, from which on a connective closes its right operand. -/

namespace ScalarLang

namespace Connective

def limit : Connective → Nat
  | conversion => 0
  | assignment op => (assignment op).rank + 1
  | operation op => (operation op).rank

theorem conversion_rank_lt {connective : Connective} (other : connective ≠ conversion) :
    conversion.rank < connective.limit := by
  cases connective with
  | conversion => exact absurd rfl other
  | assignment op => exact (by decide : 2 < 15)
  | operation op => cases op <;> decide

theorem rank_lt_terminatorRank (connective : Connective) :
    connective.rank < TokenKind.terminatorRank := by
  cases connective with
  | conversion => decide
  | assignment op => exact (by decide : 14 < 255)
  | operation op => cases op <;> decide

end Connective

namespace Expression

inductive Nonterminal where
  | operand | arguments | argumentList | expression
  /-- The rest of a chain after an operand, with the limits of the open operators, innermost
  first. -/
  | chain (limits : List Nat)

/-- The limits that a connective leaves open. -/
def stillOpen (connective : Connective) (limits : List Nat) : List Nat :=
  limits.dropWhile fun limit => decide (limit ≤ connective.rank)

/-- What a comma directly after the closing parenthesis of a call means. -/
inductive Commas where
  /-- It belongs to what is around the call. -/
  | separate
  /-- It goes on with more arguments of the call, up to another closing parenthesis. -/
  | resume
  /-- There is none. -/
  | avoid

/-- Derivations of as many levels. -/
inductive Derives (commas : Commas) : Nat → Nonterminal → Word → Word → Prop
  | literal {n scalar rest} : Derives commas (n + 1) .operand (.literal scalar :: rest) rest
  | variable {n rest} : Derives commas (n + 1) .operand (.identifier :: rest) rest
  | step {n kind rest} (isOp : kind.trailingOp?.isSome) :
      Derives commas (n + 1) .operand (.identifier :: kind :: rest) rest
  | call {n part rest} (inside : Derives commas n .arguments part rest) :
      Derives commas (n + 1) .operand (.identifier :: .openParen :: part) rest
  | group {n part rest} (inside : Derives commas n .expression part (.closeParen :: rest)) :
      Derives commas (n + 1) .operand (.openParen :: part) rest
  | unary {n kind part rest} (isOp : kind.leadingOp?.isSome)
      (inside : Derives commas n .operand part rest) :
      Derives commas (n + 1) .operand (kind :: part) rest
  | noArguments {n rest} : Derives commas n .arguments (.closeParen :: rest) rest
  | someArguments {n word rest} (inside : Derives commas n .argumentList word rest) :
      Derives commas n .arguments word rest
  | last {n word rest} (one : Derives commas n .expression word (.closeParen :: rest))
      (ends : commas ≠ .separate → Word.next rest ≠ .comma) : Derives commas n .argumentList word rest
  | next {n word part rest} (one : Derives commas n .expression word (.comma :: part))
      (others : Derives commas n .argumentList part rest) :
      Derives commas n .argumentList word rest
  | resume {n word part rest} (resuming : commas = .resume)
      (one : Derives commas n .expression word (.closeParen :: .comma :: part))
      (others : Derives commas n .argumentList part rest) :
      Derives commas n .argumentList word rest
  | expression {n word part rest} (first : Derives commas n .operand word part)
      (others : Derives commas n (.chain [TokenKind.terminatorRank]) part rest) :
      Derives commas n .expression word rest
  | stop {n limits rest} : Derives commas n (.chain limits) rest rest
  | conversion {n m limits kind part middle rest} (isOp : kind.connective? = some .conversion)
      (levels : m + limits.length = n) (names : TypeName.Derives m .typename part middle)
      (others : Derives commas n (.chain limits) middle rest) :
      Derives commas n (.chain limits) (kind :: part) rest
  | operator {n m limits kind connective part middle rest}
      (isOp : kind.connective? = some connective) (notConversion : connective ≠ .conversion)
      (levels : m + (stillOpen connective limits).length = n)
      (operand : Derives commas m .operand part middle)
      (others : Derives commas n (.chain (connective.limit :: stillOpen connective limits))
        middle rest) :
      Derives commas n (.chain limits) (kind :: part) rest

variable {n : Nat} {a b : Place} {phrase : Phrase} {commas : Commas}

theorem stillOpen_of_closed {connective : Connective} {limit : Nat} (limits : List Nat)
    (closed : limit ≤ connective.rank) :
    stillOpen connective (limit :: limits) = stillOpen connective limits :=
  List.dropWhile_cons_of_pos (by simpa using closed)

theorem stillOpen_of_open {connective : Connective} {limit : Nat} (limits : List Nat)
    (binds : connective.rank < limit) :
    stillOpen connective (limit :: limits) = limit :: limits :=
  List.dropWhile_cons_of_neg (by simpa using binds)

/-- An operator whose right operand is complete may be left open. -/
theorem Derives.leaveOpen {limit : Nat} {limits : List Nat} {word rest : Word}
    (derives : Derives commas n (.chain limits) word rest) (ends : Ends limit word.next)
    (tight : Connective.conversion.rank < limit) :
    Derives commas n (.chain (limit :: limits)) word rest := by
  cases derives with
  | stop => exact .stop
  | conversion isOp => exact absurd (ends _ isOp) (Nat.not_le_of_lt tight)
  | operator isOp notConversion levels operand others =>
    have closes := stillOpen_of_closed limits (ends _ isOp)
    rw [← closes] at levels others
    exact .operator isOp notConversion levels operand others

/-- Whatever derives the rest of a chain from the one word derives it from the other. -/
def Extends (n limit : Nat) (word after : Word) : Prop :=
  ∀ (levels : Nat) (limits : List Nat) (rest : Word), n + limits.length = levels →
    Derives .resume levels (.chain (limit :: limits)) after rest →
    Derives .resume levels (.chain (limit :: limits)) word rest

/-- What a reading says about the words at its ends. -/
def Spells (n : Nat) (word after : Word) : Phrase → Prop
  | .operand _ => Derives .resume n .operand word after
  | .arguments _ => Derives .resume n .arguments word after
  | .argument _ => (after.next = .comma ∧ Derives .resume n .expression word after) ∨
      Derives .resume n .expression word (.closeParen :: after)
  | .argumentList _ _ => Derives .resume n .argumentList word after
  | .expression limit _ => Ends limit after.next ∧
      ∃ part, Derives .resume n .operand word part ∧ Extends n limit part after
  | .climb limit _ _ => Ends limit after.next ∧ Extends (n + 1) limit word after
  | .extension _ connective _ => ∀ limit, connective.rank < limit →
      Extends (n + 1) limit word after

theorem Spells.expression {id : ExprId} {word after : Word}
    (spells : Spells n word after (.expression TokenKind.terminatorRank id)) :
    Derives .resume n .expression word after := by
  obtain ⟨-, part, operand, extend⟩ := spells
  exact .expression operand (extend n [] after rfl .stop)

/-- An operator and its right operand extend every chain that leaves the operator room. -/
theorem Spells.operator {kind : TokenKind} {connective : Connective} {rhs : ExprId}
    {part after : Word} (isOp : kind.connective? = some connective)
    (other : connective ≠ .conversion)
    (spells : Spells n part after (.expression connective.limit rhs)) {limit : Nat}
    (binds : connective.rank < limit) : Extends (n + 1) limit (kind :: part) after := by
  obtain ⟨ends, middle, operand, extend⟩ := spells
  intro levels limits rest room chain
  have stays := stillOpen_of_open limits binds
  have inner : n + (limit :: limits).length = levels := by
    simp only [List.length_cons]
    omega
  have others := extend levels (limit :: limits) rest inner
    (chain.leaveOpen ends (Connective.conversion_rank_lt other))
  rw [← stays] at inner others
  exact .operator isOp other inner operand others

theorem Reading.spells {rigor : Rigor} (reading : Reading rigor n a phrase b)
    (formed : a.tokens.Formed) : Spells n a.word b.word phrase := by
  induction reading with
  | literal takes build =>
    rw [takes.word formed nofun, build.word]
    exact .literal
  | read takes _ build _ =>
    rw [takes.word formed nofun, build.word]
    exact .variable
  | step takes _ read isOp operates build =>
    have formedOn := (read.leads (Check.buildRead_regular _ _)).formed
      ((takes.leads nofun).formed formed)
    rw [takes.word formed nofun, ← read.word,
      operates.word formedOn (trailingOp?_notLast isOp), build.word]
    exact .step (Option.isSome_of_eq_some isOp)
  | call takes opens inside build ih =>
    have formedOn := (takes.leads nofun).formed formed
    rw [takes.word formed nofun, opens.word formedOn nofun, build.word]
    exact .call (ih ((opens.leads nofun).formed formedOn))
  | group opens inside closes ih =>
    have formedOn := (opens.leads nofun).formed formed
    have expression := (ih formedOn).expression
    rw [closes.word (inside.leads.formed formedOn) nofun] at expression
    rw [opens.word formed nofun]
    exact .group expression
  | unary isOp operates inside build ih =>
    have notLast := leadingOp?_notLast isOp
    rw [operates.word formed notLast, build.word]
    exact .unary (Option.isSome_of_eq_some isOp) (ih ((operates.leads notLast).formed formed))
  | noArguments closes =>
    rw [closes.word formed nofun]
    exact .noArguments
  | someArguments _ _ ih => exact .someArguments (ih formed)
  | separated inside follows ih =>
    refine .inl ⟨?_, (ih formed).expression⟩
    rw [Place.next_word (inside.leads.formed formed)]
    exact follows
  | closed inside closes ih =>
    have expression := (ih formed).expression
    rw [closes.word (inside.leads.formed formed) nofun] at expression
    exact .inr expression
  | lastArgument item ends ih =>
    rw [← Place.next_word (item.leads.formed formed)] at ends
    rcases ih formed with ⟨comma, -⟩ | closed
    · exact absurd comma ends
    · exact .last closed fun _ => ends
  | nextArgument item separates rest ihItem ihRest =>
    have formedOn := item.leads.formed formed
    have others := ihRest ((separates.leads nofun).formed formedOn)
    have one := ihItem formed
    rw [separates.word formedOn nofun] at one
    rcases one with ⟨-, separated⟩ | closed
    · exact .next separated others
    · exact .resume rfl closed others
  | expression first rest ihFirst ihRest =>
    obtain ⟨ends, extend⟩ := ihRest (first.leads.formed formed)
    exact ⟨ends, _, ihFirst formed, extend⟩
  | stop ends =>
    rw [← Place.next_word formed] at ends
    exact ⟨ends, fun _ _ _ _ chain => chain⟩
  | extend _ binds one rest ihOne ihRest =>
    obtain ⟨ends, extend⟩ := ihRest (one.leads.formed formed)
    refine ⟨ends, fun levels limits word room chain => ?_⟩
    exact ihOne formed _ binds levels limits word room (extend levels limits word room chain)
  | conversion isOp takes names build =>
    have notLast := connective?_notLast isOp
    rw [takes.word formed notLast, build.word]
    intro limit binds levels limits rest room chain
    have named := names.derives ((takes.leads notLast).formed formed)
    refine .conversion isOp ?_ named chain
    simp only [List.length_cons]
    omega
  | assignment isOp takes inside build ih =>
    have notLast := connective?_notLast isOp
    rw [takes.word formed notLast, build.word]
    exact fun limit binds => (ih ((takes.leads notLast).formed formed)).operator isOp nofun binds
  | operation isOp takes inside build ih =>
    have notLast := connective?_notLast isOp
    rw [takes.word formed notLast, build.word]
    exact fun limit binds => (ih ((takes.leads notLast).formed formed)).operator isOp nofun binds

/-- Wherever the word begins, an item is read up to the rest. -/
def Read {α : Type} (Item : Place → α → Place → Prop) (word rest : Word) : Prop :=
  ∀ a : Place, a.Sound → a.word = word → ∃ x b, Item a x b ∧ b.word = rest

def Operand (n : Nat) (a : Place) (id : ExprId) (b : Place) : Prop :=
  Reading .form n a (.operand id) b

/-- Whatever the left operand is, the connectives up to the rest extend it. -/
def Climbs (n limit : Nat) (word rest : Word) : Prop :=
  ∀ lhs, Read (fun a id b => Reading .form n a (.climb limit lhs id) b) word rest

/-- One climb for each open operator, the innermost first, and each where the one before ends. -/
inductive Stack (n : Nat) : List Nat → Word → Word → Prop
  | nil {rest} : Stack n [] rest rest
  | cons {m limit limits word middle rest} (levels : m + (limits.length + 1) = n)
      (climbs : Climbs m limit word middle) (outer : Stack n limits middle rest) :
      Stack n (limit :: limits) word rest

/-- Tokens after which an operand does not go on. -/
structure Quiet (kind : TokenKind) : Prop where
  noStep : kind.trailingOp? = none
  noCall : kind ≠ .openParen

structure Stops (kind : TokenKind) : Prop extends Quiet kind where
  noConnective : kind.connective? = none

structure Limits (limits : List Nat) : Prop where
  whole : TokenKind.terminatorRank ∈ limits
  loose : ∀ limit ∈ limits, Connective.conversion.rank < limit

theorem quiet_of_connective {kind : TokenKind} {connective : Connective}
    (isOp : kind.connective? = some connective) : Quiet kind := by
  constructor
  · cases kind <;> first | rfl | cases isOp
  · rintro rfl
    cases isOp

theorem Limits.stillOpen {limits : List Nat} (limited : Limits limits) (connective : Connective) :
    Limits (stillOpen connective limits) := by
  constructor
  · have whole := limited.whole
    clear limited
    induction limits with
    | nil => cases whole
    | cons limit limits ih =>
      by_cases closed : limit ≤ connective.rank
      · rw [stillOpen_of_closed limits closed]
        have more := connective.rank_lt_terminatorRank
        rcases List.mem_cons.mp whole with rfl | whole
        · omega
        · exact ih whole
      · rw [stillOpen_of_open limits (Nat.lt_of_not_le closed)]
        exact whole
  · exact fun limit member => limited.loose limit ((List.dropWhile_suffix _).subset member)

theorem Limits.cons {limits : List Nat} (limited : Limits limits) {limit : Nat}
    (loose : Connective.conversion.rank < limit) : Limits (limit :: limits) := by
  refine ⟨List.mem_cons_of_mem _ limited.whole, fun other member => ?_⟩
  rcases List.mem_cons.mp member with rfl | member
  · exact loose
  · exact limited.loose other member

theorem lt_of_stillOpen {connective : Connective} {limits others : List Nat} {limit : Nat}
    (opens : stillOpen connective limits = limit :: others) : connective.rank < limit := by
  induction limits with
  | nil => cases opens
  | cons first limits ih =>
    by_cases closed : first ≤ connective.rank
    · rw [stillOpen_of_closed limits closed] at opens
      exact ih opens
    · have binds := Nat.lt_of_not_le closed
      rw [stillOpen_of_open limits binds] at opens
      cases opens
      exact binds

theorem Climbs.stop {limit : Nat} {word : Word} (ends : Ends limit word.next) :
    Climbs n limit word word := by
  rintro lhs a sound rfl
  rw [Place.next_word sound.formed] at ends
  exact ⟨lhs, a, .stop ends, rfl⟩

theorem Climbs.conversion {limit : Nat} {kind : TokenKind} {part middle rest : Word}
    (isOp : kind.connective? = some .conversion) (binds : Connective.conversion.rank < limit)
    (names : TypeName.Derives n .typename part middle) (climbs : Climbs n limit middle rest) :
    Climbs n limit (kind :: part) rest := by
  intro lhs a sound same
  have present := Place.kind_of_word sound.formed same
  obtain ⟨token, b, takes, after, sound⟩ := sound.takesOn same (connective?_notLast isOp)
  obtain ⟨target, c, typename, after⟩ := names.readable sound after
  have sound := typename.leads.sound sound
  obtain ⟨id, d, build, known⟩ := Place.does_of_regular (Check.castTo_regular lhs target
    ((b.analysis.arena.spanOf lhs).through c.tokens.previous)) c
  have sound := (build.leads (Check.castTo_regular _ _ _)).sound sound
  obtain ⟨whole, e, climb, after⟩ := climbs id d sound (known.trans after)
  exact ⟨whole, e, .extend (present ▸ isOp) binds (.conversion isOp takes typename build) climb, after⟩

theorem Climbs.operator {limit : Nat} {kind : TokenKind} {connective : Connective}
    {part middle rest : Word} (isOp : kind.connective? = some connective)
    (other : connective ≠ .conversion) (binds : connective.rank < limit)
    (operand : Read (fun a id b => Reading .form n a (.expression connective.limit id) b) part middle)
    (climbs : Climbs n limit middle rest) : Climbs n limit (kind :: part) rest := by
  intro lhs a sound same
  have present := Place.kind_of_word sound.formed same
  obtain ⟨token, b, takes, after, sound⟩ := sound.takesOn same (connective?_notLast isOp)
  obtain ⟨rhs, c, inside, after⟩ := operand b sound after
  have sound := inside.leads.sound sound
  have extended : ∃ id d, Reading .form n a (.extension lhs connective id) d ∧ d.word = c.word := by
    cases connective with
    | conversion => exact absurd rfl other
    | assignment op =>
      obtain ⟨id, d, build, known⟩ :=
        Place.does_of_regular (Check.buildAssignment_regular lhs op rhs) c
      exact ⟨id, d, .assignment isOp takes inside build, known⟩
    | operation op =>
      obtain ⟨id, d, build, known⟩ := Place.does_of_regular (Check.buildBinary_regular lhs op rhs
        ((b.analysis.arena.spanOf lhs).through (c.analysis.arena.spanOf rhs))) c
      exact ⟨id, d, .operation isOp takes inside build, known⟩
  obtain ⟨id, d, one, known⟩ := extended
  have sound : d.Sound := one.leads.sound ‹_›
  obtain ⟨whole, e, climb, after⟩ := climbs id d sound (known.trans after)
  exact ⟨whole, e, .extend (present ▸ isOp) binds one climb, after⟩

theorem Stack.stop {limits : List Nat} {word : Word} (absent : word.next.connective? = none)
    (room : limits.length ≤ n) : Stack n limits word word := by
  induction limits with
  | nil => exact .nil
  | cons limit limits ih =>
    have ends : Ends limit word.next := fun _ present => nomatch absent.symm.trans present
    exact .cons (Nat.sub_add_cancel room) (.stop ends) (ih (Nat.le_of_succ_le room))

/-- A connective ends the climbs that it does not belong to. -/
theorem Stack.close {limits : List Nat} {connective : Connective} {word rest : Word}
    (isOp : word.next.connective? = some connective) (room : limits.length ≤ n)
    (stack : Stack n (stillOpen connective limits) word rest) : Stack n limits word rest := by
  induction limits with
  | nil => exact stack
  | cons limit limits ih =>
    by_cases closed : limit ≤ connective.rank
    · rw [stillOpen_of_closed limits closed] at stack
      have ends : Ends limit word.next := by
        intro other present
        cases isOp.symm.trans present
        exact closed
      exact .cons (Nat.sub_add_cancel room) (.stop ends) (ih (Nat.le_of_succ_le room) stack)
    · rwa [stillOpen_of_open limits (Nat.lt_of_not_le closed)] at stack

def startsOperand : TokenKind → Bool
  | .literal _ | .identifier | .openParen => true
  | kind => kind.leadingOp?.isSome

theorem startsOperand_of_leadingOp {kind : TokenKind} (isOp : kind.leadingOp?.isSome) :
    startsOperand kind = true := by
  unfold startsOperand
  split <;> trivial

theorem Derives.operand_head {word rest : Word} (derives : Derives commas n .operand word rest) :
    startsOperand word.next = true := by
  cases derives with
  | literal | «variable» | step | call | group => rfl
  | unary isOp => exact startsOperand_of_leadingOp isOp

theorem Derives.operand_nests {word rest : Word} (derives : Derives commas n .operand word rest) :
    0 < n := by
  cases derives <;> exact Nat.succ_pos _

theorem Derives.expression_head {word rest : Word}
    (derives : Derives commas n .expression word rest) : startsOperand word.next = true := by
  cases derives with
  | expression first => exact first.operand_head

theorem Derives.argumentList_head {word rest : Word}
    (derives : Derives commas n .argumentList word rest) : startsOperand word.next = true := by
  cases derives with
  | last one | next one | resume _ one => exact one.expression_head

theorem Derives.chain_quiet {limits : List Nat} {word rest : Word}
    (derives : Derives commas n (.chain limits) word rest) (quiet : Quiet rest.next) :
    Quiet word.next := by
  cases derives with
  | stop => exact quiet
  | conversion isOp | operator isOp => exact quiet_of_connective isOp

def Readable (n : Nat) (word rest : Word) : Nonterminal → Prop
  | .operand => Quiet rest.next → Read (Operand n) word rest
  | .arguments => Read (fun a ids b => Reading .form n a (.arguments ids) b) word rest
  | .argumentList =>
    ∀ before, Read (fun a ids b => Reading .form n a (.argumentList before ids) b) word rest
  | .expression => Stops rest.next → Read (Whole .form n) word rest
  | .chain limits =>
    Stops rest.next → Limits limits → limits.length ≤ n → Stack n limits word rest

theorem Read.expression {limit : Nat} {word part rest : Word}
    (first : Read (Operand (n + 1)) word part) (climbs : Climbs n limit part rest) :
    Read (fun a id b => Reading .form (n + 1) a (.expression limit id) b) word rest := by
  intro a sound same
  obtain ⟨lhs, b, operand, after⟩ := first a sound same
  obtain ⟨id, c, climb, after⟩ := climbs lhs b (operand.leads.sound sound) after
  exact ⟨id, c, .expression operand climb, after⟩

theorem Read.closed {word rest : Word} (inside : Read (Whole .form n) word (.closeParen :: rest)) :
    Read (fun a id b => Reading .form n a (.argument id) b) word rest := by
  intro a sound same
  obtain ⟨id, b, expression, after⟩ := inside a sound same
  obtain ⟨closing, c, closes, after, -⟩ := (expression.leads.sound sound).takes after
  exact ⟨id, c, .closed expression closes, after⟩

theorem Read.separated {word rest : Word} (inside : Read (Whole .form n) word (.comma :: rest)) :
    Read (fun a id b => Reading .form n a (.argument id) b) word (.comma :: rest) := by
  intro a sound same
  obtain ⟨id, b, expression, after⟩ := inside a sound same
  have follows := Place.kind_of_word (expression.leads.sound sound).formed after
  exact ⟨id, b, .separated expression follows, after⟩

theorem Read.nextArgument {word part rest : Word} (before : List ExprId)
    (one : Read (fun a id b => Reading .form n a (.argument id) b) word (.comma :: part))
    (others : ∀ before,
      Read (fun a ids b => Reading .form n a (.argumentList before ids) b) part rest) :
    Read (fun a ids b => Reading .form n a (.argumentList before ids) b) word rest := by
  intro a sound same
  obtain ⟨id, b, argument, after⟩ := one a sound same
  have sound := argument.leads.sound sound
  obtain ⟨comma, c, separates, after, sound⟩ := sound.takesOn after nofun
  obtain ⟨ids, d, list, after⟩ := others (before ++ [id]) c sound after
  exact ⟨ids, d, .nextArgument argument separates list, after⟩

theorem stops_closeParen : Stops .closeParen := ⟨⟨rfl, nofun⟩, rfl⟩

theorem stops_comma : Stops .comma := ⟨⟨rfl, nofun⟩, rfl⟩

/-- The innermost climb reads the right operand of an operator, and the next one goes on. -/
theorem Stack.operator {m : Nat} {limits : List Nat} {kind : TokenKind} {connective : Connective}
    {part middle rest : Word} (isOp : kind.connective? = some connective)
    (other : connective ≠ .conversion) (limited : Limits limits)
    (binds : ∀ {limit others}, limits = limit :: others → connective.rank < limit)
    (levels : m + limits.length = n) (operand : Read (Operand m) part middle)
    (stack : Stack n (connective.limit :: limits) middle rest) :
    Stack n limits (kind :: part) rest := by
  cases stack with
  | @cons m' _ _ _ _ _ inner climbs outer =>
    have deeper : m = m' + 1 := by omega
    subst deeper
    cases outer with
    | nil => cases limited.whole
    | @cons m'' _ _ _ _ _ levelsOuter climbsOn outer =>
      have same : m' + 1 = m'' := by
        simp only [List.length_cons] at levels
        omega
      subst same
      have whole := operand.expression climbs
      exact .cons levelsOuter (climbsOn.operator isOp other (binds rfl) whole) outer

theorem Derives.readable {goal : Nonterminal} {word rest : Word}
    (derives : Derives .resume n goal word rest) : Readable n word rest goal := by
  induction derives with
  | literal =>
    intro quiet a sound same
    obtain ⟨token, b, takes, after, -⟩ := sound.takes same
    obtain ⟨id, c, build, known⟩ :=
      Place.does_of_regular (Check.buildLiteral_regular _ token.payload token.span) b
    exact ⟨id, c, .literal takes build, known.trans after⟩
  | «variable» =>
    intro quiet a sound same
    obtain ⟨name, b, takes, after, sound⟩ := sound.takesOn same nofun
    obtain ⟨id, c, build, known⟩ :=
      Place.does_of_regular (Check.buildRead_regular name.lexeme name.span) b
    have soundOn := (build.leads (Check.buildRead_regular _ _)).sound sound
    rw [← after, Place.next_word sound.formed] at quiet
    have notStep := quiet.noStep
    rw [← Place.next_word sound.formed, ← known, Place.next_word soundOn.formed] at notStep
    exact ⟨id, c, .read takes quiet.noCall build notStep, known.trans after⟩
  | step isOp =>
    intro quiet a sound same
    obtain ⟨op, isOp⟩ := Option.isSome_iff_exists.mp isOp
    obtain ⟨name, b, takes, after, sound⟩ := sound.takesOn same nofun
    have notCall : b.kind ≠ .openParen := by
      rw [Place.kind_of_word sound.formed after]
      rintro rfl
      cases isOp
    obtain ⟨old, c, read, known⟩ :=
      Place.does_of_regular (Check.buildRead_regular name.lexeme name.span) b
    have sound := (read.leads (Check.buildRead_regular _ _)).sound sound
    obtain ⟨operator, d, operates, after, -⟩ := sound.takes (known.trans after)
    obtain ⟨id, e, build, known⟩ := Place.does_of_regular
      (Check.buildUnary_regular op old (name.span.through operator.span)) d
    exact ⟨id, e, .step takes notCall read isOp operates build, known.trans after⟩
  | call inside ih =>
    intro quiet a sound same
    obtain ⟨name, b, takes, after, sound⟩ := sound.takesOn same nofun
    obtain ⟨opening, c, opens, after, sound⟩ := sound.takesOn after nofun
    obtain ⟨args, d, arguments, after⟩ := ih c sound after
    obtain ⟨id, e, build, known⟩ := Place.does_of_regular (Check.buildCall_regular name.lexeme args
      (name.span.through d.tokens.previous) d.tokens.previous) d
    exact ⟨id, e, .call takes opens arguments build, known.trans after⟩
  | group inside ih =>
    intro quiet a sound same
    obtain ⟨opening, b, opens, after, sound⟩ := sound.takesOn same nofun
    obtain ⟨id, c, expression, after⟩ := ih stops_closeParen b sound after
    have sound := expression.leads.sound sound
    obtain ⟨closing, d, closes, after, -⟩ := sound.takes after
    exact ⟨id, d, .group opens expression closes, after⟩
  | unary isOp inside ih =>
    intro quiet a sound same
    obtain ⟨op, isOp⟩ := Option.isSome_iff_exists.mp isOp
    obtain ⟨operator, b, operates, after, sound⟩ := sound.takesOn same (leadingOp?_notLast isOp)
    obtain ⟨child, c, operand, after⟩ := ih quiet b sound after
    obtain ⟨id, d, build, known⟩ := Place.does_of_regular (Check.buildUnary_regular op child
      (operator.span.through (c.analysis.arena.spanOf child))) c
    exact ⟨id, d, .unary isOp operates operand build, known.trans after⟩
  | noArguments =>
    intro a sound same
    obtain ⟨closing, b, closes, after, -⟩ := sound.takes same
    exact ⟨[], b, .noArguments closes, after⟩
  | someArguments inside ih =>
    intro a sound same
    obtain ⟨ids, b, list, after⟩ := ih [] a sound same
    have more : a.kind ≠ .closeParen := by
      intro closes
      have head := inside.argumentList_head
      rw [← same, Place.next_word sound.formed, closes] at head
      cases head
    exact ⟨ids, b, .someArguments more list, after⟩
  | last one ends ih =>
    intro before a sound same
    obtain ⟨id, b, argument, after⟩ := (ih stops_closeParen).closed a sound same
    have follows : b.kind ≠ .comma := by
      rw [← Place.next_word (argument.leads.sound sound).formed, after]
      exact ends nofun
    exact ⟨before ++ [id], b, .lastArgument argument follows, after⟩
  | next one others ihOne ihOthers =>
    exact fun before => (ihOne stops_comma).separated.nextArgument before ihOthers
  | resume resuming one others ihOne ihOthers =>
    exact fun before => (ihOne stops_closeParen).closed.nextArgument before ihOthers
  | expression first others ihFirst ihOthers =>
    intro stops
    have operand := ihFirst (others.chain_quiet stops.toQuiet)
    have whole : Limits [TokenKind.terminatorRank] := ⟨List.mem_singleton_self _, by simp; decide⟩
    cases ihOthers stops whole first.operand_nests with
    | cons levels climbs outer =>
      cases levels
      cases outer
      exact operand.expression climbs
  | stop => exact fun stops _ room => .stop stops.noConnective room
  | conversion isOp levels names others ih =>
    intro stops limited room
    cases ih stops limited room with
    | nil => cases limited.whole
    | cons inner climbs outer =>
      cases Nat.add_right_cancel (levels.trans inner.symm)
      exact .cons inner (climbs.conversion isOp (limited.loose _ List.mem_cons_self) names) outer
  | @operator n m limits kind connective part middle rest isOp other levels operand others
      ihOperand ihOthers =>
    intro stops limited room
    have limitedOn := limited.stillOpen connective
    have nests := operand.operand_nests
    have roomOn : (connective.limit :: stillOpen connective limits).length ≤ n := by
      simp only [List.length_cons]
      omega
    have stack := ihOthers stops (limitedOn.cons (Connective.conversion_rank_lt other)) roomOn
    have first := ihOperand (others.chain_quiet stops.toQuiet)
    exact .close isOp room (stack.operator isOp other limitedOn lt_of_stillOpen levels first)

end Expression

end ScalarLang
