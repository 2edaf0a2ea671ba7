import ScalarLang.Proofs.Language.Expression
import ScalarLang.Proofs.Parser.Statement

/-! The language of statements. A further branch belongs to the nearest condition before it. -/

namespace ScalarLang

namespace Place

variable {a b : Place} {kind : TokenKind}

structure Within (place : Place) : Prop extends Sound place where
  inside : place.analysis.InFunction

theorem Leads.within (leads : a.Leads b) (within : a.Within) : b.Within :=
  ⟨leads.sound within.toSound, leads.inFunction within.inside⟩

theorem Within.takesOn {rest : Word} (within : a.Within) (same : a.word = kind :: rest)
    (notLast : kind ≠ .eof) : ∃ token b, a.Takes kind token b ∧ b.word = rest ∧ b.Within := by
  obtain ⟨token, b, takes, after, -⟩ := within.takes same
  exact ⟨token, b, takes, after, (takes.leads notLast).within within⟩

theorem Within.openScope (within : a.Within) : a.openScope.Within :=
  ⟨⟨within.formed, within.clear⟩, within.inside⟩

theorem After.word {α : Type} {Item : Place → α → Place → Prop} {Part : Word → Word → Prop}
    {found : Option α} (follows : a.After kind Item found b) (formed : a.tokens.Formed)
    (notLast : kind ≠ .eof)
    (item : ∀ {c x d}, Item c x d → c.tokens.Formed → Part c.word d.word) :
    Word.Optional kind Part a.word b.word := by
  cases follows with
  | present takes inside =>
    exact .inr ⟨_, takes.word formed notLast, item inside ((takes.leads notLast).formed formed)⟩
  | absent => exact .inl rfl

/-- What may follow a token of the kind is read, if the token is there. -/
theorem Sound.after {α : Type} {Item : Place → α → Place → Prop} {Part : Word → Word → Prop}
    {rest : Word} (sound : a.Sound) (optional : Word.Optional kind Part a.word rest)
    (other : rest.next ≠ kind) (notLast : kind ≠ .eof)
    (read : ∀ c : Place, c.Sound → Part c.word rest → ∃ x d, Item c x d ∧ d.word = rest) :
    ∃ found b, a.After kind Item found b ∧ b.word = rest := by
  rcases optional with same | ⟨part, same, follows⟩
  · refine ⟨none, a, .absent ?_, same⟩
    rw [← next_word sound.formed, same]
    exact other
  · obtain ⟨token, b, takes, after, -⟩ := sound.takes same
    subst after
    obtain ⟨x, c, item, after⟩ := read b ((takes.leads notLast).sound sound) follows
    exact ⟨some x, c, .present takes item, after⟩

end Place

namespace Statement

inductive Nonterminal where
  | statement | variableDeclaration | returnValue | scope | untilClosed | body | condition
  | otherwise

inductive Derives (commas : Expression.Commas) : Nat → Nonterminal → Word → Word → Prop
  | declaration {n word rest} (inside : Derives commas n .variableDeclaration word rest) :
      Derives commas (n + 1) .statement word rest
  | condition {n part rest} (inside : Derives commas (n + 1) .condition part rest) :
      Derives commas (n + 1) .statement (.if :: part) rest
  | return {n part rest} (gives : Derives commas n .returnValue part (.semicolon :: rest)) :
      Derives commas (n + 1) .statement (.return :: part) rest
  | scope {n word rest} (inside : Derives commas n .scope word rest) :
      Derives commas (n + 1) .statement word rest
  | expression {n word rest}
      (inside : Expression.Derives commas n .expression word (.semicolon :: rest)) :
      Derives commas (n + 1) .statement word rest
  | variableDeclaration {n part middle rest}
      (typed : Word.Optional .colon (TypeName.Derives n .typename) part middle)
      (value : Word.Optional .assignment (Expression.Derives commas n .expression) middle
        (.semicolon :: rest)) :
      Derives commas n .variableDeclaration (.var :: .identifier :: part) rest
  | noValue {n rest} : Derives commas n .returnValue rest rest
  | value {n word rest} (inside : Expression.Derives commas n .expression word rest) :
      Derives commas n .returnValue word rest
  | block {n part rest} (inside : Derives commas n .untilClosed part rest) :
      Derives commas n .scope (.openCurly :: part) rest
  | closed {n rest} : Derives commas n .untilClosed (.closeCurly :: rest) rest
  | next {n word part rest} (one : Derives commas n .statement word part)
      (others : Derives commas n .untilClosed part rest) :
      Derives commas n .untilClosed word rest
  | braces {n word rest} (inside : Derives commas n .scope word rest) :
      Derives commas n .body word rest
  | colon {n part rest} (inside : Derives commas n .statement part rest) :
      Derives commas n .body (.colon :: part) rest
  | elif {n part rest} (inside : Derives commas n .condition part rest) :
      Derives commas n .otherwise (.elif :: part) rest
  | else {n part rest} (inside : Derives commas n .body part rest) :
      Derives commas n .otherwise (.else :: part) rest
  | noBranch {n rest} (noElif : Word.next rest ≠ .elif) (noElse : Word.next rest ≠ .else) :
      Derives commas n .otherwise rest rest
  | branches {n word middle part rest}
      (asks : Expression.Derives commas n .expression word middle)
      (inside : Derives commas n .body middle part)
      (others : Derives commas n .otherwise part rest) :
      Derives commas (n + 1) .condition word rest

def Phrase.nonterminal : Phrase → Nonterminal
  | .statement _ => .statement
  | .variableDeclaration _ => .variableDeclaration
  | .returnValue _ => .returnValue
  | .scope _ => .scope
  | .untilClosed _ => .untilClosed
  | .body _ => .body
  | .condition _ _ => .condition
  | .otherwise _ => .otherwise

variable {n : Nat} {a b : Place} {phrase : Phrase} {commas : Expression.Commas}

theorem Reading.derives {rigor : Rigor} (reading : Reading rigor n a phrase b)
    (formed : a.tokens.Formed) : Derives .resume n phrase.nonterminal a.word b.word := by
  induction reading with
  | declaration _ ih => exact .declaration (ih formed)
  | condition takes _ ih =>
    rw [takes.word formed nofun]
    exact .condition (ih ((takes.leads nofun).formed formed))
  | «return» takes gives ends build ih =>
    have formedOn := (takes.leads nofun).formed formed
    have value := ih formedOn
    rw [ends.word (gives.leads.formed formedOn) nofun] at value
    rw [takes.word formed nofun, build.word]
    exact .return value
  | scope _ ih => exact .scope (ih formed)
  | expression _ inside ends check =>
    have spells := (inside.spells formed).expression
    rw [ends.word (inside.leads.formed formed) nofun, ← check.word] at spells
    exact .expression spells
  | variableDeclaration takes names typed value ends build =>
    have formedName := (takes.leads nofun).formed formed
    have formedType := (names.leads nofun).formed formedName
    have formedValue := (typed.leads nofun TypeName.Reading.leads).formed formedType
    have formedEnd := (value.leads nofun Expression.Reading.leads).formed formedValue
    have type : Word.Optional .colon (TypeName.Derives _ .typename) _ _ :=
      typed.word formedType nofun fun reading formed => reading.derives formed
    have init : Word.Optional .assignment (Expression.Derives .resume _ .expression) _ _ :=
      value.word formedValue nofun fun reading formed => (reading.spells formed).expression
    rw [ends.word formedEnd nofun] at init
    rw [takes.word formed nofun, names.word formedName nofun, build.word]
    exact .variableDeclaration type init
  | noValue => exact .noValue
  | value _ inside => exact .value (inside.spells formed).expression
  | block opens _ build ih =>
    have inside := ih ((opens.leads nofun).formed formed)
    rw [← build.word] at inside
    rw [opens.word formed nofun]
    exact .block inside
  | closed closes =>
    rw [closes.word formed nofun]
    exact .closed
  | next _ _ one _ ihOne ihRest => exact .next (ihOne formed) (ihRest (one.leads.formed formed))
  | braces _ _ ih => exact .braces (ih formed)
  | colon takes _ build ih =>
    have inside := ih ((takes.leads nofun).formed formed)
    rw [takes.word formed nofun, build.word]
    exact .colon inside
  | elif takes _ ih =>
    rw [takes.word formed nofun]
    exact .elif (ih ((takes.leads nofun).formed formed))
  | «else» takes _ ih =>
    rw [takes.word formed nofun]
    exact .else (ih ((takes.leads nofun).formed formed))
  | noBranch noElif noElse =>
    rw [← Place.next_word formed] at noElif noElse
    exact .noBranch noElif noElse
  | branches asks check inside _ build ihInside ihRest =>
    have formedBody := (check.leads (Check.checkCondition_regular _)).formed
      (asks.leads.formed formed)
    have condition := (asks.spells formed).expression
    rw [← check.word] at condition
    have others := ihRest (inside.leads.formed formedBody)
    rw [← build.word] at others
    exact .branches condition (ihInside formedBody) others

def Read {α : Type} (Item : Place → α → Place → Prop) (word rest : Word) : Prop :=
  ∀ a : Place, a.Within → a.word = word → ∃ x b, Item a x b ∧ b.word = rest

def Readable (n : Nat) (word rest : Word) : Nonterminal → Prop
  | .statement => Read (fun a id b => Reading .form n a (.statement id) b) word rest
  | .variableDeclaration =>
    Expression.Read (fun a id b => Reading .form n a (.variableDeclaration id) b) word rest
  | .returnValue => rest.next = .semicolon →
      Read (fun a value b => Reading .form n a (.returnValue value) b) word rest
  | .scope => Read (fun a id b => Reading .form n a (.scope id) b) word rest
  | .untilClosed => Read (fun a ids b => Reading .form n a (.untilClosed ids) b) word rest
  | .body => Read (fun a id b => Reading .form n a (.body id) b) word rest
  | .condition =>
    ∀ start, Read (fun a id b => Reading .form n a (.condition start id) b) word rest
  | .otherwise => Read (fun a branch b => Reading .form n a (.otherwise branch) b) word rest

theorem marksStatement_of_startsOperand {kind : TokenKind}
    (starts : Expression.startsOperand kind = true) : marksStatement kind = false := by
  unfold marksStatement
  split <;> first | rfl | cases starts

theorem Derives.scope_head {word rest : Word} (derives : Derives commas n .scope word rest) :
    word.next = .openCurly := by
  cases derives with
  | block => rfl

theorem Derives.statement_head {word rest : Word}
    (derives : Derives commas n .statement word rest) :
    marksStatement word.next = true ∨ Expression.startsOperand word.next = true := by
  cases derives with
  | declaration inside =>
    cases inside with
    | variableDeclaration => exact .inl rfl
  | condition | «return» => exact .inl rfl
  | scope inside =>
    rw [inside.scope_head]
    exact .inl rfl
  | expression inside => exact .inr inside.expression_head

/-- Tokens that may follow a whole expression. -/
theorem stops_semicolon : Expression.Stops .semicolon := ⟨⟨rfl, nofun⟩, rfl⟩

theorem Derives.body_stops {word rest : Word} (derives : Derives commas n .body word rest) :
    Expression.Stops word.next := by
  cases derives with
  | braces inside =>
    rw [inside.scope_head]
    exact ⟨⟨rfl, nofun⟩, rfl⟩
  | colon => exact ⟨⟨rfl, nofun⟩, rfl⟩

theorem does_buildReturn (within : a.Within) (keyword : String) (value : Option ExprId)
    (span : Span) : ∃ id b, a.Does .form (Check.buildReturn keyword value span) id b ∧
      b.word = a.word := by
  obtain ⟨function, current⟩ := Option.isSome_iff_exists.mp within.inside
  have changes : a.analysis.Changes .statement _ :=
    Check.buildReturn_changes (by nofun) current keyword value span
  exact ⟨_, { a with analysis := (Check.buildReturn keyword value span a.analysis).2 },
    ⟨rfl, rfl, changes.form_same⟩, rfl⟩

theorem variableDeclaration_readable {part middle rest : Word}
    (typed : Word.Optional .colon (TypeName.Derives n .typename) part middle)
    (value : Word.Optional .assignment (Expression.Derives .resume n .expression) middle
      (.semicolon :: rest)) :
    Readable n (.var :: .identifier :: part) rest .variableDeclaration := by
  intro a sound same
  obtain ⟨start, b, takes, after, sound⟩ := sound.takesOn same nofun
  obtain ⟨name, c, names, after, sound⟩ := sound.takesOn after nofun
  have noColon : middle.next ≠ .colon := by
    rcases value with rfl | ⟨part, rfl, -⟩ <;> nofun
  subst after
  obtain ⟨declared, d, type, after⟩ := sound.after typed noColon nofun
    (fun e sound derives => derives.readable sound rfl)
  have sound := (type.leads nofun TypeName.Reading.leads).sound sound
  subst after
  obtain ⟨init, e, first, after⟩ := sound.after value nofun nofun
    (fun f sound derives => derives.readable stops_semicolon f sound rfl)
  have sound := (first.leads nofun Expression.Reading.leads).sound sound
  obtain ⟨semicolon, f, ends, after, -⟩ := sound.takes after
  obtain ⟨id, g, build, known⟩ := Place.does_of_regular (Check.declareVariable_regular (by nofun)
    ⟨name.lexeme, name.span⟩ declared init (start.span.through f.tokens.previous)) f
  exact ⟨id, g, .variableDeclaration takes names type first ends build, known.trans after⟩

theorem Derives.readable {goal : Nonterminal} {word rest : Word}
    (derives : Derives .resume n goal word rest) : Readable n word rest goal := by
  induction derives with
  | declaration inside ih =>
    intro a within same
    obtain ⟨id, b, declaration, after⟩ := ih a within.toSound same
    exact ⟨id, b, .declaration declaration, after⟩
  | condition inside ih =>
    intro a within same
    obtain ⟨start, b, takes, after, within⟩ := within.takesOn same nofun
    obtain ⟨id, c, condition, after⟩ := ih start.span b within after
    exact ⟨id, c, .condition takes condition, after⟩
  | «return» gives ih =>
    intro a within same
    obtain ⟨start, b, takes, after, within⟩ := within.takesOn same nofun
    obtain ⟨value, c, gives, after⟩ := ih rfl b within after
    have within := gives.leads.within within
    obtain ⟨semicolon, d, ends, after, within⟩ := within.takesOn after nofun
    obtain ⟨id, e, build, known⟩ := does_buildReturn within start.lexeme value
      (start.span.through d.tokens.previous)
    exact ⟨id, e, .return takes gives ends build, known.trans after⟩
  | scope inside ih =>
    intro a within same
    obtain ⟨id, b, scope, after⟩ := ih a within same
    exact ⟨id, b, .scope scope, after⟩
  | expression inside =>
    intro a within same
    have unmarked : marksStatement a.kind = false := by
      rw [← Place.next_word within.formed, same]
      exact marksStatement_of_startsOperand inside.expression_head
    obtain ⟨id, b, expression, after⟩ := inside.readable stops_semicolon a within.toSound same
    have sound := expression.leads.sound within.toSound
    obtain ⟨semicolon, c, ends, after, -⟩ := sound.takes after
    obtain ⟨_, d, check, known⟩ := Place.does_of_regular (Check.checkUsed_regular id) c
    exact ⟨id, d, .expression unmarked expression ends check, known.trans after⟩
  | variableDeclaration typed value => exact variableDeclaration_readable typed value
  | noValue =>
    intro ends a within same
    rw [← same, Place.next_word within.formed] at ends
    exact ⟨none, a, .noValue ends, same⟩
  | value inside =>
    intro ends a within same
    have more : a.kind ≠ .semicolon := by
      intro ended
      have head := inside.expression_head
      rw [← same, Place.next_word within.formed, ended] at head
      cases head
    have stops : Expression.Stops _ := ends ▸ stops_semicolon
    obtain ⟨id, b, expression, after⟩ := inside.readable stops a within.toSound same
    exact ⟨some id, b, .value more expression, after⟩
  | block inside ih =>
    intro a within same
    obtain ⟨opening, b, opens, after, within⟩ := within.takesOn same nofun
    obtain ⟨ids, c, statements, after⟩ := ih b.openScope within.openScope after
    obtain ⟨id, d, build, known⟩ := Place.does_of_regular (Check.buildScope_regular ids
      (opening.span.through c.tokens.previous)) c
    exact ⟨id, _, .block opens statements build, known.trans after⟩
  | closed =>
    intro a within same
    obtain ⟨closing, b, closes, after, -⟩ := within.takes same
    exact ⟨[], b, .closed closes, after⟩
  | next one others ihOne ihOthers =>
    intro a within same
    have head := one.statement_head
    rw [← same, Place.next_word within.formed] at head
    have notClosed : a.kind ≠ .closeCurly := by
      intro closes
      rw [closes] at head
      rcases head with head | head <;> cases head
    have notLast : a.kind ≠ .eof := by
      intro ends
      rw [ends] at head
      rcases head with head | head <;> cases head
    obtain ⟨id, b, statement, after⟩ := ihOne a within same
    obtain ⟨ids, c, statements, after⟩ := ihOthers b (statement.leads.within within) after
    exact ⟨id :: ids, c, .next notClosed notLast statement statements, after⟩
  | braces inside ih =>
    intro a within same
    have noColon : a.kind ≠ .colon := by
      rw [← Place.next_word within.formed, same, inside.scope_head]
      nofun
    obtain ⟨id, b, scope, after⟩ := ih a within same
    exact ⟨id, b, .braces noColon scope, after⟩
  | colon inside ih =>
    intro a within same
    obtain ⟨colon, b, takes, after, within⟩ := within.takesOn same nofun
    obtain ⟨id, c, statement, after⟩ := ih b.openScope within.openScope after
    obtain ⟨scope, d, build, known⟩ := Place.does_of_regular (Check.buildScope_regular [id]
      (colon.span.through c.tokens.previous)) (c.closeScope b.analysis)
    exact ⟨scope, d, .colon takes statement build, known.trans after⟩
  | elif inside ih =>
    intro a within same
    obtain ⟨start, b, takes, after, within⟩ := within.takesOn same nofun
    obtain ⟨id, c, condition, after⟩ := ih start.span b within after
    exact ⟨some id, c, .elif takes condition, after⟩
  | «else» inside ih =>
    intro a within same
    obtain ⟨token, b, takes, after, within⟩ := within.takesOn same nofun
    obtain ⟨id, c, body, after⟩ := ih b within after
    exact ⟨some id, c, .else takes body, after⟩
  | noBranch noElif noElse =>
    intro a within same
    rw [← same, Place.next_word within.formed] at noElif noElse
    exact ⟨none, a, .noBranch noElif noElse, same⟩
  | branches asks inside others ihInside ihOthers =>
    intro start a within same
    obtain ⟨cond, b, condition, after⟩ := asks.readable inside.body_stops a within.toSound same
    have within := condition.leads.within within
    obtain ⟨_, c, check, known⟩ := Place.does_of_regular (Check.checkCondition_regular cond) b
    have within := (check.leads (Check.checkCondition_regular cond)).within within
    obtain ⟨thenBranch, d, body, after⟩ := ihInside c within (known.trans after)
    have within := body.leads.within within
    obtain ⟨branch, e, rest, after⟩ := ihOthers d within after
    obtain ⟨id, f, build, known⟩ := Place.does_of_regular (Check.buildCondition_regular cond
      thenBranch branch (start.through e.tokens.previous)) e
    exact ⟨id, f, .branches condition check body rest build, known.trans after⟩

end Statement

end ScalarLang
