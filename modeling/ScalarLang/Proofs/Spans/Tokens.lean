import ScalarLang.Proofs.Parser.Moves
import ScalarLang.Proofs.Token.Order
import ScalarLang.Proofs.Token.Position

/-! Where the tokens stand that a parse goes through. What was consumed last starts no later than what
is current, and ends with a token of the source. Only from a current token of which nothing was
consumed does one come back to an earlier place. Spans from one token to another start and end with
what can be seen. -/

namespace ScalarLang

namespace Position

/-- The place is that before a character that is not blank. -/
def Opens (text : List Char) (place : Position) : Prop :=
  ∃ before c rest, text = before ++ c :: rest ∧ Text.isBlank c = false ∧
    place = .after before (c :: rest)

/-- The place is that behind a character that is not blank. -/
def Closes (text : List Char) (place : Position) : Prop :=
  ∃ before c rest, text = before ++ c :: rest ∧ Text.isBlank c = false ∧
    place = .after (before ++ [c]) rest

end Position

namespace Span

def Ordered (span : Span) : Prop := span.start ≤ span.stop

/-- The span is in order, and neither starts nor ends with a blank. -/
structure Sits (source : String) (span : Span) : Prop where
  ordered : span.Ordered
  opens : span.start.Opens (readableText source)
  closes : span.stop.Closes (readableText source)

/-- A place that is told of: the end of the source may be one. -/
def Told (source : String) (span : Span) : Prop :=
  span.Sits source ∨ span = (scan source).2.span

/-- From the start of a token back to the end of the token before it. -/
def Gap (source : String) (span : Span) : Prop :=
  ∃ front before after back, tokenize source = front ++ before :: after :: back ∧
    span = after.span.through before.span

end Span

/-- How wide a token is at least, of which angles can be taken. -/
def TokenKind.angleWidth : TokenKind → Nat
  | .rightShift | .greaterEquals => 2
  | .rightShiftEquals => 3
  | _ => 0

/-- A token stands on one line, and an angle can be taken of it where that is done. -/
structure Token.Wide (token : Token) : Prop where
  line : token.span.stop.line = token.span.start.line
  column : token.span.start.column + token.kind.angleWidth ≤ token.span.stop.column

namespace Token

variable {token : Token} {kind : TokenKind} {lexeme : String}

theorem Wide.ordered (wide : token.Wide) : token.span.Ordered :=
  .inr ⟨wide.line.symm, Nat.le_of_add_right_le wide.column⟩

theorem Wide.shorten (wide : token.Wide)
    (long : TokenStream.afterAngle? token.kind = some (kind, lexeme)) :
    (TokenStream.shorten token kind lexeme).Wide := by
  have shorter : kind.angleWidth + 1 ≤ token.kind.angleWidth := by
    unfold TokenStream.afterAngle? at long
    split at long <;> cases long <;> simp_all [TokenKind.angleWidth]
  have column := wide.column
  constructor
  · exact wide.line
  · simp only [TokenStream.shorten]
    omega

end Token

namespace Token

/-- What the span of the token covers in the text. It is not blank, and an angle can be taken of it
where that is done. -/
def Seen (text : List Char) (token : Token) : Prop :=
  ∃ before shown back, text = before ++ (shown ++ back) ∧
    token.span = .covering before shown back ∧ shown ≠ [] ∧
    (∀ c ∈ shown, Text.isBlank c = false) ∧
    ∀ after ∈ TokenStream.afterAngle? token.kind, shown = '>' :: after.2.toList

variable {token : Token} {source : String} {text before rest : List Char} {kind : TokenKind}
  {lexeme : String} {piece : Piece}

theorem onLine_of_visible {shown : List Char} (visible : ∀ c ∈ shown, Text.isBlank c = false) :
    ∀ c ∈ shown, c ≠ '\n' := by
  rintro c member rfl
  exact absurd (visible _ member) (by decide)

theorem Seen.sits (seen : token.Seen (readableText source)) : token.span.Sits source := by
  obtain ⟨before, shown, back, whole, place, some, visible, -⟩ := seen
  refine ⟨?_, ?_, ?_⟩
  · rw [place]
    exact .inr ⟨rfl, Nat.le_add_right _ _⟩
  · obtain ⟨c, others, rfl⟩ := List.exists_cons_of_ne_nil some
    exact ⟨before, c, others ++ back, whole, visible c List.mem_cons_self, by rw [place]; rfl⟩
  · rw [place, Span.covering_stop (onLine_of_visible visible)]
    obtain rfl | ⟨others, c, rfl⟩ := List.eq_nil_or_concat shown
    · exact absurd rfl some
    · refine ⟨before ++ others, c, back, by simpa using whole, visible c (by simp), ?_⟩
      rw [List.concat_eq_append, List.append_assoc]

/-- What is left of a token from which an angle was taken is there in the text too. -/
theorem Seen.shorten (seen : token.Seen text)
    (long : TokenStream.afterAngle? token.kind = some (kind, lexeme)) :
    (TokenStream.shorten token kind lexeme).Seen text := by
  obtain ⟨before, shown, back, whole, place, -, visible, angled⟩ := seen
  cases angled _ long
  have short : lexeme.toList ≠ [] ∧
      ∀ after ∈ TokenStream.afterAngle? kind, lexeme.toList = '>' :: after.2.toList := by
    unfold TokenStream.afterAngle? at long
    split at long <;> cases long <;> decide
  refine ⟨before ++ ['>'], lexeme.toList, back, by simpa using whole, ?_, short.1,
    fun c member => visible c (List.mem_cons_of_mem _ member), short.2⟩
  have onLine := onLine_of_visible visible
  have rest : ∀ c ∈ lexeme.toList, c ≠ '\n' := fun c member =>
    onLine c (List.mem_cons_of_mem _ member)
  have start : (Span.covering (before ++ ['>']) lexeme.toList back).start =
      { token.span.start with column := token.span.start.column + 1 } := by
    rw [place]
    exact Position.after_concat (by decide)
  have stop : (Span.covering (before ++ ['>']) lexeme.toList back).stop = token.span.stop := by
    rw [place, Span.covering_stop rest, Span.covering_stop onLine, List.append_assoc]
    rfl
  change Span.mk { token.span.start with column := token.span.start.column + 1 } token.span.stop = _
  rw [← start, ← stop]

end Token

namespace Piece

variable {c : Char} {rest : List Char}

theorem afterAngle?_reserved {word : String} {kind : TokenKind}
    (found : Spelling.reserved? word = some kind) : TokenStream.afterAngle? kind = none := by
  have checked : ∀ entry ∈ Spelling.reservedWords,
      TokenStream.afterAngle? entry.2 = none := by decide
  exact checked _ (Spelling.reserved?_iff.mp found)

theorem afterAngle?_symbol {text : List Char} {entry : String × TokenKind}
    (found : Spelling.symbol? text = some entry) :
    ∀ after ∈ TokenStream.afterAngle? entry.2, entry.1.toList = '>' :: after.2.toList := by
  have checked : ∀ entry ∈ Spelling.symbols, ∀ after ∈ TokenStream.afterAngle? entry.2,
      entry.1.toList = '>' :: after.2.toList := by decide +kernel
  exact checked _ (List.mem_of_find?_eq_some found)

/-- An angle can be taken only of what starts with one. -/
theorem Reading.angled {piece : Piece} (reading : Reading c rest piece) {span : Span}
    {token : Token} (found : piece.toToken? span = some token) :
    ∀ after ∈ TokenStream.afterAngle? token.kind, piece.shown = '>' :: after.2.toList := by
  cases reading.kinded found with
  | error kind | identifier kind | literal kind =>
    rw [kind]
    nofun
  | reserved listed =>
    rw [afterAngle?_reserved listed]
    nofun
  | symbol listed same whole =>
    rw [same, whole]
    exact afterAngle?_symbol listed

theorem angleWidth_reserved {word : String} {kind : TokenKind}
    (found : Spelling.reserved? word = some kind) : kind.angleWidth = 0 := by
  have checked : ∀ entry ∈ Spelling.reservedWords, entry.2.angleWidth = 0 := by decide
  exact checked _ (Spelling.reserved?_iff.mp found)

theorem angleWidth_symbol {text : List Char} {entry : String × TokenKind}
    (found : Spelling.symbol? text = some entry) :
    entry.2.angleWidth ≤ Text.byteWidth entry.1.toList := by
  have checked : ∀ entry ∈ Spelling.symbols,
      entry.2.angleWidth ≤ Text.byteWidth entry.1.toList := by decide +kernel
  exact checked _ (List.mem_of_find?_eq_some found)

/-- The span of a token is as wide as its kind asks for. -/
theorem Reading.angleWidth_le {piece : Piece} (reading : Reading c rest piece) {span : Span}
    {token : Token} (found : piece.toToken? span = some token) :
    token.kind.angleWidth ≤ piece.spanWidth := by
  cases reading.kinded found with
  | error kind | identifier kind | literal kind =>
    rw [kind]
    exact Nat.zero_le _
  | reserved listed =>
    rw [angleWidth_reserved listed]
    exact Nat.zero_le _
  | symbol listed same whole =>
    rw [same, whole]
    exact angleWidth_symbol listed

end Piece

theorem Token.Scanned.seen {token : Token} {text before rest : List Char} {piece : Piece}
    (scanned : token.Scanned before piece rest) (whole : before ++ (piece.text ++ rest) = text) :
    token.Seen text := by
  obtain ⟨back, shown, place, some, visible⟩ := scanned.span_eq
  obtain ⟨c, others, -, reading⟩ := scanned.reading
  exact ⟨before, piece.shown, back, by rw [← shown, whole], place, some, visible,
    reading.angled scanned.found⟩

namespace Cursor

theorem endAt_wide (cursor : Cursor) : (Token.endAt (cursor.span 0)).Wide := ⟨rfl, Nat.le_refl _⟩

theorem nextWithin_wide (fuel : Nat) (cursor : Cursor) : (cursor.nextWithin fuel).1.Wide := by
  induction fuel generalizing cursor with
  | zero => exact cursor.endAt_wide
  | succ fuel ih =>
    unfold nextWithin
    split
    · exact cursor.endAt_wide
    · rename_i c rest _
      dsimp only
      split
      · rename_i found
        have width := (Piece.read_reading c rest).angleWidth_le found
        have place := Piece.toToken?_span found
        constructor <;> rw [place]
        · rfl
        · exact Nat.add_le_add_left width _
      · exact ih _

theorem tokensWithin_wide (fuel : Nat) (cursor : Cursor) :
    ∀ token ∈ (cursor.tokensWithin fuel).1 ++ [(cursor.tokensWithin fuel).2], token.Wide := by
  induction fuel generalizing cursor with
  | zero => simpa [tokensWithin] using cursor.endAt_wide
  | succ fuel ih =>
    have wide := nextWithin_wide (fuel + 1) cursor
    unfold tokensWithin
    dsimp only
    split
    · simpa using wide
    · intro token member
      rcases List.mem_cons.mp member with rfl | member
      · exact wide
      · exact ih _ token member

/-- The end token covers nothing. -/
theorem nextWithin_empty {fuel : Nat} {cursor : Cursor}
    (last : (cursor.nextWithin fuel).1.kind = .eof) :
    (cursor.nextWithin fuel).1.span.start = (cursor.nextWithin fuel).1.span.stop := by
  induction fuel generalizing cursor with
  | zero => rfl
  | succ fuel ih =>
    unfold nextWithin at last ⊢
    split
    · rfl
    · rename_i c rest here
      simp only [here] at last
      dsimp only at last ⊢
      split
      · rename_i found
        rw [found] at last
        exact absurd last ((Piece.read_reading c rest).notLast found)
      · rename_i none
        rw [none] at last
        exact ih last

theorem tokensWithin_empty (fuel : Nat) (cursor : Cursor) :
    (cursor.tokensWithin fuel).2.span.start = (cursor.tokensWithin fuel).2.span.stop := by
  induction fuel generalizing cursor with
  | zero => rfl
  | succ fuel ih =>
    unfold tokensWithin
    dsimp only
    split
    · rename_i last
      exact nextWithin_empty last
    · exact ih _

end Cursor

namespace TokenStream

variable {tokens after last : TokenStream} {kind : TokenKind} {lexeme : String}

def ahead (tokens : TokenStream) : List Token := tokens.pending ++ [tokens.endToken]

/-- Every token ends before the next one starts, and the one consumed last does not start later than
the current one. -/
structure Upright (tokens : TokenStream) : Prop where
  last : tokens.endToken.kind = .eof
  wide : ∀ token ∈ tokens.ahead, token.Wide
  inOrder : tokens.ahead.Pairwise fun first second => first.span.stop ≤ second.span.start
  previous : tokens.previous.Ordered
  behind : tokens.previous.start ≤ tokens.current.span.start

theorem current_mem_ahead (tokens : TokenStream) : tokens.current ∈ tokens.ahead := by
  unfold current ahead
  cases tokens.pending <;> simp

theorem Upright.current (upright : tokens.Upright) : tokens.current.Wide :=
  upright.wide _ tokens.current_mem_ahead

theorem ofSource_upright (source : String) : (ofSource source).Upright := by
  have wide := Cursor.tokensWithin_wide (readableText source).length (.start (readableText source))
  have order := Cursor.tokensWithin_inOrder (readableText source).length
    (.start (readableText source)) (Nat.le_refl 0)
  refine ⟨(ofSource_formed source).last, wide, order.2, ?_, le_refl _⟩
  exact (wide _ (ofSource source).current_mem_ahead).ordered

theorem Upright.advance (upright : tokens.Upright) : tokens.advance.Upright := by
  have current := upright.current.ordered
  obtain ⟨last, wide, inOrder, -, -⟩ := upright
  cases pending : tokens.pending with
  | nil =>
    have same : tokens.advance.ahead = tokens.ahead := by simp [ahead, TokenStream.advance, pending]
    have stays : tokens.advance.current = tokens.current := by
      simp [TokenStream.current, TokenStream.advance, pending]
    refine ⟨last, same ▸ wide, same ▸ inOrder, current, ?_⟩
    rw [stays]
    exact le_refl _
  | cons token rest =>
    have here : tokens.current = token := by simp [TokenStream.current, pending]
    have parts : tokens.ahead = token :: tokens.advance.ahead := by
      simp [ahead, TokenStream.advance, pending]
    rw [parts] at wide inOrder
    have later := (List.pairwise_cons.mp inOrder).1 _ tokens.advance.current_mem_ahead
    refine ⟨last, (List.forall_mem_cons.mp wide).2, (List.pairwise_cons.mp inOrder).2, current, ?_⟩
    rw [here] at current
    change tokens.current.span.start ≤ _
    rw [here]
    exact le_trans current later

/-- The current token is not the end token where it can be split. -/
theorem Upright.splits (upright : tokens.Upright)
    (long : afterAngle? tokens.current.kind = some (kind, lexeme)) :
    ∃ rest, tokens.pending = tokens.current :: rest := by
  cases pending : tokens.pending with
  | nil =>
    have here : tokens.current.kind = .eof := by simp [TokenStream.current, pending, upright.last]
    rw [here] at long
    cases long
  | cons token rest => exact ⟨rest, by simp [TokenStream.current, pending]⟩

theorem Upright.split (upright : tokens.Upright)
    (long : afterAngle? tokens.current.kind = some (kind, lexeme)) :
    (tokens.replaceCurrent (shorten tokens.current kind lexeme)).Upright := by
  obtain ⟨rest, pending⟩ := upright.splits long
  have short := upright.current.shorten long
  obtain ⟨last, wide, inOrder, -, -⟩ := upright
  have parts : tokens.ahead = tokens.current :: (rest ++ [tokens.endToken]) := by
    rw [ahead, pending, List.cons_append]
  have shortened : (tokens.replaceCurrent (shorten tokens.current kind lexeme)).ahead =
      shorten tokens.current kind lexeme :: (rest ++ [tokens.endToken]) := by
    rw [ahead, replaceCurrent, pending, List.tail_cons, List.cons_append]
  rw [parts] at wide inOrder
  refine ⟨last, ?_, ?_, short.ordered, le_refl _⟩
  · rw [shortened]
    exact List.forall_mem_cons.mpr ⟨short, (List.forall_mem_cons.mp wide).2⟩
  · rw [shortened]
    exact List.pairwise_cons.mpr (List.pairwise_cons.mp inOrder)

/-- Nothing was consumed, or what was consumed last starts no earlier than what was current then. -/
def Past (tokens after : TokenStream) : Prop :=
  after = tokens ∨ tokens.current.span.start ≤ after.previous.start

theorem Past.refl (tokens : TokenStream) : tokens.Past tokens := .inl rfl

theorem Past.advance (tokens : TokenStream) : tokens.Past tokens.advance := .inr (le_refl _)

theorem Past.split (tokens : TokenStream) (kind : TokenKind) (lexeme : String) :
    tokens.Past (tokens.replaceCurrent (shorten tokens.current kind lexeme)) :=
  .inr (.inr ⟨rfl, Nat.le_succ _⟩)

theorem Past.previous (past : tokens.Past after) (upright : tokens.Upright) :
    tokens.previous.start ≤ after.previous.start := by
  rcases past with rfl | later
  · exact le_refl _
  · exact le_trans upright.behind later

theorem Past.trans (first : tokens.Past after) (second : after.Past last) (upright : after.Upright) :
    tokens.Past last := by
  rcases first with rfl | later
  · exact second
  · exact .inr (le_trans later (second.previous upright))

/-- The current token ends with a token of the source. What was consumed last ends with it too, or it
is the token before it. -/
inductive Follows (source : String) (tokens : TokenStream) : Prop
  | opened {front : List Token} {token : Token}
      (whole : tokenize source = front ++ token :: tokens.ahead.tail)
      (stop : tokens.current.span.stop = token.span.stop)
      (previous : tokens.previous = tokens.current.span) : Follows source tokens
  | between {front : List Token} {before : Token}
      (whole : tokenize source = front ++ before :: tokens.ahead)
      (previous : tokens.previous.stop = before.span.stop) : Follows source tokens

variable {source : String}

theorem ahead_eq (tokens : TokenStream) : tokens.ahead = tokens.current :: tokens.ahead.tail := by
  unfold ahead current
  cases tokens.pending <;> rfl

theorem ofSource_follows (source : String) : (ofSource source).Follows source := by
  have whole : tokenize source = [] ++ (ofSource source).ahead := rfl
  rw [ahead_eq] at whole
  exact .opened whole rfl rfl

theorem Follows.advance (follows : tokens.Follows source) : tokens.advance.Follows source := by
  obtain ⟨front, token, whole, stop⟩ : ∃ front token,
      tokenize source = front ++ token :: tokens.ahead.tail ∧
        tokens.current.span.stop = token.span.stop := by
    cases follows with
    | opened whole stop => exact ⟨_, _, whole, stop⟩
    | @between front before whole =>
      rw [ahead_eq] at whole
      exact ⟨front ++ [before], tokens.current, by simpa using whole, rfl⟩
  cases pending : tokens.pending with
  | nil =>
    have same : tokens.advance.ahead = tokens.ahead := by simp [ahead, TokenStream.advance, pending]
    have stays : tokens.advance.current = tokens.current := by
      simp [TokenStream.current, TokenStream.advance, pending]
    exact .opened (same ▸ whole) (stays ▸ stop) (congrArg Token.span stays.symm)
  | cons next rest =>
    have later : tokens.ahead.tail = tokens.advance.ahead := by
      simp [ahead, TokenStream.advance, pending]
    exact .between (later ▸ whole) stop

theorem Follows.split (follows : tokens.Follows source) (upright : tokens.Upright)
    (long : afterAngle? tokens.current.kind = some (kind, lexeme)) :
    (tokens.replaceCurrent (shorten tokens.current kind lexeme)).Follows source := by
  obtain ⟨rest, pending⟩ := upright.splits long
  have same : (tokens.replaceCurrent (shorten tokens.current kind lexeme)).ahead.tail =
      tokens.ahead.tail := by
    simp [ahead, replaceCurrent, pending]
  cases follows with
  | opened whole stop => exact .opened (same ▸ whole) stop rfl
  | @between front before whole =>
    rw [ahead_eq, ← same, List.append_cons] at whole
    exact .opened whole rfl rfl

/-- Back from the current token to the one consumed last there is nothing but the gap between two
tokens. -/
theorem Follows.back (follows : tokens.Follows source) (upright : tokens.Upright) :
    (tokens.current.span.through tokens.previous).Ordered ∨
      (tokens.current.span.through tokens.previous).Gap source := by
  cases follows with
  | opened _ _ previous =>
    rw [previous]
    exact .inl upright.current.ordered
  | @between front before whole previous =>
    rw [ahead_eq] at whole
    refine .inr ⟨front, before, tokens.current, _, whole, ?_⟩
    rw [Span.through, previous]
    rfl

/-- What is left is there in the source, and the end token was not consumed. -/
structure Anchored (source : String) (tokens : TokenStream) : Prop where
  moves : (ofSource source).Moves tokens
  seen : ∀ token ∈ tokens.pending, token.Seen (readableText source)
  last : tokens.endToken = (scan source).2
  previous : tokens.previous.Sits source

theorem ofSource_anchored (some : (scan source).1 ≠ []) : (ofSource source).Anchored source := by
  have seen : ∀ token ∈ (scan source).1, token.Seen (readableText source) := fun token member =>
    have ⟨_, _, _, scanned, whole⟩ := (scan_scanned source).1 token member
    scanned.seen whole
  obtain ⟨first, others, tokens⟩ := List.exists_cons_of_ne_nil some
  have previous : (ofSource source).previous = first.span := by
    simp [ofSource, start, tokens]
  refine ⟨.refl, seen, rfl, ?_⟩
  rw [previous]
  exact (seen first (by simp [tokens])).sits

theorem Anchored.formed (anchored : tokens.Anchored source) : tokens.Formed :=
  anchored.moves.formed (ofSource_formed source)

theorem Anchored.current (anchored : tokens.Anchored source) (more : tokens.current.kind ≠ .eof) :
    tokens.current.Seen (readableText source) := by
  obtain ⟨rest, pending⟩ := anchored.formed.head_notLast more
  exact anchored.seen _ (pending ▸ List.mem_cons_self)

/-- What is current may be told of, also at the end. -/
theorem Anchored.told (anchored : tokens.Anchored source) : tokens.current.span.Told source := by
  by_cases last : tokens.current.kind = .eof
  · have spent := anchored.formed.current_eof_iff.mp last
    refine .inr ?_
    rw [TokenStream.current, spent, ← anchored.last]
    rfl
  · exact .inl (anchored.current last).sits

theorem Anchored.advance (anchored : tokens.Anchored source) (more : tokens.current.kind ≠ .eof) :
    tokens.advance.Anchored source :=
  ⟨anchored.moves.tail (.consume more),
    fun token member => anchored.seen token (List.mem_of_mem_tail member), anchored.last,
    (anchored.current more).sits⟩

theorem Anchored.split (anchored : tokens.Anchored source)
    (long : afterAngle? tokens.current.kind = some (kind, lexeme)) :
    (tokens.replaceCurrent (shorten tokens.current kind lexeme)).Anchored source := by
  have short := (anchored.current (afterAngle?_operators long).1).shorten long
  refine ⟨anchored.moves.tail (.split long), fun token member => ?_, anchored.last,
    short.sits⟩
  rcases List.mem_cons.mp member with rfl | member
  · exact short
  · exact anchored.seen token (List.mem_of_mem_tail member)

/-- Where nothing was consumed, the end was not reached. -/
theorem Anchored.idle (anchored : tokens.Anchored source) (more : tokens.current.kind ≠ .eof)
    (later : after.Anchored source) (same : after.consumed = tokens.consumed) :
    after.current.kind ≠ .eof := by
  intro ended
  have spent := later.formed.current_eof_iff.mp ended
  obtain ⟨rest, pending⟩ := anchored.formed.head_notLast more
  have whole := later.moves.total (ofSource_formed source)
  rw [← anchored.moves.total (ofSource_formed source), spent, pending, same] at whole
  simp at whole

end TokenStream

/-- The end of the source is in order too. -/
theorem Span.Told.ordered {source : String} {span : Span} (told : span.Told source) :
    span.Ordered := by
  rcases told with sits | rfl
  · exact sits.ordered
  · have last : (scan source).2 ∈ (TokenStream.ofSource source).ahead :=
      List.mem_append_right _ (List.mem_singleton_self _)
    exact ((TokenStream.ofSource_upright source).wide _ last).ordered

/-- A gap does not end behind its start. It is in order only where two tokens touch. -/
theorem Span.Gap.backward {source : String} {span : Span} (gap : span.Gap source) :
    span.stop ≤ span.start := by
  obtain ⟨front, before, after, back, whole, rfl⟩ := gap
  have inOrder : (tokenize source).Pairwise fun first second =>
      first.span.stop ≤ second.span.start := (TokenStream.ofSource_upright source).inOrder
  rw [whole] at inOrder
  exact (List.pairwise_cons.mp (List.pairwise_append.mp inOrder).2.1).1 after List.mem_cons_self

end ScalarLang
