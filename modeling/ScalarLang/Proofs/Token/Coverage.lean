import ScalarLang.Proofs.Token.Lexeme

/-! The lexer loses nothing. A source is its lexemes in their order, with gaps of white space and
comments before, between and after them, and as many calls as there are lexemes read it. -/

namespace ScalarLang

namespace Text

/-- Text that separates lexemes, with `rest` after it: white space, comments up to the next newline
and comments up to their first end. -/
inductive Gap (rest : List Char) : List Char → Prop where
  | nil : Gap rest []
  | blank {c : Char} {gap : List Char} : isBlank c = true → Gap rest gap → Gap rest (c :: gap)
  | lineComment {inside gap : List Char} : '\n' ∉ inside →
      (∀ c ∈ (gap ++ rest).head?, c = '\n') → Gap rest gap →
      Gap rest ('/' :: '/' :: inside ++ gap)
  | blockComment {inside gap : List Char} : ¬['*', '/'] <:+: inside → Gap rest gap →
      Gap rest ('/' :: '*' :: inside ++ ['*', '/'] ++ gap)

/-- The text is made of these lexemes in their order, with gaps before, between and after them. -/
inductive Interleaves : List Char → List String → Prop where
  | last {gap : List Char} : Gap [] gap → Interleaves gap []
  | lexeme {gap rest : List Char} {lexeme : String} {others : List String} :
      Gap (lexeme.toList ++ rest) gap → lexeme ≠ "" → Interleaves rest others →
      Interleaves (gap ++ (lexeme.toList ++ rest)) (lexeme :: others)

theorem Gap.blanks {rest gap text : List Char} (more : Gap rest gap)
    (all : ∀ c ∈ text, isBlank c = true) : Gap rest (text ++ gap) := by
  induction text with
  | nil => exact more
  | cons c text ih =>
    exact .blank (all c List.mem_cons_self) (ih fun d member => all d (List.mem_cons_of_mem _ member))

theorem byteWidth_pos {text : List Char} (some : text ≠ []) : 0 < byteWidth text := by
  obtain ⟨c, rest, rfl⟩ := List.exists_cons_of_ne_nil some
  have wide := c.utf8Size_pos
  rw [byteWidth_cons]
  omega

end Text

namespace Spelling

theorem reserved?_ne_eof {word : String} {kind : TokenKind} (found : reserved? word = some kind) :
    kind ≠ .eof := by
  have checked : ∀ entry ∈ reservedWords, entry.2 ≠ .eof := by decide
  exact checked _ (reserved?_iff.mp found)

theorem symbol?_ne_eof {text : List Char} {entry : String × TokenKind}
    (found : symbol? text = some entry) : entry.2 ≠ .eof := by
  have checked : ∀ entry ∈ symbols, entry.2 ≠ .eof := by decide
  exact checked _ (List.mem_of_find?_eq_some found)

end Spelling

namespace Piece

variable {c : Char} {rest : List Char} {span : Span}

/-- The inside of a closed comment has no end of a comment before its own. -/
theorem closeComment?_first {text inside : List Char} (found : closeComment? text = some inside) :
    ∃ body, inside = body ++ ['*', '/'] ∧ ¬['*', '/'] <:+: body := by
  induction text generalizing inside with
  | nil => cases found
  | cons c rest ih =>
    unfold closeComment? at found
    split at found
    · cases found
      exact ⟨[], rfl, by decide⟩
    · rename_i absurd
      cases absurd
    · rename_i open_ same
      cases same
      obtain ⟨inside, closed, rfl⟩ := Option.map_eq_some_iff.mp found
      obtain ⟨body, rfl, none⟩ := ih closed
      refine ⟨c :: body, rfl, fun within => ?_⟩
      rcases List.infix_cons_iff.mp within with ⟨after, start⟩ | within
      · -- The end would begin with `c`, and then the comment ends here.
        obtain ⟨others, text⟩ := closeComment?_prefix closed
        cases body with
        | nil => cases start
        | cons d body =>
          cases start
          exact open_ _ rfl text.symm
      · exact none within

/-- A piece that gives no token lies before a gap as part of it. -/
theorem Reading.gap {piece : Piece} {gap tail : List Char} (reading : Reading c rest piece)
    (isGap : piece.toToken? span = none) (text : c :: rest = piece.text ++ (gap ++ tail))
    (more : Text.Gap tail gap) : Text.Gap tail (piece.text ++ gap) := by
  cases reading with
  | blank => exact more.blanks fun d member => List.mem_takeWhile_imp member
  | @lineComment others =>
    simp only [Piece.text, List.cons_append, List.cons.injEq, true_and] at text
    have after : gap ++ tail = others.dropWhile (· ≠ '\n') :=
      List.append_cancel_left (text.symm.trans List.takeWhile_append_dropWhile.symm)
    refine .lineComment (fun newline => ?_) (fun d first => ?_) more
    · simpa using List.mem_takeWhile_imp newline
    · have stops := List.head?_dropWhile_not (· ≠ '\n') others
      rw [← after, Option.mem_def.mp first] at stops
      simpa using stops
  | blockComment closed =>
    obtain ⟨body, rfl, first⟩ := closeComment?_first closed
    simpa [Piece.text] using more.blockComment first
  | openComment | word | number | symbol | unknown => cases isGap

/-- A symbol is read from the table. -/
theorem read_symbol {spelling : String} {kind : TokenKind}
    (found : read c rest = symbol spelling kind) :
    Spelling.symbol? (c :: rest) = some (spelling, kind) := by
  have reading := read_reading c rest
  rw [found] at reading
  cases reading
  assumption

/-- Where a token has its kind from. -/
inductive Kinded (text : List Char) (piece : Piece) (span : Span) (token : Token) : Prop
  | error (kind : token.kind = .error)
  | identifier (kind : token.kind = .identifier)
  | literal {scalar : Scalar} (kind : token.kind = .literal scalar)
  | reserved {word : String} (listed : Spelling.reserved? word = some token.kind)
  | symbol {entry : String × TokenKind} (listed : Spelling.symbol? text = some entry)
      (same : piece = .symbol entry.1 entry.2) (whole : token = ⟨entry.2, entry.1, 0, span, none⟩)

theorem Reading.kinded {piece : Piece} {token : Token} (reading : Reading c rest piece)
    (found : piece.toToken? span = some token) : Kinded (c :: rest) piece span token := by
  cases reading with
  | blank | lineComment | blockComment => cases found
  | openComment | unknown =>
    cases found
    exact .error rfl
  | word =>
    cases found
    cases reserved : Spelling.reserved? (String.ofList ((c :: rest).takeWhile isWordPart)) with
    | none => exact .identifier (by rw [wordToken, reserved]; rfl)
    | some kind => exact .reserved (reserved.trans (by rw [wordToken, reserved]; rfl))
  | number =>
    cases found
    unfold numberToken
    split
    · exact .literal rfl
    · exact .error rfl
  | symbol _ listed =>
    cases found
    exact .symbol listed rfl rfl

theorem Reading.notLast {piece : Piece} {token : Token} (reading : Reading c rest piece)
    (found : piece.toToken? span = some token) : token.kind ≠ .eof := by
  cases reading.kinded found with
  | error kind | identifier kind | literal kind =>
    rw [kind]
    nofun
  | reserved listed => exact Spelling.reserved?_ne_eof listed
  | symbol listed _ whole =>
    rw [whole]
    exact Spelling.symbol?_ne_eof listed

end Piece

namespace Cursor

variable {cursor : Cursor}

theorem advance_offset (cursor : Cursor) (count : Nat) :
    (cursor.advance count).offset = cursor.offset + Text.byteWidth (cursor.rest.take count) := by
  induction count generalizing cursor with
  | zero => rfl
  | succ count ih =>
    rw [advance, ih]
    cases text : cursor.rest with
    | nil => simp [step, text]
    | cons c rest =>
      by_cases newline : c = '\n' <;>
        simp [step, text, newline, Nat.add_assoc]

/-- The cursor goes over this text, and its offset grows by the width. -/
def Passes (before : Cursor) (text : List Char) (after : Cursor) : Prop :=
  before.rest = text ++ after.rest ∧ after.offset = before.offset + Text.byteWidth text

theorem Passes.trans {a b c : Cursor} {first second : List Char} (one : a.Passes first b)
    (two : b.Passes second c) : a.Passes (first ++ second) c := by
  refine ⟨?_, ?_⟩
  · rw [one.1, two.1, List.append_assoc]
  · rw [two.2, one.2, Text.byteWidth_append, Nat.add_assoc]

/-- A call that gives a token goes over a gap and then over the lexeme. -/
structure Reads (before : Cursor) (token : Token) (after : Cursor) : Prop where
  notLast : token.kind ≠ .eof
  lexeme : token.lexeme ≠ ""
  moves : ∃ gap, Text.Gap (token.lexeme.toList ++ after.rest) gap ∧
    before.Passes (gap ++ token.lexeme.toList) after

/-- A call that gives the end token goes over a gap to the end of the text. -/
structure Ends (before : Cursor) (token : Token) (after : Cursor) : Prop where
  last : token.kind = .eof
  gap : Text.Gap [] before.rest
  ended : after.rest = []

theorem ends_ended (span : Span) (ended : cursor.rest = []) :
    cursor.Ends (Token.endAt span) cursor := by
  refine ⟨rfl, ?_, ended⟩
  rw [ended]
  exact .nil

theorem passes_piece {c : Char} {rest : List Char} (text : cursor.rest = c :: rest) :
    cursor.Passes (Piece.read c rest).text (cursor.advance (Piece.read c rest).text.length) := by
  obtain ⟨⟨after, whole⟩, -⟩ := (Piece.read_reading c rest).starts
  refine ⟨?_, ?_⟩
  · rw [advance_rest, text, ← whole, List.drop_left]
  · rw [advance_offset, text, ← whole, List.take_left]

/-- Every call goes over a gap and over what it gives. -/
theorem nextWithin_reads (fuel : Nat) (cursor : Cursor) (enough : cursor.rest.length ≤ fuel) :
    cursor.Reads (cursor.nextWithin fuel).1 (cursor.nextWithin fuel).2 ∨
      cursor.Ends (cursor.nextWithin fuel).1 (cursor.nextWithin fuel).2 := by
  induction fuel generalizing cursor with
  | zero =>
    have ended := List.eq_nil_of_length_eq_zero (Nat.le_zero.mp enough)
    exact .inr (ends_ended _ ended)
  | succ fuel ih =>
    unfold nextWithin
    cases text : cursor.rest with
    | nil => exact .inr (ends_ended _ text)
    | cons c rest =>
      have shorter := advance_shortens text
      have passes := passes_piece text
      rw [text, List.length_cons] at enough
      dsimp only
      split
      · rename_i token found
        have lexeme := Token.toToken?_lexeme found
        refine .inl ⟨(Piece.read_reading c rest).notLast found, fun none => ?_, [], .nil, ?_⟩
        · rw [none] at lexeme
          exact Piece.read_ne_nil c rest lexeme.symm
        · rw [List.nil_append, lexeme]
          exact passes
      · rename_i isGap
        have before {gap tail : List Char} (more : Text.Gap tail gap)
            (after : (cursor.advance (Piece.read c rest).text.length).rest = gap ++ tail) :
            Text.Gap tail ((Piece.read c rest).text ++ gap) :=
          (Piece.read_reading c rest).gap isGap (by rw [← text, passes.1, after]) more
        rcases ih _ (Nat.le_trans shorter (Nat.le_of_succ_le_succ enough)) with reads | ends
        · obtain ⟨gap, more, moves⟩ := reads.moves
          refine .inl ⟨reads.notLast, reads.lexeme, _, before more ?_, ?_⟩
          · rw [moves.1, List.append_assoc]
          · rw [List.append_assoc]
            exact passes.trans moves
        · refine .inr ⟨ends.last, ?_, ends.ended⟩
          rw [passes.1]
          exact before ends.gap (List.append_nil _).symm

theorem Reads.offset_lt {token : Token} {after : Cursor} (reads : cursor.Reads token after) :
    cursor.offset < after.offset := by
  obtain ⟨gap, -, moves⟩ := reads.moves
  have wide : 0 < Text.byteWidth token.lexeme.toList :=
    Text.byteWidth_pos fun none => reads.lexeme (String.toList_eq_nil_iff.mp none)
  rw [moves.2, Text.byteWidth_append]
  omega

theorem Reads.shorter {token : Token} {after : Cursor} (reads : cursor.Reads token after) :
    after.rest.length < cursor.rest.length := by
  obtain ⟨gap, -, moves⟩ := reads.moves
  have wide : token.lexeme.toList ≠ [] := fun none =>
    reads.lexeme (String.toList_eq_nil_iff.mp none)
  have long := List.length_pos_iff.mpr wide
  rw [moves.1, List.length_append, List.length_append]
  omega

end Cursor

namespace Lexer

def after (lexer : Lexer) : Nat → Lexer
  | 0 => lexer
  | calls + 1 => (lexer.after calls).next.2

theorem after_next (lexer : Lexer) (calls : Nat) :
    lexer.next.2.after calls = lexer.after (calls + 1) := by
  induction calls with
  | zero => rfl
  | succ calls ih =>
    rw [after, ih]
    rfl

def given (lexer : Lexer) (calls : Nat) : List Token :=
  (List.range calls).map fun call => (lexer.after call).next.1

theorem given_next (lexer : Lexer) (calls : Nat) :
    lexer.given (calls + 1) = lexer.next.1 :: lexer.next.2.given calls := by
  unfold given
  rw [List.range_succ_eq_map, List.map_cons, List.map_map]
  refine congrArg _ (List.map_congr_left fun call _ => ?_)
  rw [Function.comp_apply, after_next]

/-- At the end of the text a call gives the end token and stays. -/
theorem next_ended {lexer : Lexer} (ended : lexer.cursor.rest = []) :
    lexer.next.1.kind = .eof ∧ lexer.next.2.cursor = lexer.cursor := by
  unfold next Cursor.next
  rw [ended]
  exact ⟨rfl, rfl⟩

theorem after_ended {lexer : Lexer} {calls later : Nat}
    (ended : (lexer.after calls).cursor.rest = []) (le : calls ≤ later) :
    (lexer.after later).cursor.rest = [] := by
  induction le with
  | refl => exact ended
  | step _ ih => rw [after, (next_ended ih).2, ih]

structure Scans (lexer : Lexer) (tokens : List Token) (last : Token) : Prop where
  given : tokens ++ [last] = lexer.given (tokens.length + 1)
  reads : ∀ call < tokens.length, (lexer.after call).cursor.Reads (lexer.after call).next.1
    (lexer.after (call + 1)).cursor
  ends : (lexer.after tokens.length).cursor.Ends (lexer.after tokens.length).next.1
    (lexer.after (tokens.length + 1)).cursor
  interleaves : Text.Interleaves lexer.cursor.rest (tokens.map Token.lexeme)
  bounded : tokens.length ≤ lexer.cursor.rest.length

theorem Scans.last {lexer : Lexer}
    (ends : lexer.cursor.Ends lexer.next.1 lexer.next.2.cursor) :
    lexer.Scans [] lexer.next.1 where
  given := rfl
  reads _ before := absurd before (Nat.not_lt_zero _)
  ends := ends
  interleaves := .last ends.gap
  bounded := Nat.zero_le _

theorem Scans.next {lexer : Lexer} {tokens : List Token} {last : Token}
    (reads : lexer.cursor.Reads lexer.next.1 lexer.next.2.cursor)
    (others : lexer.next.2.Scans tokens last) : lexer.Scans (lexer.next.1 :: tokens) last where
  given := by rw [List.length_cons, given_next, ← others.given, List.cons_append]
  reads call before := by
    cases call with
    | zero => exact reads
    | succ call =>
      have later := others.reads call (Nat.lt_of_succ_lt_succ before)
      rwa [after_next, after_next] at later
  ends := by
    have ends := others.ends
    rwa [after_next, after_next] at ends
  interleaves := by
    obtain ⟨gap, separates, moves⟩ := reads.moves
    rw [moves.1, List.append_assoc]
    exact .lexeme separates reads.lexeme others.interleaves
  bounded := Nat.lt_of_le_of_lt others.bounded reads.shorter

/-- The token list of a text is what the calls give. -/
theorem scans_tokensWithin (fuel : Nat) {lexer : Lexer}
    (enough : lexer.cursor.rest.length ≤ fuel) :
    lexer.Scans (lexer.cursor.tokensWithin fuel).1 (lexer.cursor.tokensWithin fuel).2 := by
  induction fuel generalizing lexer with
  | zero =>
    have ended := List.eq_nil_of_length_eq_zero (Nat.le_zero.mp enough)
    have same : lexer.next.1 = (lexer.cursor.tokensWithin 0).2 := by
      rw [next, Cursor.next, ended]
      rfl
    have stays : lexer.next.2.cursor = lexer.cursor := (next_ended ended).2
    rw [← same]
    refine Scans.last ?_
    rw [same, stays]
    exact Cursor.ends_ended _ ended
  | succ fuel ih =>
    have same : lexer.cursor.nextWithin (fuel + 1) = lexer.cursor.next :=
      Cursor.nextWithin_stable _ _ enough (Nat.le_refl _)
    have call : lexer.cursor.Reads lexer.next.1 lexer.next.2.cursor ∨
        lexer.cursor.Ends lexer.next.1 lexer.next.2.cursor :=
      Cursor.nextWithin_reads _ lexer.cursor (Nat.le_refl _)
    unfold Cursor.tokensWithin
    rw [same]
    dsimp only
    split
    · rename_i isLast
      exact .last (call.resolve_left fun reads => reads.notLast isLast)
    · rename_i notLast
      have reads := call.resolve_right fun ends => notLast ends.last
      have enoughAfter : lexer.next.2.cursor.rest.length ≤ fuel :=
        Nat.le_of_lt_succ (Nat.lt_of_lt_of_le reads.shorter enough)
      exact .next reads (ih enoughAfter)

/-- The lexer loses nothing. Reading a source takes finitely many calls: each of the first gives a
token and moves on, all others give the end token, and those after the first end token stay where
they are. What the calls give is the token list, and the source is the lexemes of its tokens with
white space and comments before, between and after them. -/
theorem reads_whole (source : String) :
    ∃ calls ≤ (readableText source).length,
      (∀ call < calls, ((ofSource source).after call).next.1.kind ≠ .eof ∧
        ((ofSource source).after call).cursor.offset <
          ((ofSource source).after (call + 1)).cursor.offset) ∧
      (∀ call ≥ calls, ((ofSource source).after call).next.1.kind = .eof) ∧
      (∀ call > calls,
        ((ofSource source).after (call + 1)).cursor = ((ofSource source).after call).cursor) ∧
      tokenize source = (ofSource source).given (calls + 1) ∧
      Text.Interleaves (readableText source)
        (((tokenize source).filter fun token => token.kind ≠ .eof).map Token.lexeme) := by
  have scans : (ofSource source).Scans (scan source).1 (scan source).2 :=
    scans_tokensWithin _ (Nat.le_refl _)
  have ends := scans.ends
  have kept : (tokenize source).filter (fun token => token.kind ≠ .eof) = (scan source).1 := by
    have before : ∀ token ∈ (scan source).1, token.kind ≠ .eof :=
      (TokenStream.ofSource_formed source).notLast
    have last : (scan source).2.kind = .eof := (TokenStream.ofSource_formed source).last
    rw [tokenize, List.filter_append, List.filter_eq_self.mpr, List.filter_cons_of_neg,
      List.filter_nil, List.append_nil]
    · simpa using last
    · simpa using before
  refine ⟨(scan source).1.length, scans.bounded, fun call before => ?_, fun call later => ?_,
    fun call later => ?_, scans.given, ?_⟩
  · have reads := scans.reads call before
    exact ⟨reads.notLast, reads.offset_lt⟩
  · rcases Nat.eq_or_lt_of_le later with rfl | later
    · exact ends.last
    · exact (next_ended (after_ended ends.ended later)).1
  · exact (next_ended (after_ended ends.ended later)).2
  · rw [kept]
    exact scans.interleaves

end Lexer

end ScalarLang
