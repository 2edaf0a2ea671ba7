import Mathlib.Data.List.TakeWhile
import ScalarLang.Proofs.Failed.Declaration
import ScalarLang.Proofs.Failed.Header
import ScalarLang.Proofs.Scope.Declaration

/-! What recovery makes of a function whose prototype is broken. Where no colon is left of the header,
it skips the header and the body and goes on behind them. The colon of a parameter looks like one that
starts a body: then only a statement is skipped after it, and recovery ends before the body does. -/

namespace ScalarLang

/-- Tokens in which every brace that is opened is closed and no other is. -/
inductive Balanced : List Token → Prop
  | nil : Balanced []
  | token {token : Token} {rest : List Token} (noOpening : token.kind ≠ .openCurly)
      (noClosing : token.kind ≠ .closeCurly) (after : Balanced rest) : Balanced (token :: rest)
  | block {opening closing : Token} {inside rest : List Token} (opens : opening.kind = .openCurly)
      (body : Balanced inside) (closes : closing.kind = .closeCurly) (after : Balanced rest) :
      Balanced (opening :: inside ++ closing :: rest)

inductive IsBlock : List Token → Prop
  | block {opening closing : Token} {inside : List Token} (opens : opening.kind = .openCurly)
      (body : Balanced inside) (closes : closing.kind = .closeCurly) :
      IsBlock (opening :: inside ++ [closing])

namespace Recovery

variable {s : Session} {stop : Token} {left inside block rest : List Token}

theorem skipWhile_pending (skips : TokenKind → Bool) (s : Session) :
    (skipWhile skips s).2.tokens.pending =
      s.tokens.pending.dropWhile fun token => skips token.kind := by
  change (Step.advanceTimes _ s).2.tokens.pending = _
  rw [Step.advanceTimes_pending]
  nth_rewrite 2 [← List.takeWhile_append_dropWhile (p := fun token => skips token.kind)
    (l := s.tokens.pending)]
  exact List.drop_left

/-- What is not skipped ends what is. -/
theorem skipWhile_ahead {skips : TokenKind → Bool} (kept : skips stop.kind = false)
    (pending : s.tokens.pending = left ++ stop :: rest) :
    (skipWhile skips s).2.tokens.pending =
      (left.dropWhile fun token => skips token.kind) ++ stop :: rest := by
  rw [skipWhile_pending, pending, List.dropWhile_append]
  split
  · rename_i none
    rw [List.isEmpty_iff.mp none, List.dropWhile_cons_of_neg (by simp [kept]), List.nil_append]
  · rfl

theorem skipIf_ahead {kind : TokenKind} (kept : stop.kind ≠ kind)
    (pending : s.tokens.pending = left ++ stop :: rest) :
    ∃ less, (skipIf kind s).2.tokens.pending = less ++ stop :: rest := by
  change ∃ less, (Step.accept kind s).2.tokens.pending = less ++ stop :: rest
  rw [Step.accept_apply]
  split
  · rename_i here
    cases left with
    | nil =>
      refine absurd ?_ kept
      rwa [TokenStream.current, pending, List.nil_append, List.headD_cons] at here
    | cons token less =>
      rw [Step.advance_apply, TokenStream.advance, pending]
      exact ⟨less, rfl⟩
  · exact ⟨left, pending⟩

/-- A statement is skipped no further than to the brace that closes the block around it. -/
theorem skipStatement_ahead (closes : stop.kind = .closeCurly)
    (pending : s.tokens.pending = left ++ stop :: rest) :
    ∃ less, (skipStatement s).2.tokens.pending = less ++ stop :: rest := by
  let skips : TokenKind → Bool := fun kind => kind ≠ .semicolon && !startsStatement kind
  have kept : skips stop.kind = false := by
    rw [closes]
    rfl
  have other : stop.kind ≠ .semicolon := by
    rw [closes]
    nofun
  exact skipIf_ahead (s := (skipWhile skips s).2) other (skipWhile_ahead kept pending)

/-- Balanced tokens are passed in an open block. -/
theorem blockLength_balanced (body : Balanced inside) (openBlocks : Nat) (rest : List Token) :
    blockLength (openBlocks + 1) (inside ++ rest) =
      inside.length + blockLength (openBlocks + 1) rest := by
  induction body generalizing openBlocks rest with
  | nil => simp
  | @token token _ noOpening noClosing _ ih =>
    rw [List.cons_append, blockLength]
    split
    · contradiction
    · contradiction
    · rw [ih, List.length_cons]
      omega
  | @block opening closing inside after opens _ closes _ ihInside ihAfter =>
    have nested : ¬ openBlocks + 1 + 1 ≤ 1 := by omega
    simp only [List.append_assoc, List.cons_append, blockLength, opens, ihInside, closes,
      if_neg nested, Nat.add_sub_cancel, ihAfter, List.length_append, List.length_cons]
    omega

theorem blockLength_block (isBlock : IsBlock block) (rest : List Token) :
    blockLength 0 (block ++ rest) = block.length := by
  cases isBlock with
  | block opens body closes => simp [blockLength, opens, blockLength_balanced body, closes]

theorem skipBlock_pending (isBlock : IsBlock block) (pending : s.tokens.pending = block ++ rest) :
    (skipBlock s).2.tokens.pending = rest := by
  change (Step.advanceTimes (blockLength 0 s.tokens.pending) s).2.tokens.pending = _
  rw [Step.advanceTimes_pending, pending, blockLength_block isBlock, List.drop_left]

theorem beforeBody_of_inHeader {kind : TokenKind} (plain : kind.inHeader = true) :
    beforeBody kind = true ↔ kind ≠ .colon := by
  cases kind <;> simp_all [TokenKind.inHeader, beforeBody]

/-- Recovery goes by the token that ends the header. -/
theorem skipFunction_apply (s : Session) :
    skipFunction s = skipFrom (skipWhile beforeBody s).2.tokens.current.kind (skipWhile beforeBody s).2 :=
  rfl

/-- Where no colon is left of the header, the header and the block are skipped. -/
theorem skipFunction_block (plain : ∀ token ∈ left, token.kind.inHeader = true)
    (noColon : ∀ token ∈ left, token.kind ≠ .colon) (isBlock : IsBlock block)
    (pending : s.tokens.pending = left ++ (block ++ rest)) :
    (skipFunction s).2.tokens.pending = rest := by
  let found := (skipWhile beforeBody s).2
  have ahead : found.tokens.pending = block ++ rest := by
    have passed : ∀ token ∈ left, beforeBody token.kind = true := fun token member =>
      (beforeBody_of_inHeader (plain token member)).mpr (noColon token member)
    rw [skipWhile_pending, pending, List.dropWhile_append_of_pos passed]
    cases isBlock with
    | block opens => exact List.dropWhile_cons_of_neg (by simp [beforeBody, opens])
  have opens : found.tokens.current.kind = .openCurly := by
    rw [TokenStream.current, ahead]
    cases isBlock with
    | block opens => exact opens
  rw [skipFunction_apply, opens]
  exact skipBlock_pending isBlock ahead

/-- At the first colon that is left a statement is skipped, which does not reach the end of the
block. -/
theorem skipFunction_colon (plain : ∀ token ∈ left, token.kind.inHeader = true)
    (colon : ∃ token ∈ left, token.kind = .colon) (isBlock : IsBlock block)
    (pending : s.tokens.pending = left ++ (block ++ rest)) :
    ∃ unread, unread ≠ [] ∧ (skipFunction s).2.tokens.pending = unread ++ rest := by
  let found := (skipWhile beforeBody s).2
  obtain ⟨marker, after, ahead, marks⟩ : ∃ marker after,
      found.tokens.pending = marker :: (after ++ (block ++ rest)) ∧ marker.kind = .colon := by
    rw [skipWhile_pending, pending, List.dropWhile_append]
    cases kept : left.dropWhile fun token => beforeBody token.kind with
    | nil =>
      obtain ⟨token, member, colon⟩ := colon
      have passed := List.dropWhile_eq_nil_iff.mp kept token member
      exact absurd colon ((beforeBody_of_inHeader (plain token member)).mp passed)
    | cons marker after =>
      have ends := List.head?_dropWhile_not (fun token => beforeBody token.kind) left
      have member : marker ∈ left :=
        (List.dropWhile_suffix _).subset (kept ▸ List.mem_cons_self)
      rw [kept, List.head?_cons] at ends
      refine ⟨marker, after, by simp, ?_⟩
      by_contra other
      have passed := (beforeBody_of_inHeader (plain marker member)).mpr other
      exact absurd (passed.symm.trans ends) nofun
  have here : found.tokens.current.kind = .colon := by
    rw [TokenStream.current, ahead]
    exact marks
  rw [skipFunction_apply, here]
  cases isBlock with
  | @block opening closing inside _ _ closes =>
    have advanced : (Step.advance found).2.tokens.pending =
        (after ++ opening :: inside) ++ closing :: rest := by
      rw [Step.advance_apply, TokenStream.advance, ahead]
      simp
    obtain ⟨less, unread⟩ := skipStatement_ahead closes advanced
    exact ⟨less ++ [closing], by simp, unread.trans (by simp)⟩

end Recovery

namespace Declaration

/-- A function whose prototype is broken declares nothing. If no colon of its header is left where
the prototype fails, parsing goes on behind the body; otherwise at least the closing brace of the body
is left as well. -/
theorem parse_brokenPrototype (levels : Nat) {s : Session} {fn : Token}
    {header block rest : List Token} (starts : s.tokens.pending = fn :: (header ++ (block ++ rest)))
    (present : fn.kind = .fn) (plain : ∀ token ∈ header, token.kind.inHeader = true)
    (isBlock : IsBlock block)
    (failed : ((Function.prototype (.ofLevels levels)).attempt (Step.advance s).2).1 = none) :
    let stopped := ((Function.prototype (.ofLevels levels)).attempt (Step.advance s).2).2
    let after := (parse (.ofLevels levels) s).2
    (parse (.ofLevels levels) s).1 = none ∧ s.DeclaresNothing after ∧ s.Restored after ∧
      ∃ left, stopped.tokens.pending = left ++ (block ++ rest) ∧
        ((∀ token ∈ left, token.kind ≠ .colon) → after.tokens.pending = rest) ∧
        ((∃ token ∈ left, token.kind = .colon) →
          ∃ unread, unread ≠ [] ∧ after.tokens.pending = unread ++ rest) := by
  intro stopped after
  have here : s.tokens.current.kind = .fn := by
    rw [TokenStream.current, starts]
    exact present
  have stops : (Function.prototype (.ofLevels levels)).attempt (Step.advance s).2 =
      (none, stopped) := Prod.ext failed rfl
  have recovers : parse (.ofLevels levels) s = (none, (Recovery.skipFunction stopped).2) := by
    have fails (span : Span) :
        (Function.parse (.ofLevels levels) span false).attempt (Step.advance s).2 =
          (none, stopped) := by
      rw [Function.parse, Parse.bind_attempt, stops]
    have attempts : (do
        let start ← Step.advance
        Function.parse (.ofLevels levels) start.span false : Parse ExprId).attempt s =
          (none, stopped) := fails _
    rw [parse, Step.currentKind_bind_apply, here]
    simp only [byKind?]
    rw [Step.bind_apply, attempts]
    rfl
  have result : (parse (.ofLevels levels) s).1 = none := congrArg Prod.fst recovers
  have ends : after = (Recovery.skipFunction stopped).2 := congrArg Prod.snd recovers
  have declared : s.DeclaresNothing after := by
    have sound := Simulation.declaringNothing_sound s
    have parts := Simulation.declaringNothing_grammars s levels
    have started := (sound.step s s ⟨rfl, .refl s⟩).2.2
    have broken := (sound.prototypes parts _ _ ⟨rfl, started⟩).2.2
    exact ends ▸ (sound.recovery .function _ _ ⟨rfl, broken⟩).2.2
  have restored : s.Restored after := by
    rcases parse_declares (Grammar.ofLevels_framed levels) s with same | ⟨var, -⟩
    · exact same
    · rw [here] at var
      cases var
  obtain ⟨left, ahead, plain⟩ : ∃ left, stopped.tokens.pending = left ++ (block ++ rest) ∧
      ∀ token ∈ left, token.kind.inHeader = true := by
    have moves := Function.prototype_shuns (Grammar.typename_shuns levels) (Step.advance s).2
    have begins : (Step.advance s).2.tokens.pending = header ++ (block ++ rest) := by
      rw [Step.advance_apply, TokenStream.advance, starts, List.tail_cons]
    cases isBlock with
    | block opens => exact moves.ahead plain opens begins
  refine ⟨result, declared, restored, left, ahead, fun noColon => ?_, fun colon => ?_⟩
  · exact ends ▸ Recovery.skipFunction_block plain noColon isBlock ahead
  · exact ends ▸ Recovery.skipFunction_colon plain colon isBlock ahead

set_option maxRecDepth 100000 in
/-- Where the colon of a parameter is left, the body is not skipped. -/
example :
    let s := Session.ofSource "fn f(a b: i64) \x7b var x: i64; \x7d fn g();"
    (parse (.ofLevels nestingLimit) s).2.tokens.current.kind = .var := by decide +kernel

set_option maxRecDepth 100000 in
/-- When the type of a parameter turns out to be missing, its colon was read. -/
theorem parse_brokenPrototype_missingType :
    let s := Session.ofSource "fn f(a: ) \x7b \x7b\x7d \x7d var x = 1;"
    let after := (parse (.ofLevels nestingLimit) s).2
    (parse (.ofLevels nestingLimit) s).1 = none ∧ after.tokens.current.kind = .var := by
  intro s after
  let token (index : Nat) := s.tokens.pending.getD index s.tokens.endToken
  let header := (s.tokens.pending.drop 1).take 5
  let block := token 6 :: [token 7, token 8] ++ [token 9]
  let rest := s.tokens.pending.drop 10
  have starts : s.tokens.pending = token 0 :: (header ++ (block ++ rest)) := by decide +kernel
  have inside : Balanced (token 7 :: [] ++ [token 8]) :=
    .block (by decide +kernel) .nil (by decide +kernel) .nil
  have isBlock : IsBlock block := .block (by decide +kernel) inside (by decide +kernel)
  obtain ⟨result, -, -, left, ahead, skipped, -⟩ := parse_brokenPrototype nestingLimit starts
    (by decide +kernel) (by decide +kernel) isBlock (by decide +kernel)
  have stopped : ((Function.prototype (.ofLevels nestingLimit)).attempt
      (Step.advance s).2).2.tokens.pending = [token 5] ++ (block ++ rest) := by decide +kernel
  have ends : after.tokens.pending = rest := by
    refine skipped ?_
    rw [List.append_cancel_right (ahead.symm.trans stopped)]
    decide +kernel
  refine ⟨result, ?_⟩
  rw [TokenStream.current, ends]
  decide +kernel

end Declaration

end ScalarLang
