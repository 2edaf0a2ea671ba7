import ScalarLang.Proofs.Token.Scan
import Mathlib.Logic.Relation

/-! The two ways in which a parse moves through the tokens: it consumes the current token, which is
never the end token, or it takes the closing angle off the current token. -/

namespace ScalarLang.TokenStream

inductive Move (tokens : TokenStream) : TokenStream → Prop
  | consume (more : tokens.current.kind ≠ .eof) : Move tokens tokens.advance
  | split {kind : TokenKind} {lexeme : String}
      (long : afterAngle? tokens.current.kind = some (kind, lexeme)) :
      Move tokens (tokens.replaceCurrent (shorten tokens.current kind lexeme))

abbrev Moves : TokenStream → TokenStream → Prop := Relation.ReflTransGen Move

/-- A token that is split is an operator, and so is what is left of it. -/
theorem afterAngle?_operators {long short : TokenKind} {lexeme : String}
    (found : afterAngle? long = some (short, lexeme)) :
    long ≠ .eof ∧ long ≠ .error ∧ short ≠ .eof ∧ short ≠ .error := by
  unfold afterAngle? at found
  split at found <;> cases found <;> decide

variable {tokens after : TokenStream}

theorem Formed.head_notLast (formed : tokens.Formed) (more : tokens.current.kind ≠ .eof) :
    ∃ rest, tokens.pending = tokens.current :: rest := by
  cases pending : tokens.pending with
  | nil => exact absurd (formed.current_eof_iff.mpr pending) more
  | cons token rest => exact ⟨rest, by simp [current, pending]⟩

theorem Move.more (move : tokens.Move after) : tokens.current.kind ≠ .eof := by
  cases move with
  | consume more => exact more
  | split long => exact (afterAngle?_operators long).1

theorem Move.formed (move : tokens.Move after) (formed : tokens.Formed) : after.Formed := by
  cases move with
  | consume =>
    exact ⟨formed.last, formed.lastMarked,
      fun token member => formed.notLast token (List.mem_of_mem_tail member),
      fun token member => formed.marked token (List.mem_of_mem_tail member)⟩
  | split long =>
    obtain ⟨-, notError, shortNotLast, shortNotError⟩ := afterAngle?_operators long
    have unfaulted : tokens.current.fault.isSome = false := by
      have marked := formed.current_marked
      simpa [Token.Marked, notError] using marked
    refine ⟨formed.last, formed.lastMarked, fun token member => ?_, fun token member => ?_⟩
    · rcases List.mem_cons.mp member with rfl | member
      · exact shortNotLast
      · exact formed.notLast token (List.mem_of_mem_tail member)
    · rcases List.mem_cons.mp member with rfl | member
      · simp [Token.Marked, shorten, unfaulted, shortNotError]
      · exact formed.marked token (List.mem_of_mem_tail member)

/-- What is consumed and what is pending make up the whole, a token that is split counting once. -/
theorem Move.total (move : tokens.Move after) (formed : tokens.Formed) :
    after.consumed + after.pending.length = tokens.consumed + tokens.pending.length := by
  obtain ⟨rest, pending⟩ := formed.head_notLast move.more
  cases move with
  | consume =>
    simp only [advance, pending, List.tail_cons, List.length_cons]
    omega
  | split => simp [replaceCurrent, pending]

theorem Move.consumed_le (move : tokens.Move after) : tokens.consumed ≤ after.consumed := by
  cases move with
  | consume => exact Nat.le_succ _
  | split => exact Nat.le_refl _

theorem Moves.formed (moves : tokens.Moves after) (formed : tokens.Formed) : after.Formed := by
  induction moves with
  | refl => exact formed
  | tail _ move ih => exact move.formed ih

theorem Moves.total (moves : tokens.Moves after) (formed : tokens.Formed) :
    after.consumed + after.pending.length = tokens.consumed + tokens.pending.length := by
  induction moves with
  | refl => rfl
  | tail earlier move ih => exact (move.total (Moves.formed earlier formed)).trans ih

theorem Moves.consumed_le (moves : tokens.Moves after) : tokens.consumed ≤ after.consumed := by
  induction moves with
  | refl => exact Nat.le_refl _
  | tail _ move ih => exact Nat.le_trans ih move.consumed_le

theorem Moves.pending_le (moves : tokens.Moves after) (formed : tokens.Formed) :
    after.pending.length ≤ tokens.pending.length := by
  have total := moves.total formed
  have consumed := moves.consumed_le
  omega

end ScalarLang.TokenStream
