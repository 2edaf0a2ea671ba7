import ScalarLang.Proofs.Parser.Moves
import ScalarLang.Proofs.Scope.Frame
import ScalarLang.Proofs.Simulation.Basic

/-! The header of a function is read without consuming a brace. Wherever a prototype fails, the block
that follows is still ahead. -/

namespace ScalarLang

variable {α β : Type}

/-- Kinds that can stand before the body of a function and do not end its header. -/
def TokenKind.inHeader : TokenKind → Bool
  | .openCurly | .closeCurly | .semicolon | .eof => false
  | _ => true

namespace TokenStream

def HeaderMove (tokens after : TokenStream) : Prop :=
  tokens.Move after ∧ tokens.current.kind.inHeader = true

abbrev HeaderMoves : TokenStream → TokenStream → Prop := Relation.ReflTransGen HeaderMove

variable {tokens after : TokenStream} {header block : List Token} {opening : Token}

/-- What is left of a token without its angle can stand in a header as well. -/
theorem afterAngle?_inHeader {long short : TokenKind} {lexeme : String}
    (found : afterAngle? long = some (short, lexeme)) :
    long.inHeader = true ∧ short.inHeader = true := by
  unfold afterAngle? at found
  split at found <;> cases found <;> exact ⟨rfl, rfl⟩

theorem HeaderMove.ahead (move : tokens.HeaderMove after)
    (plain : ∀ token ∈ header, token.kind.inHeader = true) (opens : opening.kind = .openCurly)
    (pending : tokens.pending = header ++ opening :: block) :
    ∃ left, after.pending = left ++ opening :: block ∧
      ∀ token ∈ left, token.kind.inHeader = true := by
  obtain ⟨move, inHeader⟩ := move
  cases header with
  | nil =>
    rw [current, pending, List.nil_append, List.headD_cons, opens] at inHeader
    cases inHeader
  | cons token rest =>
    have plainRest := (List.forall_mem_cons.mp plain).2
    have tail : tokens.pending.tail = rest ++ opening :: block := by
      rw [pending, List.cons_append, List.tail_cons]
    cases move with
    | consume => exact ⟨rest, tail, plainRest⟩
    | @split kind lexeme long =>
      refine ⟨shorten tokens.current kind lexeme :: rest, ?_, ?_⟩
      · rw [replaceCurrent, tail, List.cons_append]
      · exact List.forall_mem_cons.mpr ⟨(afterAngle?_inHeader long).2, plainRest⟩

/-- A block that is ahead stays ahead, with what is left of the header before it. -/
theorem HeaderMoves.ahead (moves : tokens.HeaderMoves after)
    (plain : ∀ token ∈ header, token.kind.inHeader = true) (opens : opening.kind = .openCurly)
    (pending : tokens.pending = header ++ opening :: block) :
    ∃ left, after.pending = left ++ opening :: block ∧
      ∀ token ∈ left, token.kind.inHeader = true := by
  induction moves with
  | refl => exact ⟨header, pending, plain⟩
  | tail _ move ih =>
    obtain ⟨left, pending, plain⟩ := ih
    exact move.ahead plain opens pending

end TokenStream

/-- From the session on a parse consumes only what can stand in a header, also when it fails. -/
def Parse.Shuns (s : Session) (parse : Parse α) : Prop :=
  s.tokens.HeaderMoves (parse.attempt s).2.tokens

namespace Parse.Shuns

variable {s : Session} {parse : Parse α} {next : α → Parse β}

theorem pure (x : α) : Shuns s (Pure.pure x : Parse α) := .refl

theorem failure : Shuns s (failure : Parse α) := .refl

theorem check (check : Check α) : Shuns s (liftM check) := .refl

theorem fail (problem : Problem) (span : Span) : Shuns s (Parse.fail problem span : Parse α) := .refl

theorem bind (first : Shuns s parse) (rest : ∀ x t, Shuns t (next x)) :
    Shuns s (parse >>= next) := by
  unfold Shuns at *
  rw [bind_attempt]
  cases found : parse.attempt s with
  | mk result t =>
    rw [found] at first
    cases result with
    | none => exact first
    | some x => exact first.trans (rest x t)

theorem discard (shuns : Shuns s parse) : Shuns s (discard parse) := bind shuns fun _ _ => pure ()

theorem look {step : Step α} {next : α → Parse β} (sees : (step s).2 = s)
    (rest : Shuns s (next (step s).1)) : Shuns s ((liftM step : Parse α) >>= next) := by
  unfold Shuns at *
  change s.tokens.HeaderMoves ((next (step s).1).attempt (step s).2).2.tokens
  rwa [sees]

theorem advance (inHeader : s.tokens.current.kind.inHeader = true) :
    Shuns s (liftM Step.advance : Parse Token) := by
  have more : s.tokens.current.kind ≠ .eof := by
    intro ended
    rw [ended] at inHeader
    cases inHeader
  change s.tokens.HeaderMoves (Step.advance s).2.tokens
  rw [Step.advance_apply]
  exact .single ⟨.consume more, inHeader⟩

/-- Of a kind that can stand in a header. -/
theorem advanceAt {kind : TokenKind} (here : s.tokens.current.kind = kind)
    (inHeader : kind.inHeader = true) : Shuns s (liftM Step.advance : Parse Token) :=
  advance (here ▸ inHeader)

theorem accept {kind : TokenKind} (inHeader : kind.inHeader = true) :
    Shuns s (liftM (Step.accept kind) : Parse Bool) := by
  change s.tokens.HeaderMoves (Step.accept kind s).2.tokens
  rw [Step.accept_apply]
  split
  · rename_i here
    exact advanceAt here inHeader
  · exact .refl

theorem expect {kind : TokenKind} (inHeader : kind.inHeader = true) (expected : String) :
    Shuns s (Parse.expect kind expected) := by
  refine look rfl ?_
  split
  · rename_i here
    exact advanceAt here inHeader
  · split
    · rename_i wrong
      exact bind (discard (advanceAt wrong rfl)) fun _ _ => failure
    · exact fail _ _

theorem closeAngle : Shuns s Parse.closeAngle := by
  unfold Shuns
  rw [Parse.closeAngle_apply]
  split
  · rename_i long
    exact .single ⟨.split long, (TokenStream.afterAngle?_inHeader long).1⟩
  · exact discard (expect rfl _)

theorem deeper (inside : Shuns s.enter parse) : Shuns s parse.deeper := inside

theorem commaList {item : List α → Parse α} (each : ∀ before t, Shuns t (item before))
    (before : List α) (fuel : Nat) : Shuns s (Parse.commaList item before fuel) := by
  induction fuel generalizing before s with
  | zero => exact bind (each _ _) fun _ _ => pure _
  | succ fuel ih =>
    refine bind (each _ _) fun x t => bind (accept rfl) fun taken u => ?_
    split
    · exact ih _
    · exact pure _

end Parse.Shuns

open Parse.Shuns

namespace TypeName

variable {typename : Parse TypeId} (shuns : ∀ s, Parse.Shuns s typename) {s : Session}

include shuns

theorem pointer_shuns (name : s.tokens.current.kind = .ptr) (isConst : Bool) :
    Parse.Shuns s (pointer typename isConst) := by
  refine bind (discard (advanceAt name rfl)) fun _ _ => ?_
  refine bind (discard (expect rfl _)) fun _ _ => bind (shuns _) fun _ _ => ?_
  exact bind closeAngle fun _ _ => check _

theorem params_shuns (s : Session) : Parse.Shuns s (params typename) := by
  refine bind (discard (expect rfl _)) fun _ t => bind (accept rfl) fun closed u => ?_
  split
  · exact pure _
  · refine look rfl (bind (commaList (fun _ => shuns) [] _) fun _ _ => ?_)
    exact bind (discard (expect rfl _)) fun _ _ => pure _

theorem function_shuns (name : s.tokens.current.kind = .fn) :
    Parse.Shuns s (function typename) := by
  refine bind (discard (advanceAt name rfl)) fun _ _ => ?_
  refine bind (params_shuns shuns _) fun _ _ => bind (discard (expect rfl _)) fun _ _ => ?_
  exact bind (shuns _) fun _ _ => check _

theorem parse_shuns (s : Session) : Parse.Shuns s (parse typename) := by
  refine bind (accept rfl) fun isConst t => look rfl ?_
  split
  · rename_i name
    exact bind (discard (advanceAt name rfl)) fun _ _ => check _
  · rename_i name
    exact bind (discard (advanceAt name rfl)) fun _ _ => check _
  · rename_i name
    exact pointer_shuns shuns name _
  · rename_i name
    exact function_shuns shuns name
  · rename_i wrong
    exact bind (discard (advanceAt wrong rfl)) fun _ _ => failure
  · exact fail _ _

end TypeName

theorem Grammar.typename_shuns (levels : Nat) (s : Session) :
    Parse.Shuns s (Grammar.ofLevels levels).typename := by
  induction levels generalizing s with
  | zero => exact look rfl (fail _ _)
  | succ levels ih => exact deeper (TypeName.parse_shuns ih _)

namespace Function

variable {grammar : Grammar} (shuns : ∀ s, Parse.Shuns s grammar.typename)

include shuns

theorem parameter_shuns (before : List Local) (s : Session) :
    Parse.Shuns s (parameter grammar before) :=
  bind (expect rfl _) fun _ _ => bind (discard (expect rfl _)) fun _ _ =>
    bind (shuns _) fun _ _ => check _

theorem params_shuns (s : Session) : Parse.Shuns s (params grammar) := by
  refine bind (accept rfl) fun closed t => ?_
  split
  · exact pure _
  · refine look rfl (bind (commaList (parameter_shuns shuns) [] _) fun _ _ => ?_)
    exact bind (discard (expect rfl _)) fun _ _ => pure _

theorem result_shuns (s : Session) : Parse.Shuns s (result grammar) := by
  refine bind (accept rfl) fun written t => ?_
  split
  · exact shuns _
  · exact check _

theorem prototype_shuns (s : Session) : Parse.Shuns s (prototype grammar) :=
  bind (expect rfl _) fun _ _ => bind (discard (expect rfl _)) fun _ _ =>
    bind (params_shuns shuns _) fun _ _ => bind (result_shuns shuns _) fun _ _ => check _

end Function

end ScalarLang
