import ScalarLang.Proofs.Angles.Closers
import ScalarLang.Proofs.Simulation.Basic
import ScalarLang.Proofs.Token.Lexeme

/-! Two lists of tokens for one run of angles. Each closing angle makes both shorter by one
character, until the same tokens are left of both. -/

namespace ScalarLang

namespace TokenKind

def startsAngle : TokenKind → Bool
  | .greater | .greaterEquals | .rightShift | .rightShiftEquals => true
  | _ => false

/-- How many tokens the closing of angles can make of one. -/
def weight : TokenKind → Nat
  | .greaterEquals | .rightShift => 2
  | .rightShiftEquals => 3
  | _ => 1

end TokenKind

namespace TokenStream

/-- Takes the angle off the first token: the span that is the previous one then, and what is
pending. -/
def closed? : List Token → Option (Span × List Token)
  | [] => none
  | token :: rest =>
    match afterAngle? token.kind with
    | some (kind, lexeme) =>
      let left := shorten token kind lexeme
      some (left.span, left :: rest)
    | none => if token.kind = .greater then some (token.span, rest) else none

def weigh : List Token → Nat
  | [] => 0
  | token :: rest => token.kind.weight + weigh rest

theorem weigh_append (front back : List Token) : weigh (front ++ back) = weigh front + weigh back := by
  induction front with
  | nil => simp [weigh]
  | cons token front ih => rw [List.cons_append, weigh, weigh, ih, Nat.add_assoc]

theorem weigh_report {tokens others : List Token}
    (same : tokens.map Token.report = others.map Token.report) : weigh tokens = weigh others := by
  induction tokens generalizing others with
  | nil => rw [List.map_eq_nil_iff.mp same.symm]
  | cons token tokens ih =>
    obtain ⟨other, others, rfl, alike, rest⟩ := List.map_eq_cons_iff.mp same.symm
    have kinds : token.kind = other.kind := congrArg (fun report => report.1.1) alike.symm
    rw [weigh, weigh, ih rest.symm, kinds]

variable {tokens left : List Token} {span : Span}

theorem afterAngle?_startsAngle {kind short : TokenKind} {lexeme : String}
    (found : afterAngle? kind = some (short, lexeme)) :
    kind.startsAngle = true ∧ kind.weight = short.weight + 1 := by
  unfold afterAngle? at found
  split at found <;> cases found <;> exact ⟨rfl, rfl⟩

/-- The first token is split, or it is the angle alone. -/
theorem closed?_cons {token : Token} {rest : List Token}
    (closes : closed? (token :: rest) = some (span, left)) :
    (∃ kind lexeme, afterAngle? token.kind = some (kind, lexeme) ∧
        span = (shorten token kind lexeme).span ∧ left = shorten token kind lexeme :: rest) ∨
      afterAngle? token.kind = none ∧ token.kind = .greater ∧ span = token.span ∧ left = rest := by
  simp only [closed?] at closes
  split at closes
  · rename_i kind lexeme found
    cases closes
    exact .inl ⟨kind, lexeme, found, rfl, rfl⟩
  · rename_i whole
    split at closes
    · rename_i greater
      cases closes
      exact .inr ⟨whole, greater, rfl, rfl⟩
    · cases closes

theorem closed?_head (closes : closed? tokens = some (span, left)) :
    ∃ token rest, tokens = token :: rest ∧ token.kind.startsAngle = true := by
  cases tokens with
  | nil => cases closes
  | cons token rest =>
    refine ⟨token, rest, rfl, ?_⟩
    obtain ⟨kind, lexeme, found, -⟩ | ⟨-, greater, -⟩ := closed?_cons closes
    · exact (afterAngle?_startsAngle found).1
    · rw [greater]
      rfl

theorem closed?_weigh (closes : closed? tokens = some (span, left)) :
    weigh tokens = weigh left + 1 := by
  cases tokens with
  | nil => cases closes
  | cons token rest =>
    obtain ⟨kind, lexeme, found, -, rfl⟩ | ⟨-, greater, -, rfl⟩ := closed?_cons closes
    · have heavier := (afterAngle?_startsAngle found).2
      have shorter : (shorten token kind lexeme).kind = kind := rfl
      rw [weigh, weigh, heavier, shorter]
      omega
    · rw [weigh, greater, Nat.add_comm]
      rfl

end TokenStream

open TokenStream (closed? weigh)

/-- Closing one angle after another, two lists of tokens come to the target. The places are those
of the angles of the first list, with nothing else of it there. -/
inductive Rejoins (target : List Token) (previous : Span) :
    List Position → List Token → List Token → Prop
  | here {place first second others span}
      (alone : ∀ token ∈ first.tail, place ∉ token.angles)
      (closes : closed? first = some (previous, target))
      (closesOther : closed? second = some (span, others))
      (same : others.map Token.report = target.map Token.report) :
      Rejoins target previous [place] first second
  | later {place places first second tokens others span other}
      (alone : ∀ token ∈ first.tail, place ∉ token.angles)
      (closes : closed? first = some (span, tokens))
      (closesOther : closed? second = some (other, others))
      (apart : ∀ token ∈ first.head?, ∀ place ∈ places, token.angles.head? ≠ some place)
      (rest : Rejoins target previous places tokens others) :
      Rejoins target previous (place :: places) first second

namespace Rejoins

variable {target first second : List Token} {previous : Span} {places : List Position}

theorem heads (rejoins : Rejoins target previous places first second) :
    (∃ token rest, first = token :: rest ∧ token.kind.startsAngle = true) ∧
      ∃ token rest, second = token :: rest ∧ token.kind.startsAngle = true := by
  cases rejoins with
  | here _ closes closesOther => exact ⟨TokenStream.closed?_head closes, TokenStream.closed?_head closesOther⟩
  | later _ closes closesOther => exact ⟨TokenStream.closed?_head closes, TokenStream.closed?_head closesOther⟩

/-- There is a place at which nothing but the first token is. -/
theorem alone (rejoins : Rejoins target previous places first second) :
    ∃ place ∈ places, ∀ token ∈ first.tail, place ∉ token.angles := by
  cases rejoins with
  | here alone => exact ⟨_, List.mem_cons_self, alone⟩
  | later alone => exact ⟨_, List.mem_cons_self, alone⟩

theorem weigh_lt (rejoins : Rejoins target previous places first second) :
    weigh target < weigh second := by
  induction rejoins with
  | here _ _ closesOther same =>
    have lighter := TokenStream.closed?_weigh closesOther
    rw [TokenStream.weigh_report same] at lighter
    omega
  | later _ _ closesOther _ _ ih =>
    have lighter := TokenStream.closed?_weigh closesOther
    omega

end Rejoins

/-- Closes like `closeAngle`. Where it comes to the target, the spans are those of the target
then. -/
def Parse.closeInto (target : List Token) (previous : Span) : Parse Unit := do
  closeAngle
  modify fun s =>
    if s.tokens.pending.map Token.report = target.map Token.report then
      { s with tokens := { s.tokens with pending := target, previous } }
    else s

end ScalarLang
