import ScalarLang.Proofs.Simulation.Productions

/-! No production looks at more than the kinds of the tokens: names, values and types have no
influence on what is consumed. -/

namespace ScalarLang

/-- The productions of a grammar go by the kinds of the tokens alone. -/
structure Grammar.Blind (grammar : Grammar) : Prop where
  typename : Parse.Blind grammar.typename grammar.typename
  binary : ∀ limit, Parse.Blind (grammar.binary limit) (grammar.binary limit)
  primary : Parse.Blind grammar.primary grammar.primary
  statement : Parse.Blind grammar.statement grammar.statement
  condition : ∀ start other, Parse.Blind (grammar.condition start) (grammar.condition other)

namespace Simulation

/-- Sessions correspond when their tokens have the same kinds, whatever else is known. -/
def kinds : Simulation where
  session s t := s.tokens.Alike t.tokens
  token x y := x.kind = y.kind
  span _ _ := True
  type _ _ := True
  expr _ _ := True
  param _ _ := True
  prototype p q := List.Forall₂ (fun _ _ => True) p.params q.params

/-- Semantic actions see no token. -/
theorem kinds_checks {α β : Type} (first : Check α) (second : Check β) :
    kinds.Checks (fun _ _ => True) first second :=
  fun _ _ alike => ⟨trivial, alike⟩

theorem kinds_sound : kinds.Sound where
  alike same := same
  kind same := same
  tokenSpan _ := trivial
  through _ _ := trivial
  current alike := alike.current
  previous _ := trivial
  place _ _ := trivial
  advance {s t} alike := by
    simp only [Step.advance_apply]
    exact alike.advance
  split alike _ := alike.replaceCurrent rfl
  openScope alike := alike
  closeScope _ alike := alike
  enterFunction alike _ := alike
  leaveFunction _ alike := alike
  list _ := by
    intro s t alike
    rw [Session.addToProgram_apply, Session.addToProgram_apply]
    exact ⟨trivial, alike⟩
  complain _ _ _ _ _ _ _ := kinds_checks _ _
  scalarType _ _ := kinds_checks _ _
  voidType := kinds_checks _ _
  pointerType _ _ _ _ := kinds_checks _ _
  functionType _ _ := kinds_checks _ _
  errorExpr _ := kinds_checks _ _
  literal _ _ _ := kinds_checks _ _
  read _ _ := kinds_checks _ _
  unary _ _ _ _ _ _ _ := kinds_checks _ _
  call _ _ _ _ := kinds_checks _ _
  cast _ _ _ := kinds_checks _ _
  assignment _ _ _ _ _ _ _ := kinds_checks _ _
  binary _ _ _ _ _ _ _ _ _ _ := kinds_checks _ _
  used _ := kinds_checks _ _
  condition _ := kinds_checks _ _
  branches _ _ _ _ := kinds_checks _ _
  block _ _ := kinds_checks _ _
  returned _ _ _ := kinds_checks _ _
  declare _ _ _ _ := kinds_checks _ _
  parameter _ _ _ := kinds_checks _ _
  makePrototype _ params _ := fun _ _ alike => ⟨params, alike⟩
  params related := related
  addParameters _ := kinds_checks _ _
  function _ _ _ _ _ _ _ := kinds_checks _ _
  complete _ _ _ _ := kinds_checks _ _

end Simulation

namespace Grammar

open Simulation

theorem Blind.parts {grammar : Grammar} (blind : grammar.Blind) : kinds.Grammars grammar grammar where
  typename := blind.typename
  binary := blind.binary
  primary := blind.primary
  statement := blind.statement
  condition _ := blind.condition _ _

/-- Every level of the grammar goes by the kinds alone. -/
theorem ofLevels_blind (n : Nat) : (ofLevels n).Blind := by
  have parts := kinds_sound.levels ⟨fun alike => alike, fun alike => alike⟩ n
  exact
    { typename := parts.typename
      binary := parts.binary
      primary := parts.primary
      statement := parts.statement
      condition := fun _ _ => parts.condition trivial }

end Grammar

variable {grammar : Grammar} (blind : grammar.Blind)

include blind

/-- A declaration is read or refused by the kinds of its tokens. -/
theorem Declaration.parse_blind :
    Step.Lockstep (Option.Rel fun _ _ => True) (parse grammar) (parse grammar) :=
  Simulation.kinds_sound.declaration blind.parts

theorem Session.readDeclarations_blind (fuel : Nat) :
    Step.Blind (readDeclarations grammar fuel) (readDeclarations grammar fuel) :=
  Simulation.kinds_sound.readDeclarations blind.parts fuel

end ScalarLang
