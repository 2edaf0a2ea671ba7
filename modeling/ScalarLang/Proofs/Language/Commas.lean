import Mathlib.Algebra.Ring.Int.Defs
import ScalarLang.Proofs.Language.Declaration

/-! What the comma after a call makes of the language. Going on with more arguments closes a call
once more than it was opened, so that parentheses tell such words from all others. -/

namespace ScalarLang

def TokenKind.parenthesis : TokenKind → Int
  | openParen => 1
  | closeParen => -1
  | _ => 0

/-- The opening parentheses less the closing ones. -/
def Word.balance (word : Word) : Int := (word.map TokenKind.parenthesis).sum

@[simp] theorem Word.balance_nil : Word.balance [] = 0 := rfl

@[simp] theorem Word.balance_cons (kind : TokenKind) (word : Word) :
    Word.balance (kind :: word) = kind.parenthesis + Word.balance word := by
  simp [Word.balance]

namespace TokenKind

theorem parenthesis_connective {kind : TokenKind} {connective : Connective}
    (isOp : kind.connective? = some connective) : kind.parenthesis = 0 := by
  cases kind <;> first | rfl | cases isOp

theorem parenthesis_leadingOp {kind : TokenKind} (isOp : kind.leadingOp?.isSome) :
    kind.parenthesis = 0 := by
  cases kind <;> first | rfl | cases isOp

theorem parenthesis_trailingOp {kind : TokenKind} (isOp : kind.trailingOp?.isSome) :
    kind.parenthesis = 0 := by
  cases kind <;> first | rfl | cases isOp

end TokenKind

theorem Word.Maybe.balance {kind : TokenKind} {word rest : Word} (maybe : Word.Maybe kind word rest)
    (other : kind.parenthesis = 0) : word.balance = rest.balance := by
  rcases maybe with rfl | rfl
  · rfl
  · rw [balance_cons, other, Int.zero_add]

theorem Word.Closes.balance {word rest : Word} (closes : Word.Closes word rest) :
    word.balance = rest.balance := by
  cases closes with
  | whole =>
    rw [balance_cons]
    exact Int.zero_add _
  | part rest long =>
    unfold TokenStream.afterAngle? at long
    split at long <;> cases long <;> rfl

theorem TypeName.Derives.balance {n : Nat} {goal : Nonterminal} {word rest : Word}
    (derives : Derives n goal word rest) : word.balance = rest.balance := by
  induction derives with
  | scalar const | void const =>
    rw [const.balance rfl]
    simp only [Word.balance_cons, TokenKind.parenthesis]
    omega
  | pointer const _ closes ih =>
    rw [const.balance rfl]
    simp only [Word.balance_cons, TokenKind.parenthesis, ih, closes.balance]
    omega
  | function const _ _ ihTakes ihReturns =>
    rw [const.balance rfl]
    simp only [Word.balance_cons, TokenKind.parenthesis, ihReturns] at ihTakes ⊢
    omega
  | noParams =>
    simp only [Word.balance_cons, TokenKind.parenthesis]
    omega
  | someParams _ ih =>
    simp only [Word.balance_cons, TokenKind.parenthesis] at ih ⊢
    omega
  | last _ ih => exact ih
  | next _ _ ihOne ihOthers =>
    simp only [Word.balance_cons, TokenKind.parenthesis] at ihOne
    omega

/-- As many calls go on after they were closed. Where none does, the derivation is one however
commas are read, unless it was one in which they are separate. -/
structure Resumed (commas : Expression.Commas) (Derivable : Expression.Commas → Prop)
    (count : Int) : Prop where
  nonneg : 0 ≤ count
  none : commas ≠ .resume → count = 0
  common : commas ≠ .separate → count = 0 → ∀ other, Derivable other

namespace Resumed

variable {commas : Expression.Commas} {Part Other Whole : Expression.Commas → Prop}
  {count more total : Int}

theorem zero (whole : ∀ other, Whole other) (same : total = 0) : Resumed commas Whole total :=
  ⟨Int.le_of_eq same.symm, fun _ => same, fun _ _ => whole⟩

theorem map (part : Resumed commas Part count) (whole : ∀ other, Part other → Whole other)
    (same : total = count) : Resumed commas Whole total := by
  subst same
  exact ⟨part.nonneg, part.none, fun read none other => whole other (part.common read none other)⟩

theorem both (part : Resumed commas Part count) (further : Resumed commas Other more)
    (whole : ∀ other, Part other → Other other → Whole other) (same : total = count + more) :
    Resumed commas Whole total := by
  have first := part.nonneg
  have second := further.nonneg
  refine ⟨by omega, fun read => ?_, fun read none other => ?_⟩
  · rw [same, part.none read, further.none read]
    rfl
  · exact whole other (part.common read (by omega) other) (further.common read (by omega) other)

end Resumed

namespace Expression

/-- The closing parentheses of a call belong to its arguments. -/
def Nonterminal.closes : Nonterminal → Int
  | .arguments | .argumentList => 1
  | _ => 0

theorem Derives.resumed {commas : Commas} {n : Nat} {goal : Nonterminal} {word rest : Word}
    (derives : Derives commas n goal word rest) :
    Resumed commas (fun other => Derives other n goal word rest)
      (rest.balance - word.balance - goal.closes) := by
  induction derives with
  | literal =>
    refine .zero (fun _ => .literal) ?_
    simp only [Word.balance_cons, TokenKind.parenthesis, Nonterminal.closes]
    omega
  | «variable» =>
    refine .zero (fun _ => .variable) ?_
    simp only [Word.balance_cons, TokenKind.parenthesis, Nonterminal.closes]
    omega
  | step isOp =>
    refine .zero (fun _ => .step isOp) ?_
    have name : TokenKind.identifier.parenthesis = 0 := rfl
    simp only [Word.balance_cons, name, TokenKind.parenthesis_trailingOp isOp, Nonterminal.closes]
    omega
  | call _ ih =>
    refine ih.map (fun _ => .call) ?_
    simp only [Word.balance_cons, TokenKind.parenthesis, Nonterminal.closes]
    omega
  | group _ ih =>
    refine ih.map (fun _ => .group) ?_
    simp only [Word.balance_cons, TokenKind.parenthesis, Nonterminal.closes]
    omega
  | unary isOp _ ih =>
    refine ih.map (fun _ => .unary isOp) ?_
    simp only [Word.balance_cons, TokenKind.parenthesis_leadingOp isOp, Nonterminal.closes]
    omega
  | noArguments =>
    refine .zero (fun _ => .noArguments) ?_
    simp only [Word.balance_cons, TokenKind.parenthesis, Nonterminal.closes]
    omega
  | someArguments _ ih => exact ih.map (fun _ => .someArguments) rfl
  | @last n word rest one ends ih =>
    -- Only where commas are not separate does the end of the list say what follows.
    have count : Word.balance rest - Word.balance word - Nonterminal.argumentList.closes =
        Word.balance (.closeParen :: rest) - Word.balance word - Nonterminal.expression.closes := by
      simp only [Word.balance_cons, TokenKind.parenthesis, Nonterminal.closes]
      omega
    rw [count]
    refine ⟨ih.nonneg, ih.none, fun read none other => ?_⟩
    exact .last (ih.common read none other) fun _ => ends read
  | next _ _ ihOne ihOthers =>
    refine ihOne.both ihOthers (fun _ => .next) ?_
    simp only [Word.balance_cons, TokenKind.parenthesis, Nonterminal.closes]
    omega
  | resume resuming _ _ ihOne ihOthers =>
    have one := ihOne.nonneg
    have others := ihOthers.nonneg
    simp only [Word.balance_cons, TokenKind.parenthesis, Nonterminal.closes] at one others ⊢
    exact ⟨by omega, fun other => absurd resuming other, fun _ none => by omega⟩
  | expression _ _ ihFirst ihOthers =>
    refine ihFirst.both ihOthers (fun _ => .expression) ?_
    simp only [Nonterminal.closes]
    omega
  | stop =>
    refine .zero (fun _ => .stop) ?_
    simp only [Nonterminal.closes]
    omega
  | conversion isOp levels names _ ih =>
    refine ih.map (fun _ => .conversion isOp levels names) ?_
    simp only [Word.balance_cons, TokenKind.parenthesis_connective isOp, names.balance]
    omega
  | operator isOp other levels _ _ ihOperand ihOthers =>
    refine ihOperand.both ihOthers (fun _ => .operator isOp other levels) ?_
    simp only [Word.balance_cons, TokenKind.parenthesis_connective isOp, Nonterminal.closes]
    omega

end Expression

namespace Resumed

theorem optional (commas : Expression.Commas) (Part : Expression.Commas → Word → Word → Prop)
    {kind : TokenKind} {word rest : Word} (plain : kind.parenthesis = 0)
    (derives : Word.Optional kind (Part commas) word rest)
    (resumed : ∀ {part}, Part commas part rest →
      Resumed commas (fun other => Part other part rest) (rest.balance - part.balance)) :
    Resumed commas (fun other => Word.Optional kind (Part other) word rest)
      (rest.balance - word.balance) := by
  rcases derives with rfl | ⟨part, rfl, derives⟩
  · exact .zero (fun _ => .inl rfl) (Int.sub_self _)
  · refine (resumed derives).map (fun _ further => .inr ⟨part, rfl, further⟩) ?_
    rw [Word.balance_cons, plain, Int.zero_add]

end Resumed

theorem Expression.Derives.resumed_whole {commas : Commas} {n : Nat} {word rest : Word}
    (derives : Derives commas n .expression word rest) :
    Resumed commas (fun other => Derives other n .expression word rest)
      (rest.balance - word.balance) :=
  derives.resumed.map (fun _ whole => whole) (Int.sub_zero _).symm

theorem Statement.Derives.resumed {commas : Expression.Commas} {n : Nat} {goal : Nonterminal}
    {word rest : Word} (derives : Derives commas n goal word rest) :
    Resumed commas (fun other => Derives other n goal word rest)
      (rest.balance - word.balance) := by
  induction derives with
  | declaration _ ih => exact ih.map (fun _ => .declaration) rfl
  | condition _ ih =>
    refine ih.map (fun _ => .condition) ?_
    simp only [Word.balance_cons, TokenKind.parenthesis]
    omega
  | «return» _ ih =>
    refine ih.map (fun _ => .return) ?_
    simp only [Word.balance_cons, TokenKind.parenthesis]
    omega
  | scope _ ih => exact ih.map (fun _ => .scope) rfl
  | expression inside =>
    refine inside.resumed_whole.map (fun _ => .expression) ?_
    simp only [Word.balance_cons, TokenKind.parenthesis]
    omega
  | variableDeclaration typed value =>
    have type := Resumed.optional commas (fun _ => TypeName.Derives _ .typename) rfl typed
      fun derives => .zero (fun _ => derives) (by rw [derives.balance, Int.sub_self])
    have init := Resumed.optional commas (fun commas => Expression.Derives commas _ .expression) rfl
      value Expression.Derives.resumed_whole
    refine type.both init (fun _ => .variableDeclaration) ?_
    simp only [Word.balance_cons, TokenKind.parenthesis]
    omega
  | noValue => exact .zero (fun _ => .noValue) (Int.sub_self _)
  | value inside => exact inside.resumed_whole.map (fun _ => .value) rfl
  | block _ ih =>
    refine ih.map (fun _ => .block) ?_
    simp only [Word.balance_cons, TokenKind.parenthesis]
    omega
  | closed =>
    refine .zero (fun _ => .closed) ?_
    simp only [Word.balance_cons, TokenKind.parenthesis]
    omega
  | next _ _ ihOne ihOthers => exact ihOne.both ihOthers (fun _ => .next) (by omega)
  | braces _ ih => exact ih.map (fun _ => .braces) rfl
  | colon _ ih =>
    refine ih.map (fun _ => .colon) ?_
    simp only [Word.balance_cons, TokenKind.parenthesis]
    omega
  | elif _ ih =>
    refine ih.map (fun _ => .elif) ?_
    simp only [Word.balance_cons, TokenKind.parenthesis]
    omega
  | «else» _ ih =>
    refine ih.map (fun _ => .else) ?_
    simp only [Word.balance_cons, TokenKind.parenthesis]
    omega
  | noBranch noElif noElse => exact .zero (fun _ => .noBranch noElif noElse) (Int.sub_self _)
  | branches asks _ _ ihInside ihOthers =>
    refine asks.resumed_whole.both (ihInside.both ihOthers (fun _ => And.intro) rfl) ?_ ?_
    · exact fun _ asks rest => .branches asks rest.1 rest.2
    · omega

namespace Function

def Nonterminal.closes : Nonterminal → Int
  | .params => 1
  | _ => 0

theorem Derives.resumed {commas : Expression.Commas} {n : Nat} {goal : Nonterminal}
    {word rest : Word} (derives : Derives commas n goal word rest) :
    Resumed commas (fun other => Derives other n goal word rest)
      (rest.balance - word.balance - goal.closes) := by
  induction derives with
  | parameter typed =>
    refine .zero (fun _ => .parameter typed) ?_
    simp only [Word.balance_cons, TokenKind.parenthesis, Nonterminal.closes, typed.balance]
    omega
  | last _ ih => exact ih.map (fun _ => .last) rfl
  | next _ _ ihOne ihOthers =>
    refine ihOne.both ihOthers (fun _ => .next) ?_
    simp only [Word.balance_cons, TokenKind.parenthesis, Nonterminal.closes]
    omega
  | noParams =>
    refine .zero (fun _ => .noParams) ?_
    simp only [Word.balance_cons, TokenKind.parenthesis, Nonterminal.closes]
    omega
  | someParams _ ih =>
    refine ih.map (fun _ => .someParams) ?_
    simp only [Word.balance_cons, TokenKind.parenthesis, Nonterminal.closes]
    omega
  | result names =>
    refine .zero (fun _ => .result names) ?_
    simp only [Word.balance_cons, TokenKind.parenthesis, Nonterminal.closes, names.balance]
    omega
  | noResult =>
    refine .zero (fun _ => .noResult) ?_
    simp only [Nonterminal.closes]
    omega
  | prototype _ _ ihTakes ihGives =>
    refine ihTakes.both ihGives (fun _ => .prototype) ?_
    simp only [Word.balance_cons, TokenKind.parenthesis, Nonterminal.closes]
    omega
  | declared _ ih =>
    refine ih.map (fun _ => .declared) ?_
    simp only [Word.balance_cons, TokenKind.parenthesis, Nonterminal.closes]
    omega
  | defined _ inside ih =>
    refine ih.both inside.resumed (fun _ => .defined) ?_
    simp only [Nonterminal.closes]
    omega

end Function

namespace Declaration

variable {commas : Expression.Commas} {n : Nat} {word rest : Word}

theorem Derives.resumed (derives : Derives commas n word rest) :
    Resumed commas (fun other => Derives other n word rest) (rest.balance - word.balance) := by
  cases derives with
  | variableDeclaration inside => exact inside.resumed.map (fun _ => .variableDeclaration) rfl
  | function inside =>
    refine inside.resumed.map (fun _ => .function) ?_
    simp only [Word.balance_cons, TokenKind.parenthesis, Function.Nonterminal.closes]
    omega
  | external inside =>
    refine inside.resumed.map (fun _ => .external) ?_
    simp only [Word.balance_cons, TokenKind.parenthesis, Function.Nonterminal.closes]
    omega

theorem Program.resumed (derives : Program commas n word) :
    Resumed commas (fun other => Program other n word) (-word.balance) := by
  induction derives with
  | none => exact .zero (fun _ => .none) rfl
  | next one _ ih => exact one.resumed.both ih (fun _ => .next) (by omega)

/-- A word that is read with further arguments after a call was closed is as the grammar has it
just where its parentheses match. -/
theorem Program.separate_iff (derives : Program .resume n word) :
    Program .separate n word ↔ word.balance = 0 := by
  constructor
  · intro separate
    have none := separate.resumed.none nofun
    omega
  · intro balanced
    exact derives.resumed.common nofun (by omega) .separate

/-- A word as the grammar has it is read just where no call stands directly before a comma. -/
theorem Program.resume_iff (derives : Program .separate n word) :
    Program .resume n word ↔ Program .avoid n word := by
  have none := derives.resumed.none nofun
  constructor
  · intro resume
    exact resume.resumed.common nofun none .avoid
  · intro avoid
    exact avoid.resumed.common nofun none .resume

end Declaration

end ScalarLang
