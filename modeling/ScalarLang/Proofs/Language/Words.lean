import ScalarLang.Proofs.Parser.Place

/-! Words of token kinds. The language of programs is about kinds alone: a derivation says how a
word begins, and gives the rest of it. -/

namespace ScalarLang

abbrev Word := List TokenKind

namespace Word

def next (word : Word) : TokenKind := word.headD .eof

def Maybe (kind : TokenKind) (word rest : Word) : Prop := word = rest ∨ word = kind :: rest

/-- A part that a token of the kind introduces may stand in front of the rest. -/
def Optional (kind : TokenKind) (Part : Word → Word → Prop) (word rest : Word) : Prop :=
  word = rest ∨ ∃ part, word = kind :: part ∧ Part part rest

/-- The angle that closes a pointer type, alone or at the start of a longer token. -/
inductive Closes : Word → Word → Prop
  | whole (rest : Word) : Closes (.greater :: rest) rest
  | part {kind short : TokenKind} {lexeme : String} (rest : Word)
      (long : TokenStream.afterAngle? kind = some (short, lexeme)) :
      Closes (kind :: rest) (short :: rest)

end Word

namespace TokenStream

def word (tokens : TokenStream) : Word := tokens.pending.map Token.kind

def Clear (tokens : TokenStream) : Prop := ∀ token ∈ tokens.pending, token.kind ≠ .error

theorem Moves.clear {tokens after : TokenStream} (moves : tokens.Moves after)
    (clear : tokens.Clear) : after.Clear := by
  induction moves with
  | refl => exact clear
  | tail _ move ih =>
    cases move with
    | consume => exact fun token member => ih token (List.mem_of_mem_tail member)
    | split long =>
      intro token member
      rcases List.mem_cons.mp member with rfl | member
      · exact (afterAngle?_operators long).2.2.2
      · exact ih token (List.mem_of_mem_tail member)

end TokenStream

namespace Place

variable {a b : Place} {kind : TokenKind} {token : Token} {rest : Word}

def word (place : Place) : Word := place.tokens.word

structure Sound (place : Place) : Prop where
  formed : place.tokens.Formed
  clear : place.tokens.Clear

theorem Leads.sound (leads : a.Leads b) (sound : a.Sound) : b.Sound :=
  ⟨leads.formed sound.formed, leads.moves.clear sound.clear⟩

theorem next_word (formed : a.tokens.Formed) : a.word.next = a.kind := by
  cases pending : a.tokens.pending with
  | nil => simp [word, TokenStream.word, Word.next, kind, TokenStream.current, pending, formed.last]
  | cons token rest =>
    simp [word, TokenStream.word, Word.next, kind, TokenStream.current, pending]

theorem kind_of_word (formed : a.tokens.Formed) (same : a.word = kind :: rest) :
    a.kind = kind := by
  rw [← next_word formed, same]
  rfl

theorem Takes.word (takes : a.Takes kind token b) (formed : a.tokens.Formed)
    (notLast : kind ≠ .eof) : a.word = kind :: b.word := by
  have more : a.kind ≠ .eof := takes.present ▸ notLast
  obtain ⟨rest, pending⟩ := formed.head_notLast more
  have present : a.tokens.current.kind = kind := takes.present
  rw [takes.after]
  simp only [Place.word, TokenStream.word, TokenStream.advance, pending, List.tail_cons,
    List.map_cons, present]

theorem Does.word {α : Type} {rigor : Rigor} {check : Check α} {x : α}
    (does : a.Does rigor check x b) : b.word = a.word :=
  congrArg TokenStream.word does.tokens

theorem MayTake.word {taken : Bool} (takes : a.MayTake kind taken b) (formed : a.tokens.Formed)
    (notLast : kind ≠ .eof) : Word.Maybe kind a.word b.word := by
  cases takes with
  | taken takes => exact .inr (takes.word formed notLast)
  | left => exact .inl rfl

theorem splitAngle_word (short : TokenKind) (lexeme : String) (formed : a.tokens.Formed)
    (more : a.kind ≠ .eof) : ∃ rest, a.word = a.kind :: rest ∧
      (a.splitAngle short lexeme).word = short :: rest := by
  obtain ⟨rest, pending⟩ := formed.head_notLast more
  refine ⟨rest.map Token.kind, ?_, ?_⟩
  · simp [word, TokenStream.word, pending, kind]
  · simp [word, TokenStream.word, splitAngle, TokenStream.replaceCurrent, TokenStream.shorten,
      pending]

theorem Closes.word (closes : a.Closes b) (formed : a.tokens.Formed) :
    Word.Closes a.word b.word := by
  cases closes with
  | whole takes => exact takes.word formed nofun ▸ .whole _
  | @part short lexeme long =>
    obtain ⟨rest, before, after⟩ :=
      splitAngle_word short lexeme formed (TokenStream.afterAngle?_operators long).1
    rw [before, after]
    exact .part rest long

/-- A token in front of a sound word can be taken. -/
theorem Sound.takes (sound : a.Sound) (same : a.word = kind :: rest) :
    ∃ token b, a.Takes kind token b ∧ b.word = rest ∧ b.analysis = a.analysis := by
  have present : a.kind = kind := kind_of_word sound.formed same
  cases pending : a.tokens.pending with
  | nil => simp [word, TokenStream.word, pending] at same
  | cons token tail =>
    have current : a.tokens.current = token := by simp [TokenStream.current, pending]
    have member : token ∈ a.tokens.pending := by simp [pending]
    have fault : token.fault = none := by
      have marked := sound.formed.marked token member
      simpa [Token.Marked, sound.clear token member] using marked
    refine ⟨token, { a with tokens := a.tokens.advance }, ⟨current, ?_, fault, rfl⟩, ?_, rfl⟩
    · rw [← current]
      exact present
    · simp only [word, TokenStream.word, TokenStream.advance, pending, List.tail_cons,
        List.map_cons, List.cons.injEq] at same ⊢
      exact same.2

theorem Sound.mayTake (sound : a.Sound) {name : TokenKind} (maybe : Word.Maybe kind a.word (name :: rest))
    (other : name ≠ kind) : ∃ taken b, a.MayTake kind taken b ∧ b.word = name :: rest ∧
      b.analysis = a.analysis := by
  rcases maybe with same | same
  · refine ⟨false, a, .left ?_, same, rfl⟩
    rw [kind_of_word sound.formed same]
    exact other
  · obtain ⟨token, b, takes, after, known⟩ := sound.takes same
    exact ⟨true, b, .taken takes, after, known⟩

/-- What is behind a token is sound as well. -/
theorem Sound.takesOn (sound : a.Sound) (same : a.word = kind :: rest) (notLast : kind ≠ .eof) :
    ∃ token b, a.Takes kind token b ∧ b.word = rest ∧ b.Sound := by
  obtain ⟨token, b, takes, after, -⟩ := sound.takes same
  exact ⟨token, b, takes, after, (takes.leads notLast).sound sound⟩

theorem Sound.mayTakeOn (sound : a.Sound) {name : TokenKind}
    (maybe : Word.Maybe kind a.word (name :: rest)) (other : name ≠ kind) (notLast : kind ≠ .eof) :
    ∃ taken b, a.MayTake kind taken b ∧ b.word = name :: rest ∧ b.Sound := by
  obtain ⟨taken, b, takes, after, -⟩ := sound.mayTake maybe other
  exact ⟨taken, b, takes, after, (takes.leads notLast).sound sound⟩

theorem Sound.closes (sound : a.Sound) (closes : Word.Closes a.word rest) :
    ∃ b, a.Closes b ∧ b.word = rest ∧ b.analysis = a.analysis := by
  generalize same : a.word = before at closes
  cases closes with
  | whole =>
    obtain ⟨token, b, takes, after, known⟩ := sound.takes same
    exact ⟨b, .whole takes, after, known⟩
  | @part kind short lexeme rest long =>
    have present := kind_of_word sound.formed same
    have more : a.kind ≠ .eof := present ▸ (TokenStream.afterAngle?_operators long).1
    obtain ⟨tail, whole, after⟩ :=
      splitAngle_word short lexeme sound.formed more
    rw [same, present, List.cons.injEq] at whole
    exact ⟨_, .part (present ▸ long), whole.2 ▸ after, rfl⟩

/-- Every semantic action has a result, and never says that the form is wrong. -/
theorem does_of_regular {α : Type} {check : Check α} (regular : check.Regular .declaration) (a : Place) :
    ∃ x b, a.Does .form check x b ∧ b.word = a.word := by
  refine ⟨(check a.analysis).1, { a with analysis := (check a.analysis).2 }, ⟨rfl, rfl, ?_⟩, rfl⟩
  exact (regular a.analysis).form_same

end Place

end ScalarLang
