import ScalarLang.Proofs.Language.Words
import ScalarLang.Proofs.Parser.TypeName

/-! The language of type names. The readings of a word are its derivations. -/

namespace ScalarLang.TypeName

inductive Nonterminal where
  | typename | params | typenames

/-- Derivations of as many levels. A word begins with what the nonterminal derives. -/
inductive Derives : Nat → Nonterminal → Word → Word → Prop
  | scalar {n word scalar rest} (const : Word.Maybe .const word (.scalar scalar :: rest)) :
      Derives (n + 1) .typename word rest
  | void {n word rest} (const : Word.Maybe .const word (.void :: rest)) :
      Derives (n + 1) .typename word rest
  | pointer {n word part middle rest} (const : Word.Maybe .const word (.ptr :: .less :: part))
      (inside : Derives n .typename part middle) (closes : Word.Closes middle rest) :
      Derives (n + 1) .typename word rest
  | function {n word part middle rest} (const : Word.Maybe .const word (.fn :: part))
      (takes : Derives n .params part (.arrow :: middle))
      (returns : Derives n .typename middle rest) : Derives (n + 1) .typename word rest
  | noParams {n rest} : Derives n .params (.openParen :: .closeParen :: rest) rest
  | someParams {n part rest} (inside : Derives n .typenames part (.closeParen :: rest)) :
      Derives n .params (.openParen :: part) rest
  | last {n word rest} (one : Derives n .typename word rest) : Derives n .typenames word rest
  | next {n word part rest} (one : Derives n .typename word (.comma :: part))
      (others : Derives n .typenames part rest) : Derives n .typenames word rest

def Phrase.nonterminal : Phrase → Nonterminal
  | .typename _ => .typename
  | .typenames _ _ => .typenames
  | .params _ => .params

variable {n : Nat} {a b : Place} {phrase : Phrase}

theorem Reading.derives {rigor : Rigor} (reading : Reading rigor n a phrase b)
    (formed : a.tokens.Formed) : Derives n phrase.nonterminal a.word b.word := by
  induction reading with
  | scalar const name add =>
    have marked := const.word formed nofun
    rw [name.word ((const.leads nofun).formed formed) nofun, ← add.word] at marked
    exact .scalar marked
  | void const name add =>
    have marked := const.word formed nofun
    rw [name.word ((const.leads nofun).formed formed) nofun, ← add.word] at marked
    exact .void marked
  | pointer const name opens inside closes add ih =>
    have marked := const.word formed nofun
    have formed := (const.leads nofun).formed formed
    rw [name.word formed nofun] at marked
    have formed := (name.leads nofun).formed formed
    rw [opens.word formed nofun] at marked
    have formed := (opens.leads nofun).formed formed
    have closing := closes.word (inside.leads.formed formed)
    rw [← add.word] at closing
    exact .pointer marked (ih formed) closing
  | function const name takes gives returns add ihTakes ihReturns =>
    have marked := const.word formed nofun
    have formed := (const.leads nofun).formed formed
    rw [name.word formed nofun] at marked
    have formed := (name.leads nofun).formed formed
    have params := ihTakes formed
    have formed := takes.leads.formed formed
    rw [gives.word formed nofun] at params
    have result := ihReturns ((gives.leads nofun).formed formed)
    rw [← add.word] at result
    exact .function marked params result
  | noParams opens closes =>
    rw [opens.word formed nofun, closes.word ((opens.leads nofun).formed formed) nofun]
    exact .noParams
  | someParams opens more inside closes ih =>
    rw [opens.word formed nofun]
    have formed := (opens.leads nofun).formed formed
    have list := ih formed
    rw [closes.word (inside.leads.formed formed) nofun] at list
    exact .someParams list
  | lastTypename item ends ih => exact .last (ih formed)
  | nextTypename item separates rest ihItem ihRest =>
    have one := ihItem formed
    have formed := item.leads.formed formed
    rw [separates.word formed nofun] at one
    exact .next one (ihRest ((separates.leads nofun).formed formed))

/-- What it takes to read a derived word at a place. -/
def Readable (n : Nat) (a : Place) (rest : Word) : Nonterminal → Prop
  | .typename => ∃ ty b, Whole .form n a ty b ∧ b.word = rest
  | .params => ∃ tys b, Reading .form n a (.params tys) b ∧ b.word = rest
  | .typenames => rest.next ≠ .comma → ∀ before, ∃ tys b,
      Reading .form n a (.typenames before tys) b ∧ b.word = rest

theorem Derives.head {word rest : Word} (derives : Derives n .typename word rest) :
    word.next ≠ .closeParen := by
  cases derives with
  | scalar const | void const | pointer const | function const =>
    rcases const with rfl | rfl <;> exact nofun

theorem Derives.typenames_head {word rest : Word} (derives : Derives n .typenames word rest) :
    word.next ≠ .closeParen := by
  cases derives with
  | last one | next one => exact one.head

theorem Derives.readable {goal : Nonterminal} {word rest : Word}
    (derives : Derives n goal word rest) (sound : a.Sound) (same : a.word = word) :
    Readable n a rest goal := by
  induction derives generalizing a with
  | scalar const =>
    subst same
    obtain ⟨isConst, b, marks, after, sound⟩ := sound.mayTakeOn const nofun nofun
    obtain ⟨token, c, name, after, -⟩ := sound.takes after
    obtain ⟨ty, d, add, known⟩ := Place.does_of_regular (.addType (.scalar _ isConst)) c
    exact ⟨ty, d, .scalar marks name add, known.trans after⟩
  | void const =>
    subst same
    obtain ⟨isConst, b, marks, after, sound⟩ := sound.mayTakeOn const nofun nofun
    obtain ⟨token, c, name, after, -⟩ := sound.takes after
    obtain ⟨ty, d, add, known⟩ := Place.does_of_regular (.addType .void) c
    exact ⟨ty, d, .void marks name add, known.trans after⟩
  | pointer const inside closes ih =>
    subst same
    obtain ⟨isConst, b, marks, after, sound⟩ := sound.mayTakeOn const nofun nofun
    obtain ⟨token, c, name, after, sound⟩ := sound.takesOn after nofun
    obtain ⟨opening, d, opens, after, sound⟩ := sound.takesOn after nofun
    obtain ⟨pointee, e, reading, rfl⟩ := ih sound after
    have sound := reading.leads.sound sound
    obtain ⟨f, closes, after, -⟩ := sound.closes closes
    obtain ⟨ty, g, add, known⟩ := Place.does_of_regular (.addType (.pointer isConst pointee)) f
    exact ⟨ty, g, .pointer marks name opens reading closes add, known.trans after⟩
  | function const takes returns ihTakes ihReturns =>
    subst same
    obtain ⟨isConst, b, marks, after, sound⟩ := sound.mayTakeOn const nofun nofun
    obtain ⟨token, c, name, after, sound⟩ := sound.takesOn after nofun
    obtain ⟨params, d, reading, after⟩ := ihTakes sound after
    have sound := reading.leads.sound sound
    obtain ⟨arrow, e, gives, after, sound⟩ := sound.takesOn after nofun
    obtain ⟨result, f, returning, after⟩ := ihReturns sound after
    obtain ⟨ty, g, add, known⟩ := Place.does_of_regular (.addType (.function result params)) f
    exact ⟨ty, g, .function marks name reading gives returning add, known.trans after⟩
  | noParams =>
    obtain ⟨opening, b, opens, after, sound⟩ := sound.takesOn same nofun
    obtain ⟨closing, c, closes, after, -⟩ := sound.takes after
    exact ⟨[], c, .noParams opens closes, after⟩
  | someParams inside ih =>
    obtain ⟨opening, b, opens, after, sound⟩ := sound.takesOn same nofun
    have more : b.kind ≠ .closeParen := by
      rw [← Place.next_word sound.formed, after]
      exact inside.typenames_head
    obtain ⟨tys, c, reading, after⟩ := ih sound after nofun []
    have sound := reading.leads.sound sound
    obtain ⟨closing, d, closes, after, -⟩ := sound.takes after
    exact ⟨tys, d, .someParams opens more reading closes, after⟩
  | last one ih =>
    intro ends before
    obtain ⟨ty, b, reading, after⟩ := ih sound same
    refine ⟨before ++ [ty], b, .lastTypename reading ?_, after⟩
    rw [← Place.next_word (reading.leads.sound sound).formed, after]
    exact ends
  | next one others ihOne ihOthers =>
    intro ends before
    obtain ⟨ty, b, reading, after⟩ := ihOne sound same
    have sound := reading.leads.sound sound
    obtain ⟨comma, c, separates, after, sound⟩ := sound.takesOn after nofun
    obtain ⟨tys, d, rest, after⟩ := ihOthers sound after ends (before ++ [ty])
    exact ⟨tys, d, .nextTypename reading separates rest, after⟩

end ScalarLang.TypeName
