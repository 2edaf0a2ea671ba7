import ScalarLang.Proofs.Analysis.Signature
import ScalarLang.Proofs.Language.Statement
import ScalarLang.Proofs.Parser.Declaration

/-! The language of declarations and of whole programs. -/

namespace ScalarLang

namespace Place

structure Ready (place : Place) : Prop extends Sound place where
  coherent : place.analysis.arena.types.Coherent

theorem Leads.ready {a b : Place} (leads : a.Leads b) (ready : a.Ready) : b.Ready :=
  ⟨leads.sound ready.toSound, leads.coherent ready.coherent⟩

end Place

namespace Function

inductive Nonterminal where
  | parameter | parameterList | params | result | prototype
  | function (isExternal : Bool)

/-- Derivations of as many levels. An external function has no body. -/
inductive Derives (commas : Expression.Commas) (n : Nat) : Nonterminal → Word → Word → Prop
  | parameter {part rest} (typed : TypeName.Derives n .typename part rest) :
      Derives commas n .parameter (.identifier :: .colon :: part) rest
  | last {word rest} (one : Derives commas n .parameter word rest) :
      Derives commas n .parameterList word rest
  | next {word part rest} (one : Derives commas n .parameter word (.comma :: part))
      (others : Derives commas n .parameterList part rest) :
      Derives commas n .parameterList word rest
  | noParams {rest} : Derives commas n .params (.closeParen :: rest) rest
  | someParams {word rest} (inside : Derives commas n .parameterList word (.closeParen :: rest)) :
      Derives commas n .params word rest
  | result {part rest} (names : TypeName.Derives n .typename part rest) :
      Derives commas n .result (.arrow :: part) rest
  | noResult {rest} : Derives commas n .result rest rest
  | prototype {part middle rest} (takes : Derives commas n .params part middle)
      (gives : Derives commas n .result middle rest) :
      Derives commas n .prototype (.identifier :: .openParen :: part) rest
  | declared {isExternal word rest}
      (declares : Derives commas n .prototype word (.semicolon :: rest)) :
      Derives commas n (.function isExternal) word rest
  | defined {word middle rest} (declares : Derives commas n .prototype word middle)
      (inside : Statement.Derives commas n .body middle rest) :
      Derives commas n (.function false) word rest

def Phrase.nonterminal : Phrase → Option Nonterminal
  | .parameter _ _ => some .parameter
  | .parameterList _ _ => some .parameterList
  | .params _ => some .params
  | .result _ => some .result
  | .prototype _ => some .prototype
  | .body _ _ _ => none
  | .function _ isExternal _ => some (.function isExternal)

def Spells (n : Nat) (word rest : Word) (phrase : Phrase) : Prop :=
  match phrase.nonterminal with
  | some goal => Derives .resume n goal word rest
  | none => Statement.Derives .resume n .body word rest

variable {n : Nat} {a b : Place} {phrase : Phrase} {commas : Expression.Commas}

theorem Reading.spells {rigor : Rigor} (reading : Reading rigor n a phrase b)
    (formed : a.tokens.Formed) : Spells n a.word b.word phrase := by
  induction reading with
  | parameter names separates typed build =>
    have formedColon := (names.leads nofun).formed formed
    have type := typed.derives ((separates.leads nofun).formed formedColon)
    rw [← build.word] at type
    rw [names.word formed nofun, separates.word formedColon nofun]
    exact Derives.parameter type
  | lastParameter _ _ ih => exact Derives.last (ih formed)
  | nextParameter item separates _ ihItem ihRest =>
    have formedComma := item.leads.formed formed
    have one := ihItem formed
    rw [separates.word formedComma nofun] at one
    exact Derives.next one (ihRest ((separates.leads nofun).formed formedComma))
  | noParams closes =>
    rw [closes.word formed nofun]
    exact Derives.noParams
  | someParams _ list closes ih =>
    have inside := ih formed
    rw [closes.word (list.leads.formed formed) nofun] at inside
    exact Derives.someParams inside
  | result takes names =>
    rw [takes.word formed nofun]
    exact Derives.result (names.derives ((takes.leads nofun).formed formed))
  | noResult _ add =>
    rw [add.word]
    exact Derives.noResult
  | prototype names opens takes gives build ihTakes ihGives =>
    have formedOpen := (names.leads nofun).formed formed
    have formedParams := (opens.leads nofun).formed formedOpen
    have result := ihGives (takes.leads.formed formedParams)
    rw [← build.word] at result
    rw [names.word formed nofun, opens.word formedOpen nofun]
    exact Derives.prototype (ihTakes formedParams) result
  | @body a id params b body c bind inside =>
    have same : b.word = a.word := bind.word
    have formedBody := (bind.leads (Check.addParameters_regular (by nofun) params)).formed formed
    have derives := inside.derives formedBody
    rw [same] at derives
    exact derives
  | declared declares _ ends build ih =>
    have proto := ih formed
    rw [ends.word (declares.leads.formed formed) nofun, ← build.word] at proto
    exact Derives.declared proto
  | defined declares _ build _ complete ihDeclares ihInside =>
    have formedBody := (build.leads (Check.declareFunction_regular _ _ _)).formed
      (declares.leads.formed formed)
    have inside := ihInside formedBody
    rw [build.word, ← complete.word] at inside
    exact Derives.defined (ihDeclares formed) inside

def Read {α : Type} (Item : Place → α → Place → Prop) (word rest : Word) : Prop :=
  ∀ a : Place, a.Ready → a.word = word → ∃ x b, Item a x b ∧ b.word = rest

def Readable (n : Nat) (word rest : Word) : Nonterminal → Prop
  | .parameter =>
    ∀ before, Read (fun a param b => Reading .form n a (.parameter before param) b) word rest
  | .parameterList => rest.next ≠ .comma →
    ∀ before, Read (fun a params b => Reading .form n a (.parameterList before params) b) word rest
  | .params => Read (fun a params b => Reading .form n a (.params params) b) word rest
  | .result => rest.next ≠ .arrow →
    Read (fun a ty b => Reading .form n a (.result ty) b) word rest
  | .prototype => rest.next ≠ .arrow →
    Read (fun a proto b => Reading .form n a (.prototype proto) b) word rest
  | .function isExternal =>
    ∀ start, Read (fun a id b => Reading .form n a (.function start isExternal id) b) word rest

theorem Derives.parameterList_head {word rest : Word}
    (derives : Derives commas n .parameterList word rest) : word.next = .identifier := by
  cases derives with
  | last one | next one =>
    cases one
    rfl

theorem startsBody_of_body {word rest : Word}
    (derives : Statement.Derives commas n .body word rest) : startsBody word.next = true := by
  cases derives with
  | braces inside =>
    rw [inside.scope_head]
    rfl
  | colon => rfl

/-- A prototype that was read has a function type. -/
theorem Reading.shaped {rigor : Rigor} {proto : Prototype}
    (reading : Reading rigor n a (.prototype proto) b) : Check.Shaped proto b.analysis := by
  cases reading with
  | @prototype _ name _ _ _ params d result e _ _ names opens takes gives build =>
    have yields : (Check.makePrototype ⟨name.lexeme, name.span⟩ params result).Yields .declaration .form
        e.analysis Check.Shaped :=
      Check.makePrototype_shaped _ _ _
    have shaped := yields.holds
    rw [build.run] at shaped
    exact shaped

theorem body_readable {word rest : Word} (inside : Statement.Derives .resume n .body word rest)
    (ready : a.Ready) (same : a.word = word) {id : ExprId} (signed : Check.Signed id a.analysis)
    (params : List Local) :
    ∃ body b, Reading .form n a (.body id params body) b ∧ b.word = rest := by
  obtain ⟨signature, signed⟩ := signed
  have within : (a.setFunction (some id)).openScope.Within :=
    ⟨⟨ready.formed, ready.clear⟩, Analysis.inFunction_iff.mpr ⟨id, signature, rfl, signed⟩⟩
  obtain ⟨_, b, bind, known⟩ := Place.does_of_regular (Check.addParameters_regular (by nofun) params)
    (a.setFunction (some id)).openScope
  have within := (bind.leads (Check.addParameters_regular (by nofun) params)).within within
  obtain ⟨body, c, reading, after⟩ := inside.readable b within (known.trans same)
  exact ⟨body, _, .body bind reading, after⟩

theorem Derives.readable {goal : Nonterminal} {word rest : Word}
    (derives : Derives .resume n goal word rest) : Readable n word rest goal := by
  induction derives with
  | parameter typed =>
    intro before a ready same
    obtain ⟨name, b, names, after, -⟩ := ready.takes same
    have sound := (names.leads nofun).sound ready.toSound
    obtain ⟨colon, c, separates, after, sound⟩ := sound.takesOn after nofun
    obtain ⟨ty, d, type, after⟩ := typed.readable sound after
    obtain ⟨param, e, build, known⟩ := Place.does_of_regular
      (Check.declareParameter_regular before ⟨name.lexeme, name.span⟩ ty) d
    exact ⟨param, e, .parameter names separates type build, known.trans after⟩
  | last one ih =>
    intro ends before a ready same
    obtain ⟨param, b, item, after⟩ := ih before a ready same
    have follows : b.kind ≠ .comma := by
      rw [← Place.next_word (item.leads.formed ready.formed), after]
      exact ends
    exact ⟨before ++ [param], b, .lastParameter item follows, after⟩
  | next one others ihOne ihOthers =>
    intro ends before a ready same
    obtain ⟨param, b, item, after⟩ := ihOne before a ready same
    have ready := item.leads.ready ready
    obtain ⟨comma, c, separates, after, -⟩ := ready.takes after
    have ready := (separates.leads nofun).ready ready
    obtain ⟨params, d, rest, after⟩ := ihOthers ends (before ++ [param]) c ready after
    exact ⟨params, d, .nextParameter item separates rest, after⟩
  | noParams =>
    intro a ready same
    obtain ⟨closing, b, closes, after, -⟩ := ready.takes same
    exact ⟨[], b, .noParams closes, after⟩
  | someParams inside ih =>
    intro a ready same
    have more : a.kind ≠ .closeParen := by
      rw [← Place.next_word ready.formed, same, inside.parameterList_head]
      nofun
    obtain ⟨params, b, list, after⟩ := ih nofun [] a ready same
    have ready := list.leads.ready ready
    obtain ⟨closing, c, closes, after, -⟩ := ready.takes after
    exact ⟨params, c, .someParams more list closes, after⟩
  | result names =>
    intro _ a ready same
    obtain ⟨arrow, b, takes, after, -⟩ := ready.takes same
    have sound := (takes.leads nofun).sound ready.toSound
    obtain ⟨ty, c, type, after⟩ := names.readable sound after
    exact ⟨ty, c, .result takes type, after⟩
  | noResult =>
    intro absent a ready same
    rw [← same, Place.next_word ready.formed] at absent
    obtain ⟨ty, b, add, known⟩ := Place.does_of_regular (.addType .void) a
    exact ⟨ty, b, .noResult absent add, known.trans same⟩
  | prototype takes gives ihTakes ihGives =>
    intro absent a ready same
    obtain ⟨name, b, names, after, -⟩ := ready.takes same
    have ready := (names.leads nofun).ready ready
    obtain ⟨opening, c, opens, after, -⟩ := ready.takes after
    have ready := (opens.leads nofun).ready ready
    obtain ⟨params, d, list, after⟩ := ihTakes c ready after
    have ready := list.leads.ready ready
    obtain ⟨ty, e, result, after⟩ := ihGives absent d ready after
    obtain ⟨proto, f, build, known⟩ := Place.does_of_regular
      (Check.makePrototype_regular ⟨name.lexeme, name.span⟩ params ty) e
    exact ⟨proto, f, .prototype names opens list result build, known.trans after⟩
  | declared declares ih =>
    intro start a ready same
    obtain ⟨proto, b, prototype, after⟩ := ih nofun a ready same
    have ready := prototype.leads.ready ready
    have noBody : startsBody b.kind = false := by
      rw [Place.kind_of_word ready.formed after]
      rfl
    obtain ⟨semicolon, c, ends, after, -⟩ := ready.takes after
    obtain ⟨id, d, build, known⟩ := Place.does_of_regular
      (Check.declareFunction_regular proto false (start.through c.tokens.previous)) c
    exact ⟨id, d, .declared prototype (.inr noBody) ends build, known.trans after⟩
  | defined declares inside ih =>
    intro start a ready same
    have head := startsBody_of_body inside
    have noArrow : Word.next _ ≠ .arrow := fun absurd => by
      rw [absurd] at head
      cases head
    obtain ⟨proto, b, prototype, after⟩ := ih noArrow a ready same
    have shaped := prototype.shaped
    have ready := prototype.leads.ready ready
    rw [← after, Place.next_word ready.formed] at head
    let span := start.through b.tokens.previous
    obtain ⟨id, c, build, known⟩ := Place.does_of_regular
      (Check.declareFunction_regular proto true span) b
    have yields : (Check.declareFunction proto true span).Yields .declaration .form b.analysis Check.Signed :=
      Check.declareFunction_signed ready.coherent shaped true span
    have signed := yields.holds
    rw [build.run] at signed
    have ready := (build.leads (Check.declareFunction_regular _ _ _)).ready ready
    obtain ⟨body, d, reading, after⟩ :=
      body_readable inside ready (known.trans after) signed proto.params
    obtain ⟨_, e, complete, known⟩ := Place.does_of_regular
      (Check.completeFunction_regular proto id body span) d
    exact ⟨id, e, .defined prototype head build reading complete, known.trans after⟩

end Function

namespace Declaration

inductive Derives (commas : Expression.Commas) (n : Nat) : Word → Word → Prop
  | variableDeclaration {word rest}
      (inside : Statement.Derives commas n .variableDeclaration word rest) :
      Derives commas n word rest
  | function {part rest} (inside : Function.Derives commas n (.function false) part rest) :
      Derives commas n (.fn :: part) rest
  | external {part rest} (inside : Function.Derives commas n (.function true) part rest) :
      Derives commas n (.external :: .fn :: part) rest

inductive Program (commas : Expression.Commas) (n : Nat) : Word → Prop
  | none : Program commas n []
  | next {word rest} (one : Derives commas n word rest) (others : Program commas n rest) :
      Program commas n word

variable {n : Nat} {a b : Place} {id : ExprId}

theorem Reading.derives {rigor : Rigor} (reading : Reading rigor n a id b)
    (formed : a.tokens.Formed) : Derives .resume n a.word b.word := by
  cases reading with
  | variableDeclaration inside => exact .variableDeclaration (inside.derives formed)
  | function takes inside =>
    rw [takes.word formed nofun]
    exact .function (inside.spells ((takes.leads nofun).formed formed))
  | external takes marks inside =>
    have formedOn := (takes.leads nofun).formed formed
    rw [takes.word formed nofun, marks.word formedOn nofun]
    exact .external (inside.spells ((marks.leads nofun).formed formedOn))

theorem Readings.derives {rigor : Rigor} {ids : List ExprId}
    (readings : Readings rigor n a ids b) (formed : a.tokens.Formed) : Program .resume n a.word := by
  induction readings with
  | none ends =>
    have spent := formed.current_eof_iff.mp ends
    have empty := congrArg (List.map Token.kind) spent
    exact Eq.mpr (congrArg (Program .resume n) empty) .none
  | next _ one _ ih => exact .next (one.derives formed) (ih (one.leads.formed formed))

theorem Derives.readable {word rest : Word} (derives : Derives .resume n word rest) :
    Function.Read (fun a id b => Reading .form n a id b) word rest := by
  intro a ready same
  cases derives with
  | variableDeclaration inside =>
    obtain ⟨id, b, declaration, after⟩ := inside.readable a ready.toSound same
    exact ⟨id, b, .variableDeclaration declaration, after⟩
  | function inside =>
    obtain ⟨start, b, takes, after, -⟩ := ready.takes same
    have ready := (takes.leads nofun).ready ready
    obtain ⟨id, c, function, after⟩ := inside.readable start.span b ready after
    exact ⟨id, c, .function takes function, after⟩
  | external inside =>
    obtain ⟨start, b, takes, after, -⟩ := ready.takes same
    have ready := (takes.leads nofun).ready ready
    obtain ⟨token, c, marks, after, -⟩ := ready.takes after
    have ready := (marks.leads nofun).ready ready
    obtain ⟨id, d, function, after⟩ := inside.readable start.span c ready after
    exact ⟨id, d, .external takes marks function, after⟩

theorem Derives.head {commas : Expression.Commas} {word rest : Word} (derives : Derives commas n word rest) :
    word.next ≠ .eof := by
  cases derives with
  | variableDeclaration inside =>
    cases inside
    nofun
  | function | external => nofun

theorem Program.readable {word : Word} (derives : Program .resume n word) (ready : a.Ready)
    (same : a.word = word) : ∃ ids b, Readings .form n a ids b := by
  induction derives generalizing a with
  | none =>
    have spent : a.tokens.pending = [] := List.map_eq_nil_iff.mp same
    exact ⟨[], a, .none (ready.formed.current_eof_iff.mpr spent)⟩
  | next one others ih =>
    have more : a.kind ≠ .eof := by
      rw [← Place.next_word ready.formed, same]
      exact one.head
    obtain ⟨id, b, reading, after⟩ := one.readable a ready same
    obtain ⟨ids, c, readings⟩ := ih (reading.leads.ready ready) after
    exact ⟨id :: ids, c, .next more reading readings⟩

end Declaration

end ScalarLang
