import ScalarLang.Proofs.Language.Words
import ScalarLang.Proofs.Parser.Replay
import ScalarLang.Proofs.Ty.Naming

/-! The name of a type is read back as the type. The scanner takes closing angles two at a time and
the parse takes them off one by one, so the tokens of a name are seen as a word in which each angle
stands by itself. -/

namespace ScalarLang

/-- The kinds that a token can be taken apart into. -/
def TokenKind.split : TokenKind → Word
  | rightShift => [greater, greater]
  | kind => [kind]

namespace Ty

open Text (closing)

def markWord (isConst : Bool) : Word := if isConst then [.const] else []

mutual
/-- The kinds of the tokens of a name, each angle by itself. -/
def word : Ty → Word
  | void => [.void]
  | scalar s isConst => markWord isConst ++ [.scalar s]
  | pointer isConst pointee => markWord isConst ++ .ptr :: .less :: (word pointee ++ [.greater])
  | function result params =>
    .fn :: .openParen :: (listWord params ++ .closeParen :: .arrow :: word result)
  | error => []

def listWord : List Ty → Word
  | [] => []
  | [ty] => word ty
  | ty :: next :: rest => word ty ++ .comma :: listWord (next :: rest)
end

def splitLexemes (lexemes : List Lexeme) : Word := lexemes.flatMap fun lexeme => lexeme.kind.split

@[simp] theorem splitLexemes_cons (lexeme : Lexeme) (rest : List Lexeme) :
    splitLexemes (lexeme :: rest) = lexeme.kind.split ++ splitLexemes rest := rfl

@[simp] theorem splitLexemes_append (left right : List Lexeme) :
    splitLexemes (left ++ right) = splitLexemes left ++ splitLexemes right :=
  List.flatMap_append

theorem split_closing : ∀ angles : Nat,
    splitLexemes (closing angles) = List.replicate angles .greater
  | 0 | 1 => rfl
  | angles + 2 => by
    rw [closing, splitLexemes_cons, split_closing angles]
    rfl

theorem split_mark (isConst : Bool) : splitLexemes (markLexemes isConst) = markWord isConst := by
  cases isConst <;> rfl

mutual
theorem split_lexemes : ∀ {ty : Ty}, ty.isWhole = true → ∀ angles : Nat,
    splitLexemes (ty.lexemes angles) = ty.word ++ List.replicate angles .greater
  | void, _, angles => by
    rw [lexemes, splitLexemes_cons, split_closing]
    rfl
  | scalar s isConst, _, angles => by
    rw [lexemes, splitLexemes_append, splitLexemes_cons, split_mark, split_closing, word,
      List.append_assoc]
    rfl
  | pointer isConst pointee, whole, angles => by
    have whole : pointee.isWhole = true := by simpa [isWhole] using whole
    have inside := split_lexemes whole (angles + 1)
    simp [lexemes, word, split_mark, inside, TokenKind.split, List.replicate_succ]
  | function result params, whole, angles => by
    obtain ⟨whole, params_whole⟩ : result.isWhole = true ∧ areWhole params = true := by
      simpa [isWhole] using whole
    simp [lexemes, word, split_listLexemes params_whole, split_lexemes whole angles, TokenKind.split]

theorem split_listLexemes : ∀ {tys : List Ty}, areWhole tys = true →
    splitLexemes (listLexemes tys) = listWord tys
  | [], _ => rfl
  | [ty], whole => by
    have whole : ty.isWhole = true := by simpa [areWhole] using whole
    have one := split_lexemes whole 0
    simpa [listLexemes, listWord] using one
  | ty :: next :: rest, whole => by
    obtain ⟨whole, others⟩ : ty.isWhole = true ∧ areWhole (next :: rest) = true := by
      simpa [areWhole] using whole
    simp [listLexemes, listWord, split_lexemes whole 0, split_listLexemes others, TokenKind.split]
end

/-- A name starts with a word. -/
theorem word_head {ty : Ty} (whole : ty.isWhole = true) :
    ∃ kind others, ty.word = kind :: others ∧ kind ≠ .greater ∧ kind ≠ .closeParen := by
  cases ty with
  | void | function => exact ⟨_, _, rfl, nofun, nofun⟩
  | error => cases whole
  | scalar s isConst | pointer isConst pointee =>
    cases isConst <;> exact ⟨_, _, rfl, nofun, nofun⟩

theorem listWord_head {ty : Ty} {others : List Ty} (whole : areWhole (ty :: others) = true) :
    ∃ kind rest, listWord (ty :: others) = kind :: rest ∧ kind ≠ .greater ∧ kind ≠ .closeParen := by
  have first : ty.isWhole = true := areWhole_iff.mp whole ty List.mem_cons_self
  obtain ⟨kind, rest, same, plain⟩ := word_head first
  cases others with
  | nil => exact ⟨kind, rest, same, plain⟩
  | cons next others => exact ⟨kind, _, by rw [listWord, same, List.cons_append], plain⟩

end Ty

namespace Place

variable {a b : Place} {rest : List Token} {word more : Word} {kind : TokenKind}

/-- Up to the rest the pending tokens spell the word, and nothing is wrong with them. -/
def Spells (a : Place) (word : Word) (rest : List Token) : Prop :=
  ∃ tokens : List Token, a.tokens.pending = tokens ++ rest ∧
    (tokens.flatMap fun token => token.kind.split) = word ∧ ∀ token ∈ tokens, token.fault = none

theorem Spells.done (spells : a.Spells [] rest) : a.tokens.pending = rest := by
  obtain ⟨tokens, pending, split, -⟩ := spells
  cases tokens with
  | nil => exact pending
  | cons token tokens =>
    rw [List.flatMap_cons] at split
    unfold TokenKind.split at split
    split at split <;> cases split

/-- A word that is left starts within the current token. -/
theorem Spells.current (spells : a.Spells (kind :: more) rest) :
    ∃ token tokens, a.tokens.current = token ∧ a.tokens.pending = token :: (tokens ++ rest) ∧
      token.fault = none ∧ (∀ other ∈ tokens, other.fault = none) ∧
      (token.kind = .rightShift ∧ kind = .greater ∧
          more = .greater :: tokens.flatMap (fun token => token.kind.split) ∨
        token.kind = kind ∧ tokens.flatMap (fun token => token.kind.split) = more) := by
  obtain ⟨tokens, pending, split, unfaulted⟩ := spells
  cases tokens with
  | nil => cases split
  | cons token tokens =>
    rw [List.flatMap_cons] at split
    refine ⟨token, tokens, by simp [TokenStream.current, pending], pending,
      unfaulted token List.mem_cons_self,
      fun other member => unfaulted other (List.mem_cons_of_mem token member), ?_⟩
    unfold TokenKind.split at split
    split at split
    · rename_i double
      cases split
      exact .inl ⟨double, rfl, rfl⟩
    · exact .inr (List.cons.inj split)

/-- A kind other than an angle is that of the current token. -/
theorem Spells.takes (spells : a.Spells (kind :: more) rest) (plain : kind ≠ .greater) :
    ∃ token b, a.Takes kind token b ∧ b.Spells more rest ∧ b.analysis = a.analysis := by
  obtain ⟨token, tokens, current, pending, own, others, double | whole⟩ := spells.current
  · exact absurd double.2.1 plain
  · exact ⟨token, { a with tokens := a.tokens.advance }, ⟨current, whole.1, own, rfl⟩,
      ⟨tokens, by simp [TokenStream.advance, pending], whole.2, others⟩, rfl⟩

theorem Spells.closes (spells : a.Spells (.greater :: more) rest) :
    ∃ b, a.Closes b ∧ b.Spells more rest ∧ b.analysis = a.analysis := by
  obtain ⟨token, tokens, current, pending, own, others, double | whole⟩ := spells.current
  · -- One angle is taken off, and the other one is left in the place of the token.
    have long : TokenStream.afterAngle? a.kind = some (.greater, ">") := by
      rw [Place.kind, current, double.1]
      rfl
    refine ⟨_, .part long, ⟨TokenStream.shorten token .greater ">" :: tokens, ?_, ?_, ?_⟩, rfl⟩
    · simp [splitAngle, TokenStream.replaceCurrent, pending, current]
    · simp [TokenStream.shorten, TokenKind.split, double.2.2]
    · exact List.forall_mem_cons.mpr ⟨own, others⟩
  · exact ⟨{ a with tokens := a.tokens.advance }, .whole ⟨current, whole.1, own, rfl⟩,
      ⟨tokens, by simp [TokenStream.advance, pending], whole.2, others⟩, rfl⟩

theorem Spells.mark {isConst : Bool} (spells : a.Spells (Ty.markWord isConst ++ kind :: more) rest)
    (plain : kind ≠ .greater) (other : kind ≠ .const) : ∃ b token c, a.MayTake .const isConst b ∧
      b.Takes kind token c ∧ c.Spells more rest ∧ c.analysis = a.analysis := by
  cases isConst with
  | false =>
    obtain ⟨token, b, takes, after, same⟩ := spells.takes plain
    exact ⟨a, token, b, .left (takes.present ▸ other), takes, after, same⟩
  | true =>
    obtain ⟨mark, b, marks, after, known⟩ := spells.takes nofun
    obtain ⟨token, c, takes, after, same⟩ := after.takes plain
    exact ⟨b, token, c, .taken marks, takes, after, same.trans known⟩

/-- A type is added to the table. -/
theorem adds_type (a : Place) (shape : TypeShape) :
    ∃ id b, a.Does .form (Check.addType shape) id b ∧ b.tokens = a.tokens ∧
      b.analysis.arena.types.form id = shape.writeOut a.analysis.arena.types.form ∧
      b.analysis.report = a.analysis.report :=
  ⟨_, { a with analysis := (Check.addType shape a.analysis).2 }, ⟨rfl, rfl, rfl⟩, rfl,
    TypeTable.form_added _ _, rfl⟩

/-- At the place the type is read, and what follows it is left. -/
def ReadsType (a : Place) (n : Nat) (ty : Ty) (more : Word) (rest : List Token) : Prop :=
  ∃ id b, TypeName.Whole .form n a id b ∧ b.Spells more rest ∧
    b.analysis.arena.types.form id = ty ∧ b.analysis.report = a.analysis.report

def ReadsTypes (a : Place) (n : Nat) (tys : List Ty) (more : Word) (rest : List Token) : Prop :=
  ∀ before, ∃ ids b, TypeName.Reading .form n a (.typenames before (before ++ ids)) b ∧
    b.Spells more rest ∧ ids.map b.analysis.arena.types.form = tys ∧
    b.analysis.report = a.analysis.report

end Place

namespace Ty

open Place (ReadsType ReadsTypes)

variable {n : Nat} {a : Place} {more : Word} {rest : List Token}

theorem whole_ne_error {ty : Ty} (whole : ty.isWhole = true) : ty ≠ .error := by
  rintro rfl
  cases whole

/-- Types that are read keep what they are when more is read. -/
theorem forms_kept {before after : TypeTable} (grows : before.Grows after) {ids : List TypeId}
    {tys : List Ty} (whole : areWhole tys = true) (forms : ids.map before.form = tys) :
    ids.map after.form = tys := by
  rw [← forms] at whole ⊢
  refine List.map_congr_left fun id member => grows.form (whole_ne_error ?_)
  exact areWhole_iff.mp whole _ (List.mem_map_of_mem member)

theorem readsType_add {shape : TypeShape} {ty : Ty} {b : Place}
    (reading : ∀ {id c}, b.Does .form (Check.addType shape) id c → TypeName.Whole .form n a id c)
    (spells : b.Spells more rest) (written : shape.writeOut b.analysis.arena.types.form = ty)
    (same : b.analysis.report = a.analysis.report) : ReadsType a n ty more rest := by
  obtain ⟨id, c, adds, tokens, form, report⟩ := b.adds_type shape
  refine ⟨id, c, reading adds, ?_, form.trans written, report.trans same⟩
  unfold Place.Spells at spells ⊢
  rwa [tokens]

/-- There is a level for the type itself. -/
theorem exists_level {ty : Ty} (fits : ty.height ≤ n) : ∃ inner, n = inner + 1 := by
  have some : 1 ≤ ty.height := by cases ty <;> simp [height]
  exact ⟨n - 1, by omega⟩

theorem readsType_pointer {isConst : Bool} {pointee : Ty}
    (inside : ∀ {a : Place} {more : Word}, a.Spells (pointee.word ++ more) rest →
      ReadsType a n pointee more rest)
    (spells : a.Spells ((pointer isConst pointee).word ++ more) rest) :
    ReadsType a (n + 1) (pointer isConst pointee) more rest := by
  simp only [word, List.append_assoc, List.cons_append] at spells
  obtain ⟨b, token, c, mark, takes, after, known⟩ := spells.mark nofun nofun
  obtain ⟨opening, d, opens, after, same⟩ := after.takes nofun
  obtain ⟨id, e, reading, after, form, report⟩ := inside after
  obtain ⟨f, closes, after, kept⟩ := after.closes
  refine readsType_add (.pointer mark takes opens reading closes) after ?_ ?_
  · rw [TypeShape.writeOut, kept, form]
  · rw [kept, report, same, known]

theorem readsType_function {result : Ty} {params : List Ty} (whole : areWhole params = true)
    (inside : params ≠ [] → ∀ {a : Place} {more : Word},
      a.Spells (listWord params ++ .closeParen :: more) rest →
      ReadsTypes a n params (.closeParen :: more) rest)
    (returns : ∀ {a : Place} {more : Word}, a.Spells (result.word ++ more) rest →
      ReadsType a n result more rest)
    (spells : a.Spells ((function result params).word ++ more) rest) :
    ReadsType a (n + 1) (function result params) more rest := by
  simp only [word, List.append_assoc, List.cons_append] at spells
  obtain ⟨token, b, takes, after, known⟩ := spells.takes nofun
  -- The parameters, with the parentheses around them.
  have list : ∃ ids c, TypeName.Reading .form n b (.params ids) c ∧
      c.Spells (.arrow :: (result.word ++ more)) rest ∧
      ids.map c.analysis.arena.types.form = params ∧ c.analysis.report = b.analysis.report := by
    obtain ⟨opening, c, opens, items, same⟩ := after.takes nofun
    cases params with
    | nil =>
      obtain ⟨closing, d, closes, after, kept⟩ := items.takes nofun
      exact ⟨[], d, .noParams opens closes, after, rfl, by rw [kept, same]⟩
    | cons ty rest =>
      obtain ⟨ids, d, reading, spells, forms, report⟩ := inside nofun items []
      obtain ⟨closing, e, closes, after, kept⟩ := spells.takes nofun
      obtain ⟨kind, inner, text, plain, other⟩ := listWord_head whole
      rw [text, List.cons_append] at items
      obtain ⟨first, others, starts, -⟩ := items.takes plain
      refine ⟨ids, e, .someParams opens ?_ reading closes, after, by rw [kept, forms], ?_⟩
      · exact starts.present ▸ other
      · rw [kept, report, same]
  obtain ⟨ids, c, list, after, forms, listReport⟩ := list
  obtain ⟨arrow, d, gives, after, same⟩ := after.takes nofun
  obtain ⟨id, e, reading, after, form, report⟩ := returns after
  refine readsType_add (.function (.left (takes.present ▸ nofun)) takes list gives reading) after ?_ ?_
  · have grows := reading.leads.grows.types
    rw [same] at grows
    rw [TypeShape.writeOut, form, forms_kept grows whole forms]
  · rw [report, same, listReport, known]

mutual
theorem readsType : ∀ {ty : Ty}, ty.isWhole = true → ∀ {n : Nat}, ty.height ≤ n →
    ∀ {a : Place} {more : Word} {rest : List Token}, a.Spells (ty.word ++ more) rest →
    ReadsType a n ty more rest
  | void, _, n, fits, a, more, rest, spells => by
    obtain ⟨n, rfl⟩ := exists_level fits
    obtain ⟨token, b, takes, after, same⟩ := spells.takes nofun
    exact readsType_add (.void (.left (takes.present ▸ nofun)) takes) after rfl
      (congrArg Analysis.report same)
  | scalar s isConst, _, n, fits, a, more, rest, spells => by
    obtain ⟨n, rfl⟩ := exists_level fits
    rw [word, List.append_assoc] at spells
    obtain ⟨b, token, c, mark, takes, after, same⟩ := spells.mark nofun nofun
    exact readsType_add (.scalar mark takes) after rfl (congrArg Analysis.report same)
  | pointer isConst pointee, whole, n, fits, a, more, rest, spells => by
    obtain ⟨n, rfl⟩ := exists_level fits
    have whole : pointee.isWhole = true := by simpa [isWhole] using whole
    exact readsType_pointer (readsType whole (Nat.le_of_succ_le_succ fits)) spells
  | function result params, whole, n, fits, a, more, rest, spells => by
    obtain ⟨n, rfl⟩ := exists_level fits
    obtain ⟨whole, params_whole⟩ : result.isWhole = true ∧ areWhole params = true := by
      simpa [isWhole] using whole
    have fits := Nat.max_le.mp (Nat.le_of_succ_le_succ fits)
    exact readsType_function params_whole (fun items => readsTypes params_whole items fits.2)
      (readsType whole fits.1) spells

theorem readsTypes : ∀ {tys : List Ty}, areWhole tys = true → tys ≠ [] → ∀ {n : Nat},
    heights tys ≤ n → ∀ {a : Place} {more : Word} {rest : List Token},
    a.Spells (listWord tys ++ .closeParen :: more) rest →
    ReadsTypes a n tys (.closeParen :: more) rest
  | [], _, items, _, _, _, _, _, _ => absurd rfl items
  | [ty], whole, _, n, fits, a, more, rest, spells => by
    have whole : ty.isWhole = true := by simpa [areWhole] using whole
    obtain ⟨id, b, reading, after, form, report⟩ :=
      readsType whole (Nat.le_trans (Nat.le_max_left _ _) fits) spells
    obtain ⟨token, c, closes, -⟩ := after.takes nofun
    intro before
    refine ⟨[id], b, .lastTypename reading (closes.present ▸ nofun), after, ?_, report⟩
    rw [List.map_singleton, form]
  | ty :: next :: others, whole, _, n, fits, a, more, rest, spells => by
    obtain ⟨whole, others_whole⟩ : ty.isWhole = true ∧ areWhole (next :: others) = true := by
      simpa [areWhole] using whole
    have fits := Nat.max_le.mp fits
    rw [listWord, List.append_assoc] at spells
    obtain ⟨id, b, reading, after, form, report⟩ := readsType whole fits.1 spells
    obtain ⟨comma, c, separates, after, same⟩ := after.takes nofun
    have list := readsTypes others_whole nofun fits.2 after
    intro before
    obtain ⟨ids, d, rest, after, forms, restReport⟩ := list (before ++ [id])
    have grows := rest.leads.grows.types
    rw [same] at grows
    refine ⟨id :: ids, d, ?_, after, ?_, by rw [restReport, same, report]⟩
    · rw [List.append_assoc] at rest
      exact .nextTypename reading separates rest
    · rw [List.map_cons, forms, grows.form (form ▸ whole_ne_error whole), form]
end
theorem spells_of_written {tokens rest : List Token} {lexemes : List Lexeme}
    (pending : a.tokens.pending = tokens ++ rest) (written : tokens.map Token.written = lexemes)
    (unfaulted : ∀ token ∈ tokens, token.fault = none) : a.Spells (splitLexemes lexemes) rest := by
  refine ⟨tokens, pending, ?_, unfaulted⟩
  rw [← written, splitLexemes, List.flatMap_map]
  rfl

end Ty

/-- What is pending are the tokens from the cursor on. -/
def Session.At (s : Session) (cursor : Cursor) : Prop :=
  s.tokens.pending = cursor.tokens.1 ∧ s.tokens.endToken = cursor.tokens.2

theorem Session.At.formed {s : Session} {cursor : Cursor} (here : s.At cursor) : s.tokens.Formed := by
  obtain ⟨others, last, marked⟩ := Cursor.tokensWithin_ends cursor.rest.length cursor
  refine ⟨here.2 ▸ last, here.2 ▸ marked, fun token member => ?_, fun token member => ?_⟩
  · exact (others token (here.1 ▸ member)).1
  · exact (others token (here.1 ▸ member)).2

theorem TokenStream.Moves.endToken {tokens after : TokenStream} (moves : tokens.Moves after) :
    after.endToken = tokens.endToken := by
  induction moves with
  | refl => rfl
  | tail _ move ih => cases move <;> exact ih

namespace Ty

variable {s : Session} {cursor : Cursor} {text : List Char}

theorem stops_of_blank (separate : ∀ c ∈ text.head?, Text.isBlank c = true) : Stops text := by
  intro c first
  have blank := separate c first
  refine ⟨?_, ?_, Text.isBlank_wordPart blank⟩
  · rintro rfl
    cases blank
  · rintro rfl
    cases blank

/-- Where its name stands the type is read, with as many levels as it has. -/
theorem gives_at {ty : Ty} (whole : ty.isWhole = true) (fits : ty.height ≤ n) (here : s.At cursor)
    (name : cursor.rest = ty.name.toList ++ text) (stops : Stops text) :
    ∃ id b, (Grammar.ofLevels n).typename.Gives s.place id b ∧ s.place.Leads b ∧
      b.analysis.arena.types.form id = ty ∧ b.analysis.report = s.analysis.report ∧
      (s.moveTo b).At (cursor.advance ty.name.length) ∧
      ∃ consumed : List Token, s.tokens.pending = consumed ++ b.tokens.pending ∧
        consumed.map Token.written = ty.lexemes 0 := by
  obtain ⟨consumed, scanned, written, unfaulted⟩ := spells_alone whole stops cursor name
  rw [String.length_toList] at scanned
  have pending : s.place.tokens.pending =
      consumed ++ (cursor.advance ty.name.length).tokens.1 := here.1.trans (congrArg Prod.fst scanned)
  have spells := spells_of_written pending written unfaulted
  rw [split_lexemes whole] at spells
  obtain ⟨id, b, reading, after, form, report⟩ := readsType whole fits spells
  refine ⟨id, b, reading.runs here.formed, reading.leads, form, report, ⟨after.done, ?_⟩, consumed, ?_,
    written⟩
  · have last : b.tokens.endToken = s.tokens.endToken := reading.leads.moves.endToken
    have ends : cursor.tokens.2 = (cursor.advance ty.name.length).tokens.2 := by rw [scanned]
    exact last.trans (here.2.trans ends)
  · rw [after.done]
    exact pending

/-- The name of a type is read back as the type. All it takes is white space or the end of the text
after the name, and as many levels as the type has. Nothing is reported, and the tokens of the name
are consumed and no others. So types of the same name are the same. -/
theorem name_readsBack (ty : Ty) (whole : ty.isWhole = true) :
    (∀ (s : Session) (cursor : Cursor) (text : List Char), s.At cursor →
      cursor.rest = ty.name.toList ++ text → (∀ c ∈ text.head?, Text.isBlank c = true) →
      s.depth + ty.height ≤ nestingLimit →
      ∃ id after, (Grammar.atDepth s.depth).typename.attempt s = (some id, after) ∧
        after.analysis.arena.types.form id = ty ∧ after.analysis.report = s.analysis.report ∧
        after.At (cursor.advance ty.name.length) ∧
        ∃ consumed : List Token, s.tokens.pending = consumed ++ after.tokens.pending ∧
          after.tokens.consumed = s.tokens.consumed + consumed.length ∧
          consumed.map Token.written = (scan ty.name).1.map Token.written) ∧
      ∀ other : Ty, other.isWhole = true → other.name = ty.name → other = ty := by
  refine ⟨fun s cursor text here name separate fits => ?_, fun other otherWhole same => ?_⟩
  · have levels : ty.height ≤ nestingLimit - s.depth := by omega
    obtain ⟨id, b, gives, leads, form, report, after, consumed, pending, written⟩ :=
      gives_at whole levels here name (stops_of_blank separate)
    refine ⟨id, s.moveTo b, gives s, form, report, after, consumed, pending, ?_, ?_⟩
    · have total : b.tokens.consumed + b.tokens.pending.length =
          s.tokens.consumed + s.tokens.pending.length := leads.moves.total here.formed
      rw [pending, List.length_append] at total
      change b.tokens.consumed = _
      omega
    · rw [written, scan_name whole]
  · -- Both are read at the same place, with levels enough for both.
    let cursor := Cursor.start ty.name.toList
    let s : Session := ⟨.start cursor.tokens.1 cursor.tokens.2, .empty, 0, []⟩
    have stops : Stops [] := by simp [Stops]
    have name : cursor.rest = ty.name.toList ++ [] := (List.append_nil _).symm
    have otherName : cursor.rest = other.name.toList ++ [] := by rw [same, name]
    have fits := Nat.max_le.mp (Nat.le_refl (max ty.height other.height))
    obtain ⟨id, b, gives, -, form, -⟩ := gives_at (s := s) whole fits.1 ⟨rfl, rfl⟩ name stops
    obtain ⟨otherId, c, otherGives, -, otherForm, -⟩ :=
      gives_at (s := s) otherWhole fits.2 ⟨rfl, rfl⟩ otherName stops
    have both := (gives s).symm.trans (otherGives s)
    have ids : id = otherId := Option.some.inj (congrArg Prod.fst both)
    have analyses : b.analysis = c.analysis := congrArg (·.2.analysis) both
    rw [← form, ← otherForm, ids, analyses]

set_option maxRecDepth 100000 in
theorem name_readsBack_nested :
    ∃ id after, (Grammar.atDepth 0).typename.attempt
        (.ofSource "const PTR<fn(PTR<PTR<PTR<const u8>>>, bool) -> PTR<PTR<void>>> >= 1") =
      (some id, after) ∧ after.analysis.arena.types.form id =
        .pointer true (.function (.pointer false (.pointer false .void))
          [.pointer false (.pointer false (.pointer false (.scalar .u8 true))),
            .scalar .bool false]) := by
  let source := "const PTR<fn(PTR<PTR<PTR<const u8>>>, bool) -> PTR<PTR<void>>> >= 1"
  let pointee : Ty := .pointer false (.pointer false (.scalar .u8 true))
  let nested : Ty := .pointer true (.function (.pointer false (.pointer false .void))
    [.pointer false pointee, .scalar .bool false])
  have separate : ∀ c ∈ (" >= 1".toList).head?, Text.isBlank c = true := by
    intro c first
    cases Option.mem_some_iff.mp first
    rfl
  obtain ⟨id, after, gives, form, -⟩ := (name_readsBack nested (by decide +kernel)).1
    (.ofSource source) (.start (readableText source)) " >= 1".toList ⟨rfl, rfl⟩ (by decide +kernel)
    separate (by decide +kernel)
  exact ⟨id, after, gives, form⟩

end Ty

end ScalarLang
