import ScalarLang.Proofs.Token.Spelled
import ScalarLang.Proofs.Ty.Equality

/-! How the name of a type is scanned. The angles that close nested pointer types stand side by side
and are scanned two at a time. -/

namespace ScalarLang.Ty

open Text (Spells closing)

mutual
def height : Ty → Nat
  | pointer _ pointee => height pointee + 1
  | function result params => max (height result) (heights params) + 1
  | void | scalar _ _ | error => 1

def heights : List Ty → Nat
  | [] => 0
  | ty :: rest => max (height ty) (heights rest)
end

def markLexemes (isConst : Bool) : List Lexeme := if isConst then [⟨.const, "const"⟩] else []

mutual
/-- The lexemes of a name that has as many closing angles after it. -/
def lexemes : Ty → Nat → List Lexeme
  | void, angles => ⟨.void, "void"⟩ :: closing angles
  | scalar s isConst, angles => markLexemes isConst ++ ⟨.scalar s, s.name⟩ :: closing angles
  | pointer isConst pointee, angles =>
    markLexemes isConst ++ ⟨.ptr, "PTR"⟩ :: ⟨.less, "<"⟩ :: lexemes pointee (angles + 1)
  | function result params, angles =>
    ⟨.fn, "fn"⟩ :: ⟨.openParen, "("⟩ ::
      (listLexemes params ++ ⟨.closeParen, ")"⟩ :: ⟨.arrow, "->"⟩ :: lexemes result angles)
  | error, _ => []

def listLexemes : List Ty → List Lexeme
  | [] => []
  | [ty] => lexemes ty 0
  | ty :: next :: rest => lexemes ty 0 ++ ⟨.comma, ","⟩ :: listLexemes (next :: rest)
end

/-- Nothing that follows makes a word or an angle at the end of a name longer. -/
def Stops (rest : List Char) : Prop := ∀ c ∈ rest.head?, c ≠ '=' ∧ c ≠ '>' ∧ isWordPart c = false

variable {rest : List Char}

theorem Stops.angles (stops : Stops rest) (angles : Nat) :
    ∀ c ∈ (List.replicate angles '>' ++ rest).head?, isWordPart c = false := by
  cases angles with
  | zero => exact fun c first => (stops c first).2.2
  | succ angles =>
    intro c first
    cases Option.mem_some_iff.mp first
    rfl

theorem spells_closing (stops : Stops rest) (angles : Nat) :
    Spells (List.replicate angles '>') rest (closing angles) :=
  Text.spells_closing angles fun c first => ⟨(stops c first).1, (stops c first).2.1⟩

theorem spells_mark (isConst : Bool) : Spells (constMark isConst).toList rest (markLexemes isConst) := by
  cases isConst with
  | false => exact .nil
  | true =>
    have listed : ("const", TokenKind.const) ∈ Spelling.reservedWords := by decide
    change Spells ("const".toList ++ [' ']) rest [⟨.const, "const"⟩]
    refine .cons (.reserved listed ?_) (.blank rfl)
    intro c first
    cases Option.mem_some_iff.mp first
    rfl

theorem scalar_listed (s : Scalar) : (s.name, TokenKind.scalar s) ∈ Spelling.reservedWords := by
  cases s <;> decide

/-- A name starts with a letter. -/
theorem name_head {ty : Ty} (whole : ty.isWhole = true) :
    ∃ c inside, ty.name.toList = c :: inside ∧ c ≠ '<' ∧ c ≠ '=' := by
  cases ty with
  | void => exact ⟨_, _, rfl, by decide, by decide⟩
  | error => cases whole
  | scalar s isConst =>
    cases isConst with
    | true => exact ⟨'c', _, by rw [name, String.toList_append]; rfl, by decide, by decide⟩
    | false => cases s <;> exact ⟨_, _, by rw [name, String.toList_append]; rfl, by decide, by decide⟩
  | pointer isConst pointee =>
    cases isConst with
    | true => exact ⟨'c', _, by simp only [name, String.toList_append]; rfl, by decide, by decide⟩
    | false => exact ⟨'P', _, by simp only [name, String.toList_append]; rfl, by decide, by decide⟩
  | function result params =>
    exact ⟨'f', _, by simp only [name, String.toList_append]; rfl, by decide, by decide⟩

/-- The angle that opens a pointer type stands before a name. -/
theorem spells_less {ty : Ty} (whole : ty.isWhole = true) :
    Spells ['<'] (ty.name.toList ++ rest) [⟨.less, "<"⟩] := by
  obtain ⟨c, inside, text, less, equals⟩ := name_head whole
  refine .symbol [] ?_ rfl
  rw [List.nil_append, text, List.cons_append]
  have same : Piece.read '<' (c :: (inside ++ rest)) = Piece.readSymbol '<' (c :: (inside ++ rest)) :=
    rfl
  simp [same, Piece.readSymbol, Spelling.symbol?, Spelling.symbols, List.isPrefixOf, less.symm,
    equals.symm]

mutual
/-- A name is scanned as its lexemes. -/
theorem spells_name : ∀ {ty : Ty}, ty.isWhole = true → ∀ (angles : Nat) {rest : List Char},
    Stops rest → Spells (ty.name.toList ++ List.replicate angles '>') rest (ty.lexemes angles)
  | void, _, angles, rest, stops => by
    have listed : ("void", TokenKind.void) ∈ Spelling.reservedWords := by decide
    exact .cons (.reserved listed (stops.angles angles)) (spells_closing stops angles)
  | scalar s isConst, _, angles, rest, stops => by
    rw [name, String.toList_append, List.append_assoc]
    refine .append (spells_mark isConst) ?_
    exact .cons (.reserved (scalar_listed s) (stops.angles angles)) (spells_closing stops angles)
  | pointer isConst pointee, whole, angles, rest, stops => by
    have whole : pointee.isWhole = true := by simpa [isWhole] using whole
    have listed : ("PTR", TokenKind.ptr) ∈ Spelling.reservedWords := by decide
    have text : (pointer isConst pointee).name.toList ++ List.replicate angles '>' =
        (constMark isConst).toList ++ ("PTR".toList ++
          (['<'] ++ (pointee.name.toList ++ List.replicate (angles + 1) '>'))) := by
      simp [name, List.replicate_succ]
    rw [text]
    refine .append (spells_mark isConst) (.cons (.reserved listed ?_) (.cons ?_ ?_))
    · simp [isWordPart, isWordStart, isDigitOf, digitValue]
    · rw [List.append_assoc]
      exact spells_less whole
    · exact spells_name whole (angles + 1) stops
  | function result params, whole, angles, rest, stops => by
    obtain ⟨whole, params_whole⟩ : result.isWhole = true ∧ areWhole params = true := by
      simpa [isWhole] using whole
    have listed : ("fn", TokenKind.fn) ∈ Spelling.reservedWords := by decide
    have text : (function result params).name.toList ++ List.replicate angles '>' =
        "fn".toList ++ (['('] ++ ((", ".intercalate (names params)).toList ++ ([')'] ++ ([' '] ++
          (['-', '>'] ++ ([' '] ++ (result.name.toList ++ List.replicate angles '>'))))))) := by
      simp [name]
    rw [text]
    refine .cons (.reserved listed ?_) (.cons (.symbol [] rfl rfl) (.append ?_ ?_))
    · simp [isWordPart, isWordStart, isDigitOf, digitValue]
    · refine spells_names params_whole fun c first => ?_
      cases Option.mem_some_iff.mp first
      decide
    · refine .cons (.symbol [] rfl rfl) (.append (.blank rfl) ?_)
      refine .cons (.symbol ['>'] rfl rfl) (.append (.blank rfl) ?_)
      exact spells_name whole angles stops

theorem spells_names : ∀ {tys : List Ty}, areWhole tys = true → ∀ {rest : List Char}, Stops rest →
    Spells (", ".intercalate (names tys)).toList rest (listLexemes tys)
  | [], _, rest, _ => .nil
  | [ty], whole, rest, stops => by
    have whole : ty.isWhole = true := by simpa [areWhole] using whole
    have one := spells_name whole 0 stops
    simpa [names, listLexemes] using one
  | ty :: next :: others, whole, rest, stops => by
    obtain ⟨whole, others_whole⟩ : ty.isWhole = true ∧ areWhole (next :: others) = true := by
      simpa [areWhole] using whole
    have text : (", ".intercalate (names (ty :: next :: others))).toList =
        ty.name.toList ++ List.replicate 0 '>' ++
          ([','] ++ ([' '] ++ (", ".intercalate (names (next :: others))).toList)) := by
      simp [names, String.intercalate_cons_cons]
    rw [text]
    refine .append (spells_name whole 0 fun c first => ?_) ?_
    · cases Option.mem_some_iff.mp first
      decide
    · refine .cons (.symbol [] rfl rfl) (.append (.blank rfl) ?_)
      exact spells_names others_whole stops
end

mutual
/-- A name is read as far as it goes. -/
theorem name_readable : ∀ ty : Ty, '\x00' ∉ ty.name.toList
  | void | error => by decide
  | scalar s isConst => by cases s <;> cases isConst <;> decide
  | pointer isConst pointee => by
    have mark : '\x00' ∉ (constMark isConst).toList := by cases isConst <;> decide
    simp [name, mark, name_readable pointee]
  | function result params => by
    have list := names_readable params
    simpa [name, name_readable result] using list

theorem names_readable : ∀ tys : List Ty, '\x00' ∉ (", ".intercalate (names tys)).toList
  | [] => by decide
  | [ty] => by simpa [names] using name_readable ty
  | ty :: next :: rest => by
    have others := names_readable (next :: rest)
    simpa [names, name_readable ty] using others
end

/-- A name that stands alone is scanned as its lexemes. -/
theorem spells_alone {ty : Ty} (whole : ty.isWhole = true) (stops : Stops rest) :
    Spells ty.name.toList rest (ty.lexemes 0) := by
  simpa using spells_name whole 0 stops

theorem scan_name {ty : Ty} (whole : ty.isWhole = true) :
    (scan ty.name).1.map Token.written = ty.lexemes 0 := by
  have readable : readableText ty.name = ty.name.toList := by
    refine List.takeWhile_eq_self_iff.mpr fun c member => ?_
    simpa using fun nul : c = '\x00' => ty.name_readable (nul ▸ member)
  have scanned : scan ty.name = (Cursor.start ty.name.toList).tokens := by
    rw [scan, readable]
    rfl
  have text : (Cursor.start ty.name.toList).rest = ty.name.toList ++ [] := (List.append_nil _).symm
  obtain ⟨tokens, same, written, -⟩ := spells_alone whole (by simp [Stops]) _ text
  rw [scanned, same, Cursor.tokens_ended, List.append_nil, written]
  rw [Cursor.advance_rest, text, List.drop_left]

end ScalarLang.Ty
