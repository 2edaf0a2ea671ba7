import Mathlib.Data.Nat.Digits.Defs
import ScalarLang.Proofs.Literals.Magnitude
import ScalarLang.Proofs.Token.LongestMatch
import ScalarLang.Proofs.Token.Spelled

/-! Every number is a literal or an error, and its suffix, its shape and its size say which. -/

namespace ScalarLang

theorem Number.ofDigits_eq (radix : Nat) (digits : List Nat) :
    ofDigits radix digits = Nat.ofDigits radix digits.reverse := by
  rw [Nat.ofDigits_eq_foldr, List.foldr_reverse, ofDigits]
  congr 1
  funext value digit
  rw [Nat.add_comm, Nat.mul_comm]
  rfl

def Token.Fails (token : Token) (fault : LexicalFault) : Prop :=
  token.kind = .error ∧ token.fault = some fault

namespace Numeral

def integerSuffixes : List (String × Scalar) :=
  [("", .i64), ("u8", .u8), ("u16", .u16), ("u32", .u32), ("u64", .u64), ("u128", .u128),
   ("i8", .i8), ("i16", .i16), ("i32", .i32), ("i64", .i64), ("i128", .i128)]

theorem integerScalar?_iff {suffix : String} {scalar : Scalar} :
    integerScalar? suffix = some scalar ↔ (suffix, scalar) ∈ integerSuffixes := by
  constructor
  · intro found
    unfold integerScalar? at found
    split at found
    · rename_i empty
      cases found
      rw [empty]
      decide
    · obtain ⟨named, integral⟩ := Option.filter_eq_some_iff.mp found
      have name : scalar.name = suffix := by simpa using List.find?_some named
      rw [← name]
      cases scalar with
      | f32 | f64 | bool => cases integral
      | _ => decide
  · have checked : ∀ entry ∈ integerSuffixes, integerScalar? entry.1 = some entry.2 := by decide
    exact checked (suffix, scalar)

/-- The greatest number of a type that a literal can be written with. -/
def limit (scalar : Scalar) : Nat :=
  if scalar.isSigned then 2 ^ (min scalar.bits 64 - 1) - 1 else 2 ^ min scalar.bits 64 - 1

theorem greatestWritten_eq (scalar : Scalar) : greatestWritten scalar = limit scalar := by
  cases scalar <;> rfl

/-- The number that digits denote in a radix. -/
def denoted (radix : Nat) (digits : List Char) : Nat :=
  Nat.ofDigits radix (digits.reverse.map digitValue)

/-- The number that the digits of a body denote, without a fraction and an exponent. -/
def Body.denoted : Body → Nat
  | based base digits => Numeral.denoted base.radix digits
  | decimal whole _ _ => Numeral.denoted 10 whole

theorem Body.wholeValue_eq (body : Body) : body.wholeValue = body.denoted := by
  cases body <;>
    simp only [wholeValue, denoted, Numeral.denoted, Number.ofDigits_eq, List.map_reverse]

/-- The suffix is that of a floating type, or there is none and the shape is that of one. -/
def IsFloating (numeral : Numeral) : Prop :=
  numeral.suffix = "f32".toList ∨ numeral.suffix = "f64".toList ∨
    numeral.suffix = [] ∧ numeral.body.isFractional = true

inductive Classed (numeral : Numeral) (token : Token) : Prop
  | basedFloat {base digits} : numeral.IsFloating → numeral.body = .based base digits →
      token.Fails (.mismatchedLiteralSuffix (String.ofList numeral.text)) → Classed numeral token
  | float {whole fraction exponent} : numeral.IsFloating →
      numeral.body = .decimal whole fraction exponent →
      token.kind = .literal (if numeral.suffix = "f32".toList then .f32 else .f64) →
      token.payload = (floatLiteral ((toDecimal whole fraction exponent).round .binary64)
        (numeral.suffix = "f32".toList)).2 →
      token.fault = none → Classed numeral token
  | unknownSuffix : ¬numeral.IsFloating →
      (∀ scalar, (String.ofList numeral.suffix, scalar) ∉ integerSuffixes) →
      token.Fails (.invalidLiteralSuffix (String.ofList numeral.text)) → Classed numeral token
  | fractional {scalar} : ¬numeral.IsFloating →
      (String.ofList numeral.suffix, scalar) ∈ integerSuffixes →
      numeral.body.isFractional = true →
      token.Fails (.mismatchedLiteralSuffix (String.ofList numeral.text)) → Classed numeral token
  | integer {scalar} : ¬numeral.IsFloating →
      (String.ofList numeral.suffix, scalar) ∈ integerSuffixes →
      numeral.body.isFractional = false → numeral.body.denoted ≤ limit scalar →
      token.kind = .literal scalar → token.payload.toNat = numeral.body.denoted →
      Literal.decode token.payload scalar = .int numeral.body.denoted →
      token.fault = none → Classed numeral token
  | outOfRange {scalar} : ¬numeral.IsFloating →
      (String.ofList numeral.suffix, scalar) ∈ integerSuffixes →
      numeral.body.isFractional = false → limit scalar < numeral.body.denoted →
      token.Fails (.literalOutOfRange (String.ofList numeral.text) scalar.name) →
      Classed numeral token

theorem ofList_eq_iff (text : List Char) (word : String) :
    String.ofList text = word ↔ text = word.toList :=
  ⟨fun same => by rw [← same, String.toList_ofList],
    fun same => by rw [same, String.ofList_toList]⟩

/-- The test for floating suffixes and shapes. -/
theorem isFloating_iff (numeral : Numeral) :
    (String.ofList numeral.suffix = "f32" ∨ String.ofList numeral.suffix = "f64" ∨
      (String.ofList numeral.suffix = "" ∧ numeral.body.isFractional = true)) ↔
      numeral.IsFloating := by
  simp only [ofList_eq_iff, IsFloating, String.toList_empty]

variable {numeral : Numeral} {span : Span}

theorem numberToken_error (span : Span) {fault : LexicalFault}
    (classified : numeral.classify = .error fault) :
    (Piece.numberToken numeral span).Fails fault := by
  rw [Piece.numberToken, classified]
  exact ⟨rfl, rfl⟩

theorem numberToken_ok (span : Span) {literal : Scalar × Payload}
    (classified : numeral.classify = .ok literal) : Piece.numberToken numeral span =
      ⟨.literal literal.1, String.ofList numeral.text, literal.2, span, none⟩ := by
  rw [Piece.numberToken, classified]

theorem floatLiteral_scalar (pattern : Nat) (isSingle : Bool) :
    (floatLiteral pattern isSingle).1 = if isSingle then .f32 else .f64 := by
  cases isSingle <;> rfl

theorem classed_floating (floating : numeral.IsFloating) :
    numeral.Classed (Piece.numberToken numeral span) := by
  have tested := numeral.isFloating_iff.mpr floating
  cases body : numeral.body with
  | based base digits =>
    have classified : numeral.classify =
        .error (.mismatchedLiteralSuffix (String.ofList numeral.text)) := by
      unfold classify
      rw [if_pos tested, body]
    exact .basedFloat floating body (numberToken_error span classified)
  | decimal whole fraction exponent =>
    have classified : numeral.classify =
        .ok (floatLiteral ((toDecimal whole fraction exponent).round .binary64)
          (numeral.suffix = "f32".toList)) := by
      unfold classify
      rw [if_pos tested, body]
      simp only [ofList_eq_iff]
    rw [numberToken_ok span classified]
    refine .float floating body ?_ rfl rfl
    simp only [floatLiteral_scalar, decide_eq_true_eq]

/-- A number without the suffix or the shape of a floating one is an integer, where its suffix, its
shape and its size allow it. -/
theorem classed_integer (plain : ¬numeral.IsFloating) :
    numeral.Classed (Piece.numberToken numeral span) := by
  have tested := mt numeral.isFloating_iff.mp plain
  cases named : integerScalar? (String.ofList numeral.suffix) with
  | none =>
    have classified : numeral.classify =
        .error (.invalidLiteralSuffix (String.ofList numeral.text)) := by
      simp only [classify, if_neg tested, named]
    refine .unknownSuffix plain (fun scalar listed => ?_) (numberToken_error span classified)
    rw [integerScalar?_iff.mpr listed] at named
    cases named
  | some scalar =>
    have listed := integerScalar?_iff.mp named
    by_cases fractional : numeral.body.isFractional = true
    · have classified : numeral.classify =
          .error (.mismatchedLiteralSuffix (String.ofList numeral.text)) := by
        simp only [classify, if_neg tested, named, if_pos fractional]
      exact .fractional plain listed fractional (numberToken_error span classified)
    have shape : numeral.body.isFractional = false := by simpa using fractional
    by_cases within : numeral.body.denoted ≤ limit scalar
    · have tried : numeral.body.wholeValue ≤ greatestWritten scalar := by
        rwa [Body.wholeValue_eq, greatestWritten_eq]
      have classified : numeral.classify =
          .ok (scalar, UInt64.ofNat numeral.body.wholeValue) := by
        simp only [classify, if_neg tested, named, if_neg fractional, if_pos tried]
      have whole : scalar.isFloating = false := by
        have checked : ∀ entry ∈ integerSuffixes, entry.2.isFloating = false := by decide
        exact checked _ listed
      obtain ⟨toNat, decoded⟩ := Literal.decode_ofNat whole tried
      rw [Body.wholeValue_eq] at classified toNat decoded
      rw [numberToken_ok span classified]
      exact .integer plain listed shape within rfl toNat decoded rfl
    · have tried : ¬numeral.body.wholeValue ≤ greatestWritten scalar := by
        rwa [Body.wholeValue_eq, greatestWritten_eq]
      have classified : numeral.classify =
          .error (.literalOutOfRange (String.ofList numeral.text) scalar.name) := by
        simp only [classify, if_neg tested, named, if_neg fractional, if_neg tried]
      exact .outOfRange plain listed shape (Nat.lt_of_not_le within)
        (numberToken_error span classified)

theorem Classed.recognised {token : Token} (classed : numeral.Classed token) (text : String) :
    token.fault ≠ some (.unrecognisedToken text) := by
  intro unrecognised
  cases classed with
  | basedFloat _ _ fails | unknownSuffix _ _ fails | fractional _ _ _ fails
  | outOfRange _ _ _ _ fails =>
    rw [fails.2] at unrecognised
    cases unrecognised
  | float _ _ _ _ none | integer _ _ _ _ _ _ _ none =>
    rw [none] at unrecognised
    cases unrecognised

end Numeral

/-- The longest number that stands at the start of a text is read of it. -/
theorem Numeral.read_of_longest {text rest : List Char}
    (longest : Text.Longest pattern text rest) :
    ∃ numeral : Numeral, read (text ++ rest) = some (numeral, rest) ∧ numeral.text = text := by
  obtain ⟨written, proper, rfl⟩ := mem_pattern.mp longest.member
  obtain ⟨numeral, after, found, -⟩ := read_longest proper rest
  obtain ⟨same, left⟩ := (longest_pattern found).unique longest (read_append found)
  exact ⟨numeral, left ▸ found, same⟩

/-- A text that the pattern of numbers matches is split in one way, and its token is the literal or
the error that body and suffix call for. The lexeme is the text in any case, and no number is an
unrecognised token. -/
theorem Lexer.next_number {lexer : Lexer} {text rest : List Char}
    (here : lexer.cursor.rest = text ++ rest)
    (longest : Text.Longest Numeral.pattern text rest) :
    ∃ numeral : Numeral, numeral.Splits text ∧ (∀ other, other.Splits text → other = numeral) ∧
      numeral.Classed lexer.next.1 ∧
      lexer.next.1.lexeme = String.ofList text ∧
      lexer.next.2 = ⟨lexer.cursor.advance text.length,
        lexer.next.1.fault.or lexer.pendingFault⟩ ∧
      ∀ token, lexer.next.1.fault ≠ some (.unrecognisedToken token) := by
  obtain ⟨numeral, found, rfl⟩ := Numeral.read_of_longest longest
  obtain ⟨c, others, text⟩ := List.exists_cons_of_ne_nil (Numeral.text_ne_nil found)
  have whole : lexer.cursor.rest = c :: (others ++ rest) := by rw [here, text, List.cons_append]
  have read : Piece.read c (others ++ rest) = .number numeral :=
    (Piece.Reading.number (by rw [← List.cons_append, ← text, found])).read_eq
  have next := Cursor.next_piece whole
  rw [read] at next
  have moved : lexer.cursor.next = (Piece.numberToken numeral (lexer.cursor.span
      (Piece.number numeral).spanWidth), lexer.cursor.advance numeral.text.length) := next
  have token : lexer.next.1 = Piece.numberToken numeral
      (lexer.cursor.span (Piece.number numeral).spanWidth) := by rw [Lexer.next, moved]
  have classed : numeral.Classed lexer.next.1 := by
    rw [token]
    exact (Classical.em numeral.IsFloating).elim Numeral.classed_floating Numeral.classed_integer
  refine ⟨numeral, Numeral.read_splits found, fun other splits => ?_, classed, ?_, ?_,
    classed.recognised⟩
  · exact (Numeral.read_splits found).unique splits
  · have found : (Piece.number numeral).toToken? (lexer.cursor.span
        (Piece.number numeral).spanWidth) = some lexer.next.1 := by rw [token, Piece.toToken?]
    have lexeme : lexer.next.1.lexeme.toList = numeral.text := Token.toToken?_lexeme found
    rw [← lexeme, String.ofList_toList]
  · rw [Lexer.next, moved]

theorem Lexer.next_number_byte :
    (ofSource "300u8;").cursor.rest = "300u8".toList ++ [';'] ∧
      Text.Longest Numeral.pattern "300u8".toList [';'] ∧
      (∃ numeral : Numeral, numeral.Splits "300u8".toList ∧
        (∀ other, other.Splits "300u8".toList → other = numeral) ∧
        numeral.Classed (ofSource "300u8;").next.1 ∧
        (ofSource "300u8;").next.1.lexeme = String.ofList "300u8".toList ∧
        (ofSource "300u8;").next.2 = ⟨(ofSource "300u8;").cursor.advance "300u8".toList.length,
          (ofSource "300u8;").next.1.fault.or (ofSource "300u8;").pendingFault⟩ ∧
        ∀ token, (ofSource "300u8;").next.1.fault ≠ some (.unrecognisedToken token)) ∧
      (ofSource "300u8;").next.1.fault = some (.literalOutOfRange "300u8" "u8") := by
  have here : (ofSource "300u8;").cursor.rest = "300u8".toList ++ [';'] := by decide +kernel
  have read : Numeral.read "300u8;".toList =
      some (⟨.decimal ['3', '0', '0'] none none, ['u', '8']⟩, [';']) := by decide +kernel
  have longest : Text.Longest Numeral.pattern "300u8".toList [';'] := Numeral.longest_pattern read
  exact ⟨here, longest, next_number here longest, by decide +kernel⟩

end ScalarLang
