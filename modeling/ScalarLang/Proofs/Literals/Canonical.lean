import ScalarLang.Proofs.Literals.Residue
import ScalarLang.Proofs.Literals.Written

/-! Payloads that are those of numbers of their types. Literals are written with such payloads and
conversions make no others, but negation takes the least number of a narrow type out of the type. -/

namespace ScalarLang

namespace Scalar

variable {scalar : Scalar} {payload : Payload} {n : Int}

def Holds (scalar : Scalar) (payload : Payload) : Prop :=
  ∃ n, scalar.Represents n ∧ payload = scalar.payload n

def least (scalar : Scalar) : Int := -2 ^ (scalar.width - 1)

theorem two_pow_width_le (scalar : Scalar) : (2 : Int) ^ scalar.width ≤ 2 ^ 64 := by
  exact_mod_cast Nat.pow_le_pow_right (by decide) scalar.width_le

/-- A number of the type is a word already. -/
theorem payload_eq (represents : scalar.Represents n) : scalar.payload n = UInt64.ofInt n := by
  have residue := residue_eq_iff.mpr represents
  have halves := scalar.two_pow_width
  have bound := scalar.two_pow_width_le
  apply UInt64.toBitVec_inj.mp
  rw [Literal.toBitVec_ofInt, payload]
  rw [Scalar.residue] at residue
  rw [Represents] at represents
  cases signed : scalar.isSigned with
  | true =>
    simp only [signed, if_true] at residue represents
    apply BitVec.eq_of_toInt_eq
    rw [if_pos rfl, BitVec.toInt_signExtend_of_le scalar.width_le, BitVec.toInt_ofInt,
      BitVec.toInt_ofInt, residue]
    exact (Int.bmod_eq_of_le_mul_two (by omega) (by omega)).symm
  | false =>
    simp only [signed, Bool.false_eq_true, if_false] at residue represents
    apply BitVec.eq_of_toNat_eq
    have word : n % 18446744073709551616 = n := Int.emod_eq_of_lt represents.1 (by omega)
    change (BitVec.setWidth 64 (BitVec.ofInt scalar.width n)).toNat = _
    rw [BitVec.toNat_setWidth_of_le scalar.width_le, BitVec.toNat_ofInt, BitVec.toNat_ofInt]
    push_cast
    rw [residue, word]

theorem holds_payload (scalar : Scalar) (n : Int) : scalar.Holds (scalar.payload n) :=
  ⟨scalar.residue n, scalar.represents_residue n, (payload_congr (scalar.residue_modEq n)).symm⟩

theorem holds_ofInt (represents : scalar.Represents n) : scalar.Holds (UInt64.ofInt n) :=
  ⟨n, represents, (payload_eq represents).symm⟩

/-- Only the least number of a signed type narrower than a payload has no negation in the type. -/
theorem Holds.negate (holds : scalar.Holds payload) (signed : scalar.isSigned = true) :
    scalar.Holds (0 - payload) ∨ scalar.bits < 64 ∧ payload = scalar.payload scalar.least ∧
      0 - payload = UInt64.ofInt (2 ^ (scalar.bits - 1)) := by
  obtain ⟨n, represents, rfl⟩ := holds
  rw [payload_eq represents, UInt64.zero_sub, ← UInt64.ofInt_neg]
  have range := represents
  rw [Represents, if_pos signed] at range
  by_cases inside : n = scalar.least
  · subst inside
    by_cases narrow : scalar.bits < 64
    · refine .inr ⟨narrow, (payload_eq represents).symm, ?_⟩
      rw [least, neg_neg, width_of_narrow narrow]
    · -- The greatest word is followed by the least one.
      have full := width_of_wide (Nat.le_of_not_lt narrow)
      have wrapped : UInt64.ofInt (- -2 ^ (64 - 1)) = UInt64.ofInt (-2 ^ (64 - 1)) := by decide
      left
      rw [least, full] at represents ⊢
      exact wrapped.symm ▸ holds_ofInt represents
  · left
    apply holds_ofInt
    rw [Represents, if_pos signed]
    unfold least at inside
    omega

/-- The negation of what exceeds the type is the least number again. -/
theorem holds_negate_exceeding (signed : scalar.isSigned = true) (narrow : scalar.bits < 64) :
    scalar.Holds (0 - UInt64.ofInt (2 ^ (scalar.bits - 1))) := by
  have width := width_of_narrow narrow
  rw [UInt64.zero_sub, ← UInt64.ofInt_neg]
  apply holds_ofInt
  have positive : (0 : Int) < 2 ^ (scalar.bits - 1) := Int.pow_pos (by decide)
  rw [Represents, if_pos signed, width]
  omega

end Scalar

namespace Literal

theorem ofInt_natCast (n : Nat) : UInt64.ofInt n = UInt64.ofNat n := by
  apply UInt64.toNat_inj.mp
  rw [UInt64.ofInt, UInt64.toNat_ofNat', UInt64.toNat_ofNat']
  omega

/-- What a type holds is what stands for a number of the type. -/
theorem holds_iff {scalar : Scalar} {payload : Payload} (whole : scalar.isFloating = false) :
    scalar.Holds payload ↔ ∃ n, decode payload scalar = .int n ∧ scalar.Represents n := by
  constructor
  · rintro ⟨n, represents, rfl⟩
    exact ⟨_, decode_payload whole n, scalar.represents_residue n⟩
  · rintro ⟨n, read, represents⟩
    rw [decode_of_not_floating whole] at read
    have word : UInt64.ofInt n = payload := by
      rw [← Value.int.inj read]
      split
      · apply UInt64.toBitVec_inj.mp
        rw [toBitVec_ofInt, signedValue_eq, BitVec.ofInt_toInt]
      · rw [ofInt_natCast, UInt64.ofNat_toNat]
    exact word ▸ Scalar.holds_ofInt represents

variable {source target : Scalar}

theorem holds_ofBool (b : Bool) : Scalar.bool.Holds (ofBool b) := by
  cases b with
  | false => exact ⟨0, by decide, by decide⟩
  | true => exact ⟨1, by decide, by decide⟩

/-- Whatever is made a value of the type is a number of the type then. -/
theorem holds_encode (whole : target.isFloating = false) (value : Value) :
    target.Holds (encode target value) := by
  have narrowed (scalar : Scalar) (n : Int) : scalar.Holds (narrow scalar n) := by
    rw [narrow_eq]
    exact scalar.holds_payload n
  cases value with
  | int n =>
    cases target with
    | f32 | f64 => cases whole
    | bool => exact holds_ofBool _
    | _ => exact narrowed _ n
  | float pattern =>
    cases target with
    | f32 | f64 => cases whole
    | bool => exact holds_ofBool _
    | _ => exact narrowed _ _

theorem holds_convert (whole : target.isFloating = false) (payload : Payload) (source : Scalar) :
    target.Holds (convert payload source target) :=
  holds_encode whole _

end Literal

namespace Token

/-- A literal that was read holds a number of its type. -/
def Fits (token : Token) : Prop :=
  ∀ scalar, token.kind = .literal scalar → scalar.isFloating = false → scalar.Holds token.payload

theorem fits_of_not_literal {token : Token} (other : token.kind.isLiteral = false) : token.Fits := by
  intro scalar literal
  rw [literal] at other
  cases other

end Token

theorem Numeral.represents_of_le {scalar : Scalar} {n : Nat}
    (within : n ≤ greatestWritten scalar) : scalar.Represents n := by
  have positive (width : Nat) : 0 < 2 ^ width := Nat.two_pow_pos width
  unfold greatestWritten at within
  unfold Scalar.Represents
  cases signed : scalar.isSigned with
  | true =>
    simp only [signed, if_true] at within ⊢
    have greatest : n < 2 ^ (scalar.width - 1) := Nat.lt_of_le_pred (positive _) within
    have least : (0 : Int) < 2 ^ (scalar.width - 1) := Int.pow_pos (by decide)
    exact ⟨by omega, by exact_mod_cast greatest⟩
  | false =>
    simp only [signed, Bool.false_eq_true, if_false] at within ⊢
    have greatest : n < 2 ^ scalar.width := Nat.lt_of_le_pred (positive _) within
    exact ⟨Int.natCast_nonneg n, by exact_mod_cast greatest⟩

namespace Piece

theorem wordToken_fits (text : List Char) (span : Span) : (wordToken text span).Fits := by
  intro scalar literal _
  have kind : (Spelling.reserved? (String.ofList text)).getD .identifier = .literal scalar := literal
  cases reserved : Spelling.reserved? (String.ofList text) with
  | none =>
    rw [reserved] at kind
    cases kind
  | some found =>
    rw [reserved, Option.getD_some] at kind
    subst kind
    obtain ⟨rfl, -⟩ := reserved_literal reserved
    have payload : (wordToken text span).payload =
        Literal.ofBool (String.ofList text = "true") := by
      simp [wordToken, Literal.ofBool]
    rw [payload]
    exact Literal.holds_ofBool _

theorem numberToken_fits (numeral : Numeral) (span : Span) : (numberToken numeral span).Fits := by
  intro scalar literal whole
  unfold numberToken at literal ⊢
  cases classified : numeral.classify with
  | error fault =>
    rw [classified] at literal
    cases literal
  | ok entry =>
    obtain ⟨found, payload⟩ := entry
    rw [classified] at literal
    cases literal
    obtain ⟨within, rfl⟩ := Numeral.payload_of_classify classified whole
    change scalar.Holds (UInt64.ofNat _)
    rw [← Literal.ofInt_natCast]
    exact Scalar.holds_ofInt (Numeral.represents_of_le within)

end Piece

/-- Numbers are not greater than what can be written with their types, and the payloads of words are
those of truth values. -/
theorem Token.OfPiece.fits {token : Token} (scanned : token.OfPiece) : token.Fits := by
  obtain plain | ⟨text, span, rfl⟩ | ⟨numeral, text, rest, span, -, rfl⟩ := scanned.cases
  · exact fits_of_not_literal plain
  · exact Piece.wordToken_fits text span
  · exact Piece.numberToken_fits numeral span

end ScalarLang
