import ScalarLang.Analysis.Operation
import ScalarLang.Token.Basic
import ScalarLang.Token.NumberLiteral

/-! Magnitudes of literals: the numbers that payloads stand for, without their signs. Literals of
integers and truth values keep them when they are negated, and when they take another such type
without a change. -/

namespace ScalarLang

namespace Literal

open Number (twoPow)

/-- The absolute value. Of a floating value it is that of the whole part. -/
def Value.magnitude : Value → Nat
  | .int n => n.natAbs
  | .float pattern => (truncate pattern).natAbs

def magnitude (payload : Payload) (scalar : Scalar) : Nat := (decode payload scalar).magnitude

/-- Types that are not floating have integers as values. -/
theorem decode_of_not_floating {scalar : Scalar} (whole : scalar.isFloating = false)
    (payload : Payload) :
    decode payload scalar =
      .int (if scalar.isSigned then signedValue payload else payload.toNat) := by
  cases scalar with
  | f32 | f64 => cases whole
  | _ => rfl

theorem greatestWritten_lt (scalar : Scalar) :
    Numeral.greatestWritten scalar < 18446744073709551616 ∧
      (scalar.isSigned = true → Numeral.greatestWritten scalar < 9223372036854775808) := by
  cases scalar <;> decide

/-- What can be written with a type is read back. -/
theorem decode_ofNat {scalar : Scalar} {n : Nat} (whole : scalar.isFloating = false)
    (within : n ≤ Numeral.greatestWritten scalar) :
    (UInt64.ofNat n).toNat = n ∧ decode (UInt64.ofNat n) scalar = .int n := by
  obtain ⟨fits, fitsSigned⟩ := greatestWritten_lt scalar
  have toNat : (UInt64.ofNat n).toNat = n := by
    rw [UInt64.toNat_ofNat']
    exact Nat.mod_eq_of_lt (Nat.lt_of_le_of_lt within fits)
  refine ⟨toNat, ?_⟩
  rw [decode_of_not_floating whole]
  split
  · rename_i signed
    have half : twoPow 63 = 9223372036854775808 := rfl
    have small := Nat.lt_of_le_of_lt within (fitsSigned signed)
    rw [signedValue, toNat, half, if_pos small]
  · rw [toNat]

theorem magnitude_convert {payload : Payload} {source target : Scalar}
    (wholeSource : source.isFloating = false) (wholeTarget : target.isFloating = false)
    (same : changes payload source target = false) :
    magnitude (convert payload source target) target = magnitude payload source := by
  unfold changes at same
  unfold magnitude
  rw [decode_of_not_floating wholeSource, decode_of_not_floating wholeTarget] at same ⊢
  simp only [ne_eq, decide_not, Bool.not_eq_false', decide_eq_true_eq] at same
  rw [same]

theorem signedValue_neg (payload : Payload) :
    (signedValue (0 - payload)).natAbs = (signedValue payload).natAbs := by
  have word : twoPow 64 = 18446744073709551616 := rfl
  have half : twoPow 63 = 9223372036854775808 := rfl
  have bound : payload.toNat < 18446744073709551616 := payload.toNat_lt
  have negated :
      (0 - payload).toNat = (18446744073709551616 - payload.toNat) % 18446744073709551616 := by
    rw [UInt64.toNat_sub]
    rfl
  unfold signedValue
  rw [negated, word, half]
  split <;> split <;> omega

/-- Of the types that are not floating only the signed ones are negated. -/
theorem negatePayload_of_not_floating {payload negated : Payload} {scalar : Scalar}
    (whole : scalar.isFloating = false)
    (found : Check.negatePayload payload scalar = some negated) :
    scalar.isSigned = true ∧ negated = 0 - payload := by
  have signed : (if scalar.isSigned then some (0 - payload) else none) = some negated := by
    cases scalar with
    | f32 | f64 => cases whole
    | _ => exact found
  split at signed
  · rename_i isSigned
    cases signed
    exact ⟨isSigned, rfl⟩
  · cases signed

theorem magnitude_negate {payload negated : Payload} {scalar : Scalar}
    (whole : scalar.isFloating = false)
    (found : Check.negatePayload payload scalar = some negated) :
    magnitude negated scalar = magnitude payload scalar := by
  obtain ⟨isSigned, rfl⟩ := negatePayload_of_not_floating whole found
  unfold magnitude
  rw [decode_of_not_floating whole, decode_of_not_floating whole, if_pos isSigned,
    if_pos isSigned]
  exact signedValue_neg payload

end Literal

namespace Token

def magnitude? (token : Token) : Option Nat :=
  match token.kind with
  | .literal scalar => some (Literal.magnitude token.payload scalar)
  | _ => none

theorem magnitude?_literal {token : Token} {scalar : Scalar} (kind : token.kind = .literal scalar) :
    token.magnitude? = some (Literal.magnitude token.payload scalar) := by
  rw [magnitude?, kind]

theorem magnitude?_other {token : Token} (other : token.kind.isLiteral = false) :
    token.magnitude? = none := by
  unfold magnitude?
  split
  · rename_i kind
    rw [kind] at other
    cases other
  · rfl

end Token

end ScalarLang
