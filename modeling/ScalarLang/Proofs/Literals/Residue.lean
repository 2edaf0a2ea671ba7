import Mathlib.Data.Int.ModEq
import ScalarLang.Proofs.Literals.Magnitude

/-! Integer literals are residues. An integral type represents one number of each residue class
modulo its width, and a conversion to the type picks that number, whatever the payload was. -/

namespace ScalarLang

namespace Scalar

/-- The bits of a number that a payload keeps. -/
def width (scalar : Scalar) : Nat := min scalar.bits 64

/-- The numbers that a payload of the type holds. -/
def Represents (scalar : Scalar) (n : Int) : Prop :=
  if scalar.isSigned then -2 ^ (scalar.width - 1) ≤ n ∧ n < 2 ^ (scalar.width - 1)
  else 0 ≤ n ∧ n < 2 ^ scalar.width

instance (scalar : Scalar) (n : Int) : Decidable (scalar.Represents n) :=
  inferInstanceAs (Decidable (if scalar.isSigned
    then -2 ^ (scalar.width - 1) ≤ n ∧ n < 2 ^ (scalar.width - 1)
    else 0 ≤ n ∧ n < 2 ^ scalar.width))

/-- A number as a payload: its low bits, extended by the sign for a signed type and by zeros for any
other. -/
def payload (scalar : Scalar) (n : Int) : Payload :=
  if scalar.isSigned then .ofBitVec ((BitVec.ofInt scalar.width n).signExtend 64)
  else .ofBitVec ((BitVec.ofInt scalar.width n).setWidth 64)

/-- The number that the type represents of a residue class. -/
def residue (scalar : Scalar) (n : Int) : Int :=
  if scalar.isSigned then n.bmod (2 ^ scalar.width) else n % 2 ^ scalar.width

variable {scalar : Scalar} {n m : Int}

theorem width_le (scalar : Scalar) : scalar.width ≤ 64 := Nat.min_le_right _ _

theorem width_of_narrow (narrow : scalar.bits < 64) : scalar.width = scalar.bits :=
  Nat.min_eq_left narrow.le

theorem width_of_wide (wide : 64 ≤ scalar.bits) : scalar.width = 64 := Nat.min_eq_right wide

theorem width_pos (scalar : Scalar) : 0 < scalar.width := by cases scalar <;> decide

/-- The halves of a residue class's range. -/
theorem two_pow_width (scalar : Scalar) :
    (2 : Int) ^ scalar.width = 2 * 2 ^ (scalar.width - 1) := by
  rw [← pow_succ', Nat.sub_add_cancel scalar.width_pos]

theorem represents_residue (scalar : Scalar) (n : Int) : scalar.Represents (scalar.residue n) := by
  have halves := scalar.two_pow_width
  have positive : (0 : Int) < 2 ^ (scalar.width - 1) := Int.pow_pos (by decide)
  unfold Represents residue
  split
  · have least := Int.le_bmod (x := n) (m := 2 ^ scalar.width) (Nat.two_pow_pos _)
    have greatest := Int.bmod_lt (x := n) (m := 2 ^ scalar.width) (Nat.two_pow_pos _)
    push_cast at least greatest
    omega
  · exact ⟨Int.emod_nonneg _ (by omega), Int.emod_lt_of_pos _ (by omega)⟩

theorem residue_modEq (scalar : Scalar) (n : Int) :
    scalar.residue n ≡ n [ZMOD 2 ^ scalar.width] := by
  unfold residue
  split
  · simpa [Int.ModEq] using Int.bmod_emod (x := n) (m := 2 ^ scalar.width)
  · exact Int.mod_modEq _ _

/-- A residue class has one represented number. -/
theorem Represents.eq_of_modEq (here : scalar.Represents m) (there : scalar.Represents n)
    (same : m ≡ n [ZMOD 2 ^ scalar.width]) : m = n := by
  have halves := scalar.two_pow_width
  have close : |m - n| < 2 ^ scalar.width := by
    rw [abs_lt]
    unfold Represents at here there
    cases signed : scalar.isSigned <;>
      simp only [signed, if_true, Bool.false_eq_true, if_false] at here there <;> omega
  exact Int.sub_eq_zero.mp (Int.eq_zero_of_abs_lt_dvd (Int.modEq_iff_dvd.mp same.symm) close)

theorem residue_eq_iff : scalar.residue n = n ↔ scalar.Represents n := by
  refine ⟨fun same => same ▸ scalar.represents_residue n, fun represents => ?_⟩
  exact (scalar.represents_residue n).eq_of_modEq represents (scalar.residue_modEq n)

/-- Congruent numbers are held in the same payload. -/
theorem payload_congr (same : m ≡ n [ZMOD 2 ^ scalar.width]) :
    scalar.payload m = scalar.payload n := by
  have bits : BitVec.ofInt scalar.width m = BitVec.ofInt scalar.width n := by
    apply BitVec.eq_of_toNat_eq
    rw [BitVec.toNat_ofInt, BitVec.toNat_ofInt]
    push_cast
    rw [same]
  rw [payload, payload, bits]

end Scalar

namespace Literal

open Number (twoPow)

variable {scalar : Scalar}

theorem signedValue_eq (payload : Payload) : signedValue payload = payload.toBitVec.toInt := by
  have word : twoPow 64 = 18446744073709551616 := rfl
  have half : twoPow 63 = 9223372036854775808 := rfl
  rw [signedValue, BitVec.toInt_eq_toNat_cond, UInt64.toNat_toBitVec, word, half]
  split <;> split <;> omega

/-- A payload is read as the number that it was made for, as far as the type represents it. -/
theorem decode_payload (whole : scalar.isFloating = false) (n : Int) :
    decode (scalar.payload n) scalar = .int (scalar.residue n) := by
  rw [decode_of_not_floating whole, Scalar.payload, Scalar.residue]
  congr 1
  cases scalar.isSigned with
  | true =>
    simp only [if_true, signedValue_eq]
    rw [BitVec.toInt_signExtend_of_le scalar.width_le, BitVec.toInt_ofInt]
  | false =>
    simp only [Bool.false_eq_true, if_false]
    have positive : (0 : Int) < 2 ^ scalar.width := Int.pow_pos (by decide)
    change ((BitVec.setWidth 64 (BitVec.ofInt scalar.width n)).toNat : Int) = _
    rw [BitVec.toNat_setWidth_of_le scalar.width_le, BitVec.toNat_ofInt]
    push_cast
    exact Int.toNat_of_nonneg (Int.emod_nonneg _ (by omega))

def lowMask (width : Nat) : UInt64 := (1 <<< UInt64.ofNat width) - 1

variable {width : Nat}

theorem toNat_ofNat_width (short : width < 64) : (UInt64.ofNat width).toNat = width := by
  rw [UInt64.toNat_ofNat']
  exact Nat.mod_eq_of_lt (by omega)

theorem toNat_lowMask (short : width < 64) : (lowMask width).toNat = 2 ^ width - 1 := by
  have fits : 2 ^ width < 2 ^ 64 := Nat.pow_lt_pow_right (by decide) short
  have shifted : (1 <<< UInt64.ofNat width : UInt64).toNat = 2 ^ width := by
    rw [UInt64.toNat_shiftLeft, toNat_ofNat_width short, Nat.mod_eq_of_lt short]
    rw [UInt64.toNat_one, Nat.one_shiftLeft, Nat.mod_eq_of_lt fits]
  have positive : 1 ≤ 2 ^ width := Nat.two_pow_pos width
  rw [lowMask, UInt64.toNat_sub_of_le, shifted, UInt64.toNat_one]
  rw [UInt64.le_iff_toNat_le, shifted]
  exact positive

/-- A mask truncates a word and widens it again. -/
theorem toBitVec_and_lowMask (short : width < 64) (word : UInt64) :
    (word &&& lowMask width).toBitVec = (word.toBitVec.setWidth width).setWidth 64 := by
  apply BitVec.eq_of_toNat_eq
  rw [BitVec.toNat_setWidth_of_le (by omega), BitVec.toNat_setWidth, UInt64.toNat_toBitVec,
    UInt64.toNat_toBitVec, UInt64.toNat_and, toNat_lowMask short, Nat.and_two_pow_sub_one_eq_mod]

theorem getLsbD_lowMask (short : width < 64) (index : Nat) :
    (lowMask width).toBitVec.getLsbD index = decide (index < width) := by
  rw [← BitVec.testBit_toNat, UInt64.toNat_toBitVec, toNat_lowMask short,
    Nat.testBit_two_pow_sub_one]

/-- Above the bits that a mask keeps its complement extends the sign of a negative number. -/
theorem toBitVec_or_not_lowMask (short : width < 64) (word : UInt64)
    (negative : (word.toBitVec.setWidth width).msb = true) :
    (word &&& lowMask width ||| ~~~lowMask width).toBitVec =
      (word.toBitVec.setWidth width).signExtend 64 := by
  apply BitVec.eq_of_getLsbD_eq
  intro index inside
  rw [UInt64.toBitVec_or, UInt64.toBitVec_not, toBitVec_and_lowMask short, BitVec.getLsbD_or,
    BitVec.getLsbD_not, getLsbD_lowMask short, BitVec.getLsbD_setWidth, BitVec.getLsbD_setWidth,
    BitVec.getLsbD_signExtend, BitVec.getLsbD_setWidth, negative]
  by_cases kept : index < width <;> simp [inside, kept]

/-- The sign of what a mask keeps is its last bit. -/
theorem sign_of_masked (positive : 0 < width) (short : width < 64) (word : UInt64) :
    ((word &&& lowMask width) >>> (UInt64.ofNat width - 1) == 1) =
      (word.toBitVec.setWidth width).msb := by
  have last : (UInt64.ofNat width - 1).toNat = width - 1 := by
    rw [UInt64.toNat_sub_of_le, toNat_ofNat_width short, UInt64.toNat_one]
    rw [UInt64.le_iff_toNat_le, toNat_ofNat_width short]
    exact positive
  have halves : 2 ^ width = 2 * 2 ^ (width - 1) := by
    rw [← pow_succ', Nat.sub_add_cancel positive]
  have bound : word.toNat % 2 ^ width < 2 ^ width := Nat.mod_lt _ (Nat.two_pow_pos _)
  rw [BitVec.msb_eq_decide, BitVec.toNat_setWidth, UInt64.toNat_toBitVec, Bool.eq_iff_iff,
    beq_iff_eq, decide_eq_true_iff, ← UInt64.toNat_inj, UInt64.toNat_shiftRight, last,
    Nat.mod_eq_of_lt (by omega), UInt64.toNat_and, toNat_lowMask short,
    Nat.and_two_pow_sub_one_eq_mod, Nat.shiftRight_eq_div_pow, UInt64.toNat_one]
  rw [Nat.div_eq_iff (Nat.two_pow_pos _)]
  omega

/-- The low word of a number has its low bits. -/
theorem setWidth_ofInt (short : width ≤ 64) (n : Int) :
    (UInt64.ofInt n).toBitVec.setWidth width = BitVec.ofInt width n := by
  have word : ((UInt64.ofInt n).toNat : Int) = n % 2 ^ 64 := by
    have least : 0 ≤ n % 2 ^ 64 := Int.emod_nonneg _ (by decide)
    have greatest : n % 2 ^ 64 < 2 ^ 64 := Int.emod_lt_of_pos _ (by decide)
    rw [UInt64.ofInt, UInt64.toNat_ofNat', Nat.mod_eq_of_lt (by omega), Int.toNat_of_nonneg least]
  have divides : (2 : Int) ^ width ∣ 2 ^ 64 := pow_dvd_pow 2 short
  have least : 0 ≤ n % 2 ^ width := Int.emod_nonneg _ (Int.pow_pos (by decide)).ne'
  apply BitVec.eq_of_toNat_eq
  rw [BitVec.toNat_setWidth, UInt64.toNat_toBitVec, BitVec.toNat_ofInt]
  apply Int.ofNat_inj.mp
  push_cast
  rw [word, Int.toNat_of_nonneg least, Int.emod_emod_of_dvd n divides]

theorem toBitVec_ofInt (n : Int) : (UInt64.ofInt n).toBitVec = BitVec.ofInt 64 n := by
  rw [← setWidth_ofInt (Nat.le_refl 64), BitVec.setWidth_eq]

/-- The payload of a number is cut from its low word. -/
theorem narrow_eq (scalar : Scalar) (n : Int) : narrow scalar n = scalar.payload n := by
  apply UInt64.toBitVec_inj.mp
  by_cases wide : 64 ≤ scalar.bits
  · rw [Scalar.payload, Scalar.width_of_wide wide, ← toBitVec_ofInt]
    simp [narrow, wide]
  · have short : scalar.bits < 64 := Nat.lt_of_not_le wide
    have cut := Scalar.width_of_narrow short
    have positive := scalar.width_pos
    rw [Scalar.payload, ← setWidth_ofInt scalar.width_le, cut]
    rw [narrow, if_neg wide]
    change UInt64.toBitVec (if scalar.isSigned && (UInt64.ofInt n &&& lowMask scalar.bits) >>>
      (UInt64.ofNat scalar.bits - 1) == 1 then _ else _) = _
    rw [sign_of_masked (cut ▸ positive) short]
    cases signed : scalar.isSigned with
    | false => exact toBitVec_and_lowMask short _
    | true =>
      cases sign : ((UInt64.ofInt n).toBitVec.setWidth scalar.bits).msb with
      | true => exact toBitVec_or_not_lowMask short _ sign
      | false =>
        rw [if_pos rfl, BitVec.signExtend_eq_setWidth_of_msb_false sign]
        exact toBitVec_and_lowMask short _

variable {source target : Scalar}

/-- What an integral type makes of a number. -/
theorem encode_int (integral : target.isIntegral = true) (n : Int) :
    encode target (.int n) = target.payload n := by
  rw [← narrow_eq]
  cases target with
  | f32 | f64 | bool => cases integral
  | _ => rfl

theorem isFloating_of_isIntegral (integral : target.isIntegral = true) :
    target.isFloating = false := by
  cases target with
  | f32 | f64 => cases integral
  | _ => rfl

theorem convert_of_decode {payload : Payload} {n : Int} (integral : target.isIntegral = true)
    (read : decode payload source = .int n) :
    convert payload source target = target.payload n := by
  rw [convert, read, encode_int integral]

/-- Where the target can hold the number, and only there, it stays the same. -/
theorem changes_eq_false_iff {payload : Payload} {n : Int} (integral : target.isIntegral = true)
    (read : decode payload source = .int n) :
    changes payload source target = false ↔ target.Represents n := by
  have whole := isFloating_of_isIntegral integral
  rw [changes, read, convert_of_decode integral read, decode_payload whole,
    ← Scalar.residue_eq_iff, decide_eq_false_iff_not, not_not]
  exact eq_comm

/-- What a conversion keeps of a number is enough for a conversion to a type with no more bits. -/
theorem convert_convert {payload : Payload} {n : Int} {narrower : Scalar}
    (integral : target.isIntegral = true) (integralToo : narrower.isIntegral = true)
    (fewer : narrower.bits ≤ target.bits) (read : decode payload source = .int n) :
    convert (convert payload source target) target narrower = convert payload source narrower := by
  have whole := isFloating_of_isIntegral integral
  have divides : (2 : Int) ^ narrower.width ∣ 2 ^ target.width :=
    pow_dvd_pow 2 (min_le_min_right 64 fewer)
  have between := decode_payload whole n
  rw [convert_of_decode integral read, convert_of_decode integralToo between,
    convert_of_decode integralToo read]
  exact Scalar.payload_congr ((target.residue_modEq n).of_dvd divides)

/-- Conversion to an integral type reduces a number modulo the width of the type. The result holds
the one represented number of the residue class, which is the number itself just when the conversion
does not change it. Another conversion to the type does nothing, and one to a type with no more bits
has the result that it has without the first. -/
theorem convert_reduces (payload : Payload) (whole : source.isFloating = false)
    (integral : target.isIntegral = true) :
    ∃ n, decode payload source = .int n ∧
      (∃ m, convert payload source target = target.payload m ∧
        target.Represents m ∧ m ≡ n [ZMOD 2 ^ target.width] ∧
        ∀ k, target.Represents k → k ≡ n [ZMOD 2 ^ target.width] → k = m) ∧
      (changes payload source target = false ↔ target.Represents n) ∧
      convert (convert payload source target) target target = convert payload source target ∧
      ∀ narrower : Scalar, narrower.isIntegral = true → narrower.bits ≤ target.bits →
        convert (convert payload source target) target narrower =
          convert payload source narrower := by
  obtain ⟨n, read⟩ : ∃ n, decode payload source = .int n :=
    ⟨_, decode_of_not_floating whole payload⟩
  have represents := target.represents_residue n
  have congruent := target.residue_modEq n
  refine ⟨n, read, ⟨target.residue n, ?_, represents, congruent, fun k representsToo alike => ?_⟩,
    changes_eq_false_iff integral read, convert_convert integral integral (Nat.le_refl _) read,
    fun narrower integralToo fewer => convert_convert integral integralToo fewer read⟩
  · rw [convert_of_decode integral read]
    exact Scalar.payload_congr congruent.symm
  · exact representsToo.eq_of_modEq represents (alike.trans congruent.symm)

/-- A payload that is too great for its own type becomes a negative number. -/
theorem convert_reduces_negative :
    decode 65408 .u8 = .int 65408 ∧ convert 65408 .u8 .i16 = 0xFFFFFFFFFFFFFF80 ∧
      ¬Scalar.i16.Represents 65408 ∧
      convert 0xFFFFFFFFFFFFFF80 .i16 .u8 = convert 65408 .u8 .u8 := by
  obtain ⟨n, read, -, changed, -, narrower⟩ := @convert_reduces .u8 .i16 65408 rfl rfl
  have number : decode 65408 .u8 = .int 65408 := rfl
  obtain rfl := Value.int.inj (number.symm.trans read)
  have result : convert 65408 .u8 .i16 = 0xFFFFFFFFFFFFFF80 := by decide
  refine ⟨number, result, ?_, result ▸ narrower .u8 rfl (by decide)⟩
  rw [← changed]
  decide

end Literal

end ScalarLang
