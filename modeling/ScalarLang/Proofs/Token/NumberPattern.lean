import Mathlib.Computability.Language
import ScalarLang.Proofs.Token.Character
import ScalarLang.Proofs.Token.Order

/-! Numbers as a regular language. A numeral is read from the longest start of a text that is in the
language, and of the ways to split that start into a body and a suffix it has the one with the
longest body. -/

namespace ScalarLang

open Computability

namespace Text

def oneOf (characters : String) : Language Char := {text | ∃ c ∈ characters.toList, text = [c]}

def someOf (characters : String) : Language Char := oneOf characters * (oneOf characters)∗

def optional (texts : Language Char) : Language Char := 1 + texts

theorem mem_kstar_oneOf {characters : String} {text : List Char} :
    text ∈ (oneOf characters)∗ ↔ ∀ c ∈ text, c ∈ characters.toList := by
  constructor
  · rintro ⟨parts, rfl, single⟩ c member
    obtain ⟨part, listed, here⟩ := List.mem_flatten.mp member
    obtain ⟨d, own, rfl⟩ := single part listed
    rwa [List.mem_singleton.mp here]
  · intro own
    refine ⟨text.map fun c => [c], ?_, fun part listed => ?_⟩
    · rw [← List.flatMap_def, List.flatMap_singleton']
    · obtain ⟨c, member, rfl⟩ := List.mem_map.mp listed
      exact ⟨c, own c member, rfl⟩

theorem mem_someOf {characters : String} {text : List Char} :
    text ∈ someOf characters ↔ text ≠ [] ∧ ∀ c ∈ text, c ∈ characters.toList := by
  rw [someOf, Language.mem_mul]
  constructor
  · rintro ⟨_, ⟨c, own, rfl⟩, others, more, rfl⟩
    exact ⟨List.cons_ne_nil _ _, List.forall_mem_cons.mpr ⟨own, mem_kstar_oneOf.mp more⟩⟩
  · rintro ⟨some, own⟩
    obtain ⟨c, others, rfl⟩ := List.exists_cons_of_ne_nil some
    obtain ⟨first, more⟩ := List.forall_mem_cons.mp own
    exact ⟨[c], ⟨c, first, rfl⟩, others, mem_kstar_oneOf.mpr more, rfl⟩

theorem mem_optional {texts : Language Char} {text : List Char} :
    text ∈ optional texts ↔ text = [] ∨ text ∈ texts := Iff.rfl

/-- Texts that start with a given one. -/
theorem mem_singleton_mul {front text : List Char} {texts : Language Char} :
    text ∈ ({front} : Language Char) * texts ↔ ∃ back ∈ texts, front ++ back = text := by
  rw [Language.mem_mul]
  constructor
  · rintro ⟨_, rfl, back, member, whole⟩
    exact ⟨back, member, whole⟩
  · rintro ⟨back, member, whole⟩
    exact ⟨front, rfl, back, member, whole⟩

end Text

open Text (oneOf someOf optional)

def wordCharacters : String := "abcdefghijklmnopqrstuvwxyzABCDEFGHIJKLMNOPQRSTUVWXYZ0123456789_"

theorem isWordPart_iff (c : Char) : isWordPart c = true ↔ c ∈ wordCharacters.toList := by
  refine Text.class_iff (fun c part => ?_) (by decide +kernel) (by decide +kernel) c
  have range := isWordPart_range part
  omega

def decimalDigits : String := "0123456789"

theorem isDigit_iff (c : Char) : isDigitOf 10 c = true ↔ c ∈ decimalDigits.toList := by
  refine Text.class_iff (fun c digit => ?_) (by decide +kernel) (by decide +kernel) c
  have range := isDigit_range digit
  omega

def Base.digits : Base → String
  | hexadecimal => "0123456789abcdefABCDEF"
  | binary => "01"
  | octal => "01234567"

theorem Base.isDigitOf_iff (base : Base) (c : Char) :
    isDigitOf base.radix c = true ↔ c ∈ base.digits.toList := by
  have narrow (c : Char) (digit : isDigitOf base.radix c = true) : c.toNat < 128 := by
    have range := isDigitOf_range (by cases base <;> decide) digit
    omega
  cases base <;> exact Text.class_iff narrow (by decide +kernel) (by decide +kernel) c

namespace Numeral

/-! The pattern of numbers, part by part. -/

def basedPattern (base : Base) : Language Char := {['0', base.mark]} * someOf base.digits

def fractionPattern : Language Char := {['.']} * someOf decimalDigits

def exponentPattern : Language Char := oneOf "eE" * optional (oneOf "+-") * someOf decimalDigits

def bodyPattern : Language Char :=
  basedPattern .hexadecimal + basedPattern .binary + basedPattern .octal +
    someOf decimalDigits * optional fractionPattern * optional exponentPattern

def pattern : Language Char := bodyPattern * (oneOf wordCharacters)∗

def Digits (radix : Nat) (text : List Char) : Prop :=
  text ≠ [] ∧ ∀ c ∈ text, isDigitOf radix c = true

structure Exponent.Proper (exponent : Exponent) : Prop where
  mark : exponent.mark = 'e' ∨ exponent.mark = 'E'
  sign : ∀ c ∈ exponent.sign, c = '+' ∨ c = '-'
  digits : Digits 10 exponent.digits

/-- A body with the parts that one can be written with. -/
def Body.Proper : Body → Prop
  | based base digits => Digits base.radix digits
  | decimal whole fraction exponent =>
    Digits 10 whole ∧ (∀ digits ∈ fraction, Digits 10 digits) ∧ ∀ part ∈ exponent, part.Proper

end Numeral

structure Numeral.Proper (numeral : Numeral) : Prop where
  body : numeral.body.Proper
  suffix : ∀ c ∈ numeral.suffix, isWordPart c = true

namespace Numeral

theorem mem_someOf_decimalDigits {text : List Char} :
    text ∈ someOf decimalDigits ↔ Digits 10 text := by
  simp only [Text.mem_someOf, Digits, isDigit_iff]

theorem mem_basedPattern {base : Base} {text : List Char} :
    text ∈ basedPattern base ↔
      ∃ digits, (Body.based base digits).Proper ∧ (Body.based base digits).text = text := by
  simp only [basedPattern, Text.mem_singleton_mul, Text.mem_someOf, Body.Proper, Digits,
    base.isDigitOf_iff, Body.text, List.cons_append, List.nil_append]

theorem mem_fractionPattern {text : List Char} :
    text ∈ optional fractionPattern ↔
      ∃ fraction : Option (List Char), (∀ digits ∈ fraction, Digits 10 digits) ∧
        fraction.elim [] ('.' :: ·) = text := by
  rw [Text.mem_optional, fractionPattern, Text.mem_singleton_mul]
  constructor
  · rintro (rfl | ⟨digits, member, rfl⟩)
    · exact ⟨none, nofun, rfl⟩
    · refine ⟨some digits, fun other same => ?_, rfl⟩
      cases same
      exact mem_someOf_decimalDigits.mp member
  · rintro ⟨_ | digits, proper, rfl⟩
    · exact .inl rfl
    · exact .inr ⟨digits, mem_someOf_decimalDigits.mpr (proper digits rfl), rfl⟩

theorem mem_sign {text : List Char} :
    text ∈ optional (oneOf "+-") ↔
      ∃ sign : Option Char, (∀ c ∈ sign, c = '+' ∨ c = '-') ∧ sign.toList = text := by
  rw [Text.mem_optional]
  constructor
  · rintro (rfl | ⟨c, member, rfl⟩)
    · exact ⟨none, nofun, rfl⟩
    · refine ⟨some c, fun other same => ?_, rfl⟩
      cases same
      simpa using member
  · rintro ⟨_ | c, proper, rfl⟩
    · exact .inl rfl
    · exact .inr ⟨c, by simpa using proper, rfl⟩

theorem mem_exponentPattern {text : List Char} :
    text ∈ optional exponentPattern ↔
      ∃ exponent : Option Exponent, (∀ part ∈ exponent, part.Proper) ∧
        exponent.elim [] Exponent.text = text := by
  rw [Text.mem_optional, exponentPattern, Language.mem_mul]
  constructor
  · rintro (rfl | ⟨_, ⟨_, ⟨mark, isMark, rfl⟩, _, isSign, rfl⟩, digits, isDigits, rfl⟩)
    · exact ⟨none, nofun, rfl⟩
    · obtain ⟨sign, proper, rfl⟩ := mem_sign.mp isSign
      refine ⟨some ⟨mark, sign, digits⟩, fun other same => ?_, by simp [Exponent.text]⟩
      cases same
      exact ⟨by simpa using isMark, proper, mem_someOf_decimalDigits.mp isDigits⟩
  · rintro ⟨_ | exponent, proper, rfl⟩
    · exact .inl rfl
    · have part := proper exponent rfl
      have mark : [exponent.mark] ∈ oneOf "eE" := ⟨_, by simpa using part.mark, rfl⟩
      have sign := mem_sign.mpr ⟨exponent.sign, part.sign, rfl⟩
      have digits := mem_someOf_decimalDigits.mpr part.digits
      exact .inr ⟨_, Language.append_mem_mul mark sign, _, digits, rfl⟩

theorem mem_bodyPattern {text : List Char} :
    text ∈ bodyPattern ↔ ∃ body : Body, body.Proper ∧ body.text = text := by
  constructor
  · rintro (((based | based) | based) |
      ⟨_, ⟨whole, isWhole, _, isFraction, rfl⟩, _, isExponent, rfl⟩)
    · obtain ⟨digits, proper, rfl⟩ := mem_basedPattern.mp based
      exact ⟨_, proper, rfl⟩
    · obtain ⟨digits, proper, rfl⟩ := mem_basedPattern.mp based
      exact ⟨_, proper, rfl⟩
    · obtain ⟨digits, proper, rfl⟩ := mem_basedPattern.mp based
      exact ⟨_, proper, rfl⟩
    · obtain ⟨fraction, properFraction, rfl⟩ := mem_fractionPattern.mp isFraction
      obtain ⟨exponent, properExponent, rfl⟩ := mem_exponentPattern.mp isExponent
      exact ⟨.decimal whole fraction exponent,
        ⟨mem_someOf_decimalDigits.mp isWhole, properFraction, properExponent⟩, rfl⟩
  · rintro ⟨body, proper, rfl⟩
    cases body with
    | based base digits =>
      have member := mem_basedPattern.mpr ⟨digits, proper, rfl⟩
      cases base with
      | hexadecimal => exact .inl (.inl (.inl member))
      | binary => exact .inl (.inl (.inr member))
      | octal => exact .inl (.inr member)
    | decimal whole fraction exponent =>
      obtain ⟨properWhole, properFraction, properExponent⟩ := proper
      refine .inr (Language.append_mem_mul (Language.append_mem_mul ?_ ?_) ?_)
      · exact mem_someOf_decimalDigits.mpr properWhole
      · exact mem_fractionPattern.mpr ⟨fraction, properFraction, rfl⟩
      · exact mem_exponentPattern.mpr ⟨exponent, properExponent, rfl⟩

theorem mem_pattern {text : List Char} :
    text ∈ pattern ↔ ∃ numeral : Numeral, numeral.Proper ∧ numeral.text = text := by
  rw [pattern, Language.mem_mul]
  constructor
  · rintro ⟨_, isBody, suffix, isSuffix, rfl⟩
    obtain ⟨body, proper, rfl⟩ := mem_bodyPattern.mp isBody
    refine ⟨⟨body, suffix⟩, ⟨proper, fun c member => ?_⟩, rfl⟩
    exact (isWordPart_iff c).mpr (Text.mem_kstar_oneOf.mp isSuffix c member)
  · rintro ⟨numeral, proper, rfl⟩
    refine ⟨_, mem_bodyPattern.mpr ⟨_, proper.body, rfl⟩, _, Text.mem_kstar_oneOf.mpr ?_, rfl⟩
    exact fun c member => (isWordPart_iff c).mp (proper.suffix c member)

end Numeral

end ScalarLang
