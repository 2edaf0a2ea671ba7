import ScalarLang.Number.Decimal

/-! Numbers as they are written: a body with or without a base, and a suffix. The parts keep every
character, so that a numeral gives back its text. -/

namespace ScalarLang

inductive Base where
  | hexadecimal | binary | octal
  deriving DecidableEq, Repr

namespace Base

def radix : Base → Nat
  | hexadecimal => 16
  | binary => 2
  | octal => 8

def mark : Base → Char
  | hexadecimal => 'x'
  | binary => 'b'
  | octal => 'o'

def all : List Base := [hexadecimal, binary, octal]

end Base

/-- The value of a digit in radices up to sixteen. -/
def digitValue (c : Char) : Nat :=
  if '0' ≤ c ∧ c ≤ '9' then c.toNat - '0'.toNat
  else if 'a' ≤ c ∧ c ≤ 'f' then c.toNat - 'a'.toNat + 10
  else if 'A' ≤ c ∧ c ≤ 'F' then c.toNat - 'A'.toNat + 10
  else 16

def isDigitOf (radix : Nat) (c : Char) : Bool := digitValue c < radix

def isWordStart (c : Char) : Bool :=
  ('a' ≤ c && c ≤ 'z') || ('A' ≤ c && c ≤ 'Z') || c = '_'

def isWordPart (c : Char) : Bool := isWordStart c || isDigitOf 10 c

namespace Numeral

structure Exponent where
  mark : Char
  sign : Option Char
  digits : List Char
  deriving DecidableEq, Repr

inductive Body where
  | based (base : Base) (digits : List Char)
  | decimal (whole : List Char) (fraction : Option (List Char)) (exponent : Option Exponent)
  deriving DecidableEq, Repr

namespace Exponent

def text (exponent : Exponent) : List Char :=
  exponent.mark :: exponent.sign.toList ++ exponent.digits

def value (exponent : Exponent) : Int :=
  let magnitude : Int := Number.ofDigits 10 (exponent.digits.map digitValue)
  if exponent.sign = some '-' then -magnitude else magnitude

def readSign : List Char → Option Char × List Char
  | '+' :: rest => (some '+', rest)
  | '-' :: rest => (some '-', rest)
  | text => (none, text)

/-- An exponent needs a digit. Without one the text stays as it is. -/
def read (text : List Char) : Option Exponent × List Char :=
  match text with
  | [] => (none, [])
  | mark :: rest =>
    let (sign, signed) := readSign rest
    let digits := signed.takeWhile (isDigitOf 10)
    if (mark = 'e' ∨ mark = 'E') ∧ !digits.isEmpty then
      (some ⟨mark, sign, digits⟩, signed.dropWhile (isDigitOf 10))
    else (none, text)

end Exponent

namespace Body

def text : Body → List Char
  | based base digits => '0' :: base.mark :: digits
  | decimal whole fraction exponent =>
    whole ++ fraction.elim [] ('.' :: ·) ++ exponent.elim [] Exponent.text

/-- Whether the body has a fraction or an exponent. -/
def isFractional : Body → Bool
  | based _ _ => false
  | decimal _ fraction exponent => fraction.isSome || exponent.isSome

/-- The number that the digits before any fraction denote. -/
def wholeValue : Body → Nat
  | based base digits => Number.ofDigits base.radix (digits.map digitValue)
  | decimal whole _ _ => Number.ofDigits 10 (whole.map digitValue)

def readFraction (text : List Char) : Option (List Char) × List Char :=
  match text with
  | '.' :: rest =>
    let digits := rest.takeWhile (isDigitOf 10)
    if digits.isEmpty then (none, text) else (some digits, rest.dropWhile (isDigitOf 10))
  | _ => (none, text)

def readDecimal (text : List Char) : Option (Body × List Char) :=
  let whole := text.takeWhile (isDigitOf 10)
  if whole.isEmpty then none
  else
    let fraction := readFraction (text.dropWhile (isDigitOf 10))
    let exponent := Exponent.read fraction.2
    some (decimal whole fraction.1 exponent.1, exponent.2)

def readBased (text : List Char) (base : Base) : Option (Body × List Char) :=
  match text with
  | '0' :: mark :: rest =>
    let digits := rest.takeWhile (isDigitOf base.radix)
    if mark = base.mark ∧ ¬digits.isEmpty then
      some (based base digits, rest.dropWhile (isDigitOf base.radix))
    else none
  | _ => none

/-- A base mark without a digit after it is no base: the zero stands alone. -/
def read (text : List Char) : Option (Body × List Char) :=
  (Base.all.findSome? (readBased text)).or (readDecimal text)

end Body

end Numeral

/-- A number as written: a body, and the letters, digits and underscores that follow it. -/
structure Numeral where
  body : Numeral.Body
  suffix : List Char
  deriving DecidableEq, Repr

namespace Numeral

def text (numeral : Numeral) : List Char := numeral.body.text ++ numeral.suffix

def read (text : List Char) : Option (Numeral × List Char) :=
  (Body.read text).map fun parts =>
    (⟨parts.1, parts.2.takeWhile isWordPart⟩, parts.2.dropWhile isWordPart)

end Numeral

end ScalarLang
