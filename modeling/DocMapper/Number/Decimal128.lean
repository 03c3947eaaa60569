import DocMapper.Number.Text

set_option autoImplicit false

/-!
# Decimal numbers of 128 bits

A `Decimal128` is a sign and either a number `coefficient * 10 ^ exponent` of at most 34 digits,
infinity, or no number. One number may have several pairs of coefficient and exponent, which its
text tells apart. `ofText?` reads only what can be held exactly: a text with too many digits, or
with an exponent out of range, is refused unless the digits to be cut or filled in are zeros.
-/

namespace DocMapper

/-- A decimal number, as it is encoded. -/
structure Decimal128 where
  bits : BitVec 128
deriving DecidableEq

namespace Decimal128

/-- What the bits after the sign stand for. -/
inductive Magnitude where
  | nan (isSignaling : Bool)
  | infinity
  | finite (coefficient : Nat) (exponent : Int)
deriving DecidableEq

/-- The most digits of a coefficient. -/
def maxDigits : Nat := 34

/-- The least exponent. -/
def minExponent : Int := -6176

/-- The greatest exponent. -/
def maxExponent : Int := 6111

/-! ## Encoding -/

/-- The bits of a coefficient, and above them the exponent counted from the least one. -/
def Magnitude.code : Magnitude → Nat
  | nan isSignaling => 0b11111 * 2 ^ 122 + (if isSignaling then 2 ^ 121 else 0)
  | infinity => 0b11110 * 2 ^ 122
  | finite coefficient exponent => (exponent - minExponent).toNat * 2 ^ 113 + coefficient

/-- A magnitude with the exponent counted from the least one. A coefficient with too many digits
counts as zero. -/
def Magnitude.ofFinite (coefficient biased : Nat) : Magnitude :=
  finite (if coefficient < 10 ^ maxDigits then coefficient else 0) (biased + minExponent)

/-- What the 127 bits after a sign stand for. There is a second place for the exponent, before
coefficients that always have too many digits. -/
def Magnitude.ofCode (code : Nat) : Magnitude :=
  let kind := code / 2 ^ 122
  if kind = 0b11111 then nan (code / 2 ^ 121 % 2 = 1)
  else if kind = 0b11110 then infinity
  else if 0b11000 ≤ kind then ofFinite (2 ^ 113 + code % 2 ^ 111) (code / 2 ^ 111 % 2 ^ 14)
  else ofFinite (code % 2 ^ 113) (code / 2 ^ 113)

/-- The decimal of a sign and a magnitude. -/
def ofMagnitude (isNegative : Bool) (magnitude : Magnitude) : Decimal128 :=
  ⟨BitVec.ofNat 128 ((if isNegative then 2 ^ 127 else 0) + magnitude.code)⟩

/-- Whether the sign is minus. -/
def isNegative (x : Decimal128) : Bool := 2 ^ 127 ≤ x.bits.toNat

/-- The magnitude. -/
def magnitude (x : Decimal128) : Magnitude := .ofCode (x.bits.toNat % 2 ^ 127)

/-- The decimal of sixteen bytes, the lowest first. -/
def ofBytes? (bytes : List UInt8) : Option Decimal128 :=
  if bytes.length = 16 then
    some ⟨BitVec.ofNat 128 (bytes.foldr (fun byte n => 256 * n + byte.toNat) 0)⟩
  else none

/-- A coefficient and an exponent in range are found again in their code. -/
theorem ofCode_code_finite {coefficient : Nat} {exponent : Int}
    (hc : coefficient < 10 ^ maxDigits) (hmin : minExponent ≤ exponent)
    (hmax : exponent ≤ maxExponent) :
    Magnitude.ofCode (Magnitude.finite coefficient exponent).code =
      .finite coefficient exponent := by
  have hc' : coefficient < 10 ^ 34 := hc
  simp only [minExponent, maxExponent] at hmin hmax
  have hback : ((exponent - minExponent).toNat : Int) + minExponent = exponent := by
    simp only [minExponent]
    omega
  have hbiased : (exponent - minExponent).toNat ≤ 12287 := by
    simp only [minExponent]
    omega
  rw [Magnitude.code]
  generalize (exponent - minExponent).toNat = biased at hback hbiased
  have hkind : (biased * 2 ^ 113 + coefficient) / 2 ^ 122 < 0b11000 := by omega
  have hhigh : (biased * 2 ^ 113 + coefficient) / 2 ^ 113 = biased := by omega
  have hlow : (biased * 2 ^ 113 + coefficient) % 2 ^ 113 = coefficient := by omega
  simp only [Magnitude.ofCode]
  rw [if_neg (by omega), if_neg (by omega), if_neg (by omega), hhigh, hlow, Magnitude.ofFinite,
    if_pos hc, hback]

/-! ## Text -/

/-- The text of a coefficient moved by an exponent. The digits are written out as long as none has
to be filled in after them and few before them; otherwise the point follows the first digit. -/
def finiteText (coefficient : Nat) (exponent : Int) : List Char :=
  let digits := (toString coefficient).toList
  let leading := exponent + digits.length - 1
  if exponent ≤ 0 ∧ -6 ≤ leading then
    let places := exponent.natAbs
    let padded := List.replicate (places + 1 - digits.length) '0' ++ digits
    let whole := padded.length - places
    if places = 0 then padded else padded.take whole ++ '.' :: padded.drop whole
  else
    let point := if digits.length = 1 then [] else ['.']
    let plus := if 0 < leading then ['+'] else []
    digits.take 1 ++ point ++ digits.drop 1 ++ 'E' :: plus ++ (toString leading).toList

/-- The text of a magnitude. -/
def Magnitude.text : Magnitude → List Char
  | nan _ => "NaN".toList
  | infinity => "Infinity".toList
  | finite coefficient exponent => finiteText coefficient exponent

/-- The text of a decimal. -/
def text (x : Decimal128) : String :=
  String.ofList ((if x.isNegative then ['-'] else []) ++ x.magnitude.text)

/-- A text cut at the first place of a character; `none` stands for a missing second part. -/
def cutAt (separator : Char) (text : List Char) : List Char × Option (List Char) :=
  match text.span (· != separator) with
  | (before, _ :: after) => (before, some after)
  | (before, []) => (before, none)

/-- An exponent in the range in which exponents are computed. -/
def exponent? (n : Int) : Option Int := if -2 ^ 15 ≤ n ∧ n < 2 ^ 15 then some n else none

/-- Digits cut to a length; `none` if a digit is lost that is not zero. -/
def cut? (length : Nat) (digits : List Char) : Option (List Char) :=
  if (digits.drop length).all (· == '0') then some (digits.take length) else none

/-- Digits of which no more are left than a coefficient may have, with the exponent. -/
def shorten? (digits : List Char) (exponent : Int) : Option (List Char × Int) := do
  let kept ← cut? maxDigits digits
  return (kept, ← exponent? (exponent + (digits.length - kept.length : Nat)))

/-- Digits moved to an exponent that is not below the least one. -/
def raise? (digits : List Char) (exponent : Int) : Option (List Char × Int) :=
  if minExponent ≤ exponent then some (digits, exponent)
  else if digits = ['0'] then some (digits, minExponent)
  else
    let lost := (minExponent - exponent).toNat
    if lost ≤ digits.length then
      (cut? (digits.length - lost) digits).map fun kept => (kept, minExponent)
    else none

/-- Digits moved to an exponent that is not above the greatest one. -/
def lower? (digits : List Char) (exponent : Int) : Option (List Char × Int) :=
  if exponent ≤ maxExponent then some (digits, exponent)
  else if digits = ['0'] then some (digits, maxExponent)
  else
    let added := (exponent - maxExponent).toNat
    if digits.length + added ≤ maxDigits then
      some (digits ++ List.replicate added '0', maxExponent)
    else none

/-- The coefficient that digits write, which may have a plus sign. -/
def coefficient? (digits : List Char) : Option Nat :=
  let digits := if digits.head? = some '+' then digits.drop 1 else digits
  if digits.isEmpty || !digits.all Char.isDigit then none else some (digitsValue digits)

/-- The number that a text without a leading sign writes: digits with a point among them, and after
a letter the exponent. -/
def finiteOfText? (text : List Char) : Option Magnitude := do
  let (decimal, exponentText) := cutAt 'e' text
  let exponent ← integerOfText? (exponentText.getD ['0']) >>= exponent?
  let (whole, fraction) := cutAt '.' decimal
  let places := fraction.getD []
  let exponent ← exponent? (exponent - places.length)
  let significant := (whole ++ places).dropWhile (· == '0')
  let (digits, exponent) ← shorten? (if significant.isEmpty then ['0'] else significant) exponent
  let (digits, exponent) ← raise? digits exponent
  let (digits, exponent) ← lower? digits exponent
  return .finite (← coefficient? digits) exponent

/-- The magnitude that a text without a leading sign writes, in either case of its letters. -/
def magnitudeOfText? (text : List Char) : Option Magnitude :=
  let lower := text.map Char.toLower
  if lower = "nan".toList then some (.nan false)
  else if lower = "snan".toList then some (.nan true)
  else if lower = "inf".toList ∨ lower = "infinity".toList then some .infinity
  else finiteOfText? lower

/-- The decimal that a text writes. -/
def ofText? (text : String) : Option Decimal128 :=
  let (negative, unsigned) := takeSign text.toList
  (magnitudeOfText? unsigned).map (ofMagnitude negative)

end Decimal128

end DocMapper
