set_option autoImplicit false

/-!
# Double-precision numbers

A `Double` is its 64 bits: a sign, eleven exponent bits and 52 fraction bits. All arithmetic on it
is exact arithmetic of natural numbers followed by one rounding.

* `Parts` is the number that finite bits stand for, `significand * 2 ^ exponent`.
* `ofRatio` rounds a quotient of natural numbers to the nearest double, ties to the even one; beyond
  the largest double it is infinite. `ofInt`, `mul`, `div` and `ofDecimal` are instances of it.
* `rank` turns the total order of the bit patterns (negative before positive, larger magnitude
  further out, NaNs outermost) into the order of the integers.

Powers of natural numbers and of integers, and sums of lists of natural numbers, are those of the
core library in every module. A library of algebra has instances of its own for these operations.
They mean the same, but a power in a module that knows them would be another term than one in a
module that does not.
-/

namespace DocMapper

/-- Powers of natural numbers. -/
instance (priority := high) powNat : Pow Nat Nat := instPowNat

/-- The sum of no natural numbers. -/
instance (priority := high) zeroNat : Zero Nat := ⟨0⟩

-- for a power with a numeral as its exponent
attribute [default_instance 20000] instPowNat

/-- A double-precision number, given by its bits. -/
structure Double where
  bits : BitVec 64
deriving DecidableEq, Hashable

namespace Double

/-- The exponent field of infinities and NaNs, above all magnitudes of finite numbers. -/
def infinityMagnitude : Nat := 0x7ff * 2 ^ 52

/-- Whether the sign bit is set. -/
def isNegative (x : Double) : Bool := 2 ^ 63 ≤ x.bits.toNat

/-- The bits without the sign. -/
def magnitude (x : Double) : Nat := x.bits.toNat % 2 ^ 63

/-- The number with a sign and a magnitude. -/
def ofMagnitude (negative : Bool) (magnitude : Nat) : Double :=
  ⟨BitVec.ofNat 64 (if negative then 2 ^ 63 + magnitude else magnitude)⟩

/-- The same magnitude with the other sign. -/
def neg (x : Double) : Double := ofMagnitude (!x.isNegative) x.magnitude

/-- Positive infinity. -/
def infinity : Double := ofMagnitude false infinityMagnitude

/-- The quiet NaN without further payload. -/
def nan : Double := ofMagnitude false (infinityMagnitude + 2 ^ 51)

/-- Whether the bits are a NaN. -/
def isNaN (x : Double) : Bool := infinityMagnitude < x.magnitude

/-- Whether the number is infinite, of either sign. -/
def isInfinite (x : Double) : Bool := x.magnitude = infinityMagnitude

/-- Whether the number is zero, of either sign. -/
def isZero (x : Double) : Bool := x.magnitude = 0

/-- The position of the bits in the total order of doubles. -/
def rank (x : Double) : Int :=
  if x.isNegative then -(x.magnitude : Int) - 1 else x.magnitude

/-- Numeric equality: the two zeros are equal and a NaN is not equal to itself. -/
def numericEq (x y : Double) : Bool :=
  !x.isNaN && !y.isNaN && (x.bits == y.bits || (x.isZero && y.isZero))

/-! ## The value of finite bits -/

/-- An unsigned number `significand * 2 ^ exponent`. -/
structure Parts where
  significand : Nat
  exponent : Int
deriving DecidableEq

/-- The magnitude of a finite number. -/
def parts (x : Double) : Parts :=
  let field : Nat := x.magnitude / 2 ^ 52
  let fraction := x.magnitude % 2 ^ 52
  if field = 0 then ⟨fraction, -1074⟩ else ⟨2 ^ 52 + fraction, (field : Int) - 1075⟩

/-- The numerator of a dyadic magnitude over `Parts.denominator`. -/
def Parts.numerator (p : Parts) : Nat := p.significand * 2 ^ p.exponent.toNat

/-- The power of two below the fraction bar. -/
def Parts.denominator (p : Parts) : Nat := 2 ^ (-p.exponent).toNat

/-- The integer that a finite number without fractional part is. -/
def integer? (x : Double) : Option Int :=
  if infinityMagnitude ≤ x.magnitude then none
  else
    let p := x.parts
    if p.numerator % p.denominator = 0 then
      let n := p.numerator / p.denominator
      some (if x.isNegative then -(n : Int) else n)
    else none

/-! ## Rounding -/

/-- The quotient rounded to an integer, ties to the even one. -/
def divideToEven (num den : Nat) : Nat :=
  let quotient := num / den
  let twice := 2 * (num % den)
  if den < twice ∨ (twice = den ∧ quotient % 2 = 1) then quotient + 1 else quotient

/-- The exponent of the binade that holds `num / den`: for positive numbers, the `e` with
`2 ^ e ≤ num / den < 2 ^ (e + 1)`. -/
def binade (num den : Nat) : Int :=
  let e : Int := (num.log2 : Int) - den.log2
  if den * 2 ^ e.toNat ≤ num * 2 ^ (-e).toNat then e else e - 1

/-- The magnitude bits nearest to a quotient. A significand that rounds up to the next power of two
carries into the exponent field, which is the next magnitude. -/
def roundedMagnitude (num den : Nat) : Nat :=
  if num = 0 then 0
  else
    let unit : Int := max (binade num den - 52) (-1074)
    let significand := divideToEven (num * 2 ^ (-unit).toNat) (den * 2 ^ unit.toNat)
    min infinityMagnitude (significand + (unit + 1074).toNat * 2 ^ 52)

/-- The double nearest to a quotient with a sign. -/
def ofRatio (negative : Bool) (num den : Nat) : Double :=
  ofMagnitude negative (roundedMagnitude num den)

/-- The double nearest to an integer. -/
def ofInt (n : Int) : Double := ofRatio (n < 0) n.natAbs 1

/-- The product of two finite numbers, rounded. -/
def mul (x y : Double) : Double :=
  ofRatio (x.isNegative != y.isNegative) (x.parts.numerator * y.parts.numerator)
    (x.parts.denominator * y.parts.denominator)

/-- The quotient of a finite number and one that is not zero, rounded. -/
def div (x y : Double) : Double :=
  ofRatio (x.isNegative != y.isNegative) (x.parts.numerator * y.parts.denominator)
    (x.parts.denominator * y.parts.numerator)

/-- The double nearest to `digits * 10 ^ exponent`. Numbers of more than 310 places are infinite
and numbers below `10 ^ -350` are zero without computing the power. -/
def ofDecimal (negative : Bool) (digits : Nat) (exponent : Int) : Double :=
  let places := (Nat.toDigits 10 digits).length + exponent
  if digits = 0 ∨ places < -350 then ofMagnitude negative 0
  else if 310 < places then ofMagnitude negative infinityMagnitude
  else ofRatio negative (digits * 10 ^ exponent.toNat) (10 ^ (-exponent).toNat)

/-! ## Small facts -/

/-- A number is its sign and its magnitude. -/
theorem ofMagnitude_isNegative_magnitude (x : Double) :
    ofMagnitude x.isNegative x.magnitude = x := by
  obtain ⟨bits⟩ := x
  have hlt : bits.toNat < 2 ^ 64 := bits.isLt
  simp only [ofMagnitude, isNegative, magnitude, Double.mk.injEq]
  apply BitVec.eq_of_toNat_eq
  rw [BitVec.toNat_ofNat]
  by_cases h : 2 ^ 63 ≤ bits.toNat
  · simp only [h, decide_true, if_true]
    omega
  · simp only [h, decide_false, Bool.false_eq_true, if_false]
    omega

/-- Different bits have different ranks, so the order by rank is a total order of the bits. -/
theorem rank_inj {x y : Double} : x.rank = y.rank ↔ x = y := by
  constructor
  · intro h
    have hs : x.isNegative = y.isNegative := by
      simp only [rank] at h
      cases hx : x.isNegative <;> cases hy : y.isNegative <;> simp [hx, hy] at h ⊢ <;> omega
    have hm : x.magnitude = y.magnitude := by
      simp only [rank, hs] at h
      cases hy : y.isNegative <;> simp [hy] at h <;> omega
    rw [← ofMagnitude_isNegative_magnitude x, hs, hm, ofMagnitude_isNegative_magnitude]
  · intro h
    rw [h]

end Double

end DocMapper
