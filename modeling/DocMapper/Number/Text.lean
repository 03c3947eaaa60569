import DocMapper.Number.Double

set_option autoImplicit false

/-!
# Numbers as text

`integerOfText?` reads an optional sign and decimal digits. `Double.ofText?` reads decimals with an
optional sign, fraction and exponent, rounded correctly, and the names of infinity and NaN in any
case.

`Double.shortest` finds the decimal with the fewest digits that rounds back to a double; of two with
equally few digits it takes the nearer one, and the larger one on a tie. `Double.text` writes the
result without an exponent.
-/

namespace DocMapper

/-! ## Reading -/

/-- The number written by decimal digits, the first one highest. -/
def digitsValue (digits : List Char) : Nat :=
  digits.foldl (fun n c => 10 * n + (c.toNat - 48)) 0

/-- A leading sign and what follows it; no sign stands for plus. -/
def takeSign : List Char → Bool × List Char
  | '-' :: rest => (true, rest)
  | '+' :: rest => (false, rest)
  | text => (false, text)

/-- The integer written with an optional sign and at least one decimal digit. -/
def integerOfText? (text : List Char) : Option Int :=
  let (negative, digits) := takeSign text
  if digits.isEmpty || !digits.all Char.isDigit then none
  else
    let n : Int := digitsValue digits
    some (if negative then -n else n)

namespace Double

/-- The exponent part of a decimal: nothing, or a letter, an optional sign and digits. -/
def exponentOfText? : List Char → Option Int
  | [] => some 0
  | c :: rest => if c = 'e' ∨ c = 'E' then integerOfText? rest else none

/-- The double nearest to a written decimal without its sign. -/
def ofUnsignedText? (negative : Bool) (text : List Char) : Option Double :=
  let whole := text.takeWhile Char.isDigit
  let afterWhole := text.dropWhile Char.isDigit
  let (fraction, afterFraction) :=
    match afterWhole with
    | '.' :: rest => (rest.takeWhile Char.isDigit, rest.dropWhile Char.isDigit)
    | rest => ([], rest)
  if whole.isEmpty && fraction.isEmpty then none
  else
    (exponentOfText? afterFraction).map fun exponent =>
      ofDecimal negative (digitsValue (whole ++ fraction)) (exponent - fraction.length)

/-- The double named by a word, without its sign. -/
def ofWord? (negative : Bool) (word : List Char) : Option Double :=
  let lower := word.map Char.toLower
  if lower = ['i', 'n', 'f'] ∨ lower = ['i', 'n', 'f', 'i', 'n', 'i', 't', 'y'] then
    some (ofMagnitude negative infinityMagnitude)
  else if lower = ['n', 'a', 'n'] then some (ofMagnitude negative nan.magnitude)
  else none

/-- The double nearest to a written number. -/
def ofText? (text : List Char) : Option Double :=
  let (negative, unsigned) := takeSign text
  (ofUnsignedText? negative unsigned).or (ofWord? negative unsigned)

end Double

/-! ## The shortest decimal of a double

The doubles that round to a given one fill an interval; its ends belong to it exactly when the
significand is even. A grid of `n` digits has a point in the interval exactly when one of the two
grid points next to the number lies in it, so those two are tried for `n = 1, 2, …, 17`. -/

/-- An unsigned decimal `digits * 10 ^ exponent`. -/
structure Decimal where
  digits : Nat
  exponent : Int
deriving DecidableEq

namespace Decimal

/-- The decimal written with a point where it has a fractional part, never with an exponent. -/
def positional (d : Decimal) : List Char :=
  let ds := Nat.toDigits 10 d.digits
  if 0 ≤ d.exponent then ds ++ List.replicate d.exponent.toNat '0'
  else
    let places := (-d.exponent).toNat
    if ds.length ≤ places then
      ['0', '.'] ++ List.replicate (places - ds.length) '0' ++ ds
    else ds.take (ds.length - places) ++ '.' :: ds.drop (ds.length - places)

end Decimal

namespace Double

/-- An interval of positive rationals around a middle, all over one denominator. -/
structure Interval where
  low : Nat
  mid : Nat
  high : Nat
  den : Nat
  closed : Bool

/-- The positive numbers that round to a finite double. The step below a power of two is half as
wide as the step above it. -/
def roundingInterval (x : Double) : Interval :=
  let p := x.parts
  let e := p.exponent - 2
  let below := if p.significand = 2 ^ 52 ∧ -1074 < p.exponent then 1 else 2
  let scale := 2 ^ e.toNat
  { low := (4 * p.significand - below) * scale
    mid := 4 * p.significand * scale
    high := (4 * p.significand + 2) * scale
    den := 2 ^ (-e).toNat
    closed := p.significand % 2 = 0 }

/-- Whether `num / den` lies in an interval. -/
def Interval.holds (i : Interval) (num den : Nat) : Bool :=
  if i.closed then i.low * den ≤ num * i.den && num * i.den ≤ i.high * den
  else i.low * den < num * i.den && num * i.den < i.high * den

/-- The numerator and denominator of a power of ten. -/
def powerOfTen (e : Int) : Nat × Nat := (10 ^ e.toNat, 10 ^ (-e).toNat)

/-- The number of places before the point: the least `k` with `num / den < 10 ^ k`, found from the
number of binary places, which fixes it up to three candidates. -/
def places (num den : Nat) : Int :=
  let estimate : Int := (((num.log2 : Int) - den.log2 - 1) * 30103).fdiv 100000
  let isAbove (k : Int) : Bool :=
    let (p, q) := powerOfTen k
    num * q < p * den
  if isAbove estimate then estimate
  else if isAbove (estimate + 1) then estimate + 1
  else if isAbove (estimate + 2) then estimate + 2
  else estimate + 3

/-- The point nearest to the middle among the two points of a decimal grid next to it, if one lies
in the interval. -/
def Interval.gridPoint? (i : Interval) (exponent : Int) : Option Decimal :=
  let (p, q) := powerOfTen exponent
  let below := i.mid * q / (i.den * p)
  let above := below + 1
  let isNearerBelow : Bool := 2 * i.mid * q < (below + above) * p * i.den
  match i.holds (below * p) q, i.holds (above * p) q with
  | true, true => some ⟨if isNearerBelow then below else above, exponent⟩
  | true, false => some ⟨below, exponent⟩
  | false, true => some ⟨above, exponent⟩
  | false, false => none

/-- A decimal without the zeros at its end, as far as the fuel goes. -/
def dropTrailingZeros : (fuel : Nat) → Decimal → Decimal
  | 0, d => d
  | fuel + 1, d =>
      if d.digits ≠ 0 ∧ d.digits % 10 = 0 then
        dropTrailingZeros fuel ⟨d.digits / 10, d.exponent + 1⟩
      else d

/-- The decimal with the fewest digits that rounds to the magnitude of a finite double. -/
def shortest (x : Double) : Decimal :=
  if x.isZero then ⟨0, 0⟩
  else
    let i := x.roundingInterval
    let k := places i.mid i.den
    let candidates := (List.range 17).filterMap fun n => i.gridPoint? (k - (n + 1 : Nat))
    match candidates with
    | d :: _ => dropTrailingZeros 2 d
    | [] => ⟨0, 0⟩

/-- The text of a double: the shortest decimal without an exponent and without a fractional part for
integers. -/
def text (x : Double) : String :=
  if x.isNaN then "NaN"
  else
    let magnitude := if x.isInfinite then ['i', 'n', 'f'] else x.shortest.positional
    String.ofList (if x.isNegative then '-' :: magnitude else magnitude)

end Double

end DocMapper
