import DocMapper.Proofs.Number.Integers
import Mathlib.Algebra.Order.Field.Power
import Mathlib.Algebra.Order.Field.Rat
import Mathlib.Order.WithBot
import Mathlib.Tactic.Ring

set_option autoImplicit false

/-!
# The total order of doubles

`TotalLE` is the total order of floating-point data: by the numbers that they stand for, the
negative zero before the positive one, negative NaNs before all numbers and positive NaNs after
them, and of two NaNs with the same sign by their payload. The rank of the bits puts them into this
order (`rank_le_iff_totalLE`).

The bits without the sign are a scale for the numbers: a larger magnitude is a larger multiple of
the smallest positive number (`strictMono_units`), also from one binade to the next.
-/

namespace DocMapper.Double

variable {x y : Double}

/-! ## The numbers that bits stand for -/

/-- The number `significand * 2 ^ exponent`. -/
def Parts.value (p : Parts) : ℚ := p.significand * (2 : ℚ) ^ p.exponent

/-- The number that bits stand for; the infinities are below and above all others. -/
def value (x : Double) : WithBot (WithTop ℚ) :=
  if x.isInfinite then if x.isNegative then ⊥ else ⊤
  else ((if x.isNegative then -x.parts.value else x.parts.value : ℚ) : WithTop ℚ)

/-- The fraction bits of a NaN. The first of them tells quiet NaNs from signaling ones. -/
def payload (x : Double) : Nat := x.magnitude - infinityMagnitude

/-- The total order of floating-point data. -/
def TotalLE (x y : Double) : Prop :=
  match x.isNaN, y.isNaN with
  | false, false =>
      x.value < y.value ∨ (x.value = y.value ∧ (x.isNegative = true ∨ y.isNegative = false))
  | true, false => x.isNegative = true
  | false, true => y.isNegative = false
  | true, true =>
      match x.isNegative, y.isNegative with
      | true, false => True
      | false, true => False
      | false, false => x.payload ≤ y.payload
      | true, true => y.payload ≤ x.payload

/-! ## Magnitudes as a scale -/

/-- The smallest positive number. -/
def leastPositive : ℚ := (2 : ℚ) ^ (-1074 : ℤ)

/-- The multiple of the smallest positive number that a magnitude stands for. -/
def units (m : Nat) : Nat :=
  if m / 2 ^ 52 = 0 then m % 2 ^ 52 else (2 ^ 52 + m % 2 ^ 52) * 2 ^ (m / 2 ^ 52 - 1)

/-- The next magnitude stands for a larger multiple. -/
theorem units_lt_units_succ (m : Nat) : units m < units (m + 1) := by
  by_cases hlast : m % 2 ^ 52 = 2 ^ 52 - 1
  · -- from the last fraction of a binade to the first one of the next binade
    have hdiv : (m + 1) / 2 ^ 52 = m / 2 ^ 52 + 1 := by omega
    have hmod : (m + 1) % 2 ^ 52 = 0 := by omega
    rw [units, units, hdiv, hmod, hlast, if_neg (Nat.succ_ne_zero _), Nat.add_sub_cancel]
    split
    · rename_i hzero
      rw [hzero]
      decide
    · rename_i hfield
      have hpow : 2 ^ (m / 2 ^ 52) = 2 ^ (m / 2 ^ 52 - 1) * 2 := by
        rw [← Nat.pow_succ, Nat.succ_eq_add_one, Nat.sub_add_cancel (by omega)]
      have hpos : 0 < 2 ^ (m / 2 ^ 52 - 1) := Nat.two_pow_pos _
      rw [hpow]
      generalize 2 ^ (m / 2 ^ 52 - 1) = unit at hpos ⊢
      omega
  · -- within a binade
    have hdiv : (m + 1) / 2 ^ 52 = m / 2 ^ 52 := by omega
    have hmod : (m + 1) % 2 ^ 52 = m % 2 ^ 52 + 1 := by omega
    rw [units, units, hdiv, hmod]
    split
    · omega
    · exact Nat.mul_lt_mul_of_pos_right (by omega) (Nat.two_pow_pos _)

theorem strictMono_units : StrictMono units := strictMono_nat_of_lt_succ units_lt_units_succ

theorem units_eq_zero_iff (m : Nat) : units m = 0 ↔ m = 0 := by
  have hzero : units 0 = 0 := by decide
  constructor
  · intro h
    exact strictMono_units.injective (h.trans hzero.symm)
  · rintro rfl
    exact hzero

/-- The number of a magnitude is its multiple of the smallest positive number. -/
theorem value_parts (x : Double) : x.parts.value = units x.magnitude * leastPositive := by
  simp only [parts, units]
  split
  · rw [Parts.value, leastPositive]
  · rename_i hfield
    have hexponent : ((x.magnitude / 2 ^ 52 : Nat) : ℤ) - 1075 =
        ((x.magnitude / 2 ^ 52 - 1 : Nat) : ℤ) + -1074 := by omega
    rw [Parts.value]
    dsimp only
    rw [hexponent, zpow_add₀ (by norm_num), ← leastPositive, zpow_natCast, ← mul_assoc]
    push_cast
    rfl

/-! ## Numbers in their order -/

/-- The magnitude with the sign. -/
def signedMagnitude (x : Double) : Int := if x.isNegative then -(x.magnitude : Int) else x.magnitude

/-- The multiple of the smallest positive number that bits stand for. -/
def signedUnits (x : Double) : Int :=
  if x.isNegative then -(units x.magnitude : Int) else units x.magnitude

theorem signedUnits_lt_iff :
    x.signedUnits < y.signedUnits ↔ x.signedMagnitude < y.signedMagnitude := by
  have hlt := strictMono_units.lt_iff_lt (a := x.magnitude) (b := y.magnitude)
  have hgt := strictMono_units.lt_iff_lt (a := y.magnitude) (b := x.magnitude)
  have hx := units_eq_zero_iff x.magnitude
  have hy := units_eq_zero_iff y.magnitude
  unfold signedUnits signedMagnitude
  split <;> split <;> omega

/-- The number of finite bits is their multiple of the smallest positive number. -/
theorem value_of_finite (h : x.isInfinite = false) :
    x.value = ((x.signedUnits * leastPositive : ℚ) : WithTop ℚ) := by
  rw [value, if_neg (by simp [h]), value_parts, signedUnits]
  split <;> simp

theorem magnitude_of_isNaN_eq_false (h : x.isNaN = false) :
    x.isInfinite = true ∧ x.magnitude = infinityMagnitude ∨
      x.isInfinite = false ∧ x.magnitude < infinityMagnitude := by
  simp only [isNaN, isInfinite, decide_eq_false_iff_not, decide_eq_true_eq] at h ⊢
  omega

theorem signedMagnitude_bounds (h : x.magnitude < infinityMagnitude) :
    -(infinityMagnitude : Int) < x.signedMagnitude ∧
      x.signedMagnitude < infinityMagnitude := by
  unfold signedMagnitude
  split <;> omega

/-- Numbers are in the order of the magnitudes with their signs. -/
theorem value_lt_iff (hx : x.isNaN = false) (hy : y.isNaN = false) :
    x.value < y.value ↔ x.signedMagnitude < y.signedMagnitude := by
  have hpositive : 0 < leastPositive := zpow_pos (by norm_num) _
  have hinfinity : 0 < infinityMagnitude := by decide
  rcases magnitude_of_isNaN_eq_false hx with ⟨hxinf, hxmag⟩ | ⟨hxfin, hxmag⟩ <;>
    rcases magnitude_of_isNaN_eq_false hy with ⟨hyinf, hymag⟩ | ⟨hyfin, hymag⟩
  case inl.inl =>
    rw [value, value, if_pos hxinf, if_pos hyinf, signedMagnitude, signedMagnitude, hxmag, hymag]
    cases x.isNegative <;> cases y.isNegative <;> simp
    omega
  -- an infinite number is on one side of all finite ones
  case inl.inr =>
    have hbounds := signedMagnitude_bounds hymag
    rw [value, if_pos hxinf, value_of_finite hyfin, signedMagnitude, hxmag]
    cases x.isNegative with
    | true => exact iff_of_true (WithBot.bot_lt_coe _) hbounds.1
    | false => exact iff_of_false not_top_lt (Int.not_lt.2 (Int.le_of_lt hbounds.2))
  case inr.inl =>
    have hbounds := signedMagnitude_bounds hxmag
    rw [value_of_finite hxfin, value, if_pos hyinf, signedMagnitude.eq_def y, hymag]
    cases y.isNegative with
    | true => exact iff_of_false not_lt_bot (Int.not_lt.2 (Int.le_of_lt hbounds.1))
    | false => exact iff_of_true (WithBot.coe_lt_coe.2 (WithTop.coe_lt_top _)) hbounds.2
  case inr.inr =>
    rw [value_of_finite hxfin, value_of_finite hyfin, WithBot.coe_lt_coe, WithTop.coe_lt_coe,
      mul_lt_mul_iff_left₀ hpositive, Int.cast_lt, signedUnits_lt_iff]

/-- Numbers are equal if their magnitudes with the signs are. -/
theorem value_eq_iff (hx : x.isNaN = false) (hy : y.isNaN = false) :
    x.value = y.value ↔ x.signedMagnitude = y.signedMagnitude := by
  have hlt := value_lt_iff hx hy
  have hgt := value_lt_iff hy hx
  constructor
  · intro h
    rw [h] at hlt hgt
    simp only [lt_irrefl, false_iff] at hlt hgt
    omega
  · intro h
    rw [h] at hlt hgt
    simp only [lt_irrefl, iff_false, not_lt] at hlt hgt
    exact le_antisymm hgt hlt

/-- Ranks are in the order of the magnitudes with their signs, and of two zeros in that of the
signs. -/
theorem rank_le_iff :
    x.rank ≤ y.rank ↔ x.signedMagnitude < y.signedMagnitude ∨
      (x.signedMagnitude = y.signedMagnitude ∧ (x.isNegative = true ∨ y.isNegative = false)) := by
  unfold rank signedMagnitude
  cases x.isNegative <;> cases y.isNegative <;> simp <;> omega

/-- The ranks of bits are in the total order. -/
theorem rank_le_iff_totalLE (x y : Double) : x.rank ≤ y.rank ↔ x.TotalLE y := by
  have hnan (z : Double) : z.isNaN = true → infinityMagnitude < z.magnitude := of_decide_eq_true
  have hnumber (z : Double) : z.isNaN = false → ¬ infinityMagnitude < z.magnitude :=
    of_decide_eq_false
  unfold TotalLE
  cases hx : x.isNaN <;> cases hy : y.isNaN
  case false.false => rw [rank_le_iff, value_lt_iff hx hy, value_eq_iff hx hy]
  case false.true =>
    -- a NaN is further from zero than all numbers, on the side of its sign
    have hxmag := hnumber x hx
    have hymag := hnan y hy
    unfold rank
    cases x.isNegative <;> cases y.isNegative <;> simp <;> omega
  case true.false =>
    have hxmag := hnan x hx
    have hymag := hnumber y hy
    unfold rank
    cases x.isNegative <;> cases y.isNegative <;> simp <;> omega
  case true.true =>
    have hxmag := hnan x hx
    have hymag := hnan y hy
    unfold rank payload
    cases x.isNegative <;> cases y.isNegative <;> simp <;> omega

end DocMapper.Double
