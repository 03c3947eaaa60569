import DocMapper.Proofs.Number.Integers

set_option autoImplicit false

/-!
# Rounding keeps the order

An integer is rounded to a significand of 53 bits in the binade of its highest bit
(`Double.roundedMagnitude_one`). Within a binade a larger integer has no smaller significand, and a
significand that is rounded up to the next power of two is the first number of the next binade. So
the nearest doubles of integers are in the order of the integers (`Double.rank_ofInt_le`).

Integers of at most 53 bits are not rounded, so different integers with one nearest double have more
bits (`Double.le_natAbs_of_ofInt_eq`).
-/

namespace DocMapper.Double

variable {m n num den : Nat} {j k : Int}

/-! ## Rounding a quotient -/

theorem divideToEven_mul (q : Nat) (hden : 0 < den) : divideToEven (q * den) den = q := by
  rw [divideToEven, Nat.mul_mod_left, Nat.mul_div_cancel q hden, if_neg (by omega)]

/-- A larger numerator has no smaller quotient. -/
theorem divideToEven_le (den : Nat) (h : m ≤ n) : divideToEven m den ≤ divideToEven n den := by
  rcases Nat.lt_or_eq_of_le (Nat.div_le_div_right (c := den) h) with hlt | heq
  · -- one is rounded up at most to where the other one is rounded down
    have hup : divideToEven m den ≤ m / den + 1 := by
      unfold divideToEven
      dsimp only
      split <;> omega
    have hdown := le_divideToEven n den
    omega
  · -- of one integral part the larger remainder is rounded up if the smaller one is
    have hremainder : m % den ≤ n % den := by
      have hm := Nat.div_add_mod m den
      have hn := Nat.div_add_mod n den
      rw [heq] at hm
      omega
    unfold divideToEven
    rw [heq]
    dsimp only
    split <;> split <;> omega

/-! ## Rounding an integer -/

/-- The 53 bits to which an integer is rounded, or the next power of two. -/
def significand (m : Nat) : Nat := divideToEven (m * 2 ^ (52 - m.log2)) (2 ^ (m.log2 - 52))

/-- The magnitude of a rounded integer is its significand in the binade of its highest bit. -/
theorem roundedMagnitude_one (hm : m ≠ 0) :
    roundedMagnitude m 1 = min infinityMagnitude (significand m + (m.log2 + 1022) * 2 ^ 52) := by
  have hunit : max ((m.log2 : Int) - 52) (-1074) = (m.log2 : Int) - 52 := by omega
  have hshift : (-((m.log2 : Int) - 52)).toNat = 52 - m.log2 := by omega
  have hscale : ((m.log2 : Int) - 52).toNat = m.log2 - 52 := by omega
  have hfield : ((m.log2 : Int) - 52 + 1074).toNat = m.log2 + 1022 := by omega
  rw [roundedMagnitude, if_neg hm, binade_one hm]
  dsimp only
  rw [hunit, hshift, hscale, hfield, Nat.one_mul, significand]

/-- A significand has 53 bits or is the next power of two. -/
theorem significand_bounds (hm : m ≠ 0) : 2 ^ 52 ≤ significand m ∧ significand m ≤ 2 ^ 53 := by
  have hpos : 0 < 2 ^ (m.log2 - 52) := Nat.two_pow_pos _
  have hexponent : 52 + (m.log2 - 52) = m.log2 + (52 - m.log2) := by omega
  have hexponent' : 53 + (m.log2 - 52) = m.log2 + 1 + (52 - m.log2) := by omega
  -- the bounds of the binade, rounded, are the bounds of the significand
  constructor
  · rw [← divideToEven_mul (2 ^ 52) hpos, ← Nat.pow_add, hexponent, Nat.pow_add]
    exact divideToEven_le _ (Nat.mul_le_mul_right _ (Nat.log2_self_le hm))
  · rw [← divideToEven_mul (2 ^ 53) hpos, ← Nat.pow_add, hexponent', Nat.pow_add (m := m.log2 + 1)]
    exact divideToEven_le _ (Nat.mul_le_mul_right _ (Nat.le_of_lt Nat.lt_log2_self))

/-- A larger integer has no smaller magnitude when it is rounded. -/
theorem roundedMagnitude_le (h : m ≤ n) : roundedMagnitude m 1 ≤ roundedMagnitude n 1 := by
  by_cases hm : m = 0
  · rw [roundedMagnitude, if_pos hm]
    exact Nat.zero_le _
  · have hn : n ≠ 0 := by omega
    rw [roundedMagnitude_one hm, roundedMagnitude_one hn]
    refine Nat.le_min.2 ⟨Nat.min_le_left _ _, Nat.le_trans (Nat.min_le_right _ _) ?_⟩
    have hlog : m.log2 ≤ n.log2 := by
      rw [Nat.le_log2 hn]
      exact Nat.le_trans (Nat.log2_self_le hm) h
    rcases Nat.lt_or_eq_of_le hlog with hlt | heq
    · -- in a lower binade at most the first number of the next one is reached
      calc significand m + (m.log2 + 1022) * 2 ^ 52 ≤ 2 ^ 53 + (m.log2 + 1022) * 2 ^ 52 :=
            Nat.add_le_add_right (significand_bounds hm).2 _
        _ = 2 ^ 52 + (m.log2 + 1 + 1022) * 2 ^ 52 := by
            rw [Nat.add_right_comm m.log2, Nat.add_mul _ 1, Nat.one_mul]
            omega
        _ ≤ significand n + (n.log2 + 1022) * 2 ^ 52 :=
            Nat.add_le_add (significand_bounds hn).1
              (Nat.mul_le_mul_right _ (Nat.add_le_add_right hlt 1022))
    · have hle : significand m ≤ significand n := by
        rw [significand, significand, heq]
        exact divideToEven_le _ (Nat.mul_le_mul_right _ h)
      rw [heq]
      exact Nat.add_le_add_right hle _

/-- The nearest doubles of integers are in the order of the integers. -/
theorem rank_ofInt_le (h : j ≤ k) : (ofInt j).rank ≤ (ofInt k).rank := by
  simp only [rank, isNegative_ofInt, magnitude_ofInt, decide_eq_true_eq]
  by_cases hj : j < 0
  · by_cases hk : k < 0
    · have hle := roundedMagnitude_le (m := k.natAbs) (n := j.natAbs) (by omega)
      rw [if_pos hj, if_pos hk]
      omega
    · rw [if_pos hj, if_neg hk]
      omega
  · have hle := roundedMagnitude_le (m := j.natAbs) (n := k.natAbs) (by omega)
    rw [if_neg hj, if_neg (by omega)]
    omega

/-- Different integers with one nearest double have more than 53 bits. -/
theorem le_natAbs_of_ofInt_eq (hne : j ≠ k) (h : ofInt j = ofInt k) :
    2 ^ 53 ≤ j.natAbs ∧ 2 ^ 53 ≤ k.natAbs := by
  -- one that has not is read back, and so can not be the other one
  have hlarge : ∀ {j k : Int}, j ≠ k → ofInt j = ofInt k → 2 ^ 53 ≤ j.natAbs := by
    intro j k hne h
    refine Nat.le_of_not_lt fun hsmall => ?_
    have hread : (ofInt k).integer? = some j := by
      rw [← h]
      exact integer?_ofInt hsmall
    by_cases hk : k.natAbs < 2 ^ 53
    · rw [integer?_ofInt hk] at hread
      exact hne (Option.some.inj hread).symm
    · exact Nat.not_le_of_lt hsmall (le_natAbs_of_integer?_ofInt (Nat.le_of_not_lt hk) hread)
  exact ⟨hlarge hne h, hlarge hne.symm h.symm⟩

end DocMapper.Double
