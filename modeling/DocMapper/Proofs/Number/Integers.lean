import DocMapper.Number.Double

set_option autoImplicit false

/-!
# Doubles that are integers

`Double.integer?` reads the integer that a double is, and `Double.ofInt` rounds an integer to a
double. Below `2 ^ 53` in magnitude nothing is lost: `integer?_ofInt` reads an integer back, and
each double that is such an integer is its rounding, apart from the negative zero
(`eq_ofInt_of_integer?`). From `2 ^ 53` on integers are rounded, but not below that bound
(`le_natAbs_of_integer?_ofInt`).

The magnitude of a double is a field of eleven bits above a fraction of 52 bits, so the proofs
compare `field * 2 ^ 52 + fraction` with the significand that the rounding computes.
-/

namespace DocMapper.Double

variable {x : Double} {n k : Int} {m : Nat}

/-- Zero with a negative sign. -/
def negativeZero : Double := ofMagnitude true 0

/-! ## Sign and magnitude -/

theorem isNegative_ofMagnitude (negative : Bool) (h : m < 2 ^ 63) :
    (ofMagnitude negative m).isNegative = negative := by
  unfold ofMagnitude isNegative
  cases negative with
  | true =>
    simp only [if_true, BitVec.toNat_ofNat, decide_eq_true_eq]
    omega
  | false =>
    simp only [Bool.false_eq_true, if_false, BitVec.toNat_ofNat, decide_eq_false_iff_not]
    omega

theorem magnitude_ofMagnitude (negative : Bool) (h : m < 2 ^ 63) :
    (ofMagnitude negative m).magnitude = m := by
  unfold ofMagnitude magnitude
  cases negative with
  | true =>
    simp only [if_true, BitVec.toNat_ofNat]
    omega
  | false =>
    simp only [Bool.false_eq_true, if_false, BitVec.toNat_ofNat]
    omega

theorem roundedMagnitude_lt (num den : Nat) : roundedMagnitude num den < 2 ^ 63 := by
  have hinfinity : infinityMagnitude < 2 ^ 63 := by decide
  unfold roundedMagnitude
  split
  · exact Nat.two_pow_pos 63
  · exact Nat.lt_of_le_of_lt (Nat.min_le_left _ _) hinfinity

theorem isNegative_ofInt (n : Int) : (ofInt n).isNegative = decide (n < 0) :=
  isNegative_ofMagnitude _ (roundedMagnitude_lt _ _)

theorem magnitude_ofInt (n : Int) : (ofInt n).magnitude = roundedMagnitude n.natAbs 1 :=
  magnitude_ofMagnitude _ (roundedMagnitude_lt _ _)

/-! ## Reading an integer -/

/-- A double is an integer if its magnitude is one and its sign fits. -/
theorem integer?_eq_some_iff :
    x.integer? = some n ↔
      x.magnitude < infinityMagnitude ∧ n.natAbs * x.parts.denominator = x.parts.numerator ∧
        if x.isNegative then n ≤ 0 else 0 ≤ n := by
  have hpos : 0 < x.parts.denominator := Nat.two_pow_pos _
  unfold integer?
  split
  · rename_i hlarge
    simp only [reduceCtorEq, false_iff, not_and]
    intro hsmall
    omega
  · rename_i hsmall
    dsimp only
    split
    · rename_i hmod
      have hdvd : x.parts.numerator / x.parts.denominator * x.parts.denominator =
          x.parts.numerator := Nat.div_mul_cancel (Nat.dvd_of_mod_eq_zero hmod)
      rw [Option.some.injEq]
      -- the quotient is the magnitude of the integer, so only its sign is left
      generalize x.parts.numerator / x.parts.denominator = quotient at hdvd
      constructor
      · rintro rfl
        refine ⟨by omega, ?_, ?_⟩
        · have habs : (if x.isNegative then -(quotient : Int) else quotient).natAbs = quotient := by
            split <;> simp
          rw [habs, hdvd]
        · split <;> omega
      · rintro ⟨-, hvalue, hsign⟩
        have hquotient : n.natAbs = quotient :=
          Nat.eq_of_mul_eq_mul_right hpos (hvalue.trans hdvd.symm)
        split at hsign
        · rw [if_pos ‹_›]
          omega
        · rw [if_neg ‹_›]
          omega
    · rename_i hmod
      simp only [reduceCtorEq, false_iff, not_and]
      intro _ hvalue
      exact absurd (Nat.mod_eq_zero_of_dvd ⟨n.natAbs, by rw [Nat.mul_comm, hvalue]⟩) hmod

/-- Both zeros are the integer zero. -/
theorem integer?_of_magnitude_eq_zero (h : x.magnitude = 0) : x.integer? = some 0 := by
  have hparts : x.parts = ⟨0, -1074⟩ := by
    rw [parts, h]
    rfl
  rw [integer?_eq_some_iff, h, hparts, Parts.numerator, Nat.zero_mul, Int.natAbs_zero, Nat.zero_mul]
  refine ⟨by decide, rfl, ?_⟩
  split <;> exact Int.le_refl 0

theorem parts_of_magnitude (field fraction : Nat) (hfield : 0 < field)
    (hfraction : fraction < 2 ^ 52) (h : x.magnitude = field * 2 ^ 52 + fraction) :
    x.parts = ⟨2 ^ 52 + fraction, (field : Int) - 1075⟩ := by
  have hdiv : x.magnitude / 2 ^ 52 = field := by omega
  have hmod : x.magnitude % 2 ^ 52 = fraction := by omega
  rw [parts, hdiv, hmod, if_neg (by omega)]

/-- From field 1076 on a number is an integer of more than 53 bits. -/
theorem le_numerator_of_le_magnitude (h : 1076 * 2 ^ 52 ≤ x.magnitude) :
    x.parts.denominator = 1 ∧ 2 ^ 53 ≤ x.parts.numerator := by
  have hparts := parts_of_magnitude (x := x) (x.magnitude / 2 ^ 52) (x.magnitude % 2 ^ 52)
    (by omega) (by omega) (by omega)
  have hfield : 1076 ≤ x.magnitude / 2 ^ 52 := by omega
  generalize x.magnitude / 2 ^ 52 = field at hparts hfield
  have hshift : (-((field : Int) - 1075)).toNat = 0 := by omega
  have hscale : 1 ≤ ((field : Int) - 1075).toNat := by omega
  rw [hparts, Parts.denominator, Parts.numerator]
  dsimp only
  refine ⟨by rw [hshift, Nat.pow_zero], ?_⟩
  calc 2 ^ 53 = 2 ^ 52 * 2 ^ 1 := by decide
    _ ≤ (2 ^ 52 + x.magnitude % 2 ^ 52) * 2 ^ ((field : Int) - 1075).toNat :=
        Nat.mul_le_mul (Nat.le_add_right _ _) (Nat.pow_le_pow_right (by decide) hscale)

/-! ## Rounding an integer -/

theorem divideToEven_one (m : Nat) : divideToEven m 1 = m := by
  simp [divideToEven, Nat.mod_one]

theorem le_divideToEven (num den : Nat) : num / den ≤ divideToEven num den := by
  unfold divideToEven
  dsimp only
  split <;> omega

/-- An integer lies in the binade of its highest bit. -/
theorem binade_one (hm : m ≠ 0) : binade m 1 = m.log2 := by
  have hle : 2 ^ m.log2 ≤ m := Nat.log2_self_le hm
  unfold binade
  have hone : (1 : Nat).log2 = 0 := by decide
  rw [hone]
  dsimp only
  rw [if_pos]
  · simp
  · simpa using hle

/-- An integer of at most 53 bits, shifted until it has 53 bits. -/
theorem shifted_bounds (hm : m ≠ 0) (hlog : m.log2 ≤ 52) :
    2 ^ 52 ≤ m * 2 ^ (52 - m.log2) ∧ m * 2 ^ (52 - m.log2) < 2 ^ 53 := by
  have hshift : m.log2 + (52 - m.log2) = 52 := by omega
  constructor
  · calc 2 ^ 52 = 2 ^ m.log2 * 2 ^ (52 - m.log2) := by rw [← Nat.pow_add, hshift]
      _ ≤ m * 2 ^ (52 - m.log2) := Nat.mul_le_mul_right _ (Nat.log2_self_le hm)
  · calc m * 2 ^ (52 - m.log2) < 2 ^ (m.log2 + 1) * 2 ^ (52 - m.log2) :=
          Nat.mul_lt_mul_of_pos_right Nat.lt_log2_self (Nat.two_pow_pos _)
      _ = 2 ^ 53 := by rw [← Nat.pow_add, Nat.add_right_comm, hshift]

/-- An integer of at most 53 bits is shifted and not rounded. -/
theorem roundedMagnitude_of_log2_le (hm : m ≠ 0) (hlog : m.log2 ≤ 52) :
    roundedMagnitude m 1 = m * 2 ^ (52 - m.log2) + (m.log2 + 1022) * 2 ^ 52 := by
  have hlt := (shifted_bounds hm hlog).2
  have hunit : max ((m.log2 : Int) - 52) (-1074) = (m.log2 : Int) - 52 := by omega
  rw [roundedMagnitude, if_neg hm, binade_one hm]
  dsimp only
  rw [hunit]
  have hshift : (-((m.log2 : Int) - 52)).toNat = 52 - m.log2 := by omega
  have hscale : ((m.log2 : Int) - 52).toNat = 0 := by omega
  have hfield : ((m.log2 : Int) - 52 + 1074).toNat = m.log2 + 1022 := by omega
  rw [hshift, hscale, hfield, Nat.pow_zero, Nat.mul_one, divideToEven_one]
  refine Nat.min_eq_right ?_
  rw [infinityMagnitude]
  omega

/-- An integer of more than 53 bits is not rounded below `2 ^ 53`. -/
theorem le_roundedMagnitude_of_lt_log2 (hlog : 52 < m.log2) :
    1076 * 2 ^ 52 ≤ roundedMagnitude m 1 := by
  have hm : m ≠ 0 := by
    rintro rfl
    simp at hlog
  have hunit : max ((m.log2 : Int) - 52) (-1074) = (m.log2 : Int) - 52 := by omega
  rw [roundedMagnitude, if_neg hm, binade_one hm]
  dsimp only
  rw [hunit]
  have hshift : (-((m.log2 : Int) - 52)).toNat = 0 := by omega
  have hscale : ((m.log2 : Int) - 52).toNat = m.log2 - 52 := by omega
  have hfield : ((m.log2 : Int) - 52 + 1074).toNat = m.log2 + 1022 := by omega
  rw [hshift, hscale, hfield, Nat.pow_zero, Nat.mul_one, Nat.one_mul]
  -- the quotient keeps the 53 highest bits
  have hquotient : 2 ^ 52 ≤ m / 2 ^ (m.log2 - 52) := by
    rw [Nat.le_div_iff_mul_le (Nat.two_pow_pos _), ← Nat.pow_add]
    have hexponent : 52 + (m.log2 - 52) = m.log2 := by omega
    rw [hexponent]
    exact Nat.log2_self_le hm
  have hsignificand := Nat.le_trans hquotient (le_divideToEven m (2 ^ (m.log2 - 52)))
  refine Nat.le_min.2 ⟨by decide, ?_⟩
  omega

/-- An integer of at most 53 bits is read back from its double. -/
theorem integer?_ofInt (h : n.natAbs < 2 ^ 53) : (ofInt n).integer? = some n := by
  by_cases hzero : n = 0
  · subst hzero
    exact integer?_of_magnitude_eq_zero (by decide)
  · rw [integer?_eq_some_iff, magnitude_ofInt, isNegative_ofInt]
    have hm : n.natAbs ≠ 0 := by omega
    have hlog : n.natAbs.log2 ≤ 52 := by
      have := (Nat.log2_lt hm).2 h
      omega
    have hrounded := roundedMagnitude_of_log2_le hm hlog
    obtain ⟨hle, hlt⟩ := shifted_bounds hm hlog
    -- the highest of the 53 bits is carried into the field
    have hparts := parts_of_magnitude (x := ofInt n) (n.natAbs.log2 + 1023)
      (n.natAbs * 2 ^ (52 - n.natAbs.log2) - 2 ^ 52) (by omega) (by omega)
      (by rw [magnitude_ofInt, hrounded]; omega)
    refine ⟨?_, ?_, ?_⟩
    · rw [hrounded, infinityMagnitude]
      omega
    · have hshift :
          (-(((n.natAbs.log2 + 1023 : Nat) : Int) - 1075)).toNat = 52 - n.natAbs.log2 := by
        omega
      have hscale : (((n.natAbs.log2 + 1023 : Nat) : Int) - 1075).toNat = 0 := by omega
      rw [hparts, Parts.denominator, Parts.numerator, hshift, hscale, Nat.pow_zero, Nat.mul_one,
        Nat.add_sub_cancel' hle]
    · by_cases hneg : n < 0 <;> simp [hneg] <;> omega

/-- The highest bit of an integer that fills 53 bits when it is shifted. -/
theorem log2_of_shifted {m : Nat} (shift : Nat) (hle : 2 ^ 52 ≤ m * 2 ^ shift)
    (hlt : m * 2 ^ shift < 2 ^ 53) : m.log2 + shift = 52 := by
  have hm : m ≠ 0 := by
    rintro rfl
    omega
  have hshift : shift < 53 := by
    refine (Nat.pow_lt_pow_iff_right (by decide : 1 < 2)).1 (Nat.lt_of_le_of_lt ?_ hlt)
    exact Nat.le_mul_of_pos_left _ (Nat.pos_of_ne_zero hm)
  -- both bounds are multiples of the shift, so it cancels
  have hsplit :
      2 ^ (52 - shift) * 2 ^ shift = 2 ^ 52 ∧ 2 ^ (52 - shift + 1) * 2 ^ shift = 2 ^ 53 := by
    have hfirst : 52 - shift + shift = 52 := by omega
    have hsecond : 52 - shift + 1 + shift = 53 := by omega
    rw [← Nat.pow_add, ← Nat.pow_add, hfirst, hsecond]
    exact ⟨rfl, rfl⟩
  have hlog : m.log2 = 52 - shift := by
    rw [Nat.log2_eq_iff hm]
    constructor
    · refine Nat.le_of_mul_le_mul_right ?_ (Nat.two_pow_pos shift)
      rwa [hsplit.1]
    · refine Nat.lt_of_mul_lt_mul_right (a := 2 ^ shift) ?_
      rwa [hsplit.2]
  omega

theorem eq_zero_of_shifted {m shift bound : Nat} (hle : bound ≤ shift)
    (hlt : m * 2 ^ shift < 2 ^ bound) : m = 0 := by
  refine Nat.eq_zero_of_not_pos fun hpos => ?_
  have hbound : 2 ^ bound ≤ m * 2 ^ shift :=
    Nat.le_trans (Nat.pow_le_pow_right (by decide) hle) (Nat.le_mul_of_pos_left _ hpos)
  exact Nat.not_lt.2 hbound hlt

/-- A double that is an integer of at most 53 bits has the magnitude of its rounding. -/
theorem magnitude_of_integer? (hx : x.integer? = some n) (h : n.natAbs < 2 ^ 53) :
    x.magnitude = roundedMagnitude n.natAbs 1 := by
  obtain ⟨-, hvalue, -⟩ := integer?_eq_some_iff.1 hx
  by_cases hfield : x.magnitude / 2 ^ 52 = 0
  · -- a number whose field is zero is below one
    have hparts : x.parts = ⟨x.magnitude % 2 ^ 52, -1074⟩ := by rw [parts, if_pos hfield]
    have hscale : (-1074 : Int).toNat = 0 := by decide
    rw [hparts, Parts.denominator, Parts.numerator] at hvalue
    dsimp only at hvalue
    rw [hscale, Nat.pow_zero, Nat.mul_one] at hvalue
    have hzero : n.natAbs = 0 := by
      have hshift : 52 ≤ (-(-1074 : Int)).toNat := by decide
      refine eq_zero_of_shifted hshift ?_
      rw [hvalue]
      exact Nat.mod_lt _ (Nat.two_pow_pos 52)
    rw [hzero, Nat.zero_mul] at hvalue
    rw [hzero, roundedMagnitude, if_pos rfl]
    omega
  · -- above field 1075 the number has more than 53 bits
    have hbound : x.magnitude < 1076 * 2 ^ 52 := by
      refine Nat.lt_of_not_le fun hlarge => ?_
      obtain ⟨hden, hnum⟩ := le_numerator_of_le_magnitude hlarge
      rw [hden, Nat.mul_one] at hvalue
      omega
    have hparts := parts_of_magnitude (x := x) (x.magnitude / 2 ^ 52) (x.magnitude % 2 ^ 52)
      (by omega) (by omega) (by omega)
    generalize hfraction : x.magnitude % 2 ^ 52 = fraction at hparts
    generalize hf : x.magnitude / 2 ^ 52 = field at hparts hfield
    rw [hparts, Parts.denominator, Parts.numerator] at hvalue
    dsimp only at hvalue
    have hshift : (-((field : Int) - 1075)).toNat = 1075 - field := by omega
    have hscale : ((field : Int) - 1075).toNat = 0 := by omega
    rw [hshift, hscale, Nat.pow_zero, Nat.mul_one] at hvalue
    -- the field is that of the highest bit of the integer
    have hlog := log2_of_shifted (m := n.natAbs) (1075 - field) (by omega) (by omega)
    have hm : n.natAbs ≠ 0 := by
      intro hzero
      rw [hzero, Nat.zero_mul] at hvalue
      omega
    have hback : 52 - n.natAbs.log2 = 1075 - field := by omega
    rw [roundedMagnitude_of_log2_le hm (by omega), hback, hvalue]
    omega

/-- A double that is an integer of at most 53 bits is the rounding of that integer, or the zero with
a negative sign. -/
theorem eq_ofInt_of_integer? (hx : x.integer? = some n) (h : n.natAbs < 2 ^ 53) :
    x = ofInt n ∨ (n = 0 ∧ x = negativeZero) := by
  have hmagnitude := magnitude_of_integer? hx h
  obtain ⟨-, -, hsign⟩ := integer?_eq_some_iff.1 hx
  -- only the sign is left, which a zero does not determine
  rw [← ofMagnitude_isNegative_magnitude x, hmagnitude]
  cases hneg : x.isNegative with
  | false =>
    rw [hneg] at hsign
    have hn : 0 ≤ n := by simpa using hsign
    refine Or.inl ?_
    rw [ofInt, ofRatio, decide_eq_false (by omega)]
  | true =>
    rw [hneg] at hsign
    have hn : n ≤ 0 := by simpa using hsign
    by_cases hzero : n = 0
    · subst hzero
      exact Or.inr ⟨rfl, by decide⟩
    · refine Or.inl ?_
      rw [ofInt, ofRatio, decide_eq_true (by omega)]

/-- An integer of more than 53 bits has a double that is an integer of more than 53 bits, if it is
finite. -/
theorem le_natAbs_of_integer?_ofInt (h : 2 ^ 53 ≤ n.natAbs) (hk : (ofInt n).integer? = some k) :
    2 ^ 53 ≤ k.natAbs := by
  obtain ⟨-, hvalue, -⟩ := integer?_eq_some_iff.1 hk
  have hlog : 52 < n.natAbs.log2 := (Nat.le_log2 (by omega)).2 h
  have hle := le_roundedMagnitude_of_lt_log2 hlog
  rw [← magnitude_ofInt] at hle
  obtain ⟨hden, hnum⟩ := le_numerator_of_le_magnitude hle
  rw [hden, Nat.mul_one] at hvalue
  omega

end DocMapper.Double
