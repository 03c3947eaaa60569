import DocMapper.Proofs.Number.Rounding
import DocMapper.Value.Order

set_option autoImplicit false

/-!
# The order of numbers

Any two numbers compare, and mirrored they compare the other way round (`Number.order_swap`). Two
integers compare exactly and all other numbers by their doubles. Rounding keeps the order of
integers, so what is at most a number has at most its double (`Number.rank_le_of_isLE`), and the
order is transitive wherever its outcome rests on doubles.

It is not where it does not: a double may be the nearest one of two integers, which are then equal
to it but not to each other. If it stands between them, the greater integer is at most the double
and the double at most the smaller integer (`Number.blurs`). `Value.preorder_unless_blurs` says that
this is the only exception, and that both integers have more than 53 bits.
-/

namespace DocMapper

namespace Number

variable {x y z : Number} {m n : Int} {d : Double}

/-! ## Two numbers -/

theorem order_swap (x y : Number) : y.order x = (x.order y).swap := by
  cases x <;> cases y <;> exact Std.OrientedOrd.eq_swap

theorem order_self (x : Number) : x.order x = .eq := by
  cases x <;> exact Std.ReflOrd.compare_self

theorem order_eq_iff_isLE :
    x.order y = .eq ↔ (x.order y).isLE = true ∧ (y.order x).isLE = true := by
  rw [order_swap x y]
  cases x.order y <;> decide

theorem isLE_order_integer : ((integer m).order (integer n)).isLE = true ↔ m ≤ n :=
  Int.isLE_compare

theorem isLE_order_double_right :
    (x.order (double d)).isLE = true ↔ x.toDouble.rank ≤ d.rank := by
  cases x <;> exact Int.isLE_compare

theorem isLE_order_double_left :
    ((double d).order x).isLE = true ↔ d.rank ≤ x.toDouble.rank := by
  cases x <;> exact Int.isLE_compare

/-- What is at most a number has at most its double. -/
theorem rank_le_of_isLE (h : (x.order y).isLE = true) : x.toDouble.rank ≤ y.toDouble.rank := by
  cases x with
  | double c => exact isLE_order_double_left.1 h
  | integer m =>
    cases y with
    | double d => exact isLE_order_double_right.1 h
    | integer n => exact Double.rank_ofInt_le (isLE_order_integer.1 h)

/-! ## Three numbers -/

/-- Whether the second of three numbers is the nearest double of the others, which are integers of
which the first is the greater one. -/
def blurs : Number → Number → Number → Bool
  | integer m, double d, integer n => n < m && d = Double.ofInt m && d = Double.ofInt n
  | _, _, _ => false

/-- The order is transitive unless a double blurs two integers. -/
theorem blurs_iff_isLE :
    x.blurs y z = true ↔
      (x.order y).isLE = true ∧ (y.order z).isLE = true ∧ ¬ (x.order z).isLE = true := by
  -- where the outer numbers compare as doubles, so do all three
  have hdoubles : ((x.order z).isLE = true ↔ x.toDouble.rank ≤ z.toDouble.rank) →
      ¬ ((x.order y).isLE = true ∧ (y.order z).isLE = true ∧ ¬ (x.order z).isLE = true) := by
    rintro hiff ⟨hxy, hyz, hnot⟩
    exact hnot (hiff.2 (Int.le_trans (rank_le_of_isLE hxy) (rank_le_of_isLE hyz)))
  cases x with
  | double c => exact ⟨nofun, fun h => absurd h (hdoubles isLE_order_double_left)⟩
  | integer m =>
    cases z with
    | double d =>
      have hblurs : (integer m).blurs y (double d) = false := by cases y <;> rfl
      rw [hblurs]
      exact ⟨nofun, fun h => absurd h (hdoubles isLE_order_double_right)⟩
    | integer n =>
      cases y with
      | integer k =>
        rw [isLE_order_integer, isLE_order_integer, isLE_order_integer]
        exact ⟨nofun, fun ⟨hmk, hkn, hnot⟩ => absurd (Int.le_trans hmk hkn) hnot⟩
      | double d =>
        rw [isLE_order_double_right, isLE_order_double_left, isLE_order_integer, blurs,
          Bool.and_eq_true, Bool.and_eq_true, decide_eq_true_eq, decide_eq_true_eq,
          decide_eq_true_eq, Int.not_le]
        constructor
        · rintro ⟨⟨hlt, hm⟩, hn⟩
          refine ⟨?_, ?_, hlt⟩
          · rw [hm]
            exact Int.le_refl _
          · rw [hn]
            exact Int.le_refl _
        · rintro ⟨hm, hn, hlt⟩
          -- the double of the smaller integer is no greater, so all three are the same
          have hle := Double.rank_ofInt_le (Int.le_of_lt hlt)
          have hm' : d.rank = (Double.ofInt m).rank := Int.le_antisymm (Int.le_trans hn hle) hm
          have hn' : d.rank = (Double.ofInt n).rank := Int.le_antisymm hn (Int.le_trans hle hm)
          exact ⟨⟨hlt, Double.rank_inj.1 hm'⟩, Double.rank_inj.1 hn'⟩

/-- Where a double blurs two integers, it is equal to both. -/
theorem order_eq_of_blurs (h : x.blurs y z = true) : x.order y = .eq ∧ y.order z = .eq := by
  unfold blurs at h
  split at h
  · rename_i m d n
    simp only [Bool.and_eq_true, decide_eq_true_eq] at h
    obtain ⟨⟨-, rfl⟩, hn⟩ := h
    have hmirrored : (double (Double.ofInt m)).order (integer n) = .eq := by
      rw [hn]
      exact Std.compare_eq_iff_eq.2 rfl
    exact ⟨Std.compare_eq_iff_eq.2 rfl, hmirrored⟩
  · cases h

/-- Equality is transitive unless a double blurs two integers, in either order. -/
theorem blurs_iff_eq :
    (x.blurs y z = true ∨ z.blurs y x = true) ↔
      x.order y = .eq ∧ y.order z = .eq ∧ x.order z ≠ .eq := by
  constructor
  · rintro (h | h)
    · obtain ⟨hxy, hyz⟩ := order_eq_of_blurs h
      obtain ⟨-, -, hnot⟩ := blurs_iff_isLE.1 h
      exact ⟨hxy, hyz, fun heq => hnot (order_eq_iff_isLE.1 heq).1⟩
    · obtain ⟨hzy, hyx⟩ := order_eq_of_blurs h
      obtain ⟨-, -, hnot⟩ := blurs_iff_isLE.1 h
      rw [order_swap, Ordering.swap_eq_eq] at hzy hyx
      exact ⟨hyx, hzy, fun heq => hnot (order_eq_iff_isLE.1 heq).2⟩
  · rintro ⟨hxy, hyz, hne⟩
    obtain ⟨hxy, hyx⟩ := order_eq_iff_isLE.1 hxy
    obtain ⟨hyz, hzy⟩ := order_eq_iff_isLE.1 hyz
    rw [ne_eq, order_eq_iff_isLE, Decidable.not_and_iff_or_not] at hne
    exact hne.imp (fun hnot => blurs_iff_isLE.2 ⟨hxy, hyz, hnot⟩)
      fun hnot => blurs_iff_isLE.2 ⟨hzy, hyx, hnot⟩

/-- Integers that a double blurs have more than 53 bits. -/
theorem exists_integers_of_blurs (h : x.blurs y z = true) :
    ∃ m n, x = integer m ∧ z = integer n ∧ 2 ^ 53 ≤ m.natAbs ∧ 2 ^ 53 ≤ n.natAbs := by
  unfold blurs at h
  split at h
  · rename_i m d n
    simp only [Bool.and_eq_true, decide_eq_true_eq] at h
    obtain ⟨⟨hlt, hm⟩, hn⟩ := h
    exact ⟨m, n, rfl, rfl, Double.le_natAbs_of_ofInt_eq (Int.ne_of_gt hlt) (hm.symm.trans hn)⟩
  · cases h

end Number

/-! ## Values -/

namespace Value

variable {a b c : Value} {x y : Number}

/-- Whether a value compares as less than another one or as equal to it. -/
def atMost (a b : Value) : Bool := (a.compare? b).any Ordering.isLE

/-- Whether the second of three values is the nearest double of the others, which are integers of
which the first is the greater one. -/
def blurs (a b c : Value) : Bool :=
  match a.number?, b.number?, c.number? with
  | some x, some y, some z => x.blurs y z
  | _, _, _ => false

theorem compare?_of_number? (ha : a.number? = some x) (hb : b.number? = some y) :
    a.compare? b = some (x.order y) := by
  rw [compare?, ha, hb]

theorem atMost_of_number? (ha : a.number? = some x) (hb : b.number? = some y) :
    a.atMost b = (x.order y).isLE := by
  rw [atMost, compare?_of_number? ha hb, Option.any_some]

theorem equal_iff_of_number? (ha : a.number? = some x) (hb : b.number? = some y) :
    a.equal b = true ↔ x.order y = .eq := by
  rw [equal, ha, hb]
  exact beq_iff_eq

/-- Any two numbers compare, and mirrored the other way round. The order is transitive, and so is
equality, except exactly where a double is the nearest one of two different integers, which are
equal to it and not to each other. These have more than 53 bits. -/
theorem preorder_unless_blurs (ha : a.isNumber = true) (hb : b.isNumber = true)
    (hc : c.isNumber = true) :
    (∃ order, a.compare? b = some order ∧ b.compare? a = some order.swap) ∧
      (a.blurs b c = true ↔ a.atMost b = true ∧ b.atMost c = true ∧ ¬ a.atMost c = true) ∧
      (a.equal a = true ∧ (a.equal b = true ↔ b.equal a = true)) ∧
      (a.blurs b c = true ∨ c.blurs b a = true ↔
        a.equal b = true ∧ b.equal c = true ∧ ¬ a.equal c = true) ∧
      (a.blurs b c = true → ∃ m n, a.number? = some (.integer m) ∧ c.number? = some (.integer n) ∧
        2 ^ 53 ≤ m.natAbs ∧ 2 ^ 53 ≤ n.natAbs) := by
  obtain ⟨x, hx⟩ := Option.isSome_iff_exists.1 ha
  obtain ⟨y, hy⟩ := Option.isSome_iff_exists.1 hb
  obtain ⟨z, hz⟩ := Option.isSome_iff_exists.1 hc
  have hblurs : a.blurs b c = x.blurs y z ∧ c.blurs b a = z.blurs y x := by
    rw [blurs, blurs, hx, hy, hz]
    exact ⟨rfl, rfl⟩
  rw [hblurs.1, hblurs.2, atMost_of_number? hx hy, atMost_of_number? hy hz,
    atMost_of_number? hx hz, equal_iff_of_number? hx hx, equal_iff_of_number? hx hy,
    equal_iff_of_number? hy hx, equal_iff_of_number? hy hz, equal_iff_of_number? hx hz]
  refine ⟨⟨x.order y, compare?_of_number? hx hy, ?mirrored⟩, Number.blurs_iff_isLE,
    ⟨Number.order_self x, ?symmetric⟩, Number.blurs_iff_eq, fun h => ?large⟩
  case mirrored => rw [compare?_of_number? hy hx, Number.order_swap]
  case symmetric => rw [Number.order_swap x y, Ordering.swap_eq_eq]
  case large =>
    obtain ⟨m, n, rfl, rfl, hlarge⟩ := Number.exists_integers_of_blurs h
    exact ⟨m, n, hx, hz, hlarge⟩

/-- The negative zero, the integer zero and the smallest positive double are in this order. -/
theorem preorder_unless_blurs_zeros :
    let negative : Value := .double .negativeZero
    let zero : Value := .int32 0
    let positive : Value := .double ⟨1#64⟩
    negative.atMost zero = true ∧ zero.atMost positive = true ∧ negative.atMost positive = true ∧
      negative.equal zero = false := by
  intro negative zero positive
  obtain ⟨-, htransitive, -⟩ :=
    preorder_unless_blurs (a := negative) (b := zero) (c := positive) rfl rfl rfl
  have hfirst : negative.atMost zero = true := by decide
  have hsecond : zero.atMost positive = true := by decide
  refine ⟨hfirst, hsecond, Decidable.byContradiction fun hnot => ?_, by decide⟩
  cases htransitive.2 ⟨hfirst, hsecond, hnot⟩

/-- The double of `2 ^ 53` is the nearest one of that integer and of the next one, which is at most
the double, and that at most the smaller integer. Both are equal to the double and not to each
other. -/
theorem blurs_large :
    let next : Value := .int64 9007199254740993
    let double : Value := .double ⟨0x4340000000000000#64⟩
    let integer : Value := .int64 9007199254740992
    (next.atMost double = true ∧ double.atMost integer = true ∧ next.atMost integer = false) ∧
      next.equal double = true ∧ double.equal integer = true ∧ next.equal integer = false := by
  decide +kernel

end Value

end DocMapper
