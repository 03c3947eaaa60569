import DocMapper.Proofs.Number.Integers
import DocMapper.Value.Key
import DocMapper.Value.Order

set_option autoImplicit false

/-!
# Equality of values and equality of keys

A query compares two numbers as doubles as soon as one of them is a double, and an index compares
their keys. For scalar values that are not numbers these are the same equality. For numbers there
are two exceptions:

* an integer from `9 * 10 ^ 15` on and the double nearest to it are equal, but only the integer has
  the key of an integer (`Number.splits`);
* the zero with a negative sign is not equal to the other zeros, but has their key
  (`Number.merges`).

`Value.clash_eq_false_iff` says that there is no other one.
-/

namespace DocMapper

/-! ## Keys of numbers -/

namespace Double

variable {x : Double} {n : Int}

/-- There are two zeros. -/
theorem isZero_iff : x.isZero = true ↔ x = ofInt 0 ∨ x = negativeZero := by
  have hzero : ofInt 0 = ofMagnitude false 0 := by decide
  constructor
  · intro h
    rw [isZero, decide_eq_true_eq] at h
    rw [← ofMagnitude_isNegative_magnitude x, h, hzero]
    cases x.isNegative with
    | false => exact Or.inl rfl
    | true => exact Or.inr rfl
  · rintro (rfl | rfl) <;> decide

/-- A double shares the key of an integer below the bound if it is the integer's double, and the
zero with a negative sign shares that of zero. -/
theorem keyInteger?_eq_some_iff :
    x.keyInteger? = some n ↔
      n.natAbs < 9000000000000000 ∧ (x = ofInt n ∨ (n = 0 ∧ x = negativeZero)) := by
  rw [keyInteger?, Option.filter_eq_some_iff, decide_eq_true_eq]
  constructor
  · rintro ⟨hx, hsmall⟩
    exact ⟨hsmall, eq_ofInt_of_integer? hx (by omega)⟩
  · rintro ⟨hsmall, rfl | ⟨rfl, rfl⟩⟩
    · exact ⟨integer?_ofInt (by omega), hsmall⟩
    · exact ⟨integer?_of_magnitude_eq_zero (by decide), hsmall⟩

end Double

/-- Whether a key is one of numbers. -/
def Key.isNumeric : Key → Bool
  | integer _ => true
  | double _ => true
  | _ => false

namespace Number

/-- The key of a number. -/
def key : Number → Key
  | integer n => .integer n
  | double x =>
      match x.keyInteger? with
      | some n => .integer n
      | none => .double x

/-- Whether a number is zero, of either sign. -/
def isZero : Number → Bool
  | integer n => n = 0
  | double x => x.isZero

/-- Whether a number is zero with a negative sign. -/
def isNegativeZero : Number → Bool
  | integer _ => false
  | double x => x = Double.negativeZero

theorem isNumeric_key (x : Number) : x.key.isNumeric = true := by
  cases x with
  | integer n => rfl
  | double x =>
    rw [key]
    cases x.keyInteger? <;> rfl

/-- Whether two numbers are equal but have different keys: a large integer and its double. -/
def splits : Number → Number → Bool
  | integer n, double x => 9000000000000000 ≤ n.natAbs && x = Double.ofInt n
  | double x, integer n => 9000000000000000 ≤ n.natAbs && x = Double.ofInt n
  | _, _ => false

/-- Whether two numbers have one key but are not equal: zeros of which one has a negative sign. -/
def merges (x y : Number) : Bool :=
  x.isZero && y.isZero && x.isNegativeZero != y.isNegativeZero

variable {x y z : Number}

theorem order_integer_integer_eq_iff {m n : Int} : (integer m).order (integer n) = .eq ↔ m = n :=
  Std.compare_eq_iff_eq

theorem order_integer_double_eq_iff {n : Int} {x : Double} :
    (integer n).order (double x) = .eq ↔ x = .ofInt n := by
  rw [order, Std.compare_eq_iff_eq, Double.rank_inj]
  · exact eq_comm
  · simp

theorem order_double_double_eq_iff {x y : Double} :
    (double x).order (double y) = .eq ↔ x = y := by
  rw [order, Std.compare_eq_iff_eq, Double.rank_inj]
  · rfl
  · simp

theorem order_eq_comm : x.order y = .eq ↔ y.order x = .eq := by
  cases x <;> cases y <;> simp only [order, Std.compare_eq_iff_eq] <;> exact eq_comm

/-- A double has the key of an integer below the bound if it is the integer's double, and the zero
with a negative sign has that of zero. -/
theorem key_double_eq_integer_iff {x : Double} {n : Int} :
    (double x).key = .integer n ↔
      n.natAbs < 9000000000000000 ∧ (x = .ofInt n ∨ (n = 0 ∧ x = .negativeZero)) := by
  rw [← Double.keyInteger?_eq_some_iff, key]
  cases x.keyInteger? <;> simp

/-- Doubles with one key are the same or zeros. -/
theorem key_double_eq_key_double_iff {x y : Double} :
    (double x).key = (double y).key ↔ x = y ∨ (x.isZero = true ∧ y.isZero = true) := by
  constructor
  · intro h
    cases hx : x.keyInteger? with
    | none =>
      -- the key of `y` is that of a double, so it has all the bits
      have hkey : (double y).key = .double x := by
        rw [← h, key, hx]
      rw [key] at hkey
      cases hy : y.keyInteger? with
      | none =>
        rw [hy] at hkey
        exact Or.inl (Key.double.inj hkey).symm
      | some n =>
        rw [hy] at hkey
        cases hkey
    | some n =>
      obtain ⟨hsmall, hxn⟩ := Double.keyInteger?_eq_some_iff.1 hx
      obtain ⟨-, hyn⟩ := key_double_eq_integer_iff.1 (h.symm.trans
        (key_double_eq_integer_iff.2 ⟨hsmall, hxn⟩))
      simp only [Double.isZero_iff]
      rcases hxn with rfl | ⟨rfl, rfl⟩
      · rcases hyn with rfl | ⟨rfl, rfl⟩
        · exact Or.inl rfl
        · exact Or.inr ⟨Or.inl rfl, Or.inr rfl⟩
      · exact Or.inr ⟨Or.inr rfl, hyn.imp_right And.right⟩
  · -- both zeros have the key of the integer zero
    have hzero : ∀ d : Double, d.isZero = true → (double d).key = .integer 0 := by
      intro d hd
      exact key_double_eq_integer_iff.2
        ⟨by decide, (Double.isZero_iff.1 hd).imp_right fun h => ⟨rfl, h⟩⟩
    rintro (rfl | ⟨hx, hy⟩)
    · rfl
    · rw [hzero x hx, hzero y hy]

theorem splits_comm (x y : Number) : x.splits y = y.splits x := by
  cases x <;> cases y <;> rfl

theorem merges_comm (x y : Number) : x.merges y = y.merges x := by
  simp only [merges]
  cases x.isZero <;> cases y.isZero <;> cases x.isNegativeZero <;> cases y.isNegativeZero <;> rfl

/-- The double of a large integer is not zero. -/
theorem isZero_ofInt_eq_false {n : Int} (h : 9000000000000000 ≤ n.natAbs) :
    (Double.ofInt n).isZero = false := by
  rw [← Bool.not_eq_true, Double.isZero, decide_eq_true_eq]
  intro hzero
  have hread := Double.integer?_of_magnitude_eq_zero hzero
  by_cases hsmall : n.natAbs < 2 ^ 53
  · rw [Double.integer?_ofInt hsmall] at hread
    have := Option.some.inj hread
    omega
  · have := Double.le_natAbs_of_integer?_ofInt (by omega) hread
    omega

/-- A number that is split from one is not zero. -/
theorem isZero_eq_false_of_splits (h : x.splits y = true) : y.isZero = false := by
  cases x with
  | integer n =>
    cases y with
    | integer m => cases h
    | double d =>
      simp only [splits, Bool.and_eq_true, decide_eq_true_eq] at h
      obtain ⟨hlarge, rfl⟩ := h
      exact isZero_ofInt_eq_false hlarge
  | double d =>
    cases y with
    | integer n =>
      simp only [splits, Bool.and_eq_true, decide_eq_true_eq] at h
      rw [isZero, decide_eq_false_iff_not]
      rintro rfl
      exact absurd h.1 (by decide)
    | double e => cases h

theorem negativeZero_ne_ofInt_zero : Double.negativeZero ≠ .ofInt 0 := by decide

/-- The numbers that are split are those that are equal and have different keys. -/
theorem splits_iff : x.splits y = true ↔ x.order y = .eq ∧ x.key ≠ y.key := by
  -- an integer and a double, in either order
  have hmixed : ∀ n d, (integer n).splits (double d) = true ↔
      (integer n).order (double d) = .eq ∧ (integer n).key ≠ (double d).key := by
    intro n d
    have hkey : (integer n).key = (double d).key ↔ (double d).key = .integer n := eq_comm
    rw [ne_eq, hkey, key_double_eq_integer_iff, order_integer_double_eq_iff, splits,
      Bool.and_eq_true, decide_eq_true_eq, decide_eq_true_eq]
    constructor
    · rintro ⟨hlarge, hd⟩
      exact ⟨hd, fun h => absurd h.1 (by omega)⟩
    · rintro ⟨hd, hkey⟩
      refine ⟨?_, hd⟩
      have hsmall : ¬ n.natAbs < 9000000000000000 := fun h => hkey ⟨h, Or.inl hd⟩
      omega
  cases x with
  | integer m =>
    cases y with
    | integer n =>
      rw [order_integer_integer_eq_iff]
      simp [splits, key]
    | double d => exact hmixed m d
  | double c =>
    cases y with
    | integer n =>
      rw [splits_comm, order_eq_comm, ne_comm]
      exact hmixed n c
    | double d =>
      rw [order_double_double_eq_iff]
      simp only [splits, Bool.false_eq_true, false_iff, not_and, ne_eq, Decidable.not_not]
      rintro rfl
      rfl

/-- The numbers that are merged are those that are not equal and have one key. -/
theorem merges_iff : x.merges y = true ↔ x.order y ≠ .eq ∧ x.key = y.key := by
  -- an integer and a double, in either order: both are zero
  have hmixed : ∀ n d, (integer n).merges (double d) = true ↔
      (integer n).order (double d) ≠ .eq ∧ (integer n).key = (double d).key := by
    intro n d
    have hkey : (integer n).key = (double d).key ↔ (double d).key = .integer n := eq_comm
    rw [ne_eq, hkey, key_double_eq_integer_iff, order_integer_double_eq_iff]
    simp only [merges, isZero, isNegativeZero, Bool.and_eq_true, decide_eq_true_eq, bne_iff_ne,
      ne_eq, Bool.false_eq, decide_eq_false_iff_not, Decidable.not_not, Double.isZero_iff]
    constructor
    · rintro ⟨⟨rfl, -⟩, rfl⟩
      exact ⟨negativeZero_ne_ofInt_zero, by decide, Or.inr ⟨rfl, rfl⟩⟩
    · rintro ⟨hd, -, h | ⟨rfl, rfl⟩⟩
      · exact absurd h hd
      · exact ⟨⟨rfl, Or.inr rfl⟩, rfl⟩
  cases x with
  | integer m =>
    cases y with
    | integer n =>
      rw [ne_eq, order_integer_integer_eq_iff]
      simp [merges, isNegativeZero, key]
    | double d => exact hmixed m d
  | double c =>
    cases y with
    | integer n =>
      rw [merges_comm, ne_eq, order_eq_comm, eq_comm (a := (double c).key)]
      exact hmixed n c
    | double d =>
      rw [ne_eq, order_double_double_eq_iff, key_double_eq_key_double_iff]
      simp only [merges, isZero, isNegativeZero, Bool.and_eq_true, bne_iff_ne, ne_eq,
        decide_eq_decide, Double.isZero_iff]
      constructor
      · rintro ⟨⟨hc, hd⟩, hsign⟩
        refine ⟨?_, Or.inr ⟨hc, hd⟩⟩
        rintro rfl
        exact hsign Iff.rfl
      · rintro ⟨hne, rfl | ⟨hc, hd⟩⟩
        · exact absurd rfl hne
        · refine ⟨⟨hc, hd⟩, fun hsign => hne ?_⟩
          rcases hc with rfl | rfl
          · rcases hd with rfl | rfl
            · rfl
            · exact hsign.2 rfl
          · exact (hsign.1 rfl).symm

end Number

/-! ## Keys of values -/

namespace Value

variable {u v w : Value} {x y : Number}

/-- Whether two values are equal but have different keys: a large integer and its double. -/
def splits (v w : Value) : Bool :=
  match v.number?, w.number? with
  | some x, some y => x.splits y
  | _, _ => false

/-- Whether two values have one key but are not equal: zeros of which one has a negative sign. -/
def merges (v w : Value) : Bool :=
  match v.number?, w.number? with
  | some x, some y => x.merges y
  | _, _ => false

/-- A number has the key of its number. -/
theorem key?_of_number? (h : v.number? = some x) : v.key? = some x.key := by
  cases v with
  | int32 n =>
    obtain rfl := Option.some.inj h
    rfl
  | int64 n =>
    obtain rfl := Option.some.inj h
    rfl
  | double d =>
    obtain rfl := Option.some.inj h
    rw [key?, Number.key]
    cases d.keyInteger? <;> rfl
  | _ => cases h

/-- Only numbers have the keys of numbers. -/
theorem isNumber_eq_of_key? {k : Key} (h : v.key? = some k) : v.isNumber = k.isNumeric := by
  cases hv : v.number? with
  | some x =>
    obtain rfl := Option.some.inj ((key?_of_number? hv).symm.trans h)
    rw [isNumber, hv, Number.isNumeric_key]
    rfl
  | none =>
    rw [isNumber, hv]
    cases v with
    | double d => cases hv
    | int32 n => cases hv
    | int64 n => cases hv
    | _ => first
      | (obtain rfl := Option.some.inj h; rfl)
      | cases h

/-- Scalar values that are no numbers are equal in structure exactly when they have one key. -/
theorem identical_iff_key?_eq (hv : v.number? = none) (hw : w.number? = none)
    (hkey : v.key?.isSome = true) : v.identical w = true ↔ v.key? = w.key? := by
  cases v with
  | string s => cases w <;> first | (simp [identical, key?]; done) | cases hw
  | objectId a => cases w <;> first | (simp [identical, key?]; done) | cases hw
  | binary s a => cases w <;> first | (simp [identical, key?]; done) | cases hw
  | boolean a => cases w <;> first | (simp [identical, key?]; done) | cases hw
  | null => cases w <;> first | (simp [identical, key?]; done) | cases hw
  | dateTime s => cases w <;> first | (simp [identical, key?, Int64.toInt_inj]; done) | cases hw
  | _ => first | (cases hkey; done) | cases hv

theorem identical_eq_false_of_isNumber (hv : v.isNumber = true) (hw : w.isNumber = false) :
    v.identical w = false ∧ w.identical v = false := by
  cases v with
  | double x => cases w <;> first | (cases hw; done) | simp [identical]
  | int32 n => cases w <;> first | (cases hw; done) | simp [identical]
  | int64 n => cases w <;> first | (cases hw; done) | simp [identical]
  | _ => cases hv

theorem key?_ne_of_isNumber_ne (hv : v.key?.isSome = true) (h : v.isNumber ≠ w.isNumber) :
    v.key? ≠ w.key? := by
  intro heq
  obtain ⟨k, hk⟩ := Option.isSome_iff_exists.1 hv
  rw [isNumber_eq_of_key? hk, isNumber_eq_of_key? (heq.symm.trans hk)] at h
  exact h rfl

/-- Scalar values that are not both numbers are equal exactly when they have one key, and they are
neither split nor merged. -/
theorem equal_iff_key?_eq_of_number? (hv : v.key?.isSome = true)
    (h : v.number? = none ∨ w.number? = none) :
    (v.equal w = true ↔ v.key? = w.key?) ∧ v.splits w = false ∧ v.merges w = false := by
  have hequal : v.equal w = v.identical w := by
    unfold equal
    rcases h with h | h <;> rw [h]
    cases v.number? <;> rfl
  have hsplits : v.splits w = false := by
    unfold splits
    rcases h with h | h <;> rw [h]
    cases v.number? <;> rfl
  have hmerges : v.merges w = false := by
    unfold merges
    rcases h with h | h <;> rw [h]
    cases v.number? <;> rfl
  refine ⟨?_, hsplits, hmerges⟩
  rw [hequal]
  -- a number is equal to no other value, and has the key of none
  cases hx : v.number? with
  | some x =>
    have hy : w.number? = none := h.resolve_left (by simp [hx])
    have hnumber : v.isNumber = true ∧ w.isNumber = false := by
      rw [isNumber, isNumber, hx, hy]
      exact ⟨rfl, rfl⟩
    rw [(identical_eq_false_of_isNumber hnumber.1 hnumber.2).1]
    refine ⟨fun h => Bool.noConfusion h, fun h => absurd h (key?_ne_of_isNumber_ne hv ?_)⟩
    rw [hnumber.1, hnumber.2]
    exact Bool.noConfusion
  | none =>
    cases hy : w.number? with
    | some y =>
      have hnumber : v.isNumber = false ∧ w.isNumber = true := by
        rw [isNumber, isNumber, hx, hy]
        exact ⟨rfl, rfl⟩
      rw [(identical_eq_false_of_isNumber hnumber.2 hnumber.1).2]
      refine ⟨fun h => Bool.noConfusion h, fun h => absurd h (key?_ne_of_isNumber_ne hv ?_)⟩
      rw [hnumber.1, hnumber.2]
      exact Bool.noConfusion
    | none => exact identical_iff_key?_eq hx hy hv

/-- The values that are split are those that are equal and have different keys. -/
theorem splits_iff (hv : v.key?.isSome = true) :
    v.splits w = true ↔ v.equal w = true ∧ v.key? ≠ w.key? := by
  have hother : (v.number? = none ∨ w.number? = none) →
      (v.splits w = true ↔ v.equal w = true ∧ v.key? ≠ w.key?) := by
    intro h
    obtain ⟨hequal, hsplits, -⟩ := equal_iff_key?_eq_of_number? hv h
    rw [hsplits, hequal]
    simp
  cases hx : v.number? with
  | none => exact hother (Or.inl hx)
  | some x =>
    cases hy : w.number? with
    | none => exact hother (Or.inr hy)
    | some y =>
      rw [splits, equal, hx, hy, key?_of_number? hx, key?_of_number? hy]
      dsimp only
      rw [Number.splits_iff, beq_iff_eq, ne_eq, ne_eq, Option.some.injEq]

/-- The values that are merged are those that are not equal and have one key. -/
theorem merges_iff (hv : v.key?.isSome = true) :
    v.merges w = true ↔ v.equal w = false ∧ v.key? = w.key? := by
  have hother : (v.number? = none ∨ w.number? = none) →
      (v.merges w = true ↔ v.equal w = false ∧ v.key? = w.key?) := by
    intro h
    obtain ⟨hequal, -, hmerges⟩ := equal_iff_key?_eq_of_number? hv h
    rw [hmerges, ← hequal]
    simp
  cases hx : v.number? with
  | none => exact hother (Or.inl hx)
  | some x =>
    cases hy : w.number? with
    | none => exact hother (Or.inr hy)
    | some y =>
      rw [merges, equal, hx, hy, key?_of_number? hx, key?_of_number? hy]
      dsimp only
      rw [Number.merges_iff, beq_eq_false_iff_ne, Option.some.injEq]

/-- Whether two values are equal but have different keys, or the other way round. -/
def clash (v w : Value) : Bool := v.splits w || v.merges w

/-- Two scalar values are equal exactly when they have one key, unless they clash. -/
theorem clash_eq_false_iff (hv : v.key?.isSome = true) :
    v.clash w = false ↔ (v.equal w = true ↔ v.key? = w.key?) := by
  have hsplits := splits_iff (w := w) hv
  have hmerges := merges_iff (w := w) hv
  rw [clash, Bool.or_eq_false_iff, ← Bool.not_eq_true, ← Bool.not_eq_true, hsplits, hmerges]
  by_cases hkey : v.key? = w.key? <;> cases v.equal w <;> simp [hkey]

/-- A value that is split from one is merged with none: it is large, and merged values are zero. -/
theorem merges_eq_false_of_splits (h : v.splits w = true) (u : Value) : u.merges w = false := by
  unfold splits at h
  unfold merges
  cases hy : w.number? with
  | none => cases u.number? <;> rfl
  | some y =>
    cases hx : v.number? with
    | none =>
      rw [hx] at h
      cases h
    | some x =>
      rw [hx, hy] at h
      cases u.number? with
      | none => rfl
      | some z =>
        dsimp only
        rw [Number.merges, Number.isZero_eq_false_of_splits h]
        simp

end Value

end DocMapper
