import DocMapper.Proofs.Filter.Ranges
import DocMapper.Proofs.Number.TotalOrder

set_option autoImplicit false

/-!
# The order of values

The values of an ordered type compare by a key (`exists_key_order`), so within such a type the order
is total, mirrored and transitive. The key of a double is its rank, that is its place in the total
order of doubles. Values of different types always compare: numbers as numbers, and all others by
the codes of their types. What is left, two values of one type that is not ordered, does not compare
at all.

Hence values compare mirrored the other way round, whatever they are (`compare?_swap`), and it is
known which of them do not (`compare?_eq_none_iff`).
-/

namespace DocMapper.Value

variable {a b c : Value}

/-! ## Values of one type -/

/-- The place of a value among those of its type, where these are ordered like integers. -/
def place : Value → Int
  | double x => x.rank
  | objectId id => id.bits.toNat
  | boolean p => p.toNat
  | dateTime s => s.toInt
  | int32 n => n.toInt
  | int64 n => n.toInt
  | _ => 0

/-- The text of a string. -/
def stringText : Value → String
  | string s => s
  | _ => ""

/-- The bytes of binary data. -/
def binaryBytes : Value → List UInt8
  | binary _ bytes => bytes
  | _ => []

theorem compare?_objectId (x y : ObjectId) :
    (objectId x).compare? (objectId y) =
      some (compare (objectId x).place (objectId y).place) := by
  have hcast : compare (x.bits.toNat : Int) y.bits.toNat = compare x.bits.toNat y.bits.toNat := by
    simp [compare, compareOfLessAndEq]
  rw [place, place, hcast]
  rfl

theorem compare?_boolean (p q : Bool) :
    (boolean p).compare? (boolean q) = some (compare (boolean p).place (boolean q).place) := by
  cases p <;> cases q <;> rfl

/-- The values of an ordered type compare by a key of theirs. -/
theorem exists_key_order {type : ElementType} (hordered : type.isOrdered = true) :
    ∃ order : Value → Value → Ordering, Std.TransCmp order ∧
      ∀ a b : Value, a.elementType = type → b.elementType = type →
        a.compare? b = some (order a b) := by
  -- of each type there is one constructor, and its field decides
  cases type with
  | string =>
    refine ⟨compareOn stringText, inferInstance, fun a b ha hb => ?_⟩
    cases a <;> cases ha
    cases b <;> cases hb
    rfl
  | binary =>
    refine ⟨compareOn binaryBytes, inferInstance, fun a b ha hb => ?_⟩
    cases a <;> cases ha
    cases b <;> cases hb
    rfl
  | double | objectId | boolean | dateTime | null | int32 | int64 =>
    refine ⟨compareOn place, inferInstance, fun a b ha hb => ?_⟩
    cases a <;> cases ha
    cases b <;> cases hb
    first
    | rfl
    | exact compare?_objectId _ _
    | exact compare?_boolean _ _
  | _ => cases hordered

theorem compare?_of_isOrdered_eq_false (htype : a.elementType = b.elementType)
    (h : a.elementType.isOrdered = false) : a.compare? b = none := by
  cases a <;> first | (cases h; done) | (cases b <;> first | rfl | cases htype)

/-- Values of one type that compare are at most a third one of this type if that is at most. -/
theorem atMost_trans (hab : a.elementType = b.elementType) (hbc : b.elementType = c.elementType)
    (h : a.atMost b = true) (h' : b.atMost c = true) : a.atMost c = true := by
  cases hordered : c.elementType.isOrdered with
  | false =>
    rw [← hbc] at hordered
    rw [atMost, compare?_of_isOrdered_eq_false hbc hordered] at h'
    cases h'
  | true =>
    obtain ⟨order, htrans, horder⟩ := exists_key_order hordered
    rw [atMost, horder _ _ (hab.trans hbc) hbc, Option.any_some] at h
    rw [atMost, horder _ _ hbc rfl, Option.any_some] at h'
    rw [atMost, horder _ _ (hab.trans hbc) rfl, Option.any_some]
    exact htrans.isLE_trans h h'

/-! ## Values of any types -/

/-- Values of different types compare, and mirrored the other way round. -/
theorem exists_compare?_of_ne (htype : a.elementType ≠ b.elementType) :
    ∃ order, a.compare? b = some order ∧ b.compare? a = some order.swap := by
  have hothers (hnumber : a.number? = none ∨ b.number? = none) :
      ∃ order, a.compare? b = some order ∧ b.compare? a = some order.swap := by
    rw [compare?_of_number?_eq_none hnumber, compare?_of_number?_eq_none hnumber.symm,
      if_neg htype, if_neg htype.symm]
    exact ⟨_, rfl, congrArg some Std.OrientedOrd.eq_swap⟩
  cases hx : a.number? with
  | none => exact hothers (.inl hx)
  | some x =>
    cases hy : b.number? with
    | none => exact hothers (.inr hy)
    | some y =>
      refine ⟨x.order y, compare?_of_number? hx hy, ?_⟩
      rw [compare?_of_number? hy hx, Number.order_swap]

/-- Values do not compare exactly if they are of one type that is not ordered. -/
theorem compare?_eq_none_iff :
    a.compare? b = none ↔ a.elementType = b.elementType ∧ a.elementType.isOrdered = false := by
  constructor
  · intro h
    by_cases htype : a.elementType = b.elementType
    · refine ⟨htype, Bool.eq_false_iff.2 fun hordered => ?_⟩
      obtain ⟨order, -, horder⟩ := exists_key_order hordered
      rw [horder a b rfl htype.symm] at h
      cases h
    · obtain ⟨order, horder, -⟩ := exists_compare?_of_ne htype
      rw [horder] at h
      cases h
  · rintro ⟨htype, hordered⟩
    exact compare?_of_isOrdered_eq_false htype hordered

/-- Mirrored, values compare the other way round. -/
theorem compare?_swap (a b : Value) : b.compare? a = (a.compare? b).map Ordering.swap := by
  by_cases htype : a.elementType = b.elementType
  · cases hordered : b.elementType.isOrdered with
    | false =>
      rw [compare?_eq_none_iff.2 ⟨htype.symm, hordered⟩,
        compare?_eq_none_iff.2 ⟨htype, htype ▸ hordered⟩]
      rfl
    | true =>
      obtain ⟨order, htrans, horder⟩ := exists_key_order hordered
      rw [horder a b htype rfl, horder b a rfl htype, Option.map_some, htrans.eq_swap]
  · obtain ⟨order, horder, hmirrored⟩ := exists_compare?_of_ne htype
    rw [horder, hmirrored, Option.map_some]

/-- Mirrored, any two values compare the other way round, and so one way if they do the other way.
They do not exactly if they are of one type that is not ordered. Within a type the order is
transitive, and doubles are in the total order of floating-point data. -/
theorem mirrored_and_transitive (a b c : Value) :
    b.compare? a = (a.compare? b).map Ordering.swap ∧
      (a.compare? b = none ↔ b.compare? a = none) ∧
      (a.compare? b = none ↔ a.elementType = b.elementType ∧ a.elementType.isOrdered = false) ∧
      (a.elementType = b.elementType → b.elementType = c.elementType →
        a.atMost b = true → b.atMost c = true → a.atMost c = true) ∧
      ∀ x y : Double, (double x).atMost (double y) = true ↔ x.TotalLE y := by
  refine ⟨compare?_swap a b, ?undefined, compare?_eq_none_iff, atMost_trans, fun x y => ?doubles⟩
  case undefined => rw [compare?_swap a b, Option.map_eq_none_iff]
  case doubles =>
    rw [← Double.rank_le_iff_totalLE]
    exact Int.isLE_compare

/-- Among doubles a negative NaN is at most the negative zero, and this at most the positive one. -/
theorem mirrored_and_transitive_zeros :
    let nan : Value := .double Double.nan.neg
    let negative : Value := .double .negativeZero
    let zero : Value := .double ⟨0#64⟩
    (nan.elementType = negative.elementType ∧ negative.elementType = zero.elementType) ∧
      nan.atMost negative = true ∧ negative.atMost zero = true ∧ nan.atMost zero = true := by
  intro nan negative zero
  have hfirst : nan.atMost negative = true := by decide
  have hsecond : negative.atMost zero = true := by decide
  obtain ⟨-, -, -, htransitive, -⟩ := mirrored_and_transitive nan negative zero
  exact ⟨⟨rfl, rfl⟩, hfirst, hsecond, htransitive rfl rfl hfirst hsecond⟩

end DocMapper.Value
