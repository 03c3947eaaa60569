import DocMapper.Proofs.Filter.ListedValues
import DocMapper.Proofs.Value.NumberOrder

set_option autoImplicit false

/-!
# Inclusive ranges

An inclusive range asks whether a value compares as equal to the operand where the exclusive one
says no. For values whose type has an order this is the equality of queries, with one exception: the
order of binary data looks at the bytes only, so it takes data of another subtype for equal
(`Value.resembles`, `Value.compare?_eq_some_eq_iff`).

So a query for an inclusive range takes what the query for the exclusive range takes, and what the
query for the operand itself takes, and the documents with binary data that only resembles the
operand (`Store.inclusive_ranges`). `Store.inclusive_resembling` is a query that takes a document
for this last reason alone.
-/

namespace DocMapper

/-- Whether the values of a type have an order among themselves. -/
def ElementType.isOrdered : ElementType → Bool
  | double | int32 | int64 | string | objectId | binary | boolean | dateTime | null => true
  | _ => false

/-! ## Values that compare as equal -/

namespace Value

variable {v w : Value} {x y : Number}

/-- Whether two values are binary data with the same bytes and different subtypes. -/
def resembles : Value → Value → Bool
  | binary s a, binary t b => a == b && s != t
  | _, _ => false

/-- What resembles a value is binary data with its bytes and another subtype. -/
theorem resembles_iff :
    v.resembles w = true ↔
      ∃ s t bytes, v = binary s bytes ∧ w = binary t bytes ∧ s ≠ t := by
  constructor
  · intro h
    unfold resembles at h
    split at h
    · rename_i s a t b
      rw [Bool.and_eq_true, beq_iff_eq, bne_iff_ne] at h
      obtain ⟨rfl, hne⟩ := h
      exact ⟨s, t, a, rfl, rfl, hne⟩
    · cases h
  · rintro ⟨s, t, bytes, rfl, rfl, hne⟩
    simp [resembles, hne]

theorem elementType_of_resembles (h : v.resembles w = true) :
    v.elementType = .binary ∧ w.elementType = .binary := by
  obtain ⟨s, t, bytes, rfl, rfl, -⟩ := resembles_iff.1 h
  exact ⟨rfl, rfl⟩

theorem resembles_of_number? (hv : v.number? = some x) : v.resembles w = false := by
  cases v <;> first | rfl | cases hv

theorem elementType_eq_of_identical (h : v.identical w = true) : v.elementType = w.elementType := by
  cases v <;> cases w <;> first | rfl | (simp [identical] at h)

/-- Values of one type with an order compare as equal within it if they are equal in structure or
resemble each other. -/
theorem orderWithinType?_eq_some_eq_iff (htype : v.elementType = w.elementType)
    (hordered : w.elementType.isOrdered = true) (hnumber : w.number? = none) :
    orderWithinType? v w = some .eq ↔ v.identical w = true ∨ v.resembles w = true := by
  cases w with
  | string t =>
    cases v with
    | string s => simp [orderWithinType?, identical, resembles]
    | _ => cases htype
  | objectId b =>
    cases v with
    | objectId a =>
      have hbits : a.bits.toNat = b.bits.toNat ↔ a = b := by
        rw [BitVec.toNat_inj]
        exact ⟨fun h => congrArg ObjectId.mk h, fun h => congrArg ObjectId.bits h⟩
      simp [orderWithinType?, identical, resembles, hbits]
    | _ => cases htype
  | binary t b =>
    cases v with
    | binary s a =>
      -- the order leaves the subtypes out
      by_cases hsubtype : s = t <;> simp [orderWithinType?, identical, resembles, hsubtype]
    | _ => cases htype
  | boolean b =>
    cases v with
    | boolean a => simp [orderWithinType?, identical, resembles]
    | _ => cases htype
  | dateTime t =>
    cases v with
    | dateTime s => simp [orderWithinType?, identical, resembles, Int64.toInt_inj]
    | _ => cases htype
  | null =>
    cases v with
    | null => simp [orderWithinType?, identical, resembles]
    | _ => cases htype
  | _ => first | (cases hordered; done) | cases hnumber

theorem number?_eq_none_iff (htype : v.elementType = w.elementType) :
    v.number? = none ↔ w.number? = none := by
  cases v <;> cases w <;> first | (cases htype; done) | exact Iff.rfl | exact ⟨nofun, nofun⟩

/-- Unless both values are numbers, values of different types compare by the codes of these and all
others within their type. -/
theorem compare?_of_number?_eq_none (hnumber : v.number? = none ∨ w.number? = none) :
    v.compare? w =
      if v.elementType = w.elementType then orderWithinType? v w
      else some (compare v.elementType.code w.elementType.code) := by
  unfold compare?
  rcases hnumber with h | h <;> rw [h]
  cases v.number? <;> rfl

theorem equal_of_number?_eq_none (hnumber : v.number? = none ∨ w.number? = none) :
    v.equal w = v.identical w := by
  unfold equal
  rcases hnumber with h | h <;> rw [h]
  cases v.number? <;> rfl

theorem compare?_ne_some_eq (htype : v.elementType ≠ w.elementType)
    (hnumber : v.number? = none ∨ w.number? = none) : v.compare? w ≠ some .eq := by
  rw [compare?_of_number?_eq_none hnumber, if_neg htype]
  intro h
  exact htype (ElementType.code_inj.1 (Std.compare_eq_iff_eq.1 (Option.some.inj h)))

/-- A value compares as equal to one whose type has an order exactly if the two are equal, or are
binary data that differ in their subtypes only. -/
theorem compare?_eq_some_eq_iff (hordered : w.elementType.isOrdered = true) :
    v.compare? w = some .eq ↔ v.equal w = true ∨ v.resembles w = true := by
  have hothers (hnumber : v.number? = none ∨ w.number? = none) :
      v.compare? w = some .eq ↔ v.equal w = true ∨ v.resembles w = true := by
    rw [equal_of_number?_eq_none hnumber]
    by_cases htype : v.elementType = w.elementType
    · rw [compare?_of_number?_eq_none hnumber, if_pos htype]
      exact orderWithinType?_eq_some_eq_iff htype hordered
        (hnumber.elim (number?_eq_none_iff htype).1 id)
    · refine ⟨fun h => absurd h (compare?_ne_some_eq htype hnumber), ?_⟩
      rintro (h | h)
      · exact absurd (elementType_eq_of_identical h) htype
      · obtain ⟨hv, hw⟩ := elementType_of_resembles h
        exact absurd (hv.trans hw.symm) htype
  cases hx : v.number? with
  | none => exact hothers (.inl hx)
  | some x =>
    cases hy : w.number? with
    | none => exact hothers (.inr hy)
    | some y =>
      rw [compare?_of_number? hx hy, equal_iff_of_number? hx hy, resembles_of_number? hx,
        Option.some.injEq]
      simp

/-- Values that compare as equal may be compared by a range. -/
theorem comparable_of_compare? (h : v.compare? w = some .eq) : Condition.comparable v w = true := by
  rw [Condition.comparable, Bool.or_eq_true, decide_eq_true_eq]
  by_cases htype : v.elementType = w.elementType
  · exact .inl htype
  · right
    cases hx : v.number? with
    | none => exact absurd h (compare?_ne_some_eq htype (.inl hx))
    | some x =>
      cases hy : w.number? with
      | none => exact absurd h (compare?_ne_some_eq htype (.inr hy))
      | some y => simp [isNumber, hx, hy]

end Value

/-! ## Ranges -/

namespace Condition

variable {direction : Ordering} {operand v : Value}

/-- A value is in an inclusive range if it is in the exclusive one or compares as equal to the
operand. -/
theorem inOrder_true_iff :
    inOrder direction true operand v = true ↔
      inOrder direction false operand v = true ∨ v.compare? operand = some .eq := by
  unfold inOrder
  cases horder : v.compare? operand with
  | none => simp
  | some order =>
    cases order with
    | eq => simp [Value.comparable_of_compare? horder]
    | _ => simp

end Condition

namespace Store

open DocMapper.Filter

variable {path : String} {x : Value}

/-- A query for a range takes the documents with a value at the path in the given order to the
operand. -/
theorem means_ordered (hpath : isOperator path = false) (direction : Ordering) (orEqual : Bool)
    {operator : String} (hoperator : isOperator operator = true)
    (hcondition : compileCondition operator x = .ok (.ordered direction orEqual x)) :
    Means (query path operator x)
      fun doc => (doc.valuesAt (segments path)).any (Condition.inOrder direction orEqual x) :=
  means_query hpath operator hoperator hcondition

/-- A query for an inclusive range takes a document exactly if the query for the exclusive range or
the one for the operand does, or if a value at the path only resembles the operand. -/
theorem takes_inclusive_iff (hpath : isOperator path = false)
    (hordered : x.elementType.isOrdered = true)
    {exclusive inclusive : String} {direction : Ordering}
    (hoperators : isOperator exclusive = true ∧ isOperator inclusive = true)
    (hexclusive : compileCondition exclusive x = .ok (.ordered direction false x))
    (hinclusive : compileCondition inclusive x = .ok (.ordered direction true x)) (doc : Document) :
    takes (query path inclusive x) doc = true ↔
      takes (query path exclusive x) doc = true ∨ takes (query path "$eq" x) doc = true ∨
        ∃ v ∈ doc.valuesAt (segments path), v.resembles x = true := by
  rw [(means_ordered hpath direction false hoperators.1 hexclusive).takes_eq,
    (means_ordered hpath direction true hoperators.2 hinclusive).takes_eq,
    (means_equalTo hpath x).takes_eq,
    List.any_eq_true, List.any_eq_true, List.any_eq_true]
  simp only [Condition.inOrder_true_iff, Value.compare?_eq_some_eq_iff hordered, and_or_left,
    exists_or]

/-- A value compares as equal to one whose type has an order exactly if it is equal to it or
resembles it, and only binary data is resembled. The queries for a range by such an operand and for
the operand itself can be read. A query for an inclusive range takes a document exactly if the query
for the exclusive range or the one for the operand does, or if a value at the path resembles the
operand. -/
theorem inclusive_ranges (hpath : isOperator path = false)
    (hordered : x.elementType.isOrdered = true) :
    (∀ v : Value, (v.compare? x = some .eq ↔ v.equal x = true ∨ v.resembles x = true) ∧
        (v.resembles x = true ↔ ∃ s t bytes, v = .binary s bytes ∧ x = .binary t bytes ∧ s ≠ t)) ∧
      (∀ operator ∈ ["$gt", "$gte", "$lt", "$lte", "$eq"],
        ∃ f, compileFilter (query path operator x) = .ok f) ∧
      ∀ doc : Document,
        (takes (query path "$gte" x) doc = true ↔
            takes (query path "$gt" x) doc = true ∨ takes (query path "$eq" x) doc = true ∨
              ∃ v ∈ doc.valuesAt (segments path), v.resembles x = true) ∧
          (takes (query path "$lte" x) doc = true ↔
            takes (query path "$lt" x) doc = true ∨ takes (query path "$eq" x) doc = true ∨
              ∃ v ∈ doc.valuesAt (segments path), v.resembles x = true) := by
  refine ⟨fun v => ⟨Value.compare?_eq_some_eq_iff hordered, Value.resembles_iff⟩, ?read,
    fun doc => ⟨?greater, ?less⟩⟩
  case read =>
    have hread {operator : String} {condition : Condition} (hoperator : isOperator operator = true)
        (hcondition : compileCondition operator x = .ok condition) :
        ∃ f, compileFilter (query path operator x) = .ok f := by
      obtain ⟨f, hf, -⟩ := means_query hpath operator hoperator hcondition
      exact ⟨f, hf⟩
    intro operator hoperator
    simp only [List.mem_cons, List.not_mem_nil, or_false] at hoperator
    rcases hoperator with rfl | rfl | rfl | rfl | rfl <;> exact hread (by decide) rfl
  case greater => exact takes_inclusive_iff hpath hordered (by decide) rfl rfl doc
  case less => exact takes_inclusive_iff hpath hordered (by decide) rfl rfl doc

/-- Among the items of an embedded list, the integer that is equal to a double brings a document
into both inclusive ranges, and no item brings it into an exclusive one. -/
theorem inclusive_ranges_embedded :
    let doc : Document := [("a", .document [("b", .array [.string "5", .int32 5])])]
    let five : Value := .double ⟨0x4014000000000000#64⟩
    isOperator "a.b" = false ∧ five.elementType.isOrdered = true ∧
      takes (query "a.b" "$gte" five) doc = true ∧ takes (query "a.b" "$gt" five) doc = false ∧
      takes (query "a.b" "$lte" five) doc = true ∧ takes (query "a.b" "$lt" five) doc = false := by
  intro doc five
  have hpath : isOperator "a.b" = false := by decide
  have hfound : doc.valuesAt (segments "a.b") =
      [.array [.string "5", .int32 5], .string "5", .int32 5] := rfl
  obtain ⟨-, -, hqueries⟩ := inclusive_ranges (x := five) hpath rfl
  obtain ⟨hgreater, hless⟩ := hqueries doc
  have hequal : takes (query "a.b" "$eq" five) doc = true := by
    rw [(means_equalTo hpath five).takes_eq, hfound]
    decide +kernel
  refine ⟨hpath, rfl, hgreater.2 (.inr (.inl hequal)), ?_, hless.2 (.inr (.inl hequal)), ?_⟩
  · rw [(means_ordered hpath .gt false (by decide) rfl).takes_eq, hfound]
    decide +kernel
  · rw [(means_ordered hpath .lt false (by decide) rfl).takes_eq, hfound]
    decide +kernel

/-- Binary data of another subtype than the operand's is in both inclusive ranges, though it is in
neither exclusive one and is not equal to the operand. -/
theorem inclusive_resembling :
    let operand : Value := .binary 0 [0x61]
    let stored : Value := .binary 5 [0x61]
    let doc : Document := [("x", stored)]
    (stored.compare? operand = some .eq ∧ stored.equal operand = false) ∧
      (takes (query "x" "$gte" operand) doc = true ∧ takes (query "x" "$lte" operand) doc = true) ∧
      takes (query "x" "$gt" operand) doc = false ∧ takes (query "x" "$lt" operand) doc = false ∧
        takes (query "x" "$eq" operand) doc = false := by
  intro operand stored doc
  have hpath : isOperator "x" = false := by decide
  have hfound : doc.valuesAt (segments "x") = [stored] := rfl
  have hgreater : takes (query "x" "$gte" operand) doc = true := by
    rw [(means_ordered hpath .gt true (by decide) rfl).takes_eq, hfound]
    decide +kernel
  have hless : takes (query "x" "$lte" operand) doc = true := by
    rw [(means_ordered hpath .lt true (by decide) rfl).takes_eq, hfound]
    decide +kernel
  refine ⟨by decide +kernel, ⟨hgreater, hless⟩, ?_, ?_, ?_⟩
  · rw [(means_ordered hpath .gt false (by decide) rfl).takes_eq, hfound]
    decide +kernel
  · rw [(means_ordered hpath .lt false (by decide) rfl).takes_eq, hfound]
    decide +kernel
  · rw [(means_equalTo hpath operand).takes_eq, hfound]
    decide +kernel

end Store

end DocMapper
