import DocMapper.Proofs.Filter.Membership
import DocMapper.Proofs.Value.Symmetry

set_option autoImplicit false

/-!
# Queries for one of several values

A query for one of several values asks a `ValueSet`, which compares the keys of scalar values, where
a query for a single value compares the values. A listed value makes the set hold another one if it
is equal to it, unless the two are split, and also if the two are merged (`Value.admits`,
`ValueSet.contains_ofList_iff`).

So the two ways of asking agree on the values at a path but for two exceptions: an equal value is
overlooked because it is split from the listed one (`ValueSet.Overlooks`), or a value is taken for a
listed one that it is only merged with (`ValueSet.Confuses`). `Store.oneOf_agrees` says that there
is no other one, for every path and for the negative query as well, and `Store.oneOf_overlooks`
shows both exceptions.
-/

namespace DocMapper

/-! ## What a listed value admits -/

namespace Value

variable {listed v w : Value}

/-- Whether a listed value makes a set hold another value: the two are equal and not split, or they
are merged. -/
def admits (listed v : Value) : Bool := (listed.equal v && !listed.splits v) || listed.merges v

/-- A value without a key is no number. -/
theorem number?_eq_none_of_key?_eq_none (h : listed.key? = none) : listed.number? = none := by
  cases hx : listed.number? with
  | none => rfl
  | some x =>
    rw [key?_of_number? hx] at h
    cases h

/-- A value without a key is neither split from another value nor merged with it. -/
theorem splits_merges_of_key?_eq_none (h : listed.key? = none) (v : Value) :
    listed.splits v = false ∧ listed.merges v = false := by
  rw [splits, merges, number?_eq_none_of_key?_eq_none h]
  exact ⟨rfl, rfl⟩

/-- A value with a key admits the values with its key. -/
theorem admits_iff_key?_eq (h : listed.key?.isSome = true) :
    listed.admits v = true ↔ listed.key? = v.key? := by
  have hsplits := splits_iff (w := v) h
  have hmerges := merges_iff (w := v) h
  rw [admits, Bool.or_eq_true, Bool.and_eq_true, Bool.not_eq_true', ← Bool.not_eq_true, hsplits,
    hmerges]
  by_cases hkey : listed.key? = v.key? <;> cases listed.equal v <;> simp [hkey]

theorem admits_eq_equal (h : listed.key? = none) : listed.admits v = listed.equal v := by
  obtain ⟨hsplits, hmerges⟩ := splits_merges_of_key?_eq_none h v
  rw [admits, hsplits, hmerges, Bool.not_false, Bool.and_true, Bool.or_false]

/-- A value without a key is equal to no value with one. -/
theorem equal_eq_false_of_key? (h : listed.key? = none) (hv : v.key?.isSome = true) :
    listed.equal v = false := by
  have hnumber := number?_eq_none_of_key?_eq_none h
  have hequal : listed.equal v = listed.identical v := by
    rw [equal, hnumber]
  rw [hequal]
  cases hx : v.number? with
  | some x =>
    refine (identical_eq_false_of_isNumber ?_ ?_).2
    · rw [isNumber, hx]
      rfl
    · rw [isNumber, hnumber]
      rfl
  | none =>
    -- a scalar value is equal in structure to values of its own type only, and these have keys
    cases v with
    | string s => cases listed <;> first | rfl | cases h
    | objectId a => cases listed <;> first | rfl | cases h
    | binary s a => cases listed <;> first | rfl | cases h
    | boolean a => cases listed <;> first | rfl | cases h
    | null => cases listed <;> first | rfl | cases h
    | dateTime s => cases listed <;> first | rfl | cases h
    | _ => first | (cases hv; done) | cases hx

/-- Values that are split are equal. -/
theorem equal_of_splits (h : listed.splits v = true) : listed.equal v = true := by
  cases hkey : listed.key? with
  | none =>
    rw [(splits_merges_of_key?_eq_none hkey v).1] at h
    cases h
  | some key => exact ((splits_iff (by rw [hkey]; rfl)).1 h).1

end Value

/-! ## Where a set and equality agree -/

namespace ValueSet

variable {values found : List Value} {v : Value}

/-- A set holds what one of its listed values admits. -/
theorem contains_ofList_iff :
    (ofList values).contains v = true ↔ ∃ w ∈ values, w.admits v = true := by
  cases hv : v.key? with
  | none =>
    rw [contains_ofList_of_no_key hv]
    refine exists_congr fun w => and_congr_right fun _ => ?_
    cases hw : w.key? with
    | none => simp [Value.admits_eq_equal hw]
    | some key =>
      have hadmits : w.admits v = true ↔ w.key? = v.key? :=
        Value.admits_iff_key?_eq (by rw [hw]; rfl)
      rw [hw, hv] at hadmits
      simp [hadmits]
  | some key =>
    rw [contains_ofList_of_key hv]
    refine exists_congr fun w => and_congr_right fun _ => ?_
    cases hw : w.key? with
    | none =>
      have hequal : w.equal v = false := Value.equal_eq_false_of_key? hw (by rw [hv]; rfl)
      simp [Value.admits_eq_equal hw, hequal]
    | some other =>
      have hadmits : w.admits v = true ↔ w.key? = v.key? :=
        Value.admits_iff_key?_eq (by rw [hw]; rfl)
      rw [hw, hv] at hadmits
      exact hadmits.symm

/-- Whether a set overlooks the values at a path: one of them is equal to a listed value from which
it is split, and none is admitted. -/
def Overlooks (values found : List Value) : Prop :=
  (∃ v ∈ found, ∃ w ∈ values, w.splits v = true) ∧
    ∀ v ∈ found, ∀ w ∈ values, w.admits v = false

/-- Whether a set confuses the values at a path: one of them is merged with a listed value, and none
is equal to one. -/
def Confuses (values found : List Value) : Prop :=
  (∃ v ∈ found, ∃ w ∈ values, w.merges v = true) ∧
    ∀ v ∈ found, ∀ w ∈ values, w.equal v = false

/-- A set overlooks values exactly if one of them is equal to a listed value and it holds none. -/
theorem overlooks_iff :
    Overlooks values found ↔
      (∃ v ∈ found, ∃ w ∈ values, w.equal v = true) ∧
        ¬ ∃ v ∈ found, (ofList values).contains v = true := by
  simp only [contains_ofList_iff, not_exists, not_and, Bool.not_eq_true]
  constructor
  · rintro ⟨⟨v, hv, w, hw, hsplits⟩, hnone⟩
    exact ⟨⟨v, hv, w, hw, Value.equal_of_splits hsplits⟩, hnone⟩
  · rintro ⟨⟨v, hv, w, hw, hequal⟩, hnone⟩
    refine ⟨⟨v, hv, w, hw, ?_⟩, hnone⟩
    -- an equal value that is not admitted can only be split
    have hnot := hnone v hv w hw
    rw [Value.admits, hequal, Bool.true_and, Bool.or_eq_false_iff, Bool.not_eq_false'] at hnot
    exact hnot.1

/-- A set confuses values exactly if it holds one of them and none is equal to a listed value. -/
theorem confuses_iff :
    Confuses values found ↔
      (∃ v ∈ found, (ofList values).contains v = true) ∧
        ¬ ∃ v ∈ found, ∃ w ∈ values, w.equal v = true := by
  simp only [contains_ofList_iff, not_exists, not_and, Bool.not_eq_true]
  constructor
  · rintro ⟨⟨v, hv, w, hw, hmerges⟩, hnone⟩
    refine ⟨⟨v, hv, w, hw, ?_⟩, hnone⟩
    rw [Value.admits, hmerges, Bool.or_true]
  · rintro ⟨⟨v, hv, w, hw, hadmits⟩, hnone⟩
    refine ⟨⟨v, hv, w, hw, ?_⟩, hnone⟩
    -- a value that is admitted and not equal can only be merged
    rw [Value.admits, hnone v hv w hw, Bool.false_and, Bool.false_or] at hadmits
    exact hadmits

/-- A set holds one of some values exactly if one of them is equal to a listed value, unless it
overlooks or confuses them. -/
theorem agrees_iff (values found : List Value) :
    ((∃ v ∈ found, (ofList values).contains v = true) ↔
        ∃ v ∈ found, ∃ w ∈ values, w.equal v = true) ↔
      ¬ Overlooks values found ∧ ¬ Confuses values found := by
  rw [overlooks_iff, confuses_iff]
  by_cases hheld : ∃ v ∈ found, (ofList values).contains v = true <;>
    by_cases hequal : ∃ v ∈ found, ∃ w ∈ values, w.equal v = true <;> simp only [hheld, hequal] <;>
      decide

end ValueSet

/-! ## Queries -/

namespace Store

open DocMapper.Filter ValueSet

variable {path : String} {values : List Value} {doc : Document}

/-- The query that an operator asks about the values at a path. -/
def query (path operator : String) (operand : Value) : Document :=
  [(path, .document [(operator, operand)])]

/-- What a query with one operator means. -/
theorem means_query (hpath : isOperator path = false) (operator : String) {operand : Value}
    {condition : Condition} (hoperator : isOperator operator = true)
    (hcondition : compileCondition operator operand = .ok condition) :
    Means (query path operator operand)
      fun doc => condition.holds (doc.valuesAt (segments path)) := by
  have hconditions :
      compileConditions (.document [(operator, operand)]) = .ok [condition] := by
    rw [compileConditions, isOperatorDocument, if_pos hoperator, List.mapM_cons, hcondition]
    rfl
  have hclause : compileClause path (.document [(operator, operand)]) =
      .ok (.field (segments path) [condition]) := by
    rw [compileClause_of_not_isOperator hpath, hconditions]
    rfl
  refine (means_one hclause).congr fun doc => ?_
  simp [holds]

/-- A query for one of several values takes the documents with a value at the path that the set of
these holds. -/
theorem means_oneOf (hpath : isOperator path = false) (values : List Value) :
    Means (query path "$in" (.array values))
      fun doc => (doc.valuesAt (segments path)).any (ofList values).contains := by
  have hcondition :
      compileCondition "$in" (.array values) = .ok (.oneOf (ofList values)) := rfl
  exact means_query hpath "$in" (by decide) hcondition

theorem means_noneOf (hpath : isOperator path = false) (values : List Value) :
    Means (query path "$nin" (.array values))
      fun doc => !(doc.valuesAt (segments path)).any (ofList values).contains := by
  have hcondition :
      compileCondition "$nin" (.array values) = .ok (.noneOf (ofList values)) := rfl
  exact means_query hpath "$nin" (by decide) hcondition

theorem means_equalTo (hpath : isOperator path = false) (w : Value) :
    Means (query path "$eq" w) fun doc => (doc.valuesAt (segments path)).any fun v => v.equal w :=
  means_query hpath "$eq" (by decide) rfl

/-- Some query for a single listed value takes a document exactly if one of the values at the path
is equal to a listed one. -/
theorem exists_takes_equalTo_iff (hpath : isOperator path = false)
    (hvalues : ∀ w ∈ values, w.hasDistinctNames = true)
    (hdoc : Value.fieldsAreDistinct doc = true) :
    (∃ w ∈ values, takes (query path "$eq" w) doc = true) ↔
      ∃ v ∈ doc.valuesAt (segments path), ∃ w ∈ values, w.equal v = true := by
  simp only [(means_equalTo hpath _).takes_eq, List.any_eq_true]
  constructor
  · rintro ⟨w, hw, v, hv, hequal⟩
    refine ⟨v, hv, w, hw, ?_⟩
    rw [Value.equal_comm (hvalues w hw) (Document.hasDistinctNames_of_mem_valuesAt hdoc hv)]
    exact hequal
  · rintro ⟨v, hv, w, hw, hequal⟩
    refine ⟨w, hw, v, hv, ?_⟩
    rw [Value.equal_comm (Document.hasDistinctNames_of_mem_valuesAt hdoc hv) (hvalues w hw)]
    exact hequal

/-- A set holds a value exactly if a listed one admits it, and it agrees with equality on a value
exactly if it neither overlooks nor confuses it. The queries for one and for none of several values
can be read, as can those for each of these, and on a document whose names are distinct they agree
exactly if the values at the path are neither overlooked nor confused. -/
theorem oneOf_agrees (hpath : isOperator path = false)
    (hvalues : ∀ w ∈ values, w.hasDistinctNames = true) :
    (∀ v, ((ofList values).contains v = true ↔ ∃ w ∈ values, w.admits v = true) ∧
        (((ofList values).contains v = true ↔ ∃ w ∈ values, w.equal v = true) ↔
          ¬ Overlooks values [v] ∧ ¬ Confuses values [v])) ∧
      ((∃ f, compileFilter (query path "$in" (.array values)) = .ok f) ∧
        (∃ f, compileFilter (query path "$nin" (.array values)) = .ok f) ∧
        ∀ w, ∃ f, compileFilter (query path "$eq" w) = .ok f) ∧
      ∀ doc : Document, Value.fieldsAreDistinct doc = true →
        let found := doc.valuesAt (segments path)
        ((takes (query path "$in" (.array values)) doc = true ↔
              ∃ w ∈ values, takes (query path "$eq" w) doc = true) ↔
            ¬ Overlooks values found ∧ ¬ Confuses values found) ∧
          ((takes (query path "$nin" (.array values)) doc = true ↔
              ¬ ∃ w ∈ values, takes (query path "$eq" w) doc = true) ↔
            ¬ Overlooks values found ∧ ¬ Confuses values found) := by
  refine ⟨fun v => ⟨contains_ofList_iff, ?single⟩, ⟨?readOneOf, ?readNoneOf, fun w => ?readEqual⟩,
    fun doc hdoc => ⟨?oneOf, ?noneOf⟩⟩
  case single =>
    rw [← agrees_iff]
    simp
  case readOneOf =>
    obtain ⟨f, hf, -⟩ := means_oneOf hpath values
    exact ⟨f, hf⟩
  case readNoneOf =>
    obtain ⟨f, hf, -⟩ := means_noneOf hpath values
    exact ⟨f, hf⟩
  case readEqual =>
    obtain ⟨f, hf, -⟩ := means_equalTo hpath w
    exact ⟨f, hf⟩
  case oneOf =>
    rw [← agrees_iff, (means_oneOf hpath values).takes_eq, List.any_eq_true,
      exists_takes_equalTo_iff hpath hvalues hdoc]
  case noneOf =>
    rw [← agrees_iff, (means_noneOf hpath values).takes_eq, Bool.not_eq_true', ← Bool.not_eq_true,
      List.any_eq_true, exists_takes_equalTo_iff hpath hvalues hdoc, not_iff_not]

/-- A value in an embedded list is found by the query for several values as by the one for the
listed integer it is equal to, and the negative query leaves it out. -/
theorem oneOf_agrees_embedded :
    let values : List Value := [.int32 1, .document [("k", .string "v")]]
    let doc : Document := [("a", .document [("b", .array [.string "w", .int64 1])])]
    isOperator "a.b" = false ∧
      (∀ w ∈ values, w.hasDistinctNames = true) ∧
      Value.fieldsAreDistinct doc = true ∧
      takes (query "a.b" "$in" (.array values)) doc = true ∧
      takes (query "a.b" "$nin" (.array values)) doc = false := by
  intro values doc
  have hpath : isOperator "a.b" = false := by decide
  have hvalues : ∀ w ∈ values, w.hasDistinctNames = true := by decide +kernel
  have hdoc : Value.fieldsAreDistinct doc = true := by decide +kernel
  obtain ⟨-, -, hqueries⟩ := oneOf_agrees hpath hvalues
  obtain ⟨honeOf, hnoneOf⟩ := hqueries doc hdoc
  have hfound : doc.valuesAt (segments "a.b") =
      [.array [.string "w", .int64 1], .string "w", .int64 1] := rfl
  have hagree : ¬ Overlooks values (doc.valuesAt (segments "a.b")) ∧
      ¬ Confuses values (doc.valuesAt (segments "a.b")) := by
    -- neither side is split from an item or merged with it
    rw [hfound]
    constructor
    · rintro ⟨⟨v, hv, w, hw, hsplits⟩, -⟩
      revert v w
      decide +kernel
    · rintro ⟨⟨v, hv, w, hw, hmerges⟩, -⟩
      revert v w
      decide +kernel
  have hequal : ∃ w ∈ values, takes (query "a.b" "$eq" w) doc = true := by
    rw [exists_takes_equalTo_iff hpath hvalues hdoc, hfound]
    exact ⟨.int64 1, by simp, .int32 1, by simp [values], by decide +kernel⟩
  refine ⟨hpath, hvalues, hdoc, (honeOf.2 hagree).2 hequal, ?_⟩
  rw [← Bool.not_eq_true]
  intro hnone
  exact (hnoneOf.2 hagree).1 hnone hequal

/-- The query for one of several values overlooks the double of a listed large integer, which a
query for that integer finds, and it takes the negative zero for a listed zero to which it is not
equal. -/
theorem oneOf_overlooks :
    let integer : Value := .int64 9000000000000000
    let double : Value := .double ⟨0x433ff973cafa8000#64⟩
    (integer.equal double = true ∧ (ofList [integer]).contains double = false ∧
        takes (query "x" "$eq" integer) [("x", double)] = true ∧
        takes (query "x" "$in" (.array [integer])) [("x", double)] = false ∧
        takes (query "x" "$nin" (.array [integer])) [("x", double)] = true) ∧
      let zero : Value := .int32 0
      let negative : Value := .double .negativeZero
      zero.equal negative = false ∧ (ofList [zero]).contains negative = true ∧
        takes (query "x" "$eq" zero) [("x", negative)] = false ∧
        takes (query "x" "$in" (.array [zero])) [("x", negative)] = true ∧
        takes (query "x" "$nin" (.array [zero])) [("x", negative)] = false := by
  intro integer double
  have hpath : isOperator "x" = false := by decide
  have hfound : ∀ x : Double, Document.valuesAt [("x", .double x)] (segments "x") = [.double x] :=
    fun _ => rfl
  -- the double has a key of its own, which no listed value has
  have hlarge : (ofList [integer]).contains double = false := by
    rw [← Bool.not_eq_true, contains_ofList_iff]
    decide +kernel
  refine ⟨⟨by decide +kernel, hlarge, ?_, ?_, ?_⟩, ?_⟩
  · rw [(means_equalTo hpath integer).takes_eq, hfound]
    decide +kernel
  · rw [(means_oneOf hpath [integer]).takes_eq, hfound, List.any_cons, hlarge]
    rfl
  · rw [(means_noneOf hpath [integer]).takes_eq, hfound, List.any_cons, hlarge]
    rfl
  intro zero negative
  -- the two zeros share a key although they are not equal
  have hzero : (ofList [zero]).contains negative = true := by
    rw [contains_ofList_iff]
    decide +kernel
  refine ⟨by decide +kernel, hzero, ?_, ?_, ?_⟩
  · rw [(means_equalTo hpath zero).takes_eq, hfound]
    decide +kernel
  · rw [(means_oneOf hpath [zero]).takes_eq, hfound, List.any_cons, hzero]
    rfl
  · rw [(means_noneOf hpath [zero]).takes_eq, hfound, List.any_cons, hzero]
    rfl

end Store

end DocMapper
