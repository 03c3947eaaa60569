import DocMapper.Value.Key
import DocMapper.Value.Order
import DocMapper.Value.Reach
import Std.Data.HashSet

set_option autoImplicit false

/-!
# Filters

A `Filter` is the meaning of a query: conditions on the values at paths, joined by *all*, *any* and
*none*. A condition looks at every value that the path reaches: a positive one holds when it holds
of some value, a negative one when its positive twin holds of none.

The values that a condition lists are a `ValueSet`, which answers membership without a scan for
values that have a key. Values without a key are kept in a list and compared one by one.
-/

namespace DocMapper

/-! ## Sets of values -/

/-- A set of values, divided by whether they have a key. -/
structure ValueSet where
  keys : Std.HashSet Key
  others : List Value

namespace ValueSet

/-- The set of a list of values. -/
def ofList (values : List Value) : ValueSet :=
  { keys := Std.HashSet.ofList (values.filterMap Value.key?)
    others := values.filter fun v => v.key?.isNone }

/-- Whether a set holds a value. -/
def contains (set : ValueSet) (v : Value) : Bool :=
  match v.key? with
  | some key => set.keys.contains key
  | none => set.others.any fun other => other.equal v

/-- A value with a key is in the set exactly when a listed value has the same key. -/
theorem contains_ofList_of_key {values : List Value} {v : Value} {key : Key}
    (h : v.key? = some key) :
    (ofList values).contains v = true ↔ ∃ w ∈ values, w.key? = some key := by
  simp [contains, h, ofList, Std.HashSet.contains_ofList]

/-- A value without a key is in the set exactly when an equal value without a key is listed. -/
theorem contains_ofList_of_no_key {values : List Value} {v : Value} (h : v.key? = none) :
    (ofList values).contains v = true ↔
      ∃ w ∈ values, w.key? = none ∧ w.equal v = true := by
  simp [contains, h, ofList]

end ValueSet

/-! ## Conditions -/

/-- A condition on the values at one path. -/
inductive Condition where
  | equal (operand : Value)
  | notEqual (operand : Value)
  | oneOf (set : ValueSet)
  | noneOf (set : ValueSet)
  | exists (expected : Bool)
  | ordered (direction : Ordering) (orEqual : Bool) (operand : Value)

namespace Condition

/-- Whether two values may be compared by a range: both numbers, or both of one type. -/
def comparable (a b : Value) : Bool :=
  a.elementType = b.elementType || (a.isNumber && b.isNumber)

/-- Whether a value stands in the given order to an operand. -/
def inOrder (direction : Ordering) (orEqual : Bool) (operand v : Value) : Bool :=
  comparable v operand &&
    match v.compare? operand with
    | some .eq => orEqual
    | some actual => actual == direction
    | none => false

/-- Whether a condition holds of the values at its path. -/
def holds : Condition → List Value → Bool
  | equal operand, values => values.any fun v => v.equal operand
  | notEqual operand, values => !values.any fun v => v.equal operand
  | oneOf set, values => values.any set.contains
  | noneOf set, values => !values.any set.contains
  | .exists expected, values => !values.isEmpty == expected
  | ordered direction orEqual operand, values => values.any (inOrder direction orEqual operand)

end Condition

/-- A query on documents. -/
inductive Filter where
  | all (clauses : List Filter)
  | any (clauses : List Filter)
  | none (clauses : List Filter)
  | field (path : List String) (conditions : List Condition)

namespace Filter

mutual
/-- Whether a document satisfies a filter. -/
def holds : Filter → Document → Bool
  | .all clauses, doc => allHold clauses doc
  | .any clauses, doc => anyHolds clauses doc
  | .none clauses, doc => !anyHolds clauses doc
  | .field path conditions, doc =>
      let values := doc.valuesAt path
      conditions.all fun condition => condition.holds values
/-- Whether a document satisfies every filter of a list. -/
def allHold : List Filter → Document → Bool
  | [], _ => true
  | clause :: rest, doc => holds clause doc && allHold rest doc
/-- Whether a document satisfies some filter of a list. -/
def anyHolds : List Filter → Document → Bool
  | [], _ => false
  | clause :: rest, doc => holds clause doc || anyHolds rest doc
end

theorem allHold_iff (clauses : List Filter) (doc : Document) :
    allHold clauses doc = true ↔ ∀ clause ∈ clauses, clause.holds doc = true := by
  induction clauses with
  | nil => simp [allHold]
  | cons clause rest ih => simp [allHold, ih]

theorem anyHolds_iff (clauses : List Filter) (doc : Document) :
    anyHolds clauses doc = true ↔ ∃ clause ∈ clauses, clause.holds doc = true := by
  induction clauses with
  | nil => simp [anyHolds]
  | cons clause rest ih => simp [anyHolds, ih]

end Filter

end DocMapper
