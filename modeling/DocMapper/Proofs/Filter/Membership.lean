import DocMapper.Filter.Compile
import DocMapper.Relation.JoinCollection

set_option autoImplicit false

/-!
# Filters on a single field

The filters that relationships and deletions send to a store ask of one or two fields whether they
hold a value or one of several. `Store.Means filter test` says that a filter document can be read
and takes the documents for which a test holds. The tests of these filters are `Document.refersTo`
and `Document.holdsAt` (`means_anyOf`, `means_either`, `means_scalar`, `means_pair`, `means_pairs`).

What a document refers to among some values does not depend on how the values are grouped
(`refersTo_append`).
-/

namespace DocMapper

/-! ## Membership among listed values -/

namespace ValueSet

/-- The set of two lists holds what the set of either one holds. -/
theorem contains_ofList_append (xs ys : List Value) (v : Value) :
    (ofList (xs ++ ys)).contains v = ((ofList xs).contains v || (ofList ys).contains v) := by
  rw [Bool.eq_iff_iff, Bool.or_eq_true]
  cases hkey : v.key? with
  | some key =>
    simp only [contains_ofList_of_key hkey, List.mem_append, or_and_right, exists_or]
  | none =>
    simp only [contains_ofList_of_no_key hkey, List.mem_append, or_and_right, exists_or]

/-- What is held by a set of values with keys is held by a set of values with the same keys and
more. -/
theorem contains_ofList_of_keys {xs ys : List Value} {v : Value}
    (hkeys : ∀ x ∈ xs, x.key?.isSome = true ∧ ∃ y ∈ ys, y.key? = x.key?)
    (h : (ofList xs).contains v = true) : (ofList ys).contains v = true := by
  cases hkey : v.key? with
  | some key =>
    rw [contains_ofList_of_key hkey] at h ⊢
    obtain ⟨x, hx, hxkey⟩ := h
    obtain ⟨-, y, hy, hsame⟩ := hkeys x hx
    exact ⟨y, hy, hsame.trans hxkey⟩
  | none =>
    obtain ⟨x, hx, hnone, -⟩ := (contains_ofList_of_no_key hkey).1 h
    have hsome := (hkeys x hx).1
    rw [hnone] at hsome
    cases hsome

@[simp] theorem contains_ofList_nil (v : Value) : (ofList []).contains v = false := by
  rw [← Bool.not_eq_true]
  cases hkey : v.key? with
  | some key => simp [contains_ofList_of_key hkey]
  | none => simp [contains_ofList_of_no_key hkey]

end ValueSet

namespace Document

variable {doc : Document} {field : String} {v : Value}

/-- Whether a field of a document holds one of some values. -/
def refersTo (doc : Document) (field : String) (values : List Value) : Bool :=
  (doc.valuesAt [field]).any (ValueSet.ofList values).contains

/-- Whether a field of a document holds a value. -/
def holdsAt (doc : Document) (field : String) (v : Value) : Bool :=
  (doc.valuesAt [field]).any fun w => w.equal v

theorem valuesAt_of_get? (h : doc.get? field = some v) (hv : v.key?.isSome = true) :
    doc.valuesAt [field] = [v] := by
  rw [valuesAt, Value.reachField_eq, h]
  cases v <;> first | rfl | cases hv

theorem refersTo_congr {other : Document} {field' : String}
    (h : doc.get? field = other.get? field') (values : List Value) :
    doc.refersTo field values = other.refersTo field' values := by
  rw [refersTo, refersTo, valuesAt, valuesAt, Value.reachField_eq, Value.reachField_eq, h]

theorem refersTo_of_get? (h : doc.get? field = some v) (hv : v.key?.isSome = true)
    (values : List Value) : doc.refersTo field values = values.any fun w => w.key? = v.key? := by
  obtain ⟨key, hkey⟩ := Option.isSome_iff_exists.1 hv
  rw [refersTo, valuesAt_of_get? h hv, List.any_cons, List.any_nil, Bool.or_false,
    Bool.eq_iff_iff, ValueSet.contains_ofList_of_key hkey, hkey]
  simp

/-- A document that refers to a value among some with keys does so among others with these keys. -/
theorem refersTo_of_keys {xs ys : List Value}
    (hkeys : ∀ x ∈ xs, x.key?.isSome = true ∧ ∃ y ∈ ys, y.key? = x.key?)
    (h : doc.refersTo field xs = true) : doc.refersTo field ys = true := by
  obtain ⟨v, hv, hheld⟩ := List.any_eq_true.1 h
  exact List.any_eq_true.2 ⟨v, hv, ValueSet.contains_ofList_of_keys hkeys hheld⟩

theorem holdsAt_of_get? {w : Value} (h : doc.get? field = some v) (hv : v.key?.isSome = true) :
    doc.holdsAt field w = v.equal w := by
  rw [holdsAt, valuesAt_of_get? h hv, List.any_cons, List.any_nil, Bool.or_false]

@[simp] theorem refersTo_nil (doc : Document) (field : String) :
    doc.refersTo field [] = false := by
  simp [refersTo]

/-- A document refers to a value of two lists if it does to one of either list. -/
theorem refersTo_append (doc : Document) (field : String) (xs ys : List Value) :
    doc.refersTo field (xs ++ ys) = (doc.refersTo field xs || doc.refersTo field ys) := by
  unfold refersTo
  induction doc.valuesAt [field] with
  | nil => rfl
  | cons v rest ih =>
    simp only [List.any_cons, ValueSet.contains_ofList_append, ih]
    cases (ValueSet.ofList xs).contains v <;> cases (ValueSet.ofList ys).contains v <;> simp

end Document

/-! ## What the filters mean -/

namespace Filter

variable {doc : Document} {field : String}

/-- A name that is a path of its own and no operator. -/
structure IsPlainField (field : String) : Prop where
  isOperator_eq : isOperator field = false
  segments_eq : segments field = [field]

theorem isPlainField_id : IsPlainField "_id" := ⟨by decide, by decide⟩

theorem isPlainField_parent : IsPlainField parentField := ⟨by decide, by decide⟩

theorem isPlainField_child : IsPlainField childField := ⟨by decide, by decide⟩

/-- The condition that a field holds one of some values. -/
def refers (field : String) (values : List Value) : Filter :=
  .field [field] [.oneOf (.ofList values)]

/-- The condition that a field holds a value. -/
def equals (field : String) (v : Value) : Filter := .field [field] [.equal v]

@[simp] theorem holds_refers (field : String) (values : List Value) (doc : Document) :
    (refers field values).holds doc = doc.refersTo field values := by
  simp [refers, holds, Condition.holds, Document.refersTo]

@[simp] theorem holds_equals (field : String) (v : Value) (doc : Document) :
    (equals field v).holds doc = doc.holdsAt field v := by
  simp [equals, holds, Condition.holds, Document.holdsAt]

/-- The clause of a path is made of the conditions on its values. -/
theorem compileClause_of_not_isOperator {path : String} (hpath : isOperator path = false)
    (v : Value) :
    compileClause path v = (compileConditions v).map (.field (segments path)) := by
  have hne : ∀ operator, isOperator operator = true → path ≠ operator := by
    rintro operator hoperator rfl
    rw [hpath] at hoperator
    cases hoperator
  have hand : path ≠ "$and" := hne _ (by decide)
  have hor : path ≠ "$or" := hne _ (by decide)
  have hnor : path ≠ "$nor" := hne _ (by decide)
  unfold compileClause
  split <;> simp [hand, hor, hnor, hpath, compileField]

theorem compile_singleton {path : String} (hpath : isOperator path = false) (v : Value) :
    compile [(path, v)] =
      (compileConditions v).map fun conditions => .all [.field (segments path) conditions] := by
  rw [compile, compileClauses, compileClause_of_not_isOperator hpath]
  cases compileConditions v <;> rfl

/-- A value that is no document of operators asks for itself. -/
theorem compileConditions_of_not_isOperatorDocument {v : Value}
    (h : ∀ fields, v = .document fields → isOperatorDocument fields = false) :
    compileConditions v = .ok [.equal v] := by
  cases v with
  | document fields => exact if_neg (Bool.eq_false_iff.1 (h fields rfl))
  | _ => rfl

theorem compileClause_of_isPlainField (hfield : IsPlainField field) (v : Value) :
    compileClause field v = (compileConditions v).map (.field [field]) := by
  rw [compileClause_of_not_isOperator hfield.isOperator_eq, hfield.segments_eq]

theorem compileClause_anyOf (hfield : IsPlainField field) (values : List Value) :
    compileClause field (JoinCollection.anyOf values) = .ok (refers field values) := by
  rw [compileClause_of_isPlainField hfield]
  rfl

theorem compileClause_scalar (hfield : IsPlainField field) {v : Value}
    (hv : v.key?.isSome = true) : compileClause field v = .ok (equals field v) := by
  rw [compileClause_of_isPlainField hfield]
  cases v <;> first | rfl | cases hv

end Filter

namespace Store

open DocMapper.Filter

variable {field other : String} {filter doc : Document} {test : Document → Bool}

/-- Whether a filter document is readable and takes a document. -/
def takes (filter doc : Document) : Bool :=
  match compileFilter filter with
  | .ok f => f.holds doc
  | .error _ => false

/-- A filter document that can be read, and the documents that it takes. -/
def Means (filter : Document) (test : Document → Bool) : Prop :=
  ∃ f, compileFilter filter = .ok f ∧ ∀ doc, f.holds doc = test doc

theorem Means.takes_eq (h : Means filter test) (doc : Document) : takes filter doc = test doc := by
  obtain ⟨f, hf, hholds⟩ := h
  rw [takes, hf]
  exact hholds doc

theorem Means.congr {test' : Document → Bool} (h : Means filter test)
    (heq : ∀ doc, test doc = test' doc) : Means filter test' := by
  obtain ⟨f, hf, hholds⟩ := h
  exact ⟨f, hf, fun doc => (hholds doc).trans (heq doc)⟩

theorem means_one {v : Value} {clause : Filter} (h : compileClause field v = .ok clause) :
    Means [(field, v)] clause.holds := by
  refine ⟨.all [clause], ?_, fun doc => ?_⟩
  · rw [compileFilter, compile, compileClauses, h]
    rfl
  · simp [holds, allHold]

theorem means_two {v w : Value} {clause clause' : Filter}
    (h : compileClause field v = .ok clause) (h' : compileClause other w = .ok clause') :
    Means [(field, v), (other, w)] fun doc => clause.holds doc && clause'.holds doc := by
  refine ⟨.all [clause, clause'], ?_, fun doc => ?_⟩
  · rw [compileFilter, compile, compileClauses, h, compileClauses, h']
    rfl
  · simp [holds, allHold]

theorem means_anyOf (hfield : IsPlainField field) (values : List Value) :
    Means [(field, JoinCollection.anyOf values)] fun doc => doc.refersTo field values := by
  exact (means_one (compileClause_anyOf hfield values)).congr fun doc => holds_refers _ _ doc

/-- The filter that one of two fields holds one of some values. -/
theorem means_either (hfield : IsPlainField field) (hother : IsPlainField other)
    (values : List Value) :
    Means [("$or", .array [.document [(field, JoinCollection.anyOf values)],
        .document [(other, JoinCollection.anyOf values)]])]
      fun doc => doc.refersTo field values || doc.refersTo other values := by
  have hclause : compileClause "$or"
      (.array [.document [(field, JoinCollection.anyOf values)],
        .document [(other, JoinCollection.anyOf values)]]) =
      .ok (.any [.all [refers field values], .all [refers other values]]) := by
    simp [compileClause, compileOperands, compileClauses, compileClause_anyOf hfield,
      compileClause_anyOf hother, Except.map]
  refine (means_one hclause).congr fun doc => ?_
  simp [holds, allHold, anyHolds]

theorem means_scalar (hfield : IsPlainField field) {v : Value} (hv : v.key?.isSome = true) :
    Means [(field, v)] fun doc => doc.holdsAt field v := by
  exact (means_one (compileClause_scalar hfield hv)).congr fun doc => holds_equals _ _ doc

theorem means_pair {parent child : Value} (hparent : parent.key?.isSome = true)
    (hchild : child.key?.isSome = true) :
    Means (JoinCollection.pair parent child)
      fun doc => doc.holdsAt parentField parent && doc.holdsAt childField child := by
  refine (means_two (compileClause_scalar isPlainField_parent hparent)
    (compileClause_scalar isPlainField_child hchild)).congr fun doc => ?_
  rw [holds_equals, holds_equals]

theorem means_pairs {parent : Value} (hparent : parent.key?.isSome = true)
    (children : List Value) :
    Means [(parentField, parent), (childField, JoinCollection.anyOf children)]
      fun doc => doc.holdsAt parentField parent && doc.refersTo childField children := by
  refine (means_two (compileClause_scalar isPlainField_parent hparent)
    (compileClause_anyOf isPlainField_child children)).congr fun doc => ?_
  rw [holds_equals, holds_refers]

end Store

end DocMapper
