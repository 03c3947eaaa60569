import DocMapper.Proofs.Filter.Merging
import DocMapper.Proofs.Store.Deletion
import DocMapper.Proofs.Store.Reading
import DocMapper.Proofs.Store.Writing
import DocMapper.Proofs.Traversal

set_option autoImplicit false

/-!
# The grammar of filters

`Filter.IsFilter` says which documents are filters, field by field and without reading them: a field
is a logical operator with filters, or a path with what is asked of it. Just these documents can be
read (`Filter.exists_compile_iff`).

Any other document is refused as not supported, and a store that is asked to find, replace or delete
by it does nothing: it leaves no entry in its journal either (`Store.reads_iff_isFilter`).
-/

namespace DocMapper

namespace Filter

/-! ## The grammar -/

/-- An operator that joins filters. -/
def IsLogical (operator : String) : Prop :=
  operator = "$and" ∨ operator = "$or" ∨ operator = "$nor"

/-- An operator with an operand: `$in` and `$nin` take an array, the others any value. -/
def IsCondition (field : String × Value) : Prop :=
  field.1 ∈ ["$eq", "$ne", "$exists", "$gt", "$gte", "$lt", "$lte"] ∨
    field.1 ∈ ["$in", "$nin"] ∧ ∃ items, field.2 = .array items

/-- What may be asked of a path. -/
inductive IsQuestion : Value → Prop
  /-- The value is compared as it is. -/
  | scalar {v : Value} (hv : ∀ fields, v ≠ .document fields) : IsQuestion v
  /-- A document that is empty or does not begin with an operator is compared as it is. -/
  | document {fields : Document}
      (hfirst : ∀ key ∈ (Fields.keys fields).head?, isOperator key = false) :
      IsQuestion (.document fields)
  /-- A document may list conditions. -/
  | conditions {fields : Document} (hfields : ∀ field ∈ fields, IsCondition field) :
      IsQuestion (.document fields)

/-- What may be a field of a filter. -/
inductive IsClause : String × Value → Prop
  /-- A logical operator joins filters, of which there is at least one. -/
  | logical {operator : String} {items : List Value} (hoperator : IsLogical operator)
      (hsome : items ≠ []) (hdocuments : ∀ item ∈ items, ∃ fields, item = .document fields)
      (hclauses : ∀ fields, .document fields ∈ items → ∀ field ∈ fields, IsClause field) :
      IsClause (operator, .array items)
  /-- Something is asked of a path. -/
  | path {path : String} {v : Value} (hpath : isOperator path = false) (hv : IsQuestion v) :
      IsClause (path, v)

/-- A document each field of which may be a field of a filter. -/
def IsFilter (doc : Document) : Prop := ∀ field ∈ doc, IsClause field

variable {key operator path : String} {v : Value} {fields : Document}

theorem IsLogical.isOperator_eq (h : IsLogical operator) : isOperator operator = true := by
  rcases h with rfl | rfl | rfl <;> decide

/-- A logical operator joins documents that are filters. -/
theorem isClause_logical_iff (hkey : IsLogical key) :
    IsClause (key, v) ↔
      ∃ items, v = .array items ∧ items ≠ [] ∧
        ∀ item ∈ items, ∃ fields, item = .document fields ∧ IsFilter fields := by
  constructor
  · intro h
    cases h with
    | logical _ hsome hdocuments hclauses =>
      refine ⟨_, rfl, hsome, fun item hitem => ?_⟩
      obtain ⟨fields, rfl⟩ := hdocuments item hitem
      exact ⟨fields, rfl, hclauses fields hitem⟩
    | path hpath =>
      rw [hkey.isOperator_eq] at hpath
      cases hpath
  · rintro ⟨items, rfl, hsome, hitems⟩
    refine .logical hkey hsome (fun item hitem => ?_) fun fields hfields => ?_
    · obtain ⟨fields, hfields, -⟩ := hitems item hitem
      exact ⟨fields, hfields⟩
    · obtain ⟨others, hothers, hfilter⟩ := hitems _ hfields
      obtain rfl := Value.document.inj hothers
      exact hfilter

/-- Any other field asks something of a path. -/
theorem isClause_iff_of_not_isLogical (hkey : ¬ IsLogical key) :
    IsClause (key, v) ↔ isOperator key = false ∧ IsQuestion v := by
  constructor
  · intro h
    cases h with
    | logical hoperator => exact absurd hoperator hkey
    | path hpath hv => exact ⟨hpath, hv⟩
  · rintro ⟨hpath, hv⟩
    exact .path hpath hv

/-! ## What can be read -/

theorem exists_operandArray_iff (operator : String) :
    (∃ items, operandArray operator v = .ok items) ↔ ∃ items, v = .array items := by
  cases v <;> simp [operandArray]

/-- An operator with its operand can be read exactly if it is a condition. -/
theorem exists_compileCondition_iff (operator : String) (v : Value) :
    (∃ condition, compileCondition operator v = .ok condition) ↔ IsCondition (operator, v) := by
  unfold compileCondition
  split
  case h_3 | h_4 =>
    rw [exists_map_eq_ok_iff, exists_operandArray_iff]
    simp [IsCondition]
  all_goals simp_all [IsCondition]

theorem isOperatorDocument_eq_false_iff :
    isOperatorDocument fields = false ↔
      ∀ key ∈ (Fields.keys fields).head?, isOperator key = false := by
  cases fields with
  | nil => simp [isOperatorDocument, Fields.keys]
  | cons field rest => simp [isOperatorDocument, Fields.keys]

/-- What is asked of a path can be read exactly if it may be asked. -/
theorem exists_compileConditions_iff (v : Value) :
    (∃ conditions, compileConditions v = .ok conditions) ↔ IsQuestion v := by
  by_cases hv : ∃ fields, v = .document fields
  · obtain ⟨fields, rfl⟩ := hv
    rw [compileConditions]
    split
    · next hoperator =>
      rw [exists_mapM_eq_ok_iff]
      simp only [exists_compileCondition_iff]
      constructor
      · exact .conditions
      · intro h
        cases h with
        | scalar hv => exact absurd rfl (hv fields)
        | document hfirst =>
          rw [isOperatorDocument_eq_false_iff.2 hfirst] at hoperator
          cases hoperator
        | conditions hfields => exact hfields
    · next hplain =>
      rw [Bool.not_eq_true, isOperatorDocument_eq_false_iff] at hplain
      exact iff_of_true ⟨_, rfl⟩ (.document hplain)
  · have hscalar : ∀ fields, v ≠ .document fields := fun fields h => hv ⟨fields, h⟩
    have hread := compileConditions_of_not_isOperatorDocument fun fields h =>
      absurd h (hscalar fields)
    exact iff_of_true ⟨_, hread⟩ (.scalar hscalar)

/-- A field that is no logical operator can be read exactly if it asks something of a path. -/
theorem exists_compileClause_iff_of_not_isLogical (hkey : ¬ IsLogical key) (v : Value) :
    (∃ clause, compileClause key v = .ok clause) ↔ IsClause (key, v) := by
  rw [isClause_iff_of_not_isLogical hkey]
  cases hoperator : isOperator key with
  | false =>
    rw [compileClause_of_not_isOperator hoperator, exists_map_eq_ok_iff,
      exists_compileConditions_iff]
    exact (and_iff_right rfl).symm
  | true =>
    rw [IsLogical, not_or, not_or] at hkey
    obtain ⟨hand, hor, hnor⟩ := hkey
    unfold compileClause
    split <;> simp [hand, hor, hnor, hoperator]

/-- A logical operator can be read exactly if it has operands and these can be read. -/
theorem exists_compileClause_iff_of_isLogical (hkey : IsLogical key) (v : Value) :
    (∃ clause, compileClause key v = .ok clause) ↔
      ∃ items, v = .array items ∧ items ≠ [] ∧
        ∃ operands, compileOperands key items = .ok operands := by
  cases v with
  | array items =>
    cases items with
    | nil => rcases hkey with rfl | rfl | rfl <;> simp [compileClause]
    | cons item rest =>
      rcases hkey with rfl | rfl | rfl <;> simp [compileClause, exists_map_eq_ok_iff]
  | _ => rcases hkey with rfl | rfl | rfl <;> simp [compileClause]

mutual
/-- Fields can be read exactly if each of them may be a field of a filter. -/
theorem exists_compileClauses_iff (fields : List (String × Value)) :
    (∃ clauses, compileClauses fields = .ok clauses) ↔ ∀ field ∈ fields, IsClause field := by
  cases fields with
  | nil => exact ⟨fun _ _ h => (nomatch h), fun _ => ⟨[], rfl⟩⟩
  | cons field rest =>
    obtain ⟨key, v⟩ := field
    rw [List.forall_mem_cons, ← exists_compileClauses_iff rest, ← exists_compileClause_iff key v,
      compileClauses]
    cases compileClause key v with
    | error fault => simp
    | ok clause =>
      dsimp only
      rw [exists_map_eq_ok_iff]
      exact (and_iff_right ⟨clause, rfl⟩).symm
/-- A field can be read exactly if it may be a field of a filter. -/
theorem exists_compileClause_iff (key : String) (v : Value) :
    (∃ clause, compileClause key v = .ok clause) ↔ IsClause (key, v) := by
  by_cases hkey : IsLogical key
  · rw [exists_compileClause_iff_of_isLogical hkey, isClause_logical_iff hkey]
    cases v with
    | array items =>
      have hitems := exists_compileOperands_iff key items
      simp [hitems]
    | _ => simp
  · exact exists_compileClause_iff_of_not_isLogical hkey v
/-- The operands of a logical operator can be read exactly if they are filters. -/
theorem exists_compileOperands_iff (operator : String) (items : List Value) :
    (∃ operands, compileOperands operator items = .ok operands) ↔
      ∀ item ∈ items, ∃ fields, item = .document fields ∧ IsFilter fields := by
  cases items with
  | nil => exact ⟨fun _ _ h => (nomatch h), fun _ => ⟨[], rfl⟩⟩
  | cons item rest =>
    rw [List.forall_mem_cons, ← exists_compileOperands_iff operator rest]
    cases item with
    | document fields =>
      have hfields : (∃ clauses, compileClauses fields = .ok clauses) ↔ IsFilter fields :=
        exists_compileClauses_iff fields
      simp only [Value.document.injEq, exists_eq_left', ← hfields]
      rw [compileOperands]
      cases compileClauses fields with
      | error fault => simp
      | ok clauses =>
        dsimp only
        rw [exists_map_eq_ok_iff]
        exact (and_iff_right ⟨clauses, rfl⟩).symm
    | _ => simp [compileOperands]
end

/-- A document can be read as a filter exactly if it is one. -/
theorem exists_compile_iff (doc : Document) : (∃ f, compile doc = .ok f) ↔ IsFilter doc := by
  rw [compile, exists_map_eq_ok_iff]
  exact exists_compileClauses_iff doc

end Filter

namespace Store

open DocMapper.Filter

/-- A store reads a document as a filter exactly if it is one. -/
theorem exists_compileFilter_iff (filter : Document) :
    (∃ f, compileFilter filter = .ok f) ↔ IsFilter filter := by
  rw [← exists_compile_iff, compileFilter]
  cases compile filter <;> simp [Except.mapError]

/-- A document is read exactly if it is a filter. Any other one is refused as not supported, and
then a store neither finds, replaces nor deletes anything: it stays as it is, with its journal. -/
theorem reads_iff_isFilter (filter : Document) :
    ((∃ f, compileFilter filter = .ok f) ↔ IsFilter filter) ∧
      (¬ IsFilter filter → ∃ fault, compileFilter filter = .error (.unsupportedFilter fault) ∧
        ∀ (collection : String) (s : Store),
          (∀ options, (find collection filter options).runOn s =
            (.error (.unsupportedFilter fault), s)) ∧
          (∀ replacement upsert, (replaceOne collection filter replacement upsert).runOn s =
            (.error (.unsupportedFilter fault), s)) ∧
          ∀ session, (deleteMany collection filter session).runOn s =
            (.error (.unsupportedFilter fault), s)) := by
  refine ⟨exists_compileFilter_iff filter, fun hnot => ?_⟩
  cases hf : compileFilter filter with
  | ok f => exact absurd ((exists_compileFilter_iff filter).1 ⟨f, hf⟩) hnot
  | error e =>
    obtain ⟨fault, rfl⟩ := exists_fault_of_compileFilter hf
    refine ⟨fault, rfl, fun collection s => ⟨fun options => ?_, fun replacement upsert => ?_,
      fun session => ?_⟩⟩
    · exact runOn_find_of_fault collection options s hf
    · exact runOn_replaceOne_of_fault replacement upsert hf
    · exact runOn_deleteMany_of_fault session hf

/-- An alternative that asks for membership in a number makes a filter that no store follows. -/
theorem reads_iff_isFilter_number :
    let filter : Document := [("$or", .array [.document [("a", .int32 1)],
      .document [("b", .document [("$in", .int32 3)])]])]
    ¬ IsFilter filter ∧ ∀ s, (replaceOne "c" filter [] true).runOn s =
      (.error (.unsupportedFilter (.operandNotArray "$in")), s) := by
  intro filter
  have hfault : compileFilter filter = .error (.unsupportedFilter (.operandNotArray "$in")) := rfl
  obtain ⟨hread, hrefused⟩ := reads_iff_isFilter filter
  have hnot : ¬ IsFilter filter := by
    intro h
    obtain ⟨f, hf⟩ := hread.2 h
    rw [hfault] at hf
    cases hf
  obtain ⟨fault, hcompile, hstore⟩ := hrefused hnot
  have heq := Except.error.inj (hcompile.symm.trans hfault)
  refine ⟨hnot, fun s => ?_⟩
  rw [← heq]
  exact (hstore "c" s).2.1 [] true

end Store

end DocMapper
