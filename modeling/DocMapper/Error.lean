import DocMapper.Filter.Compile
import DocMapper.Path.Rendering
import DocMapper.Value.Text

set_option autoImplicit false

/-!
# Errors

`Error` lists what can go wrong, by cause, and `Error.message` gives the wording of each.

The outcome of a chain of computations that may fail is that of one of its parts (`bind_eq_ok_iff`,
`bind_eq_error_iff`, `exists_of_foldlM_eq_error`).
-/

namespace DocMapper

/-- The cause of a failure. -/
inductive Error where
  | invalidPath (fault : Path.Fault)
  | illegalProperty (property : String)
  | repeatedRelation (property collection : String)
  | unresolvedTokens (tokens : List String)
  | notAnArray
  | notAnObject (found : String)
  | unsupportedFilter (fault : Filter.Fault)
  | cancellationOutsideTransaction
  | cancelled
  | illegalCollectionName (name : String)
  | relationNotFound (entity property side : String)
  | idRequired (entity : String)
  | noTransactionStarted
  | transactionAlreadyStarted
  | countOutOfRange
  | undecodable
  | malformedJson
  | malformedPattern (pattern : String)
  | unsupportedId (type : ElementType) (collection : String)
  | duplicateId (collection : String) (id : Value)
  | deleteFailed (collection : String)

/-- What an error says. -/
def Error.message : Error → String
  | invalidPath fault => "invalid navigation expression: " ++ fault.message
  | illegalProperty property =>
      "invalid navigation expression: illegal relationship property '" ++ property ++ "'"
  | repeatedRelation property collection =>
      "invalid navigation expression: relationship '" ++ property ++ "' is declared twice on '" ++
        collection ++ "'"
  | unresolvedTokens tokens =>
      "unresolved template tokens: [" ++ ",".intercalate tokens ++ "]"
  | notAnArray => "the template is not a pipeline, it must begin with [ and end with ]"
  | notAnObject found =>
      "not a document fragment, it must begin with \x7b and end with \x7d: " ++ found
  | unsupportedFilter fault => "not supported: " ++ fault.message
  | cancellationOutsideTransaction =>
      "not supported: cancellation requires an active transaction"
  | cancelled => "the operation was cancelled"
  | illegalCollectionName name => "collection name '" ++ name ++ "' is illegal"
  | relationNotFound entity property side =>
      "'" ++ entity ++ "' declares no " ++ side ++ " relationship named '" ++ property ++ "'"
  | idRequired entity =>
      "an id is required to save '" ++ entity ++ "', its id type can not be generated"
  | noTransactionStarted => "no transaction started"
  | transactionAlreadyStarted => "start transaction in another transaction"
  | countOutOfRange => "a count does not fit in 64 bits"
  | undecodable => "the document does not have the expected fields"
  | malformedJson => "the text is not a JSON document"
  | malformedPattern pattern => "the pattern is malformed: " ++ pattern
  | unsupportedId type collection =>
      "store error: unsupported _id type " ++ type.name ++ " in collection '" ++ collection ++ "'"
  | duplicateId collection id =>
      "store error: duplicate key error collection: " ++ collection ++ ", key: " ++ id.text
  | deleteFailed collection => "store error: delete on '" ++ collection ++ "' failed"

/-! ## Chains of computations -/

section Chains

variable {ε α β : Type}

theorem bind_eq_ok_iff {x : Except ε α} {f : α → Except ε β} {b : β} :
    x >>= f = .ok b ↔ ∃ a, x = .ok a ∧ f a = .ok b := by
  cases x with
  | error e => exact ⟨nofun, fun h => nomatch h.choose_spec.1⟩
  | ok a => exact ⟨fun h => ⟨a, rfl, h⟩, fun ⟨_, ha, h⟩ => by cases ha; exact h⟩

/-- A computation fails exactly if its first part fails, or the second part fails on its result. -/
theorem bind_eq_error_iff {x : Except ε α} {f : α → Except ε β} {e : ε} :
    x >>= f = .error e ↔ x = .error e ∨ ∃ a, x = .ok a ∧ f a = .error e := by
  cases x with
  | error e' =>
    constructor
    · intro h
      exact Or.inl (congrArg Except.error (Except.error.inj h))
    · rintro (h | ⟨_, h, -⟩)
      · exact congrArg Except.error (Except.error.inj h)
      · cases h
  | ok a =>
    constructor
    · intro h
      exact Or.inr ⟨a, rfl, h⟩
    · rintro (h | ⟨_, ha, h⟩)
      · cases h
      · obtain rfl := Except.ok.inj ha
        exact h

/-- A fold fails only where one of its steps fails. -/
theorem exists_of_foldlM_eq_error {f : β → α → Except ε β} {items : List α} {b : β} {e : ε}
    (h : items.foldlM f b = .error e) : ∃ b', ∃ item ∈ items, f b' item = .error e := by
  induction items generalizing b with
  | nil => cases h
  | cons first rest ih =>
    rw [List.foldlM_cons] at h
    rcases bind_eq_error_iff.1 h with hfirst | ⟨next, -, hrest⟩
    · exact ⟨b, first, List.mem_cons_self, hfirst⟩
    · obtain ⟨b', item, hitem, hfails⟩ := ih hrest
      exact ⟨b', item, List.mem_cons_of_mem first hitem, hfails⟩

end Chains

end DocMapper
