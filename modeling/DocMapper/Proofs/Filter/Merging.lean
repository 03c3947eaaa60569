import DocMapper.Context.Basic
import DocMapper.Proofs.Filter.Membership

set_option autoImplicit false

/-!
# Merged filters

A global filter is merged with the filter of the caller by `$and`. The merged filter can be read if
both can, in whichever order they stand, and then it takes what both take
(`Context.means_mergeFilter`); otherwise it is refused (`Context.exists_fault_of_mergeFilter`).

`Store.SameMeaning` says of two filter documents that they take the same documents, or that both are
refused for the same reason. Where the global filter can be read, its position makes no difference
(`Context.sameMeaning_mergeFilter`).
-/

namespace DocMapper

namespace Store

variable {filter other : Document} {f g : Filter}

/-- Two filters joined by `$and` are read one after the other. -/
theorem compileFilter_both (first second : Document) :
    compileFilter (Context.both first second) = (do
      let f ← compileFilter first
      let g ← compileFilter second
      return .all [.all [f, g]]) := by
  simp only [compileFilter, Context.both, Filter.compile, Filter.compileClauses,
    Filter.compileClause, Filter.compileOperands, if_pos]
  cases Filter.compileClauses first with
  | error fault => rfl
  | ok clauses =>
    cases Filter.compileClauses second with
    | error fault => rfl
    | ok clauses' => rfl

theorem means_both (hf : compileFilter filter = .ok f) (hg : compileFilter other = .ok g) :
    Means (Context.both filter other) fun doc => f.holds doc && g.holds doc := by
  refine ⟨.all [.all [f, g]], ?_, fun doc => ?_⟩
  · rw [compileFilter_both, hf, hg]
    rfl
  · simp [Filter.holds, Filter.allHold]

/-- A filter that can not be read is refused as not supported. -/
theorem exists_fault_of_compileFilter {e : Error} (h : compileFilter filter = .error e) :
    ∃ fault, e = .unsupportedFilter fault := by
  rw [compileFilter] at h
  cases hcompile : Filter.compile filter with
  | ok f =>
    rw [hcompile] at h
    cases h
  | error fault =>
    rw [hcompile] at h
    exact ⟨fault, (Except.error.inj h).symm⟩

/-- Two filter documents that take the same documents, or that are refused for the same reason. -/
def SameMeaning (filter other : Document) : Prop :=
  (∃ e, compileFilter filter = .error e ∧ compileFilter other = .error e) ∨
    ∃ test, Means filter test ∧ Means other test

end Store

namespace Context

open Store

variable {τ ι : Type} [Stored τ ι] {c c' : Context} {shared shared' : GlobalFilter}
variable {filter : Document} {f g : Filter}

theorem mergeFilter_eq (h : c.globalFilter? τ = some shared) (filter : Document) :
    c.mergeFilter τ filter = both shared.filter filter ∨
      c.mergeFilter τ filter = both filter shared.filter := by
  rw [mergeFilter, h]
  cases c.filterPosition τ with
  | prepend => exact Or.inl rfl
  | append => exact Or.inr rfl

theorem means_mergeFilter (h : c.globalFilter? τ = some shared)
    (hf : compileFilter filter = .ok f) (hg : compileFilter shared.filter = .ok g) :
    Means (c.mergeFilter τ filter) fun doc => f.holds doc && g.holds doc := by
  rcases mergeFilter_eq h filter with heq | heq <;> rw [heq]
  · exact (means_both hg hf).congr fun doc => Bool.and_comm _ _
  · exact means_both hf hg

theorem means_mergeFilter_anyOf (h : c.globalFilter? τ = some shared)
    (hg : compileFilter shared.filter = .ok g) (values : List Value) :
    Means (c.mergeFilter τ [("_id", JoinCollection.anyOf values)])
      fun doc => doc.refersTo "_id" values && g.holds doc := by
  obtain ⟨f, hf, hrefers⟩ := means_anyOf Filter.isPlainField_id values
  exact (means_mergeFilter h hf hg).congr fun doc => by rw [hrefers]

/-- A merged filter is refused if one of the filters can not be read. -/
theorem exists_fault_of_mergeFilter (h : c.globalFilter? τ = some shared)
    (hnot : ¬ ((∃ f, compileFilter filter = .ok f) ∧ ∃ g, compileFilter shared.filter = .ok g)) :
    ∃ fault, compileFilter (c.mergeFilter τ filter) = .error (.unsupportedFilter fault) := by
  have herror : ∃ e, compileFilter (c.mergeFilter τ filter) = .error e := by
    rcases mergeFilter_eq h filter with heq | heq <;> rw [heq, compileFilter_both] <;>
      cases hf : compileFilter filter <;> cases hg : compileFilter shared.filter <;>
      first
      | exact ⟨_, rfl⟩
      | exact absurd ⟨⟨_, hf⟩, ⟨_, hg⟩⟩ hnot
  obtain ⟨e, he⟩ := herror
  obtain ⟨fault, rfl⟩ := exists_fault_of_compileFilter he
  exact ⟨fault, he⟩

/-- Next to a global filter that can be read, a filter is refused for its own reason. -/
theorem compileFilter_mergeFilter_of_error {e : Error} (h : c.globalFilter? τ = some shared)
    (hf : compileFilter filter = .error e) (hg : compileFilter shared.filter = .ok g) :
    compileFilter (c.mergeFilter τ filter) = .error e := by
  rcases mergeFilter_eq h filter with heq | heq <;> rw [heq, compileFilter_both, hf]
  · rw [hg]
    rfl
  · rfl

/-- The position of a global filter that can be read makes no difference. -/
theorem sameMeaning_mergeFilter (h : c.globalFilter? τ = some shared)
    (h' : c'.globalFilter? τ = some shared') (heq : shared'.filter = shared.filter)
    (hg : compileFilter shared.filter = .ok g) (filter : Document) :
    SameMeaning (c.mergeFilter τ filter) (c'.mergeFilter τ filter) := by
  have hg' : compileFilter shared'.filter = .ok g := by rw [heq, hg]
  cases hf : compileFilter filter with
  | error e =>
    exact Or.inl ⟨e, compileFilter_mergeFilter_of_error h hf hg,
      compileFilter_mergeFilter_of_error h' hf hg'⟩
  | ok f => exact Or.inr ⟨_, means_mergeFilter h hf hg, means_mergeFilter h' hf hg'⟩

end Context

end DocMapper
