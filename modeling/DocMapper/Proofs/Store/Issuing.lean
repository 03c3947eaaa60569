import DocMapper.Proofs.Store.Deletion
import DocMapper.Proofs.Store.Reading

set_option autoImplicit false

/-!
# Calls that a run issues

`Store.Issues calls` says of a run of listings and deletions that it issues some calls, one after
another, and gives up at the first deletion that is set to fail: the journal is continued by the
calls up to that one (`Call.upToFailure`), and all else but the documents stays. A listing and a
deletion issue one call each, and a sequence issues the calls of its parts (`Issues.bind`).

Deletions on a collection are numbered by the journal. Whether one is confirmed depends on its
number only (`Store.confirms`, `Store.confirmsDelete_record`).
-/

namespace DocMapper

/-! ## Rows of calls -/

namespace Call

variable {failing : List String} {calls more : List Call}

/-- Whether a call lists collections. -/
def isListing : Call → Bool
  | list _ => true
  | _ => false

/-- Whether a call is a deletion on a collection on which deletions fail. -/
def failsOn (failing : List String) : Call → Bool
  | delete name _ _ => failing.contains name
  | _ => false

/-- The calls up to the first deletion that fails, that one included. -/
def upToFailure (failing : List String) : List Call → List Call
  | [] => []
  | call :: rest => call :: if call.failsOn failing then [] else upToFailure failing rest

@[simp] theorem failsOn_nil (call : Call) : call.failsOn [] = false := by
  cases call <;> rfl

/-- Calls of which none fails are issued before what follows them. -/
theorem upToFailure_append_of_succeeds (h : ∀ call ∈ calls, call.failsOn failing = false)
    (more : List Call) :
    upToFailure failing (calls ++ more) = calls ++ upToFailure failing more := by
  induction calls with
  | nil => rfl
  | cons call rest ih =>
    obtain ⟨hcall, hrest⟩ := List.forall_mem_cons.1 h
    rw [List.cons_append, upToFailure, hcall, if_neg Bool.false_ne_true, ih hrest, List.cons_append]

theorem upToFailure_of_succeeds (h : ∀ call ∈ calls, call.failsOn failing = false) :
    upToFailure failing calls = calls := by
  have happend := upToFailure_append_of_succeeds h []
  rwa [List.append_nil, upToFailure, List.append_nil] at happend

/-- What follows calls of which one fails is not issued. -/
theorem upToFailure_append_of_fails (h : ∃ call ∈ calls, call.failsOn failing = true) :
    upToFailure failing (calls ++ more) = upToFailure failing calls := by
  induction calls with
  | nil =>
    obtain ⟨call, hcall, -⟩ := h
    cases hcall
  | cons call rest ih =>
    rw [List.cons_append, upToFailure, upToFailure]
    cases hcall : call.failsOn failing with
    | true => rfl
    | false =>
      obtain ⟨other, hother, hfails⟩ := h
      rcases List.mem_cons.1 hother with rfl | hother
      · rw [hcall] at hfails
        cases hfails
      · rw [if_neg Bool.false_ne_true, if_neg Bool.false_ne_true, ih ⟨other, hother, hfails⟩]

end Call

namespace Store

variable {α β : Type} {a : Action α} {f : α → Action β} {s t : Store}
variable {run : Except Error α × Store} {calls more : List Call}

/-! ## Runs -/

/-- A run that issues some calls up to the first deletion that is set to fail. It succeeds if there
is no such deletion, and apart from its calls being journaled it changes documents only. -/
structure Issues (calls : List Call) (s : Store) (run : Except Error α × Store) : Prop where
  journal_eq : run.2.journal.toList = s.journal.toList ++ Call.upToFailure s.failingDeletes calls
  succeeds : (∀ call ∈ calls, call.failsOn s.failingDeletes = false) → ∃ x, run.1 = .ok x
  fails : (∃ call ∈ calls, call.failsOn s.failingDeletes = true) →
    ∃ name, run.1 = .error (.deleteFailed name)
  names_eq : run.2.catalog.names = s.catalog.names
  frame : run.2 = { s with catalog := run.2.catalog, journal := run.2.journal }

namespace Issues

theorem failingDeletes_eq (h : Issues calls s run) : run.2.failingDeletes = s.failingDeletes := by
  rw [h.frame]

theorem hasActiveTransaction_eq (h : Issues calls s run) (session : Option Session) :
    run.2.hasActiveTransaction session = s.hasActiveTransaction session := by
  rw [h.frame]
  rfl

/-- A run that succeeds issues all of its calls. -/
theorem journal_of_ok {x : α} (h : Issues calls s (.ok x, t)) :
    (∀ call ∈ calls, call.failsOn s.failingDeletes = false) ∧
      t.journal.toList = s.journal.toList ++ calls := by
  have hsucceeds : ∀ call ∈ calls, call.failsOn s.failingDeletes = false := by
    intro call hcall
    rw [← Bool.not_eq_true]
    intro hfails
    obtain ⟨name, herror⟩ := h.fails ⟨call, hcall, hfails⟩
    cases herror
  have hjournal := h.journal_eq
  rw [Call.upToFailure_of_succeeds hsucceeds] at hjournal
  exact ⟨hsucceeds, hjournal⟩

/-- A run that fails has issued a deletion that is set to fail. -/
theorem exists_fails_of_error {e : Error} (h : Issues calls s ((.error e : Except Error α), t)) :
    ∃ call ∈ calls, call.failsOn s.failingDeletes = true := by
  by_contra hnone
  obtain ⟨x, hx⟩ := h.succeeds fun call hcall => by
    rw [← Bool.not_eq_true]
    exact fun hfails => hnone ⟨call, hcall, hfails⟩
  cases hx

/-- Where one of the first calls fails, so does the run, and it issues these up to that call. -/
theorem of_append_of_fails (h : Issues (calls ++ more) s run)
    (hfails : ∃ call ∈ calls, call.failsOn s.failingDeletes = true) :
    ∃ name, run.1 = .error (.deleteFailed name) ∧
      run.2.journal.toList = s.journal.toList ++ Call.upToFailure s.failingDeletes calls := by
  have hjournal := h.journal_eq
  rw [Call.upToFailure_append_of_fails hfails] at hjournal
  obtain ⟨call, hcall, hcallFails⟩ := hfails
  obtain ⟨name, hname⟩ := h.fails ⟨call, List.mem_append_left _ hcall, hcallFails⟩
  exact ⟨name, hname, hjournal⟩

theorem pure (x : α) (s : Store) : Issues [] s ((Pure.pure x : Action α).runOn s) where
  journal_eq := (List.append_nil _).symm
  succeeds _ := ⟨x, rfl⟩
  fails h := by
    obtain ⟨call, hcall, -⟩ := h
    cases hcall
  names_eq := rfl
  frame := rfl

/-- A sequence issues the calls of its parts. -/
theorem bind (h : Issues calls s (a.runOn s))
    (hrest : ∀ x t, a.runOn s = (.ok x, t) → Issues more t ((f x).runOn t)) :
    Issues (calls ++ more) s ((a >>= f).runOn s) := by
  rw [Action.runOn_bind]
  cases hrun : a.runOn s with
  | mk result t =>
    rw [hrun] at h
    cases result with
    | ok x =>
      have hsecond := hrest x t hrun
      obtain ⟨hsucceeds, hjournal⟩ := h.journal_of_ok
      have hfailing : t.failingDeletes = s.failingDeletes := h.failingDeletes_eq
      refine ⟨?_, fun hall => ?_, ?_, hsecond.names_eq.trans h.names_eq, ?_⟩
      · rw [hsecond.journal_eq, hjournal, hfailing, List.append_assoc,
          Call.upToFailure_append_of_succeeds hsucceeds]
      · refine hsecond.succeeds fun call hcall => ?_
        rw [hfailing]
        exact hall call (List.mem_append_right _ hcall)
      · rintro ⟨call, hcall, hfails⟩
        rcases List.mem_append.1 hcall with hcall | hcall
        · rw [hsucceeds call hcall] at hfails
          cases hfails
        · rw [← hfailing] at hfails
          exact hsecond.fails ⟨call, hcall, hfails⟩
      · have hfirst : t = { s with catalog := t.catalog, journal := t.journal } := h.frame
        rw [hfirst] at hsecond ⊢
        exact hsecond.frame
    | error e =>
      -- the rest is not run
      have hfails := h.exists_fails_of_error
      refine ⟨?_, fun hall => ?_, fun _ => ?_, h.names_eq, h.frame⟩
      · rw [Call.upToFailure_append_of_fails hfails]
        exact h.journal_eq
      · obtain ⟨call, hcall, hcallFails⟩ := hfails
        rw [hall call (List.mem_append_left _ hcall)] at hcallFails
        cases hcallFails
      · obtain ⟨name, herror⟩ := h.fails hfails
        exact ⟨name, by rw [Except.error.inj herror]⟩

end Issues

/-- A listing that is accepted issues one call. -/
theorem issues_listCollections {pattern : String} {regex : Regex}
    (h : Regex.ofText? pattern = some regex) (s : Store) :
    Issues [.list pattern] s ((listCollections pattern).runOn s) := by
  rw [runOn_listCollections h]
  refine ⟨Array.toList_push, fun _ => ⟨_, rfl⟩, ?_, rfl, rfl⟩
  rintro ⟨call, hcall, hfails⟩
  obtain rfl := List.mem_singleton.1 hcall
  cases hfails

/-- A deletion by a filter that can be read issues one call. -/
theorem issues_deleteMany {filter : Document} {test : Document → Bool} (collection : String)
    (session : Option Session) (hmeans : Means filter test) (s : Store) :
    Issues [.delete collection filter (s.hasActiveTransaction session)] s
      ((deleteMany collection filter session).runOn s) := by
  obtain ⟨g, hg, -⟩ := hmeans
  cases hfails : s.failingDeletes.contains collection with
  | true =>
    rw [runOn_deleteMany_of_fails session hg hfails]
    refine ⟨?_, fun hall => ?_, fun _ => ⟨collection, rfl⟩, rfl, rfl⟩
    · rw [Call.upToFailure, Call.failsOn, hfails]
      exact Array.toList_push
    · have hnot := hall _ List.mem_cons_self
      rw [Call.failsOn, hfails] at hnot
      cases hnot
  | false =>
    rw [runOn_deleteMany session hg hfails]
    have hnone : ∀ call ∈ [Call.delete collection filter (s.hasActiveTransaction session)],
        call.failsOn s.failingDeletes = false := by
      intro call hcall
      obtain rfl := List.mem_singleton.1 hcall
      exact hfails
    refine ⟨?_, fun _ => ⟨_, rfl⟩, ?_, ?_, rfl⟩
    · rw [Call.upToFailure_of_succeeds hnone]
      exact Array.toList_push
    · rintro ⟨call, hcall, hcallFails⟩
      rw [hnone call hcall] at hcallFails
      cases hcallFails
    · exact (s.catalog.without_removeWhere collection g.holds).names_eq

/-! ## Confirmed deletions -/

/-- Whether a store confirms the deletion on a collection that has the given number. -/
def confirms (s : Store) (collection : String) (n : Nat) : Bool :=
  s.acknowledged && decide (s.unacknowledgedDelete ≠ some (collection, n))

/-- A deletion that has just been journaled is confirmed by its number. -/
theorem confirmsDelete_record (s : Store) (collection : String) (filter : Document)
    (inTransaction : Bool) :
    (s.record (.delete collection filter inTransaction)).confirmsDelete collection =
      s.confirms collection (s.deletionCount collection) := by
  have hcount : (s.record (.delete collection filter inTransaction)).deletionCount collection =
      s.deletionCount collection + 1 := by
    rw [deletionCount, record, Array.countP_push, deletionCount]
    simp [Call.deletesFrom]
  rw [confirmsDelete, hcount, confirms]
  cases hnone : s.unacknowledgedDelete with
  | none => simp [record, hnone]
  | some delete =>
    obtain ⟨name, n⟩ := delete
    simp [record, hnone]
end Store

end DocMapper
