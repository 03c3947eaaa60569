import DocMapper.Proofs.Filter.Membership
import DocMapper.Proofs.Store.Contents
import DocMapper.Proofs.Store.Runs
import DocMapper.Store.Write

set_option autoImplicit false

/-!
# The effect of a deletion

`Store.Removes removed` relates the stores before and after a deletion: the catalog is without the
documents for which `removed` holds, and of the rest only the journal may differ. A deletion that
succeeds removes exactly what its filter takes (`removes_of_deleteMany`).

`Store.Shrinks removable` says that nothing but removable documents was removed. It is kept by every
deletion of such documents, also by one that fails (`keeps_shrinks_deleteMany`), and it is a
preorder, so it is kept by sequences of them.
-/

namespace DocMapper.Store

variable {s t u : Store} {removed removed' removable removable' : String → Document → Bool}
variable {collection : String} {filter : Document} {f : Filter}

/-! ## Stores that differ by a removal -/

/-- A store before and after documents are removed. -/
structure Removes (removed : String → Document → Bool) (s t : Store) : Prop where
  catalog : s.catalog.Without removed t.catalog
  frame : t = { s with catalog := t.catalog, journal := t.journal }

namespace Removes

theorem refl (s : Store) : Removes (fun _ _ => false) s s := ⟨.refl s.catalog, rfl⟩

theorem trans (h : Removes removed s t) (h' : Removes removed' t u) :
    Removes (fun name doc => removed name doc || removed' name doc) s u where
  catalog := h.catalog.trans h'.catalog
  frame := by
    rw [h'.frame, h.frame]

theorem congr (h : Removes removed s t)
    (heq : ∀ name, ∀ doc ∈ s.catalog.documents name, removed name doc = removed' name doc) :
    Removes removed' s t :=
  ⟨h.catalog.congr heq, h.frame⟩

theorem sessions_eq (h : Removes removed s t) : t.sessions = s.sessions := by
  rw [h.frame]

theorem supply_eq (h : Removes removed s t) : t.supply = s.supply := by
  rw [h.frame]

theorem failingDeletes_eq (h : Removes removed s t) : t.failingDeletes = s.failingDeletes := by
  rw [h.frame]

theorem acknowledged_eq (h : Removes removed s t) : t.acknowledged = s.acknowledged := by
  rw [h.frame]

theorem unacknowledgedDelete_eq (h : Removes removed s t) :
    t.unacknowledgedDelete = s.unacknowledgedDelete := by
  rw [h.frame]

end Removes

/-- A store before and after some of the removable documents are removed. -/
def Shrinks (removable : String → Document → Bool) (s t : Store) : Prop :=
  ∃ removed, (∀ name doc, removed name doc = true → removable name doc = true) ∧
    Removes removed s t

theorem Removes.shrinks (h : Removes removed s t) : Shrinks removed s t :=
  ⟨removed, fun _ _ hdoc => hdoc, h⟩

theorem Shrinks.mono (h : Shrinks removable s t)
    (hle : ∀ name doc, removable name doc = true → removable' name doc = true) :
    Shrinks removable' s t := by
  obtain ⟨removed, hremoved, hcatalog⟩ := h
  exact ⟨removed, fun name doc hdoc => hle name doc (hremoved name doc hdoc), hcatalog⟩

instance : Std.Refl (Shrinks removable) where
  refl s := (Removes.refl s).shrinks.mono fun _ _ h => Bool.noConfusion h

instance : IsTrans Store (Shrinks removable) where
  trans _ _ _ := by
    rintro ⟨removed, hremoved, h⟩ ⟨removed', hremoved', h'⟩
    refine ⟨_, fun name doc hdoc => ?_, h.trans h'⟩
    rcases Bool.or_eq_true _ _ |>.mp hdoc with hdoc | hdoc
    · exact hremoved name doc hdoc
    · exact hremoved' name doc hdoc

/-! ## One deletion -/

theorem removes_record (s : Store) (call : Call) :
    Removes (fun _ _ => false) s (s.record call) := ⟨.refl s.catalog, rfl⟩

theorem shrinks_record (s : Store) (call : Call) : Shrinks removable s (s.record call) :=
  (removes_record s call).shrinks.mono fun _ _ h => Bool.noConfusion h

/-- A filter that can not be read is refused before anything is done. -/
theorem runOn_deleteMany_of_fault {e : Error} (session : Option Session)
    (hf : compileFilter filter = .error e) :
    (deleteMany collection filter session).runOn s = (.error e, s) := by
  rw [deleteMany, Action.runOn_bind, Action.runOn_ofExcept, hf]

/-- A deletion that is set to fail is journaled and does no more. -/
theorem runOn_deleteMany_of_fails (session : Option Session)
    (hf : compileFilter filter = .ok f)
    (hfails : s.failingDeletes.contains collection = true) :
    (deleteMany collection filter session).runOn s =
      (.error (.deleteFailed collection),
        s.record (.delete collection filter (s.hasActiveTransaction session))) := by
  simp only [deleteMany, Action.runOn_bind, Action.runOn_ofExcept, hf, Action.runOn_modify,
    Action.runOn_get, record, hfails, if_true, Action.runOn_throw]

/-- Any other deletion removes the documents that match and reports their number. -/
theorem runOn_deleteMany (session : Option Session) (hf : compileFilter filter = .ok f)
    (hfails : s.failingDeletes.contains collection = false) :
    let journaled := s.record (.delete collection filter (s.hasActiveTransaction session))
    (deleteMany collection filter session).runOn s =
      (.ok ⟨(s.catalog.documents collection).countP f.holds, journaled.confirmsDelete collection⟩,
        { journaled with catalog := s.catalog.removeWhere collection f.holds }) := by
  intro journaled
  have hfind : journaled.catalog.find? collection = s.catalog.find? collection := rfl
  have hgate : journaled.failingDeletes.contains collection = false := hfails
  simp only [deleteMany, Action.runOn_bind, Action.runOn_ofExcept, hf, Action.runOn_modify,
    Action.runOn_get]
  rw [show s.record (.delete collection filter (s.hasActiveTransaction session)) = journaled from
    rfl, hgate, hfind]
  unfold Catalog.removeWhere Catalog.documents
  cases s.catalog.find? collection with
  | none => rfl
  | some c =>
    simp only [Bool.false_eq_true, if_false, Action.runOn_bind, Action.runOn_set,
      Action.runOn_pure, Collection.size_sub_size_retain, Bool.not_not]
    rfl

/-- A deletion fails without more than a journal entry, or it removes the documents that its filter
takes. -/
theorem runOn_deleteMany_cases (collection : String) (filter : Document)
    (session : Option Session) (s : Store) :
    (∃ e journal, (deleteMany collection filter session).runOn s =
        (.error e, { s with journal := journal })) ∨
      ∃ r t, (deleteMany collection filter session).runOn s = (.ok r, t) ∧
        Removes (fun name doc => name = collection && takes filter doc) s t := by
  cases hf : compileFilter filter with
  | error e => exact Or.inl ⟨e, s.journal, runOn_deleteMany_of_fault session hf⟩
  | ok f =>
    cases hfails : s.failingDeletes.contains collection with
    | true => exact Or.inl ⟨_, _, runOn_deleteMany_of_fails session hf hfails⟩
    | false =>
      refine Or.inr ⟨_, _, runOn_deleteMany session hf hfails, ?_⟩
      -- the filter takes what its compiled form holds of
      have hremoved := s.catalog.without_removeWhere collection f.holds
      refine Removes.congr ⟨hremoved, rfl⟩ fun name doc _ => ?_
      rw [takes, hf]

theorem removes_of_deleteMany {session : Option Session} {r : DeleteResult}
    (h : (deleteMany collection filter session).runOn s = (.ok r, t)) :
    Removes (fun name doc => name = collection && takes filter doc) s t := by
  rcases runOn_deleteMany_cases collection filter session s with
    ⟨e, journal, hrun⟩ | ⟨r', u, hrun, hremoved⟩
  · rw [hrun] at h
    cases h
  · rw [hrun] at h
    obtain ⟨-, rfl⟩ := Prod.mk.inj h
    exact hremoved

/-- A deletion that succeeds reports how many documents its filter took, and whether it was
confirmed. -/
theorem report_of_deleteMany {session : Option Session} {r : DeleteResult}
    (h : (deleteMany collection filter session).runOn s = (.ok r, t)) :
    let journaled := s.record (.delete collection filter (s.hasActiveTransaction session))
    r = ⟨(s.catalog.documents collection).countP (takes filter),
      journaled.confirmsDelete collection⟩ := by
  cases hf : compileFilter filter with
  | error e =>
    rw [runOn_deleteMany_of_fault session hf] at h
    cases h
  | ok f =>
    have htakes : takes filter = f.holds := by
      funext doc
      rw [takes, hf]
    cases hfails : s.failingDeletes.contains collection with
    | true =>
      rw [runOn_deleteMany_of_fails session hf hfails] at h
      cases h
    | false =>
      rw [runOn_deleteMany session hf hfails] at h
      obtain ⟨hr, -⟩ := Prod.mk.inj h
      rw [htakes]
      exact (Except.ok.inj hr).symm

theorem catalog_of_deleteMany_error {session : Option Session} {e : Error}
    (h : (deleteMany collection filter session).runOn s = (.error e, t)) :
    t.catalog = s.catalog := by
  rcases runOn_deleteMany_cases collection filter session s with
    ⟨e', journal, hrun⟩ | ⟨r, u, hrun, -⟩
  · rw [hrun] at h
    obtain ⟨-, rfl⟩ := Prod.mk.inj h
    rfl
  · rw [hrun] at h
    cases h

theorem exists_runOn_deleteMany {test : Document → Bool} (s : Store) (collection : String)
    (session : Option Session) (hf : Means filter test) (hfails : collection ∉ s.failingDeletes) :
    ∃ r t, (deleteMany collection filter session).runOn s = (.ok r, t) := by
  obtain ⟨f, hf, -⟩ := hf
  have hgate : s.failingDeletes.contains collection = false := by simpa using hfails
  exact ⟨_, _, runOn_deleteMany session hf hgate⟩

/-- Whether it succeeds or fails, a deletion removes at most the documents that its filter
takes. -/
theorem keeps_shrinks_deleteMany (session : Option Session)
    (hremovable : ∀ doc, takes filter doc = true → removable collection doc = true) :
    (deleteMany collection filter session).Keeps (Shrinks removable) := by
  intro s
  rcases runOn_deleteMany_cases collection filter session s with
    ⟨e, journal, hrun⟩ | ⟨r, t, hrun, hremoved⟩
  · have hnothing : Removes (fun _ _ => false) s { s with journal := journal } :=
      ⟨.refl s.catalog, rfl⟩
    rw [hrun]
    exact hnothing.shrinks.mono fun _ _ h => Bool.noConfusion h
  · rw [hrun]
    refine hremoved.shrinks.mono fun name doc h => ?_
    simp only [Bool.and_eq_true, decide_eq_true_eq] at h
    obtain ⟨rfl, hdoc⟩ := h
    exact hremovable doc hdoc

end DocMapper.Store
