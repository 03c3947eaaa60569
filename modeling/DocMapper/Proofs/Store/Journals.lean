import DocMapper.Proofs.Filter.Merging
import DocMapper.Proofs.Store.Deletion
import DocMapper.Proofs.Store.Reading

set_option autoImplicit false

/-!
# What the journal is read for

A store reads its journal only to count the deletions on a collection. `Store.Alike` relates stores
that differ in their journals only and count alike, and `Action.Agrees` two actions that give the
same result on stores that are alike and leave stores that are. Finding by filters of the same
meaning agrees (`agrees_find`), although the journals then hold different filters, and so does
whatever follows (`Agrees.bind`).
-/

namespace DocMapper

namespace Store

/-- Stores that differ in their journals only, in which the same deletions are counted. -/
inductive Alike (s : Store) : Store → Prop
  | of_journal (journal : Array Call)
      (hcount : ∀ collection, journal.countP (Call.deletesFrom collection) =
        s.journal.countP (Call.deletesFrom collection)) :
      Alike s { s with journal := journal }

namespace Alike

variable {s t : Store}

theorem refl (s : Store) : Alike s s := .of_journal s.journal fun _ => rfl

theorem catalog_eq (h : Alike s t) : t.catalog = s.catalog := by
  cases h
  rfl

theorem sessions_eq (h : Alike s t) : t.sessions = s.sessions := by
  cases h
  rfl

theorem hasActiveTransaction_eq (h : Alike s t) (session : Option Session) :
    t.hasActiveTransaction session = s.hasActiveTransaction session := by
  cases h
  rfl

theorem record (h : Alike s t) (call call' : Call)
    (hcall : ∀ collection, call'.deletesFrom collection = call.deletesFrom collection) :
    Alike (s.record call) (t.record call') := by
  obtain ⟨journal, hcount⟩ := h
  refine .of_journal (s := s.record call) (journal.push call') fun collection => ?_
  rw [Store.record, Array.countP_push, Array.countP_push, hcount, hcall]

theorem setCatalog (h : Alike s t) (catalog : Catalog) :
    Alike { s with catalog := catalog } { t with catalog := catalog } := by
  obtain ⟨journal, hcount⟩ := h
  exact .of_journal (s := { s with catalog := catalog }) journal hcount

theorem confirmsDelete_eq (h : Alike s t) (collection : String) :
    t.confirmsDelete collection = s.confirmsDelete collection := by
  obtain ⟨journal, hcount⟩ := h
  have heq : Store.deletionCount { s with journal := journal } collection =
      s.deletionCount collection := hcount collection
  rw [confirmsDelete, confirmsDelete, heq]

end Alike

end Store

namespace Action

open Store

variable {α β : Type}

/-- Two actions that give the same result on stores that are alike and leave such stores. -/
def Agrees (a b : Action α) : Prop :=
  ∀ s t, Alike s t → (a.runOn s).1 = (b.runOn t).1 ∧ Alike (a.runOn s).2 (b.runOn t).2

namespace Agrees

theorem pure (x : α) : Agrees (Pure.pure x : Action α) (Pure.pure x) :=
  fun _ _ h => ⟨rfl, h⟩

theorem throw (e : Error) : Agrees (MonadExcept.throw e : Action α) (MonadExcept.throw e) :=
  fun _ _ h => ⟨rfl, h⟩

theorem ofExcept (result : Except Error α) :
    Agrees (Action.ofExcept result) (Action.ofExcept result) := by
  intro s t h
  rw [runOn_ofExcept, runOn_ofExcept]
  exact ⟨rfl, h⟩

/-- Sequences agree if their parts do. -/
theorem bind {a b : Action α} {f g : α → Action β} (h : Agrees a b)
    (hrest : ∀ x, Agrees (f x) (g x)) : Agrees (a >>= f) (b >>= g) := by
  intro s t hst
  obtain ⟨hresult, hstore⟩ := h s t hst
  rw [runOn_bind, runOn_bind]
  cases ha : a.runOn s with
  | mk result s' =>
    cases hb : b.runOn t with
    | mk result' t' =>
      rw [ha, hb] at hresult hstore
      obtain rfl : result = result' := hresult
      cases result with
      | ok x => exact hrest x s' t' hstore
      | error e => exact ⟨rfl, hstore⟩

theorem mapM {f : α → Action β} (h : ∀ x, Agrees (f x) (f x)) (items : List α) :
    Agrees (items.mapM f) (items.mapM f) := by
  induction items with
  | nil => exact .pure []
  | cons x rest ih =>
    rw [List.mapM_cons]
    exact (h x).bind fun _ => ih.bind fun _ => .pure _

end Agrees

end Action

namespace Store

open DocMapper.Action

variable {filter other : Document}

theorem SameMeaning.refl (filter : Document) : SameMeaning filter filter := by
  cases hf : compileFilter filter with
  | error e => exact Or.inl ⟨e, hf, hf⟩
  | ok f => exact Or.inr ⟨f.holds, ⟨f, hf, fun _ => rfl⟩, ⟨f, hf, fun _ => rfl⟩⟩

/-- Finding by filters of the same meaning agrees. -/
theorem agrees_find (name : String) (h : SameMeaning filter other) (options : FindOptions) :
    (find name filter options).Agrees (find name other options) := by
  intro s t hst
  rcases h with ⟨e, hf, hg⟩ | ⟨test, ⟨f, hf, hholds⟩, ⟨g, hg, hholds'⟩⟩
  · rw [runOn_find_of_fault name options s hf, runOn_find_of_fault name options t hg]
    exact ⟨rfl, hst⟩
  · rw [runOn_find name options s hf, runOn_find name options t hg]
    have hsame : selectDocuments g options = selectDocuments f options := by
      have heq : g.holds = f.holds := funext fun doc => (hholds' doc).trans (hholds doc).symm
      funext docs
      rw [selectDocuments, selectDocuments, heq]
    refine ⟨?_, hst.record _ _ fun _ => rfl⟩
    rw [hsame, hst.catalog_eq]

theorem agrees_listCollections (pattern : String) :
    (listCollections pattern).Agrees (listCollections pattern) := by
  intro s t hst
  cases hr : Regex.ofText? pattern with
  | none =>
    rw [runOn_listCollections_of_none hr, runOn_listCollections_of_none hr]
    exact ⟨rfl, hst⟩
  | some regex =>
    rw [runOn_listCollections hr, runOn_listCollections hr, hst.catalog_eq]
    exact ⟨rfl, hst.record _ _ fun _ => rfl⟩

/-- Deleting agrees: the deletions that count are the same. -/
theorem agrees_deleteMany (name : String) (filter : Document) (session : Option Session) :
    (deleteMany name filter session).Agrees (deleteMany name filter session) := by
  intro s t hst
  cases hf : compileFilter filter with
  | error e =>
    rw [runOn_deleteMany_of_fault session hf, runOn_deleteMany_of_fault session hf]
    exact ⟨rfl, hst⟩
  | ok f =>
    have hfails : t.failingDeletes = s.failingDeletes := by
      cases hst
      rfl
    -- the journals count one deletion more on the same collection
    have hrecord := hst.record (.delete name filter (s.hasActiveTransaction session))
      (.delete name filter (t.hasActiveTransaction session)) fun _ => rfl
    cases hgate : s.failingDeletes.contains name with
    | true =>
      rw [runOn_deleteMany_of_fails session hf hgate,
        runOn_deleteMany_of_fails session hf (hfails ▸ hgate)]
      exact ⟨rfl, hrecord⟩
    | false =>
      rw [runOn_deleteMany session hf hgate, runOn_deleteMany session hf (hfails ▸ hgate)]
      dsimp only
      rw [hrecord.confirmsDelete_eq, hst.catalog_eq]
      exact ⟨rfl, hrecord.setCatalog _⟩

end Store

end DocMapper
