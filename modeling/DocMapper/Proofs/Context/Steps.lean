import DocMapper.Proofs.Cascade.Keeping
import DocMapper.Proofs.Integrity.Runs
import DocMapper.Proofs.Store.Histories

set_option autoImplicit false

/-!
# Operations on entities as steps of a store

The operations on entities and on their links are composed of the calls of a store, so each of them
goes by steps, also one that fails in the middle, such as a deletion whose cascade breaks off
(`Store.keptByDeleting_operates`). What holds in every store that a `StoreRun` leads to therefore
holds in every store that operations on entities lead to (`EntityRun.exists_storeRun`).
-/

namespace DocMapper

open Store

/-! ## Operations of a context -/

theorem Store.keptByDeleting_operates : KeptByDeleting Operates where
  listCollections := keeps_operates_listCollections
  find := keeps_operates_find
  deleteMany := keeps_operates_deleteMany

theorem Context.keeps_operates_save {τ ι : Type} [EntityId ι] [Entity τ ι] [LawfulGenerator ι]
    (c : Context) (entity : τ) : (c.save entity).Keeps Operates := by
  refine (Action.Keeps.ofExcept _).bind fun info => ?_
  refine (keeps_operates_of_eq (keeps_evolves_identify entity)).bind fun entity => ?_
  exact (keeps_operates_replaceOne _ _ _ true).bind fun _ => .pure entity

/-! ## Operations on links -/

namespace JoinCollection

theorem keeps_operates_add (j : JoinCollection) (parent child : Value) :
    (j.add parent child).Keeps Operates := by
  unfold add
  cases j.cardinality with
  | oneToMany =>
    refine (keeps_operates_deleteMany _ _ _).bind fun _ => ?_
    refine (keeps_operates_of_eq keeps_evolves_freshObjectId).bind fun id => ?_
    exact (keeps_operates_insertOne _ _).bind fun _ => .pure _
  | manyToMany => exact (keeps_operates_replaceOne _ _ _ true).bind fun _ => .pure _

theorem keeps_operates_removeMany (j : JoinCollection) (parent : Value) (children : List Value) :
    (j.removeMany parent children).Keeps Operates := by
  unfold removeMany
  split
  · exact .pure _
  · exact keeps_operates_deleteMany _ _ _

end JoinCollection

theorem Links.keeps_operates_addMany {γ ι : Type} [EntityId ι] [Entity γ ι] (l : Links γ .owner)
    (children : List ι) : (l.addMany children).Keeps Operates := by
  induction children with
  | nil => exact .pure ()
  | cons child rest ih => exact (l.join.keeps_operates_add _ _).bind fun _ => ih

/-! ## Runs -/

namespace StoreRun

variable {events : List TransactionEvent} {s t : Store}

theorem of_keeps {α : Type} {action : Action α} {result : Except Error α}
    (hrun : StoreRun events s) (h : action.Keeps Operates) (hcall : action.runOn s = (result, t)) :
    StoreRun events t :=
  hrun.operates (h.of_runOn hcall)

/-- Starting a transaction of a context continues a run: a session is created and a transaction of
it started. -/
theorem exists_transaction (hrun : StoreRun events s) {c : Context} {result : Except Error Context}
    (h : c.transaction.runOn s = (result, t)) : ∃ events, StoreRun events t := by
  rw [Context.runOn_transaction] at h
  split at h
  · obtain ⟨-, rfl⟩ := Prod.mk.inj h
    exact ⟨events, hrun⟩
  · obtain ⟨-, rfl⟩ := Prod.mk.inj h
    -- the new session is in no transaction, so the start succeeds
    have hcreated := hrun.session (runOn_startSession s)
    have hnew := (session_startSession (runOn_startSession s) ⟨s.sessions.length⟩).trans
      (session_eq_of_le (Nat.le_refl s.sessions.length))
    refine ⟨_, hcreated.done .start ⟨s.sessions.length⟩ (by simp) ?_⟩
    rw [TransactionCall.action, runOn_startTransaction, hnew, if_neg (by decide)]
    simp [setSession]

/-- Committing continues a run. -/
theorem exists_commit (hrun : StoreRun events s) {c : Context} {result : Except Error Unit}
    (h : c.commit.runOn s = (result, t)) : ∃ events, StoreRun events t := by
  unfold Context.commit at h
  cases hsession : c.session with
  | none =>
    rw [hsession] at h
    obtain ⟨-, rfl⟩ := Prod.mk.inj h
    exact ⟨events, hrun⟩
  | some handle =>
    rw [hsession] at h
    exact hrun.exists_action .commit handle h

/-- Aborting continues a run. -/
theorem exists_abort (hrun : StoreRun events s) {c : Context} {result : Except Error Unit}
    (h : c.abort.runOn s = (result, t)) : ∃ events, StoreRun events t := by
  unfold Context.abort at h
  cases hsession : c.session with
  | none =>
    rw [hsession] at h
    obtain ⟨-, rfl⟩ := Prod.mk.inj h
    exact ⟨events, hrun⟩
  | some handle =>
    rw [hsession] at h
    exact hrun.exists_action .abort handle h

end StoreRun

/-- Every store that operations on entities lead to is one that steps of a store and calls on its
sessions lead to. -/
theorem EntityRun.exists_storeRun {entities : String → Prop} {s : Store}
    (hrun : EntityRun entities s) : ∃ events, StoreRun events s := by
  -- by induction on the run: operations are steps, and transactions add their events
  induction hrun with
  | start supply => exact ⟨[], .new supply⟩
  | save _ hcall ih =>
    obtain ⟨events, hs⟩ := ih
    exact ⟨events, hs.of_keeps (Context.keeps_operates_save _ _) hcall⟩
  | add _ _ _ _ _ _ hcall ih =>
    obtain ⟨events, hs⟩ := ih
    exact ⟨events, hs.of_keeps (JoinCollection.keeps_operates_add _ _ _) hcall⟩
  | addMany _ _ _ _ _ _ hcall ih =>
    obtain ⟨events, hs⟩ := ih
    exact ⟨events, hs.of_keeps (Links.keeps_operates_addMany _ _) hcall⟩
  | remove _ _ hcall ih =>
    obtain ⟨events, hs⟩ := ih
    exact ⟨events, hs.of_keeps (keeps_operates_deleteMany _ _ _) hcall⟩
  | removeMany _ _ hcall ih =>
    obtain ⟨events, hs⟩ := ih
    exact ⟨events, hs.of_keeps (JoinCollection.keeps_operates_removeMany _ _ _) hcall⟩
  | delete _ _ hcall ih =>
    obtain ⟨events, hs⟩ := ih
    exact ⟨events, hs.of_keeps (Context.keeps_delete keptByDeleting_operates _ _ _) hcall⟩
  | deleteOne _ _ hcall ih =>
    obtain ⟨events, hs⟩ := ih
    exact ⟨events, hs.of_keeps (Context.keeps_delete keptByDeleting_operates _ _ _) hcall⟩
  | deleteWhere _ _ hcall ih =>
    obtain ⟨events, hs⟩ := ih
    exact ⟨events, hs.of_keeps (Context.keeps_deleteWhere keptByDeleting_operates _ _ _) hcall⟩
  | transaction _ hcall ih =>
    obtain ⟨events, hs⟩ := ih
    exact hs.exists_transaction hcall
  | commit _ hcall ih =>
    obtain ⟨events, hs⟩ := ih
    exact hs.exists_commit hcall
  | abort _ hcall ih =>
    obtain ⟨events, hs⟩ := ih
    exact hs.exists_abort hcall
  | elsewhere _ hcatalog hsessions ih =>
    obtain ⟨events, hs⟩ := ih
    exact ⟨events, hs.step (.elsewhere ⟨hcatalog.symm, hsessions⟩)⟩

end DocMapper
