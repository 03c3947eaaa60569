import DocMapper.Proofs.Store.Histories

set_option autoImplicit false

/-!
# What holds of every catalog of a store

A session keeps the catalog from which its transaction started, and an abort brings it back. So a
property of the catalog of a store holds in the long run only if it holds of these as well
(`Store.Everywhere`). A change that leaves the sessions alone has to keep it for the catalog
(`Everywhere.of_sessions_eq`), and one that only removes documents is one of these
(`Everywhere.of_shrinks`); creating a session and starting, committing and aborting a
transaction keep it in any case, by the calls of a store (`Everywhere.session`, `Everywhere.action`)
and by those of a context (`Everywhere.transaction`, `Everywhere.commit`, `Everywhere.abort`).
-/

namespace DocMapper.Store

/-- A store of which a property holds for the catalog and for each one that an abort would bring
back. -/
structure Everywhere (P : Catalog → Prop) (s : Store) : Prop where
  catalog : P s.catalog
  snapshots : ∀ state ∈ s.sessions, ∀ c, state.snapshot = some c → P c

namespace Everywhere

variable {P : Catalog → Prop} {s t : Store} {c : Context} {result : Except Error Unit}

theorem empty (h : P .empty) (supply : IdSupply) : (Store.empty supply).Everywhere P where
  catalog := h
  snapshots _ hstate := absurd hstate List.not_mem_nil

theorem of_sessions_eq (hs : s.Everywhere P) (hsessions : t.sessions = s.sessions)
    (hcatalog : P t.catalog) : t.Everywhere P where
  catalog := hcatalog
  snapshots := by
    rw [hsessions]
    exact hs.snapshots

theorem of_shrinks {removable : String → Document → Bool} (hs : s.Everywhere P)
    (h : Shrinks removable s t)
    (hleft : ∀ removed, s.catalog.Without removed t.catalog → P t.catalog) : t.Everywhere P := by
  obtain ⟨removed, -, hremoved⟩ := h
  exact hs.of_sessions_eq hremoved.sessions_eq (hleft removed hremoved.catalog)

/-- A session may take on a state whose catalog has the property. -/
theorem setSession (hs : s.Everywhere P) (handle : Session) {state : SessionState}
    (hstate : ∀ c, state.snapshot = some c → P c) :
    (s.setSession handle state).Everywhere P where
  catalog := hs.catalog
  snapshots := by
    intro other hother
    rcases List.mem_or_eq_of_mem_set hother with hold | rfl
    · exact hs.snapshots other hold
    · exact hstate

/-- What a session keeps has the property. -/
theorem snapshot (hs : s.Everywhere P) (handle : Session) {c : Catalog}
    (hc : (s.session handle).snapshot = some c) : P c := by
  unfold Store.session at hc
  cases hstate : s.sessions[handle.index]? with
  | none =>
    rw [hstate] at hc
    cases hc
  | some state =>
    rw [hstate] at hc
    exact hs.snapshots state (List.mem_of_getElem? hstate) c hc

/-- There may be one session more if its catalog has the property. -/
theorem addSession (hs : s.Everywhere P) {state : SessionState}
    (hstate : ∀ c, state.snapshot = some c → P c) :
    ({ s with sessions := s.sessions ++ [state] } : Store).Everywhere P where
  catalog := hs.catalog
  snapshots := by
    intro other hother
    rcases List.mem_append.1 hother with hold | hnew
    · exact hs.snapshots other hold
    · obtain rfl := List.mem_singleton.1 hnew
      exact hstate

/-- A new session keeps no catalog. -/
theorem session (hs : s.Everywhere P) {result : Except Error Session}
    (h : startSession.runOn s = (result, t)) : t.Everywhere P := by
  rw [runOn_startSession] at h
  obtain ⟨-, rfl⟩ := Prod.mk.inj h
  apply hs.addSession
  intro c hc
  cases hc

/-- Setting the flag of a session leaves what it keeps. -/
theorem setInTransaction (hs : s.Everywhere P) {handle : Session} {value : Bool}
    {result : Except Error Bool} (h : (setInTransaction handle value).runOn s = (result, t)) :
    t.Everywhere P := by
  have hrun : (Store.setInTransaction handle value).runOn s =
      (.ok (s.session handle).inTransaction,
        s.setSession handle { s.session handle with inTransaction := value }) := rfl
  rw [hrun] at h
  obtain ⟨-, rfl⟩ := Prod.mk.inj h
  apply hs.setSession
  intro c hc
  exact hs.snapshot handle hc

/-- A call on a session keeps the property: a start keeps the catalog, and an abort brings back one
that was kept. -/
theorem action (hs : s.Everywhere P) {call : TransactionCall} {handle : Session}
    (h : (call.action handle).runOn s = (result, t)) : t.Everywhere P := by
  cases result with
  | error e =>
    rw [eq_of_runOn_action_eq_error h]
    exact hs
  | ok _ =>
    rw [eq_of_runOn_action_eq_ok h]
    constructor
    · dsimp only
      split
      · -- the catalog of an abort is the one that was kept, or the store has none for the session
        cases hsnapshot : (s.session handle).snapshot with
        | none => exact hs.catalog
        | some c => exact hs.snapshot handle hsnapshot
      · exact hs.catalog
    · refine (hs.setSession handle ?_).snapshots
      intro c hc
      split at hc
      · obtain rfl := Option.some.inj hc
        exact hs.catalog
      · cases hc

/-- The session of a transaction that a context starts keeps the catalog of this moment. -/
theorem transaction (hs : s.Everywhere P) {result : Except Error Context}
    (h : c.transaction.runOn s = (result, t)) : t.Everywhere P := by
  rw [Context.runOn_transaction] at h
  split at h
  · obtain ⟨-, rfl⟩ := Prod.mk.inj h
    exact hs
  · obtain ⟨-, rfl⟩ := Prod.mk.inj h
    apply hs.addSession
    intro d hd
    obtain rfl := Option.some.inj hd
    exact hs.catalog

/-- A commit of a context is one on its session. -/
theorem commit (hs : s.Everywhere P) (h : c.commit.runOn s = (result, t)) : t.Everywhere P := by
  unfold Context.commit at h
  cases hsession : c.session with
  | none =>
    rw [hsession] at h
    obtain ⟨-, rfl⟩ := Prod.mk.inj h
    exact hs
  | some handle =>
    rw [hsession] at h
    have hcall : (TransactionCall.commit.action handle).runOn s = (result, t) := h
    exact hs.action hcall

/-- An abort of a context is one on its session. -/
theorem abort (hs : s.Everywhere P) (h : c.abort.runOn s = (result, t)) : t.Everywhere P := by
  unfold Context.abort at h
  cases hsession : c.session with
  | none =>
    rw [hsession] at h
    obtain ⟨-, rfl⟩ := Prod.mk.inj h
    exact hs
  | some handle =>
    rw [hsession] at h
    have hcall : (TransactionCall.abort.action handle).runOn s = (result, t) := h
    exact hs.action hcall

end Everywhere

end DocMapper.Store
