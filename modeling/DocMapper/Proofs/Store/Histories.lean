import DocMapper.Context.Basic
import DocMapper.Proofs.Store.Runs
import DocMapper.Proofs.Store.Steps
import DocMapper.Proofs.Value.Keys

set_option autoImplicit false

/-!
# Histories of a store

A `StoreRun` is any number of steps of a store and of calls on its sessions, in any order, from a
store without collections. It is tagged with the calls on sessions that succeeded, the latest first,
each with the catalog of its moment.

The history determines the state of every session (`StoreRun.session_eq`): it is in a transaction
exactly if its latest call was a start, and then it keeps the catalog of that moment. So an abort
that succeeds brings back the catalog of the matching start, whatever was done in between
(`StoreRun.transactions`).

Each document of every catalog, also of those that sessions keep, is stored under the key of its
identifier (`StoreRun.keyed`).
-/

namespace DocMapper

open Store

/-! ## The outcome of each call

Starting, committing and aborting ask only for the flag of their session; a call that is refused
changes nothing. The operations of a context are these on the session that the context has. -/

namespace Store

/-- Starting a transaction keeps the catalog, unless one is under way. -/
theorem runOn_startTransaction (handle : Session) (s : Store) :
    (startTransaction handle).runOn s =
      if (s.session handle).inTransaction then (.error .transactionAlreadyStarted, s)
      else (.ok (), s.setSession handle { inTransaction := true, snapshot := some s.catalog }) := by
  rw [startTransaction, Action.runOn_bind, Action.runOn_get]
  dsimp only
  split <;> rfl

/-- Committing forgets what the session kept, if a transaction is under way. -/
theorem runOn_commitTransaction (handle : Session) (s : Store) :
    (commitTransaction handle).runOn s =
      if (s.session handle).inTransaction then (.ok (), s.setSession handle {})
      else (.error .noTransactionStarted, s) := by
  rw [commitTransaction, Action.runOn_bind, Action.runOn_get]
  dsimp only
  cases (s.session handle).inTransaction <;> rfl

/-- Aborting brings back what the session kept, if a transaction is under way. -/
theorem runOn_abortTransaction (handle : Session) (s : Store) :
    (abortTransaction handle).runOn s =
      if (s.session handle).inTransaction then
        (.ok (), { s.setSession handle {} with
          catalog := (s.session handle).snapshot.getD s.catalog })
      else (.error .noTransactionStarted, s) := by
  rw [abortTransaction, Action.runOn_bind, Action.runOn_get]
  dsimp only
  cases (s.session handle).inTransaction <;> rfl

theorem runOn_startSession (s : Store) :
    startSession.runOn s =
      (.ok ⟨s.sessions.length⟩, { s with sessions := s.sessions ++ [{}] }) := rfl

end Store

namespace Context

/-- A transaction of a context is started on a new session, unless one is under way. -/
theorem runOn_transaction (c : Context) (s : Store) :
    c.transaction.runOn s =
      if s.hasActiveTransaction c.session then (.error .transactionAlreadyStarted, s)
      else (.ok { c with session := some ⟨s.sessions.length⟩ },
        { s with sessions :=
            s.sessions ++ [{ inTransaction := true, snapshot := some s.catalog }] }) := by
  rw [transaction, Action.runOn_bind, Action.runOn_get]
  dsimp only
  cases s.hasActiveTransaction c.session with
  | true => rfl
  | false =>
    have hnew :
        Store.session { s with sessions := s.sessions ++ [{}] } ⟨s.sessions.length⟩ = {} := by
      simp [Store.session]
    have hstart := runOn_startTransaction ⟨s.sessions.length⟩
      { s with sessions := s.sessions ++ [{}] }
    rw [hnew] at hstart
    refine (Action.runOn_bind_of_ok (runOn_startSession s)).trans ?_
    refine (Action.runOn_bind_of_ok hstart).trans ?_
    simp [setSession]

end Context

/-! ## Calls on sessions -/

/-- A call on a session. -/
inductive TransactionCall where
  | start
  | commit
  | abort
deriving DecidableEq

/-- What a call does. -/
def TransactionCall.action (handle : Session) : TransactionCall → Action Unit
  | start => startTransaction handle
  | commit => commitTransaction handle
  | abort => abortTransaction handle

/-- A call on a session that succeeded, and the catalog at that moment. -/
structure TransactionEvent where
  call : TransactionCall
  handle : Session
  catalog : Catalog

/-- The catalog from which the transaction of a session started, if after some events, the latest
first, it is in one. -/
def startedFrom? (handle : Session) : List TransactionEvent → Option Catalog
  | [] => none
  | event :: earlier =>
      if event.handle = handle then
        if event.call = .start then some event.catalog else none
      else startedFrom? handle earlier

/-- The matching start is the latest event of the session. -/
theorem startedFrom?_eq_some_iff {handle : Session} {events : List TransactionEvent}
    {catalog : Catalog} :
    startedFrom? handle events = some catalog ↔
      ∃ later earlier, events = later ++ ⟨.start, handle, catalog⟩ :: earlier ∧
        ∀ event ∈ later, event.handle ≠ handle := by
  induction events with
  | nil => simp [startedFrom?]
  | cons event rest ih =>
    rw [startedFrom?]
    split
    · rename_i hhandle
      constructor
      · intro h
        split at h
        · rename_i hcall
          obtain rfl := Option.some.inj h
          refine ⟨[], rest, ?_, fun _ h => absurd h List.not_mem_nil⟩
          rw [List.nil_append, ← hhandle, ← hcall]
        · cases h
      · rintro ⟨later, earlier, hevents, hlater⟩
        -- no event of the session is later, so the first one is the start
        cases later with
        | nil =>
          obtain ⟨rfl, -⟩ := List.cons.inj hevents
          rfl
        | cons first later =>
          obtain ⟨rfl, -⟩ := List.cons.inj hevents
          exact absurd hhandle (hlater _ List.mem_cons_self)
    · rename_i hhandle
      rw [ih]
      constructor
      · rintro ⟨later, earlier, rfl, hlater⟩
        refine ⟨event :: later, earlier, rfl, fun other hother => ?_⟩
        rcases List.mem_cons.1 hother with rfl | hother
        · exact hhandle
        · exact hlater other hother
      · rintro ⟨later, earlier, hevents, hlater⟩
        cases later with
        | nil =>
          obtain ⟨rfl, -⟩ := List.cons.inj hevents
          exact absurd rfl hhandle
        | cons first later =>
          obtain ⟨rfl, rfl⟩ := List.cons.inj hevents
          exact ⟨later, earlier, rfl, fun other hother =>
            hlater other (List.mem_cons_of_mem _ hother)⟩

theorem mem_of_startedFrom? {handle : Session} {events : List TransactionEvent} {catalog : Catalog}
    (h : startedFrom? handle events = some catalog) : ⟨.start, handle, catalog⟩ ∈ events := by
  obtain ⟨later, earlier, rfl, -⟩ := startedFrom?_eq_some_iff.1 h
  exact List.mem_append_right _ List.mem_cons_self

/-! ## Runs -/

/-- The stores that steps and calls on sessions lead to, with the calls on sessions that succeeded,
the latest first. -/
inductive StoreRun : List TransactionEvent → Store → Prop
  | new (supply : IdSupply) : StoreRun [] (Store.empty supply)
  /-- Documents are inserted, replaced, deleted or read, or that fails. -/
  | step {events : List TransactionEvent} {s t : Store} (hrun : StoreRun events s)
      (hstep : Step s t) : StoreRun events t
  /-- A session is created. -/
  | session {events : List TransactionEvent} {s t : Store} {result : Except Error Session}
      (hrun : StoreRun events s) (hcall : startSession.runOn s = (result, t)) : StoreRun events t
  /-- A transaction of a session that was created is started, committed or aborted. -/
  | done {events : List TransactionEvent} {s t : Store} (hrun : StoreRun events s)
      (call : TransactionCall) (handle : Session) (hknown : handle.index < s.sessions.length)
      (hcall : (call.action handle).runOn s = (.ok (), t)) :
      StoreRun (⟨call, handle, s.catalog⟩ :: events) t
  /-- A start, a commit or an abort is refused. -/
  | refused {events : List TransactionEvent} {s t : Store} {call : TransactionCall}
      {handle : Session} {e : Error} (hrun : StoreRun events s)
      (hcall : (call.action handle).runOn s = (.error e, t)) : StoreRun events t

namespace Store

variable {s t : Store} {handle other : Session} {call : TransactionCall}

/-- A session that was not created is in no transaction. -/
theorem session_eq_of_le (h : s.sessions.length ≤ handle.index) : s.session handle = {} := by
  rw [session, List.getElem?_eq_none h]
  rfl

/-- A session that is replaced has its new state, and the others are as they were. -/
theorem session_setSession (s : Store) (state : SessionState)
    (hknown : handle.index < s.sessions.length) (other : Session) :
    (s.setSession handle state).session other =
      if handle = other then state else s.session other := by
  obtain ⟨i⟩ := handle
  obtain ⟨j⟩ := other
  simp only [session, setSession, Session.mk.injEq]
  by_cases hij : i = j
  · subst hij
    rw [if_pos rfl, List.getElem?_set_self hknown]
    rfl
  · rw [if_neg hij, List.getElem?_set_ne hij]

/-- A new session is in the state in which one was that is not known. -/
theorem session_startSession {result : Except Error Session}
    (h : startSession.runOn s = (result, t)) (other : Session) :
    t.session other = s.session other := by
  rw [runOn_startSession] at h
  obtain ⟨-, rfl⟩ := Prod.mk.inj h
  simp only [session]
  by_cases hlt : other.index < s.sessions.length
  · rw [List.getElem?_append_left hlt]
  · have hnone : s.sessions[other.index]? = none := List.getElem?_eq_none (by omega)
    rw [List.getElem?_append_right (by omega), hnone]
    cases other.index - s.sessions.length <;> rfl

theorem runOn_action_eq_ok_iff (call : TransactionCall) (handle : Session) (s : Store) :
    (∃ t, (call.action handle).runOn s = (.ok (), t)) ↔
      (s.session handle).inTransaction = decide (call ≠ .start) := by
  cases call <;>
    simp only [TransactionCall.action, runOn_startTransaction, runOn_commitTransaction,
      runOn_abortTransaction] <;>
    cases (s.session handle).inTransaction <;> simp

theorem eq_of_runOn_action_eq_error {e : Error}
    (h : (call.action handle).runOn s = (.error e, t)) : t = s := by
  cases call <;>
    simp only [TransactionCall.action, runOn_startTransaction, runOn_commitTransaction,
      runOn_abortTransaction] at h <;>
    split at h <;> cases h <;> rfl

/-- A call that succeeds sets the state of its session, and the catalog if it is an abort. -/
theorem eq_of_runOn_action_eq_ok (h : (call.action handle).runOn s = (.ok (), t)) :
    t = { s.setSession handle
            (if call = .start then { inTransaction := true, snapshot := some s.catalog }
              else {}) with
          catalog :=
            if call = .abort then (s.session handle).snapshot.getD s.catalog else s.catalog } := by
  cases call <;>
    simp only [TransactionCall.action, runOn_startTransaction, runOn_commitTransaction,
      runOn_abortTransaction] at h <;>
    split at h <;> cases h <;> rfl

/-- After a call that succeeds the session keeps the catalog if it was a start, and nothing
otherwise; the other sessions are as they were. -/
theorem session_of_runOn_action (hknown : handle.index < s.sessions.length)
    (h : (call.action handle).runOn s = (.ok (), t)) (other : Session) :
    t.session other =
      if handle = other then
        if call = .start then { inTransaction := true, snapshot := some s.catalog } else {}
      else s.session other := by
  rw [eq_of_runOn_action_eq_ok h]
  exact session_setSession s _ hknown other

/-- A call that succeeds leaves the catalog as it is, unless it is an abort and the session keeps
another one. -/
theorem catalog_of_runOn_action (h : (call.action handle).runOn s = (.ok (), t)) :
    t.catalog =
      if call = .abort then (s.session handle).snapshot.getD s.catalog else s.catalog := by
  rw [eq_of_runOn_action_eq_ok h]

end Store

namespace StoreRun

variable {events : List TransactionEvent} {s : Store}

theorem operates {t : Store} (hrun : StoreRun events s) (h : Operates s t) : StoreRun events t := by
  induction h with
  | refl => exact hrun
  | tail _ hstep ih => exact ih.step hstep

/-- A call on a session continues a run, whether it succeeds or is refused. One on a session that
was not created changes nothing. -/
theorem exists_action {t : Store} (hrun : StoreRun events s) (call : TransactionCall)
    (handle : Session) {result : Except Error Unit}
    (h : (call.action handle).runOn s = (result, t)) : ∃ events, StoreRun events t := by
  cases result with
  | error e => exact ⟨events, hrun.refused h⟩
  | ok _ =>
    by_cases hknown : handle.index < s.sessions.length
    · exact ⟨_, hrun.done call handle hknown h⟩
    · -- a session that was not created is in no transaction, so the call is a start, and there is
      -- no state to be set
      have hsession := session_eq_of_le (Nat.not_lt.1 hknown)
      have hflag := (runOn_action_eq_ok_iff call handle s).1 ⟨t, h⟩
      rw [hsession] at hflag
      have hstart : call = .start := by simpa using hflag.symm
      subst hstart
      have hsame :
          s.setSession handle { inTransaction := true, snapshot := some s.catalog } = s := by
        rw [setSession, List.set_eq_of_length_le (by omega)]
      rw [TransactionCall.action, runOn_startTransaction, hsession, if_neg (by decide), hsame] at h
      obtain ⟨-, rfl⟩ := Prod.mk.inj h
      exact ⟨events, hrun⟩

/-- The history determines the state of every session. -/
theorem session_eq (hrun : StoreRun events s) (handle : Session) :
    s.session handle =
      { inTransaction := (startedFrom? handle events).isSome
        snapshot := startedFrom? handle events } := by
  -- by induction on the run: only a call on the session itself changes its state
  induction hrun with
  | new supply => rfl
  | step _ hstep ih =>
    obtain ⟨_, hevolves⟩ := hstep.exists_evolves
    rw [Store.session, hevolves.sessions]
    exact ih
  | session _ hcall ih => rw [session_startSession hcall, ih]
  | done _ call handle hknown hcall ih =>
    rw [session_of_runOn_action hknown hcall, startedFrom?]
    split
    · split <;> rfl
    · exact ih
  | refused _ hcall ih => rw [eq_of_runOn_action_eq_error hcall, ih]

/-- An abort that succeeds brings back the catalog from which the transaction started. -/
theorem startedFrom?_of_abort {t : Store} (hrun : StoreRun events s) {handle : Session}
    (h : (TransactionCall.abort.action handle).runOn s = (.ok (), t)) :
    startedFrom? handle events = some t.catalog := by
  have hsession := hrun.session_eq handle
  have hflag := (runOn_action_eq_ok_iff .abort handle s).1 ⟨t, h⟩
  rw [hsession] at hflag
  obtain ⟨catalog, hstarted⟩ := Option.isSome_iff_exists.1 hflag
  rw [catalog_of_runOn_action h, if_pos rfl, hsession, hstarted]
  rfl

theorem exists_insertOne (hrun : StoreRun events s) (name : String) (doc : Document) {id : Value}
    {key : Key} (hid : doc.get? "_id" = some id) (hkey : id.key? = some key)
    (hfresh : key ∉ (s.catalog.get name).toList.map Prod.fst) :
    ∃ t, StoreRun events t ∧ (insertOne name doc).runOn s = (.ok ⟨id⟩, t) ∧
      t.catalog.documents name = s.catalog.documents name ++ [doc] := by
  obtain ⟨t, hinsert, hdocuments⟩ := exists_runOn_insertOne_of_fresh hid hkey hfresh
  have hstep := hrun.step (Step.insertOne name doc s)
  rw [hinsert] at hstep
  exact ⟨t, hstep, hinsert, hdocuments⟩

/-- The transactions of a store. In every store that a run leads to, a session is in a transaction
exactly if the store keeps a catalog for it; a start succeeds exactly if it is in none, and a commit
and an abort exactly if it is in one; a call that is refused changes nothing, and a commit leaves
the catalog as it is. An abort that succeeds brings back the catalog of the latest event of the
session, which is its start. -/
theorem transactions (hrun : StoreRun events s) (handle : Session) :
    ((s.session handle).inTransaction = true ↔ (s.session handle).snapshot.isSome = true) ∧
      ((∃ t, (startTransaction handle).runOn s = (.ok (), t)) ↔
        (s.session handle).inTransaction = false) ∧
      ((∃ t, (commitTransaction handle).runOn s = (.ok (), t)) ↔
        (s.session handle).inTransaction = true) ∧
      ((∃ t, (abortTransaction handle).runOn s = (.ok (), t)) ↔
        (s.session handle).inTransaction = true) ∧
      (∀ (call : TransactionCall) e t, (call.action handle).runOn s = (.error e, t) → t = s) ∧
      (∀ t, (commitTransaction handle).runOn s = (.ok (), t) → t.catalog = s.catalog) ∧
      ∀ t, (abortTransaction handle).runOn s = (.ok (), t) →
        ∃ later earlier, events = later ++ ⟨.start, handle, t.catalog⟩ :: earlier ∧
          ∀ event ∈ later, event.handle ≠ handle := by
  refine ⟨?flag, runOn_action_eq_ok_iff .start handle s, runOn_action_eq_ok_iff .commit handle s,
    runOn_action_eq_ok_iff .abort handle s, fun _ _ _ h => eq_of_runOn_action_eq_error h, ?commit,
    ?abort⟩
  case flag => rw [hrun.session_eq handle]
  case commit =>
    intro t h
    have hcommit : (TransactionCall.commit.action handle).runOn s = (.ok (), t) := h
    rw [catalog_of_runOn_action hcommit, if_neg (by decide)]
  case abort =>
    intro t h
    exact startedFrom?_eq_some_iff.1 (hrun.startedFrom?_of_abort h)

/-- A document that is inserted in a transaction is gone after its abort. -/
theorem transactions_aborted :
    ∃ events s t, StoreRun events s ∧ s.catalog.documents "c" = [[("_id", .int64 1)]] ∧
      (abortTransaction ⟨0⟩).runOn s = (.ok (), t) ∧ t.catalog.documents "c" = [] := by
  let created : Store := { Store.empty ⟨0⟩ with sessions := [{}] }
  have hcreated : StoreRun [] created := (StoreRun.new ⟨0⟩).session rfl
  have hstarted : StoreRun [⟨.start, ⟨0⟩, created.catalog⟩] _ :=
    hcreated.done .start ⟨0⟩ (by decide) rfl
  obtain ⟨s, hrun, -, hdocuments⟩ :=
    hstarted.exists_insertOne "c" [("_id", .int64 1)] rfl rfl List.not_mem_nil
  obtain ⟨-, -, -, habort, -, -, hrestored⟩ := hrun.transactions ⟨0⟩
  have hflag : (s.session ⟨0⟩).inTransaction = true := by rw [hrun.session_eq]; rfl
  obtain ⟨t, ht⟩ := habort.2 hflag
  obtain ⟨later, earlier, hevents, hlater⟩ := hrestored t ht
  refine ⟨_, s, t, hrun, hdocuments, ht, ?_⟩
  -- the start is the only event
  cases later with
  | nil =>
    have hcatalog : created.catalog = t.catalog :=
      congrArg TransactionEvent.catalog (List.cons.inj hevents).1
    rw [← hcatalog]
    rfl
  | cons event later =>
    obtain ⟨-, hrest⟩ := List.cons.inj hevents
    cases later <;> cases hrest

/-! ## Documents under the keys of their identifiers -/

/-- The catalog of the store and all those of the history have their documents under the keys of
their identifiers. -/
theorem isKeyed (hrun : StoreRun events s) :
    s.catalog.IsKeyed ∧ ∀ event ∈ events, event.catalog.IsKeyed := by
  -- by induction on the run: an abort brings back a catalog of the history
  induction hrun with
  | new supply => exact ⟨Catalog.isKeyed_empty, fun _ h => absurd h List.not_mem_nil⟩
  | step _ hstep ih =>
    obtain ⟨_, hevolves⟩ := hstep.exists_evolves
    exact ⟨hevolves.catalog.wellKeyed_all ih.1, ih.2⟩
  | session _ hcall ih =>
    rw [runOn_startSession] at hcall
    obtain ⟨-, rfl⟩ := Prod.mk.inj hcall
    exact ih
  | done hrun call handle _ hcall ih =>
    refine ⟨?_, fun event hevent => ?_⟩
    · cases call with
      | abort =>
        exact ih.2 _ (mem_of_startedFrom? (hrun.startedFrom?_of_abort hcall))
      | _ =>
        rw [catalog_of_runOn_action hcall, if_neg (by decide)]
        exact ih.1
    · rcases List.mem_cons.1 hevent with rfl | hevent
      · exact ih.1
      · exact ih.2 event hevent
  | refused _ hcall ih =>
    rw [eq_of_runOn_action_eq_error hcall]
    exact ih

theorem exists_of_mem_keys (hrun : StoreRun events s) {name : String} {key : Key}
    (h : key ∈ (s.catalog.get name).toList.map Prod.fst) :
    ∃ doc ∈ s.catalog.documents name, ∃ id, doc.get? "_id" = some id ∧ id.key? = some key := by
  obtain ⟨entry, hentry, rfl⟩ := List.mem_map.1 h
  rw [← Catalog.documents_get]
  exact ⟨entry.2, List.mem_map_of_mem hentry, (hrun.isKeyed.1 name).exists_id entry hentry⟩

theorem exists_single (name : String) (doc : Document) {id : Value} {key : Key}
    (hid : doc.get? "_id" = some id) (hkey : id.key? = some key) :
    ∃ s, StoreRun [] s ∧ s.catalog.documents name = [doc] := by
  obtain ⟨s, hrun, -, hdocuments⟩ :=
    (StoreRun.new ⟨0⟩).exists_insertOne name doc hid hkey List.not_mem_nil
  exact ⟨s, hrun, hdocuments⟩

/-- Two documents under identifiers with different keys are inserted into a new store. -/
theorem exists_pair (name : String) (first second : Document) {id id' : Value} {key key' : Key}
    (hid : first.get? "_id" = some id) (hkey : id.key? = some key)
    (hid' : second.get? "_id" = some id') (hkey' : id'.key? = some key') (hne : key ≠ key') :
    ∃ s, StoreRun [] s ∧ s.failingDeletes = [] ∧ s.catalog.documents name = [first, second] := by
  obtain ⟨s, hrun, hfirst, hdocuments⟩ :=
    (StoreRun.new ⟨0⟩).exists_insertOne name first hid hkey List.not_mem_nil
  have hfresh : key' ∉ (s.catalog.get name).toList.map Prod.fst := by
    intro hmem
    obtain ⟨stored, hstored, x, hx, hxkey⟩ := hrun.exists_of_mem_keys hmem
    rw [hdocuments] at hstored
    obtain rfl := List.mem_singleton.1 hstored
    obtain rfl := Option.some.inj (hid.symm.trans hx)
    exact hne (Option.some.inj (hkey.symm.trans hxkey))
  obtain ⟨t, hrun', hsecond, hdocuments'⟩ := hrun.exists_insertOne name second hid' hkey' hfresh
  refine ⟨t, hrun', ?_, by rw [hdocuments', hdocuments]; rfl⟩
  rw [(keeps_failsAlike_insertOne _ _).of_runOn hsecond,
    (keeps_failsAlike_insertOne _ _).of_runOn hfirst]
  rfl

/-- In every store that a run leads to, in each collection of its catalog and of the catalogs that
sessions keep, each document has an `_id`, is stored under its key, and no two documents are stored
under the same bytes. -/
theorem keyed (hrun : StoreRun events s) {catalog : Catalog}
    (hcatalog : catalog = s.catalog ∨ ∃ handle, (s.session handle).snapshot = some catalog)
    {name : String} {c : Collection} (hc : catalog.find? name = some c) :
    (∀ entry ∈ c.toList, ∃ id, entry.2.get? "_id" = some id ∧ id.key? = some entry.1) ∧
      (c.toList.map fun entry => entry.1.bytes).Nodup := by
  have hkeyed : catalog.IsKeyed := by
    rcases hcatalog with rfl | ⟨handle, hsnapshot⟩
    · exact hrun.isKeyed.1
    · rw [hrun.session_eq handle] at hsnapshot
      exact hrun.isKeyed.2 _ (mem_of_startedFrom? hsnapshot)
  have hwell : c.WellKeyed := by
    have := hkeyed name
    rwa [Catalog.get, hc] at this
  refine ⟨hwell.exists_id, ?_⟩
  -- the keys are those of identifiers, which are determined by their bytes
  have hinj : ∀ key ∈ c.toList.map Prod.fst, ∀ other ∈ c.toList.map Prod.fst,
      key.bytes = other.bytes → key = other := by
    intro key hkey other hother
    obtain ⟨entry, hentry, rfl⟩ := List.mem_map.1 hkey
    obtain ⟨entry', hentry', rfl⟩ := List.mem_map.1 hother
    obtain ⟨id, -, hid⟩ := hwell.exists_id entry hentry
    obtain ⟨id', -, hid'⟩ := hwell.exists_id entry' hentry'
    exact Key.bytes_inj (Key.fits_of_key? hid) (Key.fits_of_key? hid')
  have hnodup := List.Nodup.map_on hinj hwell.nodup
  rwa [List.map_map] at hnodup

/-- A transaction is started after the first of two documents was inserted. The first one is then
stored under its key also in the catalog that the session keeps, and both are in the present one,
under different keys. -/
theorem keyed_inserted :
    let first : Document := [("_id", .int64 1)]
    let second : Document := [("_id", .string "1")]
    ∃ events s kept old new, StoreRun events s ∧ (s.session ⟨0⟩).snapshot = some kept ∧
      kept.find? "c" = some old ∧ old.documents = [first] ∧
      s.catalog.find? "c" = some new ∧ new.documents = [first, second] ∧
      ((∀ entry ∈ old.toList, ∃ id, entry.2.get? "_id" = some id ∧ id.key? = some entry.1) ∧
        (old.toList.map fun entry => entry.1.bytes).Nodup) ∧
      (∀ entry ∈ new.toList, ∃ id, entry.2.get? "_id" = some id ∧ id.key? = some entry.1) ∧
        (new.toList.map fun entry => entry.1.bytes).Nodup := by
  intro first second
  -- a document is inserted in a store with one session
  have hcreated : StoreRun [] { Store.empty ⟨0⟩ with sessions := [{}] } :=
    (StoreRun.new ⟨0⟩).session rfl
  obtain ⟨s₁, hrun₁, hfirst, hdocuments₁⟩ :=
    hcreated.exists_insertOne "c" first rfl rfl List.not_mem_nil
  have hknown : (⟨0⟩ : Session).index < s₁.sessions.length := by
    rw [((keeps_writes_insertOne _ _).of_runOn hfirst).sessions_eq]
    decide
  -- then a transaction is started, and the second document has a key that is free
  obtain ⟨s₂, hstart⟩ := (runOn_action_eq_ok_iff .start ⟨0⟩ s₁).2 (by rw [hrun₁.session_eq]; rfl)
  have hrun₂ := hrun₁.done .start ⟨0⟩ hknown hstart
  have hsame := catalog_of_runOn_action hstart
  rw [if_neg (by decide)] at hsame
  have hfresh : Key.string "1" ∉ (s₂.catalog.get "c").toList.map Prod.fst := by
    intro hmem
    obtain ⟨stored, hstored, id, hid, hkey⟩ := hrun₂.exists_of_mem_keys hmem
    rw [hsame, hdocuments₁] at hstored
    obtain rfl := List.mem_singleton.1 hstored
    obtain rfl := Option.some.inj hid
    cases hkey
  obtain ⟨s, hrun, -, hdocuments⟩ := hrun₂.exists_insertOne "c" second rfl rfl hfresh
  rw [hsame, hdocuments₁] at hdocuments
  -- the session keeps the catalog of the start
  have hsnapshot : (s.session ⟨0⟩).snapshot = some s₁.catalog := by
    rw [hrun.session_eq]
    rfl
  obtain ⟨old, hold, holdDocuments⟩ := Catalog.exists_find?_of_documents hdocuments₁
  obtain ⟨new, hnew, hnewDocuments⟩ := Catalog.exists_find?_of_documents hdocuments
  exact ⟨_, s, _, old, new, hrun, hsnapshot, hold, holdDocuments, hnew, hnewDocuments,
    hrun.keyed (Or.inr ⟨⟨0⟩, hsnapshot⟩) hold, hrun.keyed (Or.inl rfl) hnew⟩

end StoreRun

end DocMapper
