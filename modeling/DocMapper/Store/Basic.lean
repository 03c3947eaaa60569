import DocMapper.Results
import DocMapper.Store.Catalog
import DocMapper.Uuid

set_option autoImplicit false

/-!
# The state of a store

A `Store` is the catalog of its collections together with what its calls leave behind: a journal of
the calls, the sessions with their transactions, and settings that make writes unconfirmed or
deletions fail. An `Action` is a computation on a store; what it did before an error stays done.

Generated identifiers come from an `IdSupply`, a counter that only grows, so they differ from each
other and from everything below its first number.
-/

namespace DocMapper

/-- The source of generated identifiers. -/
structure IdSupply where
  next : Nat
deriving DecidableEq

namespace IdSupply

/-- The next object identifier. -/
def objectId (s : IdSupply) : ObjectId := ⟨BitVec.ofNat 96 s.next⟩

/-- The next random identifier. -/
def uuid (s : IdSupply) : Uuid := Uuid.ofRandom s.next

/-- The supply after one identifier. -/
def advance (s : IdSupply) : IdSupply := ⟨s.next + 1⟩

end IdSupply

/-- A call that a store received. -/
inductive Call where
  | list (pattern : String)
  | find (collection : String) (filter : Document) (batchSize : Nat)
  | insert (collection : String)
  | replace (collection : String)
  | delete (collection : String) (filter : Document) (inTransaction : Bool)

/-- Whether a call deletes from a collection. -/
def Call.deletesFrom (collection : String) : Call → Bool
  | .delete name _ _ => name = collection
  | _ => false

/-- The handle of a session. -/
structure Session where
  index : Nat
deriving DecidableEq

/-- A session: whether it is in a transaction, and the catalog when the transaction started. -/
structure SessionState where
  inTransaction : Bool := false
  snapshot : Option Catalog := none

/-- A store of documents. -/
structure Store where
  catalog : Catalog
  sessions : List SessionState
  journal : Array Call
  acknowledged : Bool
  /-- A collection and the number, from zero, of the deletion on it that is not confirmed. -/
  unacknowledgedDelete : Option (String × Nat)
  failingDeletes : List String
  supply : IdSupply

/-- A computation on a store that may fail; a failure keeps the effects before it. -/
abbrev Action (α : Type) := ExceptT Error (StateM Store) α

namespace Store

/-- A store without collections. -/
def empty (supply : IdSupply) : Store :=
  { catalog := .empty, sessions := [], journal := #[], acknowledged := true
    unacknowledgedDelete := none, failingDeletes := [], supply := supply }

/-- The state of a session; one that the store does not know is in no transaction. -/
def session (s : Store) (handle : Session) : SessionState := s.sessions[handle.index]?.getD {}

/-- The store with another state of a session. -/
def setSession (s : Store) (handle : Session) (state : SessionState) : Store :=
  { s with sessions := s.sessions.set handle.index state }

/-- Whether there is a session and it is in a transaction. -/
def hasActiveTransaction (s : Store) : Option Session → Bool
  | some handle => (s.session handle).inTransaction
  | none => false

/-- The store with a call more in its journal. -/
def record (s : Store) (call : Call) : Store := { s with journal := s.journal.push call }

/-- The store with an empty journal. -/
def clearJournal (s : Store) : Store := { s with journal := #[] }

/-- The store whose writes are confirmed or not. -/
def setAcknowledged (s : Store) (acknowledged : Bool) : Store :=
  { s with acknowledged := acknowledged }

/-- The store that does not confirm one deletion on a collection, counted in the journal. -/
def unacknowledgeDelete (s : Store) (collection : String) (n : Nat) : Store :=
  { s with unacknowledgedDelete := some (collection, n) }

/-- The store where deletions on a collection fail. -/
def failDeletesOn (s : Store) (collection : String) : Store :=
  { s with failingDeletes := collection :: s.failingDeletes }

end Store

namespace Action

/-- The action that fails. -/
def fail {α : Type} (e : Error) : Action α := throw e

/-- A result that does not depend on the store. -/
def ofExcept {α : Type} : Except Error α → Action α
  | .ok a => pure a
  | .error e => throw e

/-- A fresh object identifier. -/
def freshObjectId : Action ObjectId :=
  modifyGet fun s => (s.supply.objectId, { s with supply := s.supply.advance })

/-- A fresh random identifier. -/
def freshUuid : Action Uuid :=
  modifyGet fun s => (s.supply.uuid, { s with supply := s.supply.advance })

/-- The result of an action and the store after it. -/
def runOn {α : Type} (action : Action α) (s : Store) : Except Error α × Store :=
  (ExceptT.run action).run s

end Action

namespace Store

/-! ## Sessions and transactions

Starting a transaction on a session keeps the catalog of that moment; committing forgets it and
aborting puts it back. Sessions are not isolated from each other. -/

/-- A new session outside of any transaction. -/
def startSession : Action Session :=
  modifyGet fun s => (⟨s.sessions.length⟩, { s with sessions := s.sessions ++ [{}] })

/-- Starts a transaction on a session that is in none. -/
def startTransaction (session : Session) : Action Unit := do
  let s ← get
  if (s.session session).inTransaction then throw .transactionAlreadyStarted
  set (s.setSession session { inTransaction := true, snapshot := some s.catalog })

/-- Ends the transaction of a session and keeps its effects. -/
def commitTransaction (session : Session) : Action Unit := do
  let s ← get
  if !(s.session session).inTransaction then throw .noTransactionStarted
  set (s.setSession session {})

/-- Ends the transaction of a session and restores the catalog from its start. -/
def abortTransaction (session : Session) : Action Unit := do
  let s ← get
  let state := s.session session
  if !state.inTransaction then throw .noTransactionStarted
  set { s.setSession session {} with catalog := state.snapshot.getD s.catalog }

/-- Sets only the flag of a session; what it was before. -/
def setInTransaction (session : Session) (value : Bool) : Action Bool := do
  let s ← get
  let state := s.session session
  set (s.setSession session { state with inTransaction := value })
  return state.inTransaction

end Store

end DocMapper
