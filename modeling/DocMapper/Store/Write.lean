import DocMapper.Store.Basic
import DocMapper.Store.Find

set_option autoImplicit false

/-!
# Writing documents

A document is inserted under the key of its `_id`; one without `_id` gets a fresh object
identifier at its end. An `_id` without a key and an `_id` whose key is taken are refused.
Inserting several documents stops at the first one that is refused and keeps those before it.

`Store.replaceOne` replaces the first document that matches a filter. The document keeps its place,
its key and its `_id`. Where none matches, an upsert inserts the replacement, with the `_id` of the
filter if it has none itself and the filter gives one that has a key.

`Store.deleteMany` removes the documents that match a filter. The call is journaled with whether its
session is in a transaction; then it fails if the collection is set to fail. The journal also counts
the deletions on a collection, which decides whether this one is confirmed.
-/

namespace DocMapper

/-! ## Insertion -/

namespace Collection

/-- A document that a collection can take: its identifier, its key and its fields with the
identifier among them, and the supply after it. -/
structure Prepared where
  id : Value
  key : Key
  doc : Document
  supply : IdSupply

/-- Prepares a document under an `_id` that it has. -/
def prepareWithId (name : String) (c : Collection) (supply : IdSupply) (id : Value)
    (doc : Document) : Except Error Prepared :=
  match id.key? with
  | none => .error (.unsupportedId id.elementType name)
  | some key =>
      if c.contains key then .error (.duplicateId name id) else .ok ⟨id, key, doc, supply⟩

/-- Prepares a document, with a fresh `_id` if it has none. -/
def prepare (name : String) (c : Collection) (supply : IdSupply) (doc : Document) :
    Except Error Prepared :=
  match doc.get? "_id" with
  | some id => c.prepareWithId name supply id doc
  | none =>
      let id := Value.objectId supply.objectId
      c.prepareWithId name supply.advance id (Fields.insert "_id" id doc)

/-- What inserting several documents leaves: the number inserted or the error of the first one that
was refused, the collection and the supply. -/
structure InsertedMany where
  result : Except Error Nat
  collection : Collection
  supply : IdSupply

/-- Inserts documents in order, after `count` that were inserted before. -/
def insertDocuments (name : String) (c : Collection) (supply : IdSupply) (count : Nat) :
    List Document → InsertedMany
  | [] => ⟨.ok count, c, supply⟩
  | doc :: rest =>
      match c.prepare name supply doc with
      | .ok prepared =>
          insertDocuments name (c.push prepared.key prepared.doc) prepared.supply (count + 1) rest
      | .error e => ⟨.error e, c, supply⟩

end Collection

namespace Store

/-- Loads documents into a collection without a journal entry; the number of documents loaded. The
collection exists afterwards even if no document was taken. -/
def insertMany (collection : String) (docs : List Document) : Action Nat := do
  let s ← get
  let done := (s.catalog.get collection).insertDocuments collection s.supply 0 docs
  set { s with catalog := s.catalog.insert collection done.collection, supply := done.supply }
  Action.ofExcept done.result

/-- The part of an insertion after its journal entry. The collection exists afterwards even if the
document was refused. -/
def insertInto (collection : String) (doc : Document) : Action Value := do
  let s ← get
  let before := s.catalog.get collection
  match before.prepare collection s.supply doc with
  | .ok prepared =>
      let after := before.push prepared.key prepared.doc
      set { s with catalog := s.catalog.insert collection after, supply := prepared.supply }
      return prepared.id
  | .error e =>
      set { s with catalog := s.catalog.insert collection before }
      throw e

/-- Inserts one document. -/
def insertOne (collection : String) (doc : Document) : Action InsertResult := do
  modify (·.record (.insert collection))
  let id ← insertInto collection doc
  return ⟨id⟩

/-! ## Replacement -/

/-- The replacement of a stored document, which keeps its `_id`. -/
def withStoredId (stored replacement : Document) : Document :=
  match stored.get? "_id" with
  | some id => Fields.insert "_id" id replacement
  | none => replacement

/-- The document that an upsert inserts. -/
def upsertDocument (filter replacement : Document) : Document :=
  if replacement.contains "_id" then replacement
  else
    match filter.get? "_id" with
    | some id => if id.key?.isSome then Fields.insert "_id" id replacement else replacement
    | none => replacement

/-- Replaces the first document that matches a filter, or inserts one if asked to. The collection
exists afterwards in any case. -/
def replaceOne (collection : String) (filter replacement : Document) (upsert : Bool) :
    Action UpdateResult := do
  let compiled ← Action.ofExcept (compileFilter filter)
  modify (·.record (.replace collection))
  let s ← get
  let c := s.catalog.get collection
  match c.findFirst? compiled.holds with
  | some i =>
      let next := c.replaceAt i (withStoredId c.entries[i].2 replacement)
      set { s with catalog := s.catalog.insert collection next }
      return { matchedCount := 1, modifiedCount := 1, acknowledged := s.acknowledged }
  | none =>
      if upsert then
        let id ← insertInto collection (upsertDocument filter replacement)
        return { upsertedId := some id, acknowledged := s.acknowledged }
      else
        set { s with catalog := s.catalog.insert collection c }
        return { acknowledged := s.acknowledged }

/-! ## Deletion -/

/-- The number of deletions on a collection in the journal. -/
def deletionCount (s : Store) (collection : String) : Nat :=
  s.journal.countP (Call.deletesFrom collection)

/-- Whether the deletion just journaled on a collection is confirmed. -/
def confirmsDelete (s : Store) (collection : String) : Bool :=
  s.acknowledged &&
    match s.unacknowledgedDelete with
    | some (name, n) => !(name = collection && n + 1 = s.deletionCount collection)
    | none => true

/-- Removes the documents that match a filter. -/
def deleteMany (collection : String) (filter : Document) (session : Option Session) :
    Action DeleteResult := do
  let compiled ← Action.ofExcept (compileFilter filter)
  modify fun s => s.record (.delete collection filter (s.hasActiveTransaction session))
  let s ← get
  if s.failingDeletes.contains collection then throw (.deleteFailed collection)
  let acknowledged := s.confirmsDelete collection
  match s.catalog.find? collection with
  | none => return { acknowledged := acknowledged }
  | some c =>
      let kept := c.retain fun doc => !compiled.holds doc
      set { s with catalog := s.catalog.insert collection kept }
      return { deletedCount := c.size - kept.size, acknowledged := acknowledged }

end Store

end DocMapper
