import DocMapper.Entity.Chunk
import DocMapper.Relation.JoinCollection

set_option autoImplicit false

/-!
# Cascading deletion

Deleting entities also removes the join rows that reference them and, for file entities, their
chunks. Identifiers are taken in batches of `batchSize`. For each batch the join collections of
the entity are listed; then the entities are deleted, then the rows in each listed collection,
then the chunks, and the first failure ends the whole deletion. Only the deletion of the entities
is reported.

A cancellation token is honoured only inside a transaction, where a deletion that is cut off can be
rolled back.
-/

namespace DocMapper

/-- A signal to give up: given but not fired, or fired before the operation began. -/
inductive Cancellation where
  | live
  | fired
deriving DecidableEq

/-- The filter of the rows of a join collection that reference one of some identifiers on either
side; there is none if the collection does not join the given one. -/
def joinDeleteFilter? (join collection : String) (ids : Value) : Option Document :=
  match JoinName.ofText? join with
  | none => none
  | some name =>
      if name.isParent collection || name.isChild collection then
        some [("$or", .array [
          .document [(parentField, .document [("$in", ids)])],
          .document [(childField, .document [("$in", ids)])]])]
      else none

/-- How entities are deleted: in which session, with which chunk collection and signal. -/
structure Cascade where
  session : Option Session
  chunkCollection : String
  cancellation : Option Cancellation := none

namespace Cascade

/-- The largest number of identifiers in one deletion. -/
def batchSize : Nat := 100000

/-- Refuses a token outside of a transaction. -/
def checkCancellation (c : Cascade) : Action Unit := do
  let s ← get
  if c.cancellation.isSome && !s.hasActiveTransaction c.session then
    throw .cancellationOutsideTransaction

/-- Runs an action unless the token has fired. -/
def cancellable {α : Type} (c : Cascade) (action : Action α) : Action α :=
  if c.cancellation = some .fired then throw .cancelled else action

/-- The deletions of one batch besides the entities themselves: collections and filters in order. -/
def sideDeletes (c : Cascade) (info : EntityInfo) (joins : List String) (ids : Value) :
    List (String × Document) :=
  let rows := joins.filterMap fun join =>
    (joinDeleteFilter? join info.collection ids).map fun filter => (join, filter)
  let chunks :=
    if info.isFile then [(c.chunkCollection, [(fileField, .document [("$in", ids)])])] else []
  rows ++ chunks

/-- Deletes one batch. -/
def deleteBatch (c : Cascade) (info : EntityInfo) (ids : List Value) : Action DeleteResult := do
  let joins ← Store.listCollections (joinPattern info.collection)
  let result ←
    Store.deleteMany info.collection [("_id", JoinCollection.anyOf ids)] c.session
  for (collection, filter) in c.sideDeletes info joins (.array ids) do
    let _ ← Store.deleteMany collection filter c.session
  return result

/-- Deletes batches one after another; the reports together. -/
def deleteBatches (c : Cascade) (info : EntityInfo) (total : DeleteResult) :
    List (List Value) → Action DeleteResult
  | [] => return total
  | batch :: rest => do
      let result ← c.deleteBatch info batch
      deleteBatches c info (total.merge result) rest

/-- Deletes the entities with some identifiers, batch by batch. -/
def deleteIdBatches (c : Cascade) (info : EntityInfo) (ids : List Value) : Action DeleteResult :=
  c.deleteBatches info {} (pages batchSize ids)

/-- Deletes the entities with some identifiers. -/
def deleteIds (c : Cascade) (info : EntityInfo) (ids : List Value) : Action DeleteResult := do
  c.checkCancellation
  c.cancellable (c.deleteIdBatches info ids)

/-- Deletes the entities of pages of documents, page by page; the reports together. -/
def deletePages (c : Cascade) (info : EntityInfo) (total : DeleteResult) :
    List (List Document) → Action DeleteResult
  | [] => return total
  | page :: rest => do
      let result ← c.deleteIdBatches info (page.filterMap fun doc => doc.get? "_id")
      deletePages c info (total.merge result) rest

/-- Finds the identifiers of the matching entities and deletes these. -/
def deleteFound (c : Cascade) (info : EntityInfo) (filter : Document) : Action DeleteResult := do
  let found ← Store.find info.collection filter
    { projection := some [("_id", .int32 1)], batchSize := some batchSize }
  c.deletePages info {} found

/-- Deletes the entities that match a filter. -/
def deleteMatching (c : Cascade) (info : EntityInfo) (filter : Document) :
    Action DeleteResult := do
  c.checkCancellation
  c.cancellable (c.deleteFound info filter)

end Cascade

end DocMapper
