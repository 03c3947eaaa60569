import DocMapper.Cascade
import DocMapper.Context.Basic
import DocMapper.Entity.Basic

set_option autoImplicit false

/-!
# Operations on entities

Saving, finding and deleting the entities of a type in a context. Saving an entity that was never
saved gives it a fresh identifier. Finding and deleting see only what the global filter of the type
lets through, and deleting removes links and chunks along with the entities.
-/

namespace DocMapper.Context

variable {ι : Type} [EntityId ι]

/-! ## Saving -/

/-- An entity under an identifier of its own: a fresh one if it was never saved. -/
def identify {τ : Type} [Entity τ ι] (entity : τ) : Action τ :=
  if EntityId.isUnsaved (Entity.id entity) then
    match EntityId.generate? (ι := ι) with
    | some generate => return Entity.withId (← generate) entity
    | none => throw (.idRequired (Stored.typeName τ))
  else return entity

/-- The filter of one identifier. -/
def byId (id : ι) : Document := [("_id", EntityId.toValue id)]

/-- Inserts or replaces an entity; the entity with the identifier that it is stored under. -/
def save {τ : Type} [Entity τ ι] (_ : Context) (entity : τ) : Action τ := do
  let info ← Action.ofExcept (Entity.info τ)
  let entity ← identify entity
  let _ ← Store.replaceOne info.collection (byId (Entity.id entity)) (Entity.encode entity) true
  return entity

/-! ## Finding -/

/-- The entities that match a filter, up to a limit. -/
def findUpTo (c : Context) (τ : Type) [Entity τ ι] (filter : Document) (limit : Option Nat) :
    Action (List τ) := do
  let info ← Action.ofExcept (Entity.info τ)
  let found ← Store.find info.collection (c.mergeFilter τ filter) { limit := limit }
  (Store.collect found).mapM fun doc => Action.ofExcept (Entity.decode doc)

/-- The entities that match a filter. -/
def find (c : Context) (τ : Type) [Entity τ ι] (filter : Document) : Action (List τ) :=
  c.findUpTo τ filter none

/-- The first entity that matches a filter. -/
def findOne? (c : Context) (τ : Type) [Entity τ ι] (filter : Document) : Action (Option τ) := do
  let found ← c.findUpTo τ filter (some 1)
  return found.getLast?

/-- The entity with an identifier. -/
def findById? (c : Context) (τ : Type) [Entity τ ι] (id : ι) : Action (Option τ) :=
  c.findOne? τ (byId id)

/-- The entity that a reference leads to. -/
def resolve? (c : Context) {τ : Type} [Entity τ ι] (reference : Reference τ) :
    Action (Option τ) :=
  match reference.id with
  | some id => if EntityId.isUnsaved id then return none else c.findById? τ id
  | none => return none

/-! ## Deleting -/

/-- How the entities of this context are deleted. -/
def cascade (c : Context) (cancellation : Option Cancellation) : Cascade :=
  ⟨c.session, c.config.chunkCollection, cancellation⟩

/-- Deletes the entities with some identifiers. With a global filter only those are deleted that
match it, and without identifiers there is nothing to do. -/
def delete (c : Context) (τ : Type) [Entity τ ι] (ids : List ι)
    (cancellation : Option Cancellation) : Action DeleteResult := do
  let info ← Action.ofExcept (Entity.info τ)
  let cascade := c.cascade cancellation
  cascade.checkCancellation
  let values := ids.map EntityId.toValue
  if (c.globalFilter? τ).isSome then
    if values.isEmpty then return {}
    else cascade.deleteMatching info (c.mergeFilter τ [("_id", JoinCollection.anyOf values)])
  else cascade.deleteIds info values

/-- Deletes the entity with an identifier. -/
def deleteOne (c : Context) (τ : Type) [Entity τ ι] (id : ι)
    (cancellation : Option Cancellation) : Action DeleteResult :=
  c.delete τ [id] cancellation

/-- Deletes the entities that match a filter. -/
def deleteWhere (c : Context) (τ : Type) [Entity τ ι] (filter : Document)
    (cancellation : Option Cancellation) : Action DeleteResult := do
  let info ← Action.ofExcept (Entity.info τ)
  let cascade := c.cascade cancellation
  cascade.checkCancellation
  cascade.deleteMatching info (c.mergeFilter τ filter)

end DocMapper.Context
