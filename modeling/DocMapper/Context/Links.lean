import DocMapper.Context.Entities

set_option autoImplicit false

/-!
# Links of an entity

`Links γ side` are the `γ` entities linked to one entity under a declared relationship, seen from
a side of it. From the owner's side links can be added and removed; from the inverse side they can
only be read. A link to an entity that the context does not find is counted but not loaded.
-/

namespace DocMapper

/-- The entities of type `γ` linked to the entity with an identifier. -/
structure Links (γ : Type) (side : Side) where
  context : Context
  descriptor : Descriptor
  entityId : Value

namespace Context

variable {ι κ : Type} [EntityId ι] [EntityId κ]

/-- The relationship of `π` with `γ` under a property. -/
def descriptor (γ π : Type) [Entity γ ι] [Entity π κ] (property : String) (side : Side) :
    Except Error Descriptor := do
  let declaring ← Entity.info π
  let related ← Entity.info γ
  match (declaring.relation? property side).filter (·.related = related.collection) with
  | some descriptor => return descriptor
  | none => throw (.relationNotFound declaring.collection property side.name)

/-- The `γ` entities linked to a `π` entity under a property. -/
def links (c : Context) (γ π : Type) [Entity γ ι] [Entity π κ] (side : Side) (property : String)
    (id : κ) : Except Error (Links γ side) := do
  let descriptor ← descriptor γ π property side
  return ⟨c, descriptor, EntityId.toValue id⟩

end Context

namespace Links

variable {γ : Type} {side : Side}

/-- The rows behind the links. -/
def join (l : Links γ side) : JoinCollection :=
  ⟨l.descriptor.join, l.descriptor.cardinality, l.context.session⟩

/-- The rows of the entity. -/
def rows (l : Links γ side) : Action (List JoinRow) :=
  match side with
  | .owner => l.join.childrenOf l.entityId
  | .inverse => l.join.parentsOf l.entityId

/-- The end of a row that is not the entity's own. -/
def relatedValue (side : Side) (row : JoinRow) : Value :=
  match side with
  | .owner => row.child
  | .inverse => row.parent

/-- The number of links. -/
def count (l : Links γ side) : Action Nat := do
  let rows ← l.rows
  return rows.length

section Related

variable {ι : Type} [EntityId ι] [Entity γ ι]

/-- The identifiers of the linked entities. -/
def ids (l : Links γ side) : Action (List ι) := do
  let rows ← l.rows
  rows.mapM fun row => Action.ofExcept (EntityId.ofValue (relatedValue side row))

/-- The linked entities that the context finds. -/
def entities (l : Links γ side) : Action (List γ) := do
  let rows ← l.rows
  let values := rows.map (relatedValue side)
  if values.isEmpty then return []
  else l.context.find γ [("_id", JoinCollection.anyOf values)]

/-! ## Changing links -/

/-- Links a child. -/
def add (l : Links γ .owner) (child : ι) : Action Unit :=
  l.join.add l.entityId (EntityId.toValue child)

/-- Links children one after another, up to the first failure. -/
def addMany (l : Links γ .owner) : List ι → Action Unit
  | [] => return ()
  | child :: rest => do
      l.add child
      l.addMany rest

/-- Removes the link of a child. -/
def remove (l : Links γ .owner) (child : ι) : Action DeleteResult :=
  l.join.remove l.entityId (EntityId.toValue child)

/-- Removes the links of several children. -/
def removeMany (l : Links γ .owner) (children : List ι) : Action DeleteResult :=
  l.join.removeMany l.entityId (children.map EntityId.toValue)

end Related

/-! ## Showing links -/

/-- The name of a side as it is shown to a programmer. -/
def sideName : Side → String
  | .owner => "Owner"
  | .inverse => "Inverse"

/-- The value of an identifier as it is shown to a programmer. -/
def idText : Value → String
  | .int64 n => "Int64(" ++ toString n.toInt ++ ")"
  | .string s => "String(" ++ Text.quoted s ++ ")"
  | value => value.text

/-- The links as they are shown to a programmer. -/
def text (l : Links γ side) : String :=
  "Many \x7b join_collection: " ++ Text.quoted l.descriptor.join ++ ", side: " ++ sideName side ++
    ", parent_id: " ++ idText l.entityId ++ " \x7d"

end Links

end DocMapper
