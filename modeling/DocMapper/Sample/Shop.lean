import DocMapper.Sample.Publishing

set_option autoImplicit false

/-!
# Sample entities: a shop

Entities with identifiers of every type, two of them files, and a tree of nodes that are linked to
each other.
-/

namespace DocMapper.Sample

/-- A numbered counter. -/
structure Counter where
  id : Int64
  value : Int64
deriving DecidableEq

instance : Stored Counter Int64 where
  typeName := "Counter"

instance : Entity Counter Int64 where
  id := Counter.id
  withId id counter := { counter with id := id }
  encode counter := [("_id", EntityId.toValue counter.id), ("value", .int64 counter.value)]
  decode? doc := do
    let id ← Document.required doc "_id" EntityId.ofValue?
    let value ← Document.required doc "value" Value.asInt64?
    return ⟨id, value⟩

/-- A file with a name. -/
structure Attachment where
  id : Uuid
  fileName : String
deriving DecidableEq

instance : Stored Attachment Uuid where
  typeName := "Attachment"
  collection := "attachments"

instance : Entity Attachment Uuid where
  isFile := true
  id := Attachment.id
  withId id attachment := { attachment with id := id }
  encode attachment :=
    [("_id", EntityId.toValue attachment.id), ("file_name", .string attachment.fileName)]
  decode? doc := do
    let id ← Document.required doc "_id" EntityId.ofValue?
    let fileName ← Document.required doc "file_name" Value.asString?
    return ⟨id, fileName⟩

/-- A node of a tree, which may have a label. -/
structure Node where
  id : String
  label : Option String := none
deriving DecidableEq

instance : Stored Node String where
  typeName := "Node"

namespace Node

/-- A label as a value. -/
def labelValue : Option String → Value
  | some label => .string label
  | none => .null

/-- The label that a value stands for. -/
def labelOfValue? : Value → Option (Option String)
  | .null => some none
  | value => value.asString?.map some

end Node

instance : Entity Node String where
  relations :=
    [.oneToMany "Children" (Stored.collection Node),
      .parentOf "Parent" (Stored.collection Node) "Children"]
  id := Node.id
  withId id node := { node with id := id }
  encode node := [("_id", EntityId.toValue node.id), ("label", Node.labelValue node.label)]
  decode? doc := do
    let id ← Document.required doc "_id" EntityId.ofValue?
    let label ← Document.optional doc "label" Node.labelOfValue? none
    return ⟨id, label⟩

/-- An article, kept in a collection with a name of its own. -/
structure Item where
  id : Int64
  tag : Reference Genre
deriving DecidableEq

instance : Stored Item Int64 where
  typeName := "Item"
  collection := "shop.items"

instance : Entity Item Int64 where
  isFile := true
  relations :=
    [.manyToMany "Counters" (Stored.collection Counter),
      .oneToMany "Files" (Stored.collection Attachment),
      .manyToMany "Nodes" (Stored.collection Node)]
  id := Item.id
  withId id item := { item with id := id }
  encode item := [("_id", EntityId.toValue item.id), ("tag", item.tag.toValue)]
  decode? doc := do
    let id ← Document.required doc "_id" EntityId.ofValue?
    let tag ← Document.optional doc "tag" Reference.ofValue? Reference.none
    return ⟨id, tag⟩

/-! ## Laws -/

instance : LawfulEntity Counter where
  decode?_encode _ := rfl
  get?_encode_id _ := rfl
  id_withId _ _ := rfl

instance : LawfulEntity Attachment where
  decode?_encode attachment := by
    obtain ⟨id, fileName⟩ := attachment
    simp [Entity.decode?, Entity.encode, Document.required, Fields.get?,
      LawfulEntityId.ofValue?_toValue, Value.asString?]
  get?_encode_id _ := rfl
  id_withId _ _ := rfl

instance : LawfulEntity Node where
  decode?_encode node := by
    obtain ⟨id, _ | label⟩ := node <;> rfl
  get?_encode_id _ := rfl
  id_withId _ _ := rfl

instance : LawfulEntity Item where
  decode?_encode item := by
    obtain ⟨id, tag⟩ := item
    simp [Entity.decode?, Entity.encode, Document.required, Document.optional, Fields.get?,
      LawfulEntityId.ofValue?_toValue, Reference.ofValue?_toValue]
  get?_encode_id _ := rfl
  id_withId _ _ := rfl

end DocMapper.Sample
