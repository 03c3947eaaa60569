import DocMapper.Entity.Chunk
import DocMapper.Sample.Shop

set_option autoImplicit false

/-!
# Sample entities: irregular types, and types by name

A type with an argument, whose collection is named without it; a type whose collection has an
illegal name; and a type that declares a relationship twice. The last two can not be used. The
members of a fourth type refer to a file by the field that chunks have for it.

A `Model` packs an entity type with its instances, so that a program can choose one when it runs.
-/

namespace DocMapper

namespace Sample

/-! ## Irregular types -/

/-- An entity type with an argument. -/
structure Wrapper (τ : Type) where
  id : ObjectId
deriving DecidableEq

instance {τ ι : Type} [Stored τ ι] : Stored (Wrapper τ) ObjectId where
  typeName := "Wrapper<" ++ Stored.typeName τ ++ ">"

instance {τ ι : Type} [Stored τ ι] : Entity (Wrapper τ) ObjectId where
  id := Wrapper.id
  withId id _ := ⟨id⟩
  encode wrapper := [("_id", EntityId.toValue wrapper.id)]
  decode? doc := do
    let id ← Document.required doc "_id" EntityId.ofValue?
    return ⟨id⟩

/-- An entity type whose collection has an illegal name. -/
structure Broken where
  id : Int64
deriving DecidableEq

instance : Stored Broken Int64 where
  typeName := "Broken"
  collection := "a~b"

instance : Entity Broken Int64 where
  id := Broken.id
  withId id _ := ⟨id⟩
  encode broken := [("_id", EntityId.toValue broken.id)]
  decode? doc := do
    let id ← Document.required doc "_id" EntityId.ofValue?
    return ⟨id⟩

/-- An entity type that declares a relationship twice. -/
structure Twice where
  id : Int64
deriving DecidableEq

instance : Stored Twice Int64 where
  typeName := "Twice"

instance : Entity Twice Int64 where
  relations :=
    [.oneToMany "Cs" (Stored.collection Counter), .manyToMany "Cs" (Stored.collection Counter)]
  id := Twice.id
  withId id _ := ⟨id⟩
  encode twice := [("_id", EntityId.toValue twice.id)]
  decode? doc := do
    let id ← Document.required doc "_id" EntityId.ofValue?
    return ⟨id⟩

/-- An excerpt of an item. -/
structure Excerpt where
  id : Int64
  item : Int64
deriving DecidableEq

instance : Stored Excerpt Int64 where
  typeName := "Excerpt"

instance : Entity Excerpt Int64 where
  relations := [.manyToMany "Quotes" (Stored.collection Excerpt)]
  id := Excerpt.id
  withId id excerpt := { excerpt with id := id }
  encode excerpt := [("_id", EntityId.toValue excerpt.id), (fileField, .int64 excerpt.item)]
  decode? doc := do
    let id ← Document.required doc "_id" EntityId.ofValue?
    let item ← Document.required doc fileField Value.asInt64?
    return ⟨id, item⟩

/-! ## Laws -/

instance {τ ι : Type} [Stored τ ι] : LawfulEntity (Wrapper τ) where
  decode?_encode _ := rfl
  get?_encode_id _ := rfl
  id_withId _ _ := rfl

instance : LawfulEntity Broken where
  decode?_encode _ := rfl
  get?_encode_id _ := rfl
  id_withId _ _ := rfl

instance : LawfulEntity Twice where
  decode?_encode _ := rfl
  get?_encode_id _ := rfl
  id_withId _ _ := rfl

instance : LawfulEntity Excerpt where
  decode?_encode _ := rfl
  get?_encode_id _ := rfl
  id_withId _ _ := rfl

end Sample

/-! ## Types by name -/

/-- An entity type with the type of its identifiers. -/
structure Model where
  carrier : Type
  idType : Type
  [entityId : EntityId idType]
  [entity : Entity carrier idType]

attribute [instance] Model.entityId Model.entity

namespace Model

open Sample

/-- The model of an entity type. -/
abbrev of (τ : Type) {ι : Type} [EntityId ι] [Entity τ ι] : Model := ⟨τ, ι⟩

/-- The sample model of a name. -/
def ofName? : String → Option Model
  | "Author" => some (of Author)
  | "Book" => some (of Book)
  | "Genre" => some (of Genre)
  | "Counter" => some (of Counter)
  | "Attachment" => some (of Attachment)
  | "Node" => some (of Node)
  | "Item" => some (of Item)
  | "WrappedAuthor" => some (of (Wrapper Author))
  | "Broken" => some (of Broken)
  | "Twice" => some (of Twice)
  | _ => none

end Model

end DocMapper
