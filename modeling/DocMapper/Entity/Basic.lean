import DocMapper.Entity.Id
import DocMapper.Relation.Descriptor

set_option autoImplicit false

/-!
# Entities and references

An entity type has a collection, identifiers and relationships, and its members are written to and
read from documents. `Stored` holds what another entity type needs to name it in a relationship or a
reference, so entity types may refer to each other; `Entity` holds the rest.

`LawfulEntity` says that members read back and that their identifier is written under `_id`.

A `Reference` to a single entity of a type is its identifier or nothing. It is written as the bare
identifier, and as null if there is none.
-/

namespace DocMapper

/-- A name without its type arguments. -/
def withoutArguments (typeName : String) : String :=
  String.ofList (typeName.toList.takeWhile (· ≠ '<'))

/-- A type whose members are kept in a collection under identifiers of a second type. -/
class Stored (τ : Type) (ι : outParam Type) where
  /-- The name of the type, which no other type of the program has. -/
  typeName : String
  collection : String := withoutArguments typeName

/-- A type whose members are written as documents. -/
class Entity (τ : Type) (ι : outParam Type) [EntityId ι] extends Stored τ ι where
  /-- Whether members own chunks of binary content. -/
  isFile : Bool := false
  relations : List Declaration := []
  id : τ → ι
  withId : ι → τ → τ
  encode : τ → Document
  decode? : Document → Option τ

/-- Members read back, and their identifier is the `_id` of their document. -/
class LawfulEntity (τ : Type) {ι : Type} [EntityId ι] [Entity τ ι] : Prop where
  decode?_encode : ∀ entity : τ, Entity.decode? (Entity.encode entity) = some entity
  get?_encode_id : ∀ entity : τ,
    (Entity.encode entity).get? "_id" = some (EntityId.toValue (Entity.id entity))
  id_withId : ∀ (id : ι) (entity : τ), Entity.id (Entity.withId id entity) = id

namespace Entity

variable {ι : Type} [EntityId ι]

/-- What the library knows about a type, or why it can not be used. -/
def info (τ : Type) [Entity τ ι] : Except Error EntityInfo :=
  EntityInfo.build (Stored.collection τ) (isFile τ) (relations τ)

/-- The entity that a document is, or the error that it is none. -/
def decode {τ : Type} [Entity τ ι] (doc : Document) : Except Error τ :=
  match decode? doc with
  | some entity => .ok entity
  | none => .error .undecodable

end Entity

/-! ## References -/

/-- The identifier of an entity of type `τ`, or nothing. -/
structure Reference (τ : Type) {ι : Type} [Stored τ ι] where
  id : Option ι

namespace Reference

variable {τ ι : Type} [EntityId ι]

section Stored

variable [Stored τ ι]

instance : DecidableEq (Reference τ) := fun r s =>
  decidable_of_iff (r.id = s.id) (by cases r; cases s; simp)

/-- The reference to nothing. -/
def none : Reference τ := ⟨.none⟩

/-- Whether the reference leads to an entity that was saved. -/
def isSet (r : Reference τ) : Bool :=
  match r.id with
  | some id => !EntityId.isUnsaved id
  | .none => false

/-- The reference as the value of a field. -/
def toValue (r : Reference τ) : Value :=
  match r.id with
  | some id => EntityId.toValue id
  | .none => .null

/-- The reference that a value stands for. -/
def ofValue? : Value → Option (Reference τ)
  | .null => some none
  | value => (EntityId.ofValue? value).map fun id => ⟨some id⟩

/-- The reference as it is shown to a programmer. -/
def text (r : Reference τ) : String :=
  match r.id with
  | some id => "One(" ++ EntityId.text id ++ ")"
  | .none => "One(null)"

/-- A written reference reads back. -/
theorem ofValue?_toValue [LawfulEntityId ι] (r : Reference τ) : ofValue? r.toValue = some r := by
  obtain ⟨_ | id⟩ := r
  · rfl
  · have hnull := LawfulEntityId.toValue_ne_null id
    simp only [toValue]
    rw [ofValue?]
    · rw [LawfulEntityId.ofValue?_toValue]
      rfl
    · exact hnull

end Stored

/-- The reference to an entity. -/
def ofEntity [Entity τ ι] (entity : τ) : Reference τ := ⟨some (Entity.id entity)⟩

end Reference

end DocMapper
