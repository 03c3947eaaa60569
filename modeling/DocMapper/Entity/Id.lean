import DocMapper.Store.Basic
import DocMapper.Text.Printable
import DocMapper.Value.Tagged

set_option autoImplicit false

/-!
# Identifiers of entities

A type of identifiers has a default, which marks an entity that was never saved, may be able to
generate fresh identifiers, and is written to and read from values. `LawfulEntityId` says that
what is written reads back, is not null and can be the key of a document; the four types here are
lawful.
-/

namespace DocMapper

/-- A type whose members identify entities. -/
class EntityId (ι : Type) where
  /-- The identifier of an entity that was never saved. -/
  unsaved : ι
  /-- A fresh identifier, if the type can have one generated. -/
  generate? : Option (Action ι)
  /-- The identifier as the value of a field. -/
  toValue : ι → Value
  /-- The identifier that a value stands for. -/
  ofValue? : Value → Option ι
  /-- The identifier as it is shown to a programmer. -/
  text : ι → String
  decEq : DecidableEq ι

/-- Written identifiers read back, are keys, and are told apart from a missing one. -/
class LawfulEntityId (ι : Type) [EntityId ι] : Prop where
  ofValue?_toValue : ∀ id : ι, EntityId.ofValue? (EntityId.toValue id) = some id
  toValue_ne_null : ∀ id : ι, EntityId.toValue id ≠ .null
  isSome_key?_toValue : ∀ id : ι, (EntityId.toValue id).key?.isSome

namespace EntityId

variable {ι : Type} [EntityId ι]

instance (priority := low) : DecidableEq ι := EntityId.decEq

/-- Whether an identifier marks an entity that was never saved. -/
def isUnsaved (id : ι) : Bool := id = unsaved

/-- The identifier that a value stands for, or the error that there is none. -/
def ofValue (value : Value) : Except Error ι :=
  match ofValue? value with
  | some id => .ok id
  | none => .error .undecodable

/-- Identifiers that are written alike are the same. -/
theorem toValue_inj [LawfulEntityId ι] {id other : ι} :
    toValue id = toValue other ↔ id = other := by
  constructor
  · intro h
    have hread := LawfulEntityId.ofValue?_toValue id
    rw [h, LawfulEntityId.ofValue?_toValue] at hread
    exact (Option.some.inj hread).symm
  · intro h
    rw [h]

theorem settled_toValue [LawfulEntityId ι] (id : ι) : (toValue id).settled = toValue id :=
  Value.settled_of_isSome_key? (LawfulEntityId.isSome_key?_toValue id)

theorem ofTagged?_toValue [LawfulEntityId ι] (id : ι) :
    (toValue id).ofTagged? = some (toValue id) :=
  Value.ofTagged?_of_isSome_key? (LawfulEntityId.isSome_key?_toValue id)

end EntityId

/-! ## The types of identifiers -/

instance : EntityId ObjectId where
  unsaved := .zero
  generate? := some Action.freshObjectId
  toValue := .objectId
  ofValue? := Value.asObjectId?
  text id := "ObjectId(\"" ++ id.text ++ "\")"
  decEq := inferInstance

instance : LawfulEntityId ObjectId where
  ofValue?_toValue _ := rfl
  toValue_ne_null _ := Value.noConfusion
  isSome_key?_toValue _ := rfl

instance : EntityId Uuid where
  unsaved := .zero
  generate? := some Action.freshUuid
  toValue id := .string id.text
  ofValue? := Value.asUuid?
  text := Uuid.text
  decEq := inferInstance

instance : LawfulEntityId Uuid where
  ofValue?_toValue id := by
    change Value.asUuid? (.string id.text) = some id
    rw [Value.asUuid?, Uuid.ofText?_text]
  toValue_ne_null _ := Value.noConfusion
  isSome_key?_toValue _ := rfl

/-- Texts generate identifiers with the digits of a fresh object identifier. -/
instance : EntityId String where
  unsaved := ""
  generate? := some (return (← Action.freshObjectId).text)
  toValue := .string
  ofValue? := Value.asString?
  text := Text.quoted
  decEq := inferInstance

instance : LawfulEntityId String where
  ofValue?_toValue _ := rfl
  toValue_ne_null _ := Value.noConfusion
  isSome_key?_toValue _ := rfl

/-- Integers have to be chosen by the caller. -/
instance : EntityId Int64 where
  unsaved := 0
  generate? := none
  toValue := .int64
  ofValue? := Value.asInt64?
  text n := toString n.toInt
  decEq := inferInstance

instance : LawfulEntityId Int64 where
  ofValue?_toValue _ := rfl
  toValue_ne_null _ := Value.noConfusion
  isSome_key?_toValue _ := rfl

end DocMapper
