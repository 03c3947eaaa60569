import DocMapper.Proofs.Integrity.Operations
import DocMapper.Proofs.Relation.LinkRows
import DocMapper.Proofs.Store.Identity

set_option autoImplicit false

/-!
# Identifiers and the documents of entities

The value of an identifier of one of the four types is a `LinkId`, on which the equality of queries
and that of keys are the same as equality, and generating an identifier does not fail
(`ReliableId`). So among the documents of entities of one type, the query for an identifier takes
the document of the entity that has it (`takes_byId_encode`), and a document of an entity under its
own identifier is not changed by the writes of an upsert (`upsertDocument_encode`,
`withStoredId_encode`).
-/

namespace DocMapper

open Store

/-- A type of identifiers that are told apart by queries and by keys alike, and that are generated
without fail if they can be. -/
class ReliableId (ι : Type) [EntityId ι] : Prop extends LawfulEntityId ι, LawfulGenerator ι where
  exists_linkId : ∀ id : ι, ∃ a : LinkId, EntityId.toValue id = a.toValue
  exists_runOn_generate : ∀ generate : Action ι, EntityId.generate? = some generate →
    ∀ s, ∃ id t, generate.runOn s = (.ok id, t)

instance : ReliableId ObjectId where
  exists_linkId id := ⟨.objectId id, rfl⟩
  exists_runOn_generate := by
    rintro _ ⟨⟩ s
    exact ⟨_, _, rfl⟩

instance : ReliableId Uuid where
  exists_linkId id := ⟨.string id.text, rfl⟩
  exists_runOn_generate := by
    rintro _ ⟨⟩ s
    exact ⟨_, _, rfl⟩

instance : ReliableId String where
  exists_linkId id := ⟨.string id, rfl⟩
  exists_runOn_generate := by
    rintro _ ⟨⟩ s
    exact ⟨_, _, rfl⟩

instance : ReliableId Int64 where
  exists_linkId id := ⟨.int64 id, rfl⟩
  exists_runOn_generate := by
    rintro _ ⟨⟩

section Reliable

variable {ι : Type} [EntityId ι] [ReliableId ι]

theorem EntityId.key?_toValue_inj {id other : ι} :
    (EntityId.toValue id).key? = (EntityId.toValue other).key? ↔ id = other := by
  obtain ⟨a, ha⟩ := ReliableId.exists_linkId id
  obtain ⟨b, hb⟩ := ReliableId.exists_linkId other
  have hvalue : EntityId.toValue id = EntityId.toValue other ↔ id = other := EntityId.toValue_inj
  rw [← hvalue, ha, hb, LinkId.key?_toValue_inj, LinkId.toValue_inj]

theorem EntityId.equal_toValue_iff {id other : ι} :
    (EntityId.toValue id).equal (EntityId.toValue other) = true ↔ id = other := by
  obtain ⟨a, ha⟩ := ReliableId.exists_linkId id
  obtain ⟨b, hb⟩ := ReliableId.exists_linkId other
  have hvalue : EntityId.toValue id = EntityId.toValue other ↔ id = other := EntityId.toValue_inj
  rw [← hvalue, ha, hb, LinkId.equal_toValue, decide_eq_true_eq, LinkId.toValue_inj]

end Reliable

/-! ## Documents of entities -/

/-- Writing the value that a name has changes nothing. -/
theorem Fields.insert_eq_self {α : Type} {fields : Fields α} {name : String} {v : α}
    (h : fields.get? name = some v) : Fields.insert name v fields = fields := by
  induction fields with
  | nil => cases h
  | cons field rest ih =>
    obtain ⟨key, w⟩ := field
    rw [get?_cons] at h
    rw [insert]
    split at h
    · rename_i hkey
      obtain rfl := Option.some.inj h
      rw [if_pos hkey]
    · rename_i hkey
      rw [if_neg hkey, ih h]

section Documents

variable {τ ι : Type} [EntityId ι] [Entity τ ι] [LawfulEntity τ] {stored : Document}

/-- An entity is stored under its identifier as it is written. -/
theorem upsertDocument_encode (filter : Document) (entity : τ) :
    upsertDocument filter (Entity.encode entity) = Entity.encode entity := by
  rw [upsertDocument, Fields.contains, LawfulEntity.get?_encode_id]
  rfl

/-- An entity that replaces the document under its identifier is stored as it is written. -/
theorem withStoredId_encode {entity : τ}
    (h : stored.get? "_id" = some (EntityId.toValue (Entity.id entity))) :
    withStoredId stored (Entity.encode entity) = Entity.encode entity := by
  rw [withStoredId, h]
  exact Fields.insert_eq_self (LawfulEntity.get?_encode_id entity)

theorem takes_byId_encode [ReliableId ι] (id : ι) (entity : τ) :
    takes (Context.byId id) (Entity.encode entity) = true ↔ Entity.id entity = id := by
  have hkey := LawfulEntityId.isSome_key?_toValue id
  have hstored := LawfulEntityId.isSome_key?_toValue (Entity.id entity)
  rw [Context.byId, takes_id_eq hkey (LawfulEntity.get?_encode_id entity) hstored,
    EntityId.equal_toValue_iff]

end Documents

end DocMapper
