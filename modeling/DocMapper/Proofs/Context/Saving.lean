import DocMapper.Proofs.Context.Confinement
import DocMapper.Proofs.Entity.Identifiers

set_option autoImplicit false

/-!
# The effect of saving an entity

In a collection that holds the entities of a type, each under its identifier
(`Catalog.HoldsEntities`), an entity is stored in the place of the one with its identifier, or at
the end if there is none, and no other document is changed (`Catalog.Puts`). There it is found by
its identifier (`findById?_of_mem`), and storing it once more changes nothing
(`exists_runOn_replaceOne_again`).

`Context.save_cases` lists what becomes of an entity that is saved: the declaration of its type is
refused, it lacks an identifier that can not be generated, or it is stored.
-/

namespace DocMapper

open Store

variable {τ ι : Type} [EntityId ι] [Entity τ ι] {c d : Catalog} {s t : Store} {entity : τ}

/-! ## Collections of entities -/

/-- A catalog whose collection for a type holds entities of this type, each under its
identifier. -/
structure Catalog.HoldsEntities (τ : Type) {ι : Type} [EntityId ι] [Entity τ ι] (c : Catalog) :
    Prop where
  wellKeyed : (c.get (Stored.collection τ)).WellKeyed
  encoded : ∀ doc ∈ c.documents (Stored.collection τ), ∃ entity : τ, Entity.encode entity = doc

/-- What storing an entity does to a catalog: no other collection is changed, and in its own one the
document with its identifier is replaced in its place, or one is added at the end. -/
structure Catalog.Puts (entity : τ) (c d : Catalog) : Prop where
  content?_of_ne : ∀ name, name ≠ Stored.collection τ → d.content? name = c.content? name
  wellKeyed : (c.get (Stored.collection τ)).WellKeyed → (d.get (Stored.collection τ)).WellKeyed
  placed :
    (∃ i stored, (c.documents (Stored.collection τ))[i]? = some stored ∧
        stored.get? "_id" = some (EntityId.toValue (Entity.id entity)) ∧
        d.documents (Stored.collection τ) =
          (c.documents (Stored.collection τ)).set i (Entity.encode entity)) ∨
      ((∀ stored ∈ c.documents (Stored.collection τ),
          stored.get? "_id" ≠ some (EntityId.toValue (Entity.id entity))) ∧
        d.documents (Stored.collection τ) =
          c.documents (Stored.collection τ) ++ [Entity.encode entity])

namespace Catalog

theorem HoldsEntities.empty : Catalog.empty.HoldsEntities τ where
  wellKeyed := .empty
  encoded _ h := absurd h List.not_mem_nil

theorem HoldsEntities.congr (hc : c.HoldsEntities τ)
    (h : d.content? (Stored.collection τ) = c.content? (Stored.collection τ)) :
    d.HoldsEntities τ where
  wellKeyed := by
    apply hc.wellKeyed.of_sublist
    rw [toList_get, toList_get, h]
  encoded := by
    rw [documents_eq, h, ← documents_eq]
    exact hc.encoded

theorem HoldsEntities.without {removed : String → Document → Bool} (hc : c.HoldsEntities τ)
    (h : c.Without removed d) : d.HoldsEntities τ where
  wellKeyed := (h _).wellKeyed hc.wellKeyed
  encoded := by
    intro doc hdoc
    exact hc.encoded doc ((h _).mem_documents_iff.1 hdoc).1

/-- An entity may be stored. -/
theorem HoldsEntities.puts (hc : c.HoldsEntities τ) (h : c.Puts entity d) :
    d.HoldsEntities τ where
  wellKeyed := h.wellKeyed hc.wellKeyed
  encoded := by
    intro doc hdoc
    rcases h.placed with ⟨i, stored, -, -, hdocuments⟩ | ⟨-, hdocuments⟩
    · rw [hdocuments] at hdoc
      rcases List.mem_or_eq_of_mem_set hdoc with hold | rfl
      · exact hc.encoded doc hold
      · exact ⟨entity, rfl⟩
    · rw [hdocuments] at hdoc
      rcases List.mem_append.1 hdoc with hold | hnew
      · exact hc.encoded doc hold
      · exact ⟨entity, (List.mem_singleton.1 hnew).symm⟩

theorem Puts.mem (h : c.Puts entity d) :
    Entity.encode entity ∈ d.documents (Stored.collection τ) := by
  rcases h.placed with ⟨i, stored, hi, -, hdocuments⟩ | ⟨-, hdocuments⟩
  · rw [hdocuments]
    obtain ⟨hlt, -⟩ := List.getElem?_eq_some_iff.1 hi
    exact List.mem_set hlt _
  · rw [hdocuments]
    exact List.mem_append_right _ List.mem_cons_self

theorem Puts.stores [LawfulEntity τ] (h : c.Puts entity d) :
    d.Stores (Stored.collection τ) (EntityId.toValue (Entity.id entity)) :=
  ⟨_, h.mem, LawfulEntity.get?_encode_id entity⟩

theorem Puts.stores_of_ne (h : c.Puts entity d) {name : String} {id : Value}
    (hname : name ≠ Stored.collection τ) (hid : c.Stores name id) : d.Stores name id := by
  rwa [Stores, documents_eq, h.content?_of_ne name hname, ← documents_eq]

theorem Puts.documents_of_absent (h : c.Puts entity d)
    (habsent : ∀ stored ∈ c.documents (Stored.collection τ),
      stored.get? "_id" ≠ some (EntityId.toValue (Entity.id entity))) :
    d.documents (Stored.collection τ) =
      c.documents (Stored.collection τ) ++ [Entity.encode entity] := by
  rcases h.placed with ⟨i, stored, hi, hid, -⟩ | ⟨-, hdocuments⟩
  · exact absurd hid (habsent stored (List.mem_of_getElem? hi))
  · exact hdocuments

/-- A document is replaced by the entity with its identifier. -/
theorem puts_replaceAt [LawfulEntity τ] (i : Fin (c.get (Stored.collection τ)).entries.size)
    (hid : ((c.get (Stored.collection τ)).documentAt i).get? "_id" =
      some (EntityId.toValue (Entity.id entity))) :
    c.Puts entity (c.insert (Stored.collection τ)
      ((c.get (Stored.collection τ)).replaceAt i (Entity.encode entity))) where
  content?_of_ne name hname := by
    rw [content?_insert, if_neg hname.symm]
  wellKeyed h := by
    rw [get_insert_self]
    apply h.replaceAt
    rw [LawfulEntity.get?_encode_id, hid]
  placed := by
    refine Or.inl ⟨i, _, ?_, hid, ?_⟩
    · rw [← documents_get]
      exact Collection.getElem?_documents _ i
    · rw [documents_insert, if_pos rfl, Collection.documents_replaceAt, documents_get]

/-- An entity whose identifier is not taken is put at the end. -/
theorem puts_push [LawfulEntity τ] {key : Key}
    (hkey : (EntityId.toValue (Entity.id entity)).key? = some key)
    (hfree : key ∉ (c.get (Stored.collection τ)).toList.map Prod.fst)
    (habsent : ∀ stored ∈ c.documents (Stored.collection τ),
      stored.get? "_id" ≠ some (EntityId.toValue (Entity.id entity))) :
    c.Puts entity (c.insert (Stored.collection τ)
      ((c.get (Stored.collection τ)).push key (Entity.encode entity))) where
  content?_of_ne name hname := by
    rw [content?_insert, if_neg hname.symm]
  wellKeyed h := by
    rw [get_insert_self]
    have hfits : Collection.Prepared.Fits
        ⟨EntityId.toValue (Entity.id entity), key, Entity.encode entity, ⟨0⟩⟩
        (c.get (Stored.collection τ)) (Entity.encode entity) :=
      ⟨hkey, hfree, LawfulEntity.get?_encode_id entity, .refl _⟩
    exact h.push hfits
  placed := by
    refine Or.inr ⟨habsent, ?_⟩
    rw [documents_insert, if_pos rfl, Collection.documents_push, documents_get]

theorem HoldsEntities.eq_of_get?_id (hc : c.HoldsEntities τ) {doc other : Document}
    (hdoc : doc ∈ c.documents (Stored.collection τ))
    (hother : other ∈ c.documents (Stored.collection τ))
    (h : doc.get? "_id" = other.get? "_id") : doc = other := by
  rw [← documents_get] at hdoc hother
  apply hc.wellKeyed.eq_of_idKey?_eq hdoc hother
  rw [Document.idKey?, Document.idKey?, h]

section Lookup

variable [LawfulEntity τ] [ReliableId ι] (hc : c.HoldsEntities τ)

include hc

theorem HoldsEntities.takes_byId_iff {doc : Document}
    (hdoc : doc ∈ c.documents (Stored.collection τ)) (id : ι) :
    takes (Context.byId id) doc = true ↔ doc.get? "_id" = some (EntityId.toValue id) := by
  obtain ⟨other, rfl⟩ := hc.encoded doc hdoc
  rw [takes_byId_encode, LawfulEntity.get?_encode_id, Option.some.injEq, EntityId.toValue_inj]

/-- A key is taken only by the document of the entity that has it. -/
theorem HoldsEntities.exists_of_mem_keys {key : Key}
    (hkey : (EntityId.toValue (Entity.id entity)).key? = some key)
    (hmem : key ∈ (c.get (Stored.collection τ)).toList.map Prod.fst) :
    ∃ stored ∈ c.documents (Stored.collection τ),
      stored.get? "_id" = some (EntityId.toValue (Entity.id entity)) := by
  obtain ⟨stored, hstored, hstoredKey⟩ := hc.wellKeyed.mem_keys_iff.1 hmem
  rw [documents_get] at hstored
  refine ⟨stored, hstored, ?_⟩
  obtain ⟨other, rfl⟩ := hc.encoded stored hstored
  rw [Document.idKey?, LawfulEntity.get?_encode_id, Option.bind_some, ← hkey,
    EntityId.key?_toValue_inj] at hstoredKey
  rw [LawfulEntity.get?_encode_id, hstoredKey]

/-- Among the stored documents the query for the identifier of an entity takes this entity only. -/
theorem HoldsEntities.filter_byId
    (hmem : Entity.encode entity ∈ c.documents (Stored.collection τ)) :
    (c.documents (Stored.collection τ)).filter (takes (Context.byId (Entity.id entity))) =
      [Entity.encode entity] := by
  have hfound : Entity.encode entity ∈
      (c.documents (Stored.collection τ)).filter (takes (Context.byId (Entity.id entity))) :=
    List.mem_filter.2 ⟨hmem, (takes_byId_encode _ _).2 rfl⟩
  have hone : ((c.documents (Stored.collection τ)).filter
      (takes (Context.byId (Entity.id entity)))).length ≤ 1 := by
    obtain ⟨key, hkey⟩ :=
      Option.isSome_iff_exists.1 (LawfulEntityId.isSome_key?_toValue (Entity.id entity))
    have htaken : ∀ doc ∈ (c.get (Stored.collection τ)).documents,
        takes (Context.byId (Entity.id entity)) doc = true → doc.idKey? = some key := by
      intro doc hdoc htakes
      rw [documents_get] at hdoc
      rw [Document.idKey?, (hc.takes_byId_iff hdoc _).1 htakes, Option.bind_some, hkey]
    rw [← List.countP_eq_length_filter, ← documents_get]
    exact hc.wellKeyed.countP_le_one htaken
  obtain ⟨doc, hdoc⟩ := List.length_eq_one_iff.1
    (Nat.le_antisymm hone (List.length_pos_of_mem hfound))
  rw [hdoc] at hfound ⊢
  rw [List.mem_singleton.1 hfound]

end Lookup

/-- Replacing a document by itself changes no content. -/
theorem content?_insert_replaceAt_self {name : String} {doc : Document}
    (i : Fin (c.get name).entries.size) (hdoc : (c.get name).documentAt i = doc)
    (other : String) :
    (c.insert name ((c.get name).replaceAt i doc)).content? other = c.content? other := by
  rw [content?_insert]
  split
  · rename_i hname
    subst hname
    have hset : ((c.get name).replaceAt i doc).toList = (c.get name).toList := by
      have hentry : ((c.get name).entries[i].1, doc) = (c.get name).toList[i.val] := by
        rw [← hdoc]
        rfl
      rw [Collection.toList_replaceAt, hentry, List.set_getElem_self]
    rw [hset, toList_get]
    cases hcontent : c.content? name with
    | some entries => rfl
    | none =>
      -- where there is no collection there is no position
      have hempty : (c.get name).entries.size = 0 := by
        rw [← Array.length_toList, ← Collection.toList, toList_get, hcontent]
        rfl
      exact absurd i.isLt (by omega)
  · rfl

end Catalog

/-! ## Storing an entity -/

section Storing

variable [LawfulEntity τ] [ReliableId ι] (hs : s.catalog.HoldsEntities τ)

include hs

/-- The filter of an identifier can be read, and it holds of the stored documents with it. -/
theorem exists_byIdFilter (id : ι) :
    ∃ f, compileFilter (Context.byId id) = .ok f ∧
      ∀ doc ∈ s.catalog.documents (Stored.collection τ),
        f.holds doc = true ↔ doc.get? "_id" = some (EntityId.toValue id) := by
  obtain ⟨f, hf, -⟩ :=
    means_scalar Filter.isPlainField_id (LawfulEntityId.isSome_key?_toValue id)
  refine ⟨f, hf, ?_⟩
  intro doc hdoc
  have htakes : takes (Context.byId id) doc = f.holds doc := by
    rw [takes, Context.byId, hf]
  rw [← htakes, hs.takes_byId_iff hdoc]

/-- Storing an entity succeeds and changes one document at most. -/
theorem exists_runOn_replaceOne_encode (entity : τ) :
    ∃ r t, (replaceOne (Stored.collection τ) (Context.byId (Entity.id entity))
        (Entity.encode entity) true).runOn s = (.ok r, t) ∧
      s.catalog.Puts entity t.catalog ∧ t.sessions = s.sessions := by
  obtain ⟨f, hf, hholds⟩ := exists_byIdFilter hs (Entity.id entity)
  cases hfirst : (s.catalog.get (Stored.collection τ)).findFirst? f.holds with
  | some i =>
    obtain ⟨htest, hmem⟩ := Collection.of_findFirst?_eq_some hfirst
    rw [Catalog.documents_get] at hmem
    have hid := (hholds _ hmem).1 htest
    refine ⟨_, _, runOn_replaceOne_of_some _ true hf hfirst, ?_, rfl⟩
    rw [withStoredId_encode hid]
    exact Catalog.puts_replaceAt i hid
  | none =>
    -- nothing is stored under the identifier, so the entity is inserted
    have habsent : ∀ stored ∈ s.catalog.documents (Stored.collection τ),
        stored.get? "_id" ≠ some (EntityId.toValue (Entity.id entity)) := by
      intro stored hstored hid
      have hnot := Collection.findFirst?_eq_none_iff.1 hfirst stored
        (by rw [Catalog.documents_get]; exact hstored)
      rw [(hholds stored hstored).2 hid] at hnot
      cases hnot
    obtain ⟨key, hkey⟩ :=
      Option.isSome_iff_exists.1 (LawfulEntityId.isSome_key?_toValue (Entity.id entity))
    have hfree : key ∉ (s.catalog.get (Stored.collection τ)).toList.map Prod.fst := by
      intro hmem
      obtain ⟨stored, hstored, hid⟩ := hs.exists_of_mem_keys hkey hmem
      exact habsent stored hstored hid
    have hprepare : (s.catalog.get (Stored.collection τ)).prepare (Stored.collection τ) s.supply
        (upsertDocument (Context.byId (Entity.id entity)) (Entity.encode entity)) =
        .ok ⟨EntityId.toValue (Entity.id entity), key, Entity.encode entity, s.supply⟩ := by
      rw [upsertDocument_encode, Collection.prepare_eq_ok_iff]
      exact Or.inl ⟨_, key, LawfulEntity.get?_encode_id entity, hkey, hfree, rfl⟩
    rw [runOn_replaceOne_of_none _ hf hfirst, runOn_insertInto]
    dsimp only [record]
    rw [hprepare]
    exact ⟨_, _, rfl, Catalog.puts_push hkey hfree habsent, rfl⟩

/-- Storing an entity that is stored leaves every collection as it is. -/
theorem exists_runOn_replaceOne_again
    (hmem : Entity.encode entity ∈ s.catalog.documents (Stored.collection τ)) :
    ∃ r t, (replaceOne (Stored.collection τ) (Context.byId (Entity.id entity))
        (Entity.encode entity) true).runOn s = (.ok r, t) ∧
      ∀ name, t.catalog.content? name = s.catalog.content? name := by
  obtain ⟨f, hf, hholds⟩ := exists_byIdFilter hs (Entity.id entity)
  have hid : (Entity.encode entity).get? "_id" = some (EntityId.toValue (Entity.id entity)) :=
    LawfulEntity.get?_encode_id entity
  cases hfirst : (s.catalog.get (Stored.collection τ)).findFirst? f.holds with
  | some i =>
    obtain ⟨htest, hfound⟩ := Collection.of_findFirst?_eq_some hfirst
    rw [Catalog.documents_get] at hfound
    have hfoundId := (hholds _ hfound).1 htest
    have hsame := hs.eq_of_get?_id hfound hmem (hfoundId.trans hid.symm)
    refine ⟨_, _, runOn_replaceOne_of_some _ true hf hfirst, ?_⟩
    rw [withStoredId_encode hfoundId]
    exact Catalog.content?_insert_replaceAt_self i hsame
  | none =>
    have hnot := Collection.findFirst?_eq_none_iff.1 hfirst (Entity.encode entity)
      (by rw [Catalog.documents_get]; exact hmem)
    rw [(hholds _ hmem).2 hid] at hnot
    cases hnot

/-- A stored entity is found by its identifier, unless a global filter is in the way. -/
theorem findById?_of_mem {info : EntityInfo} (hinfo : Entity.info τ = .ok info) {c : Context}
    (hshared : c.globalFilter? τ = none)
    (hmem : Entity.encode entity ∈ s.catalog.documents (Stored.collection τ)) :
    ((c.findById? τ (Entity.id entity)).runOn s).1 = .ok (some entity) := by
  obtain ⟨f, hf, hholds⟩ := exists_byIdFilter hs (Entity.id entity)
  have hmerged : c.mergeFilter τ (Context.byId (Entity.id entity)) =
      Context.byId (Entity.id entity) := by
    rw [Context.mergeFilter, hshared]
  have hselected : selectDocuments f { limit := some 1 } (s.catalog.documents info.collection) =
      [Entity.encode entity] := by
    have hfilter : (s.catalog.documents (Stored.collection τ)).filter f.holds =
        [Entity.encode entity] := by
      rw [← hs.filter_byId hmem]
      apply List.filter_congr
      intro doc hdoc
      rw [Bool.eq_iff_iff, hholds doc hdoc, hs.takes_byId_iff hdoc]
    rw [(Entity.info_eq_ok hinfo).1, selectDocuments, hfilter]
    rfl
  have hrun := Context.runOn_findUpTo hinfo (by rw [hmerged]; exact hf) (some 1) s
  rw [hselected, hmerged] at hrun
  rw [Context.findById?, Context.findOne?, Action.runOn_bind_pure, hrun]
  have hdecode : Entity.decode (Entity.encode entity) = .ok entity := by
    rw [Entity.decode, LawfulEntity.decode?_encode]
  rw [List.mapM_cons, hdecode]
  rfl

end Storing

/-! ## What becomes of an entity that is saved -/

/-- What an entity is saved as: itself if it has an identifier, and otherwise itself under one that
the store generates. -/
def Context.SavesAs (s : Store) (entity saved : τ) : Prop :=
  (EntityId.isUnsaved (Entity.id entity) = false ∧ saved = entity) ∨
    (EntityId.isUnsaved (Entity.id entity) = true ∧ ∃ generate id t,
      EntityId.generate? = some generate ∧ generate.runOn s = (.ok id, t) ∧
        saved = Entity.withId id entity)

/-- Whether an entity lacks an identifier and none can be generated. -/
def Context.LacksId (entity : τ) : Prop :=
  EntityId.isUnsaved (Entity.id entity) = true ∧ (EntityId.generate? : Option (Action ι)) = none

namespace Context

/-- An entity that lacks an identifier is refused before anything is done; any other one is
identified, and the collections and the sessions are left alone. -/
theorem identify_cases [ReliableId ι] (s : Store) (entity : τ) :
    (LacksId entity ∧
        (identify entity).runOn s = (.error (.idRequired (Stored.typeName τ)), s)) ∨
      ¬ LacksId entity ∧ ∃ saved t, (identify entity).runOn s = (.ok saved, t) ∧
        SavesAs s entity saved ∧ Evolves (· = ·) s t := by
  have hkeeps := keeps_evolves_identify entity s
  unfold identify at hkeeps ⊢
  cases hunsaved : EntityId.isUnsaved (Entity.id entity) with
  | false =>
    refine Or.inr ⟨fun hlacks => ?_, entity, s, rfl, Or.inl ⟨hunsaved, rfl⟩, rfl, rfl⟩
    rw [hlacks.1] at hunsaved
    cases hunsaved
  | true =>
    rw [hunsaved] at hkeeps
    -- a type without a generator refuses an entity that has no identifier yet
    cases hgenerate : (EntityId.generate? : Option (Action ι)) with
    | none => exact Or.inl ⟨⟨hunsaved, hgenerate⟩, rfl⟩
    | some generate =>
      obtain ⟨id, t, hrun⟩ := ReliableId.exists_runOn_generate generate hgenerate s
      rw [hgenerate] at hkeeps
      have hidentify : (do return Entity.withId (← generate) entity : Action τ).runOn s =
          (.ok (Entity.withId id entity), t) := by
        rw [Action.runOn_bind_of_ok hrun]
        rfl
      dsimp only [if_pos] at hkeeps ⊢
      refine Or.inr ⟨fun hlacks => ?_, _, t, hidentify,
        Or.inr ⟨hunsaved, generate, id, t, hgenerate, hrun, rfl⟩, ?_⟩
      · rw [hlacks.2] at hgenerate
        cases hgenerate
      · rw [if_pos rfl, hidentify] at hkeeps
        exact hkeeps

/-- Saving an entity is refused because of what its type declares, or because the entity lacks an
identifier, and changes nothing; or it stores the entity under its identifier. -/
theorem save_cases [LawfulEntity τ] [ReliableId ι] (hs : s.catalog.HoldsEntities τ) (c : Context)
    (entity : τ) :
    (∃ e, Entity.info τ = .error e ∧ (c.save entity).runOn s = (.error e, s)) ∨
      (∃ info, Entity.info τ = .ok info) ∧
        ((LacksId entity ∧
            (c.save entity).runOn s = (.error (.idRequired (Stored.typeName τ)), s)) ∨
          ¬ LacksId entity ∧ ∃ saved t, (c.save entity).runOn s = (.ok saved, t) ∧
            SavesAs s entity saved ∧ s.catalog.Puts saved t.catalog ∧
              t.sessions = s.sessions) := by
  cases hinfo : Entity.info τ with
  | error e =>
    refine Or.inl ⟨e, rfl, ?_⟩
    rw [save, Action.runOn_bind, Action.runOn_ofExcept, hinfo]
  | ok info =>
    refine Or.inr ⟨⟨info, rfl⟩, ?_⟩
    rcases identify_cases s entity with
      ⟨hlacks, hidentify⟩ | ⟨hnot, saved, u, hidentify, hsaves, hcatalog, hsessions⟩
    · refine Or.inl ⟨hlacks, ?_⟩
      rw [save, Action.runOn_bind, Action.runOn_ofExcept, hinfo]
      dsimp only
      rw [Action.runOn_bind, hidentify]
    · -- giving an identifier left the collections, so they still hold entities of the type
      have hu : u.catalog.HoldsEntities τ := by
        rw [← hcatalog]
        exact hs
      obtain ⟨r, t, hreplace, hputs, hreplaced⟩ := exists_runOn_replaceOne_encode hu saved
      rw [← hcatalog] at hputs
      refine Or.inr ⟨hnot, saved, t, ?_, hsaves, hputs, hreplaced.trans hsessions⟩
      refine Action.runOn_ofExcept_bind_eq_ok_iff.2 ⟨info, hinfo, ?_⟩
      rw [(Entity.info_eq_ok hinfo).1]
      exact Action.runOn_bind_eq_ok_iff.2 ⟨saved, u, hidentify,
        Action.runOn_bind_eq_ok_iff.2 ⟨r, t, hreplace, rfl⟩⟩

end Context

/-- Among the entities of its type, an entity with an identifier is stored. -/
theorem Catalog.HoldsEntities.exists_runOn_save [LawfulEntity τ] [ReliableId ι]
    (hs : s.catalog.HoldsEntities τ) {info : EntityInfo} (hinfo : Entity.info τ = .ok info)
    (c : Context) (hsaved : EntityId.isUnsaved (Entity.id entity) = false) :
    ∃ t, (c.save entity).runOn s = (.ok entity, t) ∧ s.catalog.Puts entity t.catalog := by
  rcases Context.save_cases hs c entity with
    ⟨e, herror, -⟩ | ⟨-, ⟨hlacks, -⟩ | ⟨-, saved, t, hsave, hsavesAs, hputs, -⟩⟩
  · rw [hinfo] at herror
    cases herror
  · exact Bool.noConfusion (hsaved.symm.trans hlacks.1)
  · rcases hsavesAs with ⟨-, rfl⟩ | ⟨hunsaved, -⟩
    · exact ⟨t, hsave, hputs⟩
    · exact Bool.noConfusion (hsaved.symm.trans hunsaved)

end DocMapper
