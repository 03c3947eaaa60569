import DocMapper.Proofs.Cascade.IdDelete
import DocMapper.Proofs.Context.Saving
import DocMapper.Proofs.Relation.Linking

set_option autoImplicit false

/-!
# Referential integrity

An `EntityRun` is any number of operations on entities and their links, in any contexts and for any
entity types, from a store without collections: saving, linking entities that are stored, unlinking,
deleting with success, and starting, committing and aborting transactions. No chunks are kept among
the entities.

In every store that such a run leads to, both ends of each row of each join collection are
identifiers of stored entities (`EntityRun.linked`).
-/

namespace DocMapper

open Store

/-- The stores that operations on entities lead to. The collections of linked entity types are among
`entities`, and no deletion looks for chunks in one of these. -/
inductive EntityRun (entities : String → Prop) : Store → Prop
  | start (supply : IdSupply) : EntityRun entities (Store.empty supply)
  /-- An entity is saved, or that fails. -/
  | save {s t : Store} {τ ι : Type} [EntityId ι] [LawfulGenerator ι] [Entity τ ι] {c : Context}
      {entity : τ} {result : Except Error τ} (hrun : EntityRun entities s)
      (hcall : (c.save entity).runOn s = (result, t)) : EntityRun entities t
  /-- A stored entity is linked to a stored one, or that fails. -/
  | add {s t : Store} {γ π ι κ : Type} [EntityId ι] [EntityId κ] [Entity γ ι] [Entity π κ]
      {c : Context} {property : String} {id : κ} {l : Links γ .owner} {child : ι}
      {result : Except Error Unit} (hrun : EntityRun entities s)
      (hlinks : c.links γ π .owner property id = .ok l)
      (hparents : entities (Stored.collection π)) (hchildren : entities (Stored.collection γ))
      (hparent : s.catalog.Stores (Stored.collection π) (EntityId.toValue id))
      (hchild : s.catalog.Stores (Stored.collection γ) (EntityId.toValue child))
      (hcall : (l.add child).runOn s = (result, t)) : EntityRun entities t
  /-- Several stored entities are linked to a stored one, or that fails at one of them. -/
  | addMany {s t : Store} {γ π ι κ : Type} [EntityId ι] [EntityId κ] [Entity γ ι] [Entity π κ]
      {c : Context} {property : String} {id : κ} {l : Links γ .owner} {children : List ι}
      {result : Except Error Unit} (hrun : EntityRun entities s)
      (hlinks : c.links γ π .owner property id = .ok l)
      (hparents : entities (Stored.collection π)) (hchildren : entities (Stored.collection γ))
      (hparent : s.catalog.Stores (Stored.collection π) (EntityId.toValue id))
      (hstored : ∀ child ∈ children,
        s.catalog.Stores (Stored.collection γ) (EntityId.toValue child))
      (hcall : (l.addMany children).runOn s = (result, t)) : EntityRun entities t
  /-- A link is removed, or that fails. -/
  | remove {s t : Store} {γ π ι κ : Type} [EntityId ι] [EntityId κ] [Entity γ ι] [Entity π κ]
      {c : Context} {property : String} {id : κ} {l : Links γ .owner} {child : ι}
      {result : Except Error DeleteResult} (hrun : EntityRun entities s)
      (hlinks : c.links γ π .owner property id = .ok l)
      (hcall : (l.remove child).runOn s = (result, t)) : EntityRun entities t
  /-- Several links are removed, or that fails. -/
  | removeMany {s t : Store} {γ π ι κ : Type} [EntityId ι] [EntityId κ] [Entity γ ι] [Entity π κ]
      {c : Context} {property : String} {id : κ} {l : Links γ .owner} {children : List ι}
      {result : Except Error DeleteResult} (hrun : EntityRun entities s)
      (hlinks : c.links γ π .owner property id = .ok l)
      (hcall : (l.removeMany children).runOn s = (result, t)) : EntityRun entities t
  /-- Entities are deleted by their identifiers, with or without a global filter. -/
  | delete {s t : Store} {τ ι : Type} [EntityId ι] [Entity τ ι] {c : Context} {ids : List ι}
      {cancellation : Option Cancellation} {r : DeleteResult} (hrun : EntityRun entities s)
      (hchunks : ¬ entities c.config.chunkCollection)
      (hcall : (c.delete τ ids cancellation).runOn s = (.ok r, t)) : EntityRun entities t
  /-- An entity is deleted by its identifier, with or without a global filter. -/
  | deleteOne {s t : Store} {τ ι : Type} [EntityId ι] [Entity τ ι] {c : Context} {id : ι}
      {cancellation : Option Cancellation} {r : DeleteResult} (hrun : EntityRun entities s)
      (hchunks : ¬ entities c.config.chunkCollection)
      (hcall : (c.deleteOne τ id cancellation).runOn s = (.ok r, t)) : EntityRun entities t
  /-- Entities are deleted by a filter, with or without a global filter. -/
  | deleteWhere {s t : Store} {τ ι : Type} [EntityId ι] [Entity τ ι] {c : Context}
      {filter : Document} {cancellation : Option Cancellation} {r : DeleteResult}
      (hrun : EntityRun entities s) (hchunks : ¬ entities c.config.chunkCollection)
      (hcall : (c.deleteWhere τ filter cancellation).runOn s = (.ok r, t)) : EntityRun entities t
  /-- A transaction is started, or that is refused. -/
  | transaction {s t : Store} {c : Context} {result : Except Error Context}
      (hrun : EntityRun entities s) (hcall : c.transaction.runOn s = (result, t)) :
      EntityRun entities t
  /-- A transaction is committed, or that is refused. -/
  | commit {s t : Store} {c : Context} {result : Except Error Unit} (hrun : EntityRun entities s)
      (hcall : c.commit.runOn s = (result, t)) : EntityRun entities t
  /-- A transaction is aborted, or that is refused. -/
  | abort {s t : Store} {c : Context} {result : Except Error Unit} (hrun : EntityRun entities s)
      (hcall : c.abort.runOn s = (result, t)) : EntityRun entities t
  /-- Anything that leaves the collections and the sessions alone, such as reading. -/
  | elsewhere {s t : Store} (hrun : EntityRun entities s) (hcatalog : t.catalog = s.catalog)
      (hsessions : t.sessions = s.sessions) : EntityRun entities t

variable {entities : String → Prop} {s : Store}

/-- Each store that a run leads to is intact. -/
theorem EntityRun.intact (hrun : EntityRun entities s) : s.Intact entities := by
  -- by induction on the run, with one law for each operation
  induction hrun with
  | start supply => exact .empty entities supply
  | save _ hcall ih => exact ih.save _ hcall
  | add _ hlinks hparents hchildren hparent hchild hcall ih =>
    exact ih.add hlinks hparents hchildren hparent hchild hcall
  | addMany _ hlinks hparents hchildren hparent hstored hcall ih =>
    exact ih.addMany hlinks hparents hchildren hparent hstored hcall
  | remove _ hlinks hcall ih => exact ih.remove hlinks hcall
  | removeMany _ hlinks hcall ih => exact ih.removeMany hlinks hcall
  | delete _ hchunks hcall ih =>
    exact ih.delete (fun _ => ih.catalog.sparesLinked hchunks _) hcall
  | deleteOne _ hchunks hcall ih =>
    exact ih.delete (fun _ => ih.catalog.sparesLinked hchunks _) hcall
  | deleteWhere _ hchunks hcall ih =>
    exact ih.deleteWhere (fun _ => ih.catalog.sparesLinked hchunks _) hcall
  | transaction _ hcall ih => exact ih.transaction hcall
  | commit _ hcall ih => exact ih.commit hcall
  | abort _ hcall ih => exact ih.abort hcall
  | elsewhere _ hcatalog hsessions ih =>
    refine ⟨?_, ?_⟩
    · rw [hcatalog]
      exact ih.catalog
    · rw [hsessions]
      exact ih.snapshots

/-- Referential integrity: whatever was saved, linked, unlinked, deleted and rolled back, each row
of each join collection holds the identifier of a stored entity of its parent's collection and that
of one of its child's collection. -/
theorem EntityRun.linked (hrun : EntityRun entities s) {name : String} {n : JoinName}
    (hname : JoinName.ofText? name = some n) :
    ∀ row ∈ s.catalog.documents name,
      (∃ parent, row.get? parentField = some parent ∧
        ∃ doc ∈ s.catalog.documents n.parent, doc.get? "_id" = some parent) ∧
      ∃ child, row.get? childField = some child ∧
        ∃ doc ∈ s.catalog.documents n.child, doc.get? "_id" = some child := by
  intro row hrow
  have hlink := hrun.intact.catalog.links name n hname row hrow
  exact ⟨hlink.parent, hlink.child⟩

/-! ## A run in the sample shop -/

namespace Sample

theorem exists_info_item : ∃ info, Entity.info Item = .ok info := ⟨_, rfl⟩

theorem exists_info_counter : ∃ info, Entity.info Counter = .ok info := ⟨_, rfl⟩

theorem exists_links_itemCounters (id : Int64) :
    ∃ l : Links Counter .owner, Context.links {} Counter Item .owner "Counters" id = .ok l ∧
      l.entityId = .int64 id ∧ l.join = ⟨itemCounters.text, .manyToMany, none⟩ :=
  ⟨_, rfl, rfl, rfl⟩

end Sample

open Sample in
/-- An item and a counter are saved and linked in a new store. The row that is there then holds the
identifiers of both. -/
theorem EntityRun.linked_item :
    ∃ s, EntityRun (· ≠ "[BINARY_CHUNKS]") s ∧ s.catalog.documents itemCounters.text ≠ [] ∧
      ∀ row ∈ s.catalog.documents itemCounters.text,
        (∃ parent, row.get? parentField = some parent ∧
          ∃ doc ∈ s.catalog.documents "shop.items", doc.get? "_id" = some parent) ∧
        ∃ child, row.get? childField = some child ∧
          ∃ doc ∈ s.catalog.documents "Counter", doc.get? "_id" = some child := by
  obtain ⟨info, hinfo⟩ := exists_info_item
  obtain ⟨info', hinfo'⟩ := exists_info_counter
  obtain ⟨l, hlinks, hid, hjoin⟩ := exists_links_itemCounters 5
  let context : Context := {}
  let item : Item := ⟨5, .none⟩
  let counter : Counter := ⟨7, 0⟩
  -- both are saved into collections that do not exist before
  obtain ⟨s₁, hitem, hputs⟩ : ∃ t, (context.save item).runOn (Store.empty ⟨0⟩) = (.ok item, t) ∧
      (Store.empty ⟨0⟩).catalog.Puts item t.catalog :=
    Catalog.HoldsEntities.empty.exists_runOn_save hinfo context (by decide)
  have hcounters : s₁.catalog.HoldsEntities Counter :=
    Catalog.HoldsEntities.empty.congr (hputs.content?_of_ne _ (by decide))
  obtain ⟨s₂, hcounter, hputs'⟩ : ∃ t, (context.save counter).runOn s₁ = (.ok counter, t) ∧
      s₁.catalog.Puts counter t.catalog :=
    hcounters.exists_runOn_save hinfo' context (by decide)
  have hparent := hputs'.stores_of_ne (by decide) hputs.stores
  -- there are no links yet, so the link is the only one
  have habsent : s₂.catalog.content? l.join.name = none := by
    rw [hjoin, hputs'.content?_of_ne _ (by decide), hputs.content?_of_ne _ (by decide)]
    rfl
  obtain ⟨s₃, hadd, hlinked⟩ := JoinCollection.exists_runOn_add_of_absent (by rw [hjoin]) habsent
    (.int64 5) (.int64 7)
  have hcall : (l.add (7 : Int64)).runOn s₂ = (.ok (), s₃) := by
    rw [Links.add, hid]
    exact hadd
  have hrun : EntityRun (· ≠ "[BINARY_CHUNKS]") s₃ :=
    (((EntityRun.start ⟨0⟩).save hitem).save hcounter).add hlinks (by decide) (by decide) hparent
      hputs'.stores hcall
  refine ⟨s₃, hrun, fun hempty => ?_, hrun.linked isLegal_itemCounters.isReadable.ofText?_text⟩
  rw [hjoin, Holds, hempty] at hlinked
  cases hlinked

end DocMapper
