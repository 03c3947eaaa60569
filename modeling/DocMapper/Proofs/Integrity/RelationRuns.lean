import DocMapper.Proofs.Context.SavedRuns
import DocMapper.Proofs.Relation.HandleRuns

set_option autoImplicit false

/-!
# Runs over entities and their links

A `RelationRun` is any number of operations on entities and their links, with an eye on one type of
entities, which is stored in its own collection. Three things are known of every store that such a
run leads to. Its rows link entities that are stored (`RelationRun.intact`), the collection of the
type holds its entities, each under its identifier (`RelationRun.everywhere`), and under each name
of a join collection there is one row for each link (`RelationRun.handleRun`).

Where a file type keeps its chunks in a collection of linked entities, a deletion takes an entity
for a chunk if it refers to a file that is deleted. No such deletion is part of a run
(`Catalog.SparesLinked`).
-/

namespace DocMapper

open Store

/-! ## Saving next to other collections -/

section Saving

variable {τ ι : Type} [EntityId ι] [LawfulGenerator ι] [Entity τ ι] {c : Context} {entity : τ}
variable {result : Except Error τ} {name : String} {s t : Store}

/-- Saving an entity, with success or not, leaves the sessions alone, and each collection but that
of its type, which has a legal name. -/
theorem Context.content?_of_save (hcall : (c.save entity).runOn s = (result, t))
    (hname : name = Stored.collection τ → isCollectionName name = false) :
    t.sessions = s.sessions ∧ t.catalog.content? name = s.catalog.content? name := by
  cases hinfo : Entity.info τ with
  | error e =>
    rw [Context.save, Action.runOn_bind, Action.runOn_ofExcept, hinfo] at hcall
    obtain ⟨-, rfl⟩ := Prod.mk.inj hcall
    exact ⟨rfl, rfl⟩
  | ok info =>
    obtain ⟨hcollection, hlegal, -⟩ := Entity.info_eq_ok hinfo
    have hgrows := (keeps_grows_save hinfo c entity).of_runOn hcall
    refine ⟨hgrows.sessions, hgrows.catalog.content?_of_ne name ?_⟩
    rintro rfl
    exact Bool.noConfusion (hlegal.symm.trans (hname hcollection))

/-- Under the name of a join collection nothing is saved. -/
theorem HandleRun.save (hrun : HandleRun name s) {n : JoinName}
    (hname : JoinName.ofText? name = some n) (hcall : (c.save entity).runOn s = (result, t)) :
    HandleRun name t := by
  have hillegal : isCollectionName name = false := by
    rw [← Bool.not_eq_true]
    intro hlegal
    rw [JoinName.ofText?_of_isCollectionName hlegal] at hname
    cases hname
  obtain ⟨hsessions, hcontent⟩ :
      t.sessions = s.sessions ∧ t.catalog.content? name = s.catalog.content? name :=
    Context.content?_of_save hcall fun _ => hillegal
  exact hrun.elsewhere (by rw [Catalog.documents_eq, hcontent, ← Catalog.documents_eq]) hsessions

end Saving

/-! ## Runs -/

/-- The stores that operations on entities and their links lead to. One type of entities is stored in
its own collection, and no deletion takes a linked entity for a chunk. -/
inductive RelationRun (γ : Type) {ι : Type} [EntityId ι] [Entity γ ι] : Store → Prop
  | start (supply : IdSupply) : RelationRun γ (Store.empty supply)
  /-- An entity of the type is saved, or that fails. -/
  | save {s t : Store} {c : Context} {entity : γ} {result : Except Error γ}
      (hrun : RelationRun γ s) (hcall : (c.save entity).runOn s = (result, t)) :
      RelationRun γ t
  /-- An entity of another type is saved in another collection, or that fails. -/
  | saveOther {s t : Store} {τ ι' : Type} [EntityId ι'] [LawfulGenerator ι'] [Entity τ ι']
      {c : Context} {entity : τ} {result : Except Error τ} (hrun : RelationRun γ s)
      (hother : Stored.collection γ ≠ Stored.collection τ)
      (hcall : (c.save entity).runOn s = (result, t)) : RelationRun γ t
  /-- Stored entities are linked to a stored one, or that fails at one of them. -/
  | addMany {s t : Store} {σ π ι' κ : Type} [EntityId ι'] [EntityId κ] [ReliableId ι']
      [ReliableId κ] [Entity σ ι'] [Entity π κ] {c : Context} {property : String} {id : κ}
      {l : Links σ .owner} {children : List ι'} {result : Except Error Unit}
      (hrun : RelationRun γ s) (hlinks : c.links σ π .owner property id = .ok l)
      (hparent : s.catalog.Stores (Stored.collection π) (EntityId.toValue id))
      (hstored : ∀ child ∈ children,
        s.catalog.Stores (Stored.collection σ) (EntityId.toValue child))
      (hcall : (l.addMany children).runOn s = (result, t)) : RelationRun γ t
  /-- A link is removed, or that fails. -/
  | remove {s t : Store} {σ π ι' κ : Type} [EntityId ι'] [EntityId κ] [Entity σ ι'] [Entity π κ]
      {c : Context} {property : String} {id : κ} {l : Links σ .owner} {child : ι'}
      {result : Except Error DeleteResult} (hrun : RelationRun γ s)
      (hlinks : c.links σ π .owner property id = .ok l)
      (hcall : (l.remove child).runOn s = (result, t)) : RelationRun γ t
  /-- Several links are removed, or that fails. -/
  | removeMany {s t : Store} {σ π ι' κ : Type} [EntityId ι'] [EntityId κ] [Entity σ ι']
      [Entity π κ] {c : Context} {property : String} {id : κ} {l : Links σ .owner}
      {children : List ι'} {result : Except Error DeleteResult} (hrun : RelationRun γ s)
      (hlinks : c.links σ π .owner property id = .ok l)
      (hcall : (l.removeMany children).runOn s = (result, t)) : RelationRun γ t
  /-- Entities are deleted by their identifiers, with or without a global filter. -/
  | delete {s t : Store} {τ ι' : Type} [EntityId ι'] [Entity τ ι'] {c : Context} {ids : List ι'}
      {cancellation : Option Cancellation} {r : DeleteResult} (hrun : RelationRun γ s)
      (hchunks : Entity.isFile τ = true →
        s.catalog.SparesLinked c.config.chunkCollection (ids.map EntityId.toValue))
      (hcall : (c.delete τ ids cancellation).runOn s = (.ok r, t)) : RelationRun γ t
  /-- Entities are deleted by a filter, with or without a global filter. -/
  | deleteWhere {s t : Store} {τ ι' : Type} [EntityId ι'] [Entity τ ι'] {c : Context}
      {filter : Document} {cancellation : Option Cancellation} {r : DeleteResult}
      (hrun : RelationRun γ s)
      (hchunks : Entity.isFile τ = true → s.catalog.SparesLinked c.config.chunkCollection
        (identifiers ((s.catalog.documents (Stored.collection τ)).filter
          (takes (c.mergeFilter τ filter)))))
      (hcall : (c.deleteWhere τ filter cancellation).runOn s = (.ok r, t)) :
      RelationRun γ t
  /-- A transaction is started, or that is refused. -/
  | transaction {s t : Store} {c : Context} {result : Except Error Context}
      (hrun : RelationRun γ s) (hcall : c.transaction.runOn s = (result, t)) :
      RelationRun γ t
  /-- A transaction is committed, or that is refused. -/
  | commit {s t : Store} {c : Context} {result : Except Error Unit}
      (hrun : RelationRun γ s) (hcall : c.commit.runOn s = (result, t)) :
      RelationRun γ t
  /-- A transaction is aborted, or that is refused. -/
  | abort {s t : Store} {c : Context} {result : Except Error Unit}
      (hrun : RelationRun γ s) (hcall : c.abort.runOn s = (result, t)) :
      RelationRun γ t
  /-- Anything that leaves the collections and the sessions alone, such as reading. -/
  | elsewhere {s t : Store} (hrun : RelationRun γ s) (hcatalog : t.catalog = s.catalog)
      (hsessions : t.sessions = s.sessions) : RelationRun γ t

namespace RelationRun

variable {γ ι : Type} [EntityId ι] [Entity γ ι] {s t : Store}

/-- A stored entity is linked to a stored one, or that fails. -/
theorem add (hrun : RelationRun γ s) {σ π ι' κ : Type} [EntityId ι'] [EntityId κ]
    [ReliableId ι'] [ReliableId κ] [Entity σ ι'] [Entity π κ] {c : Context} {property : String}
    {id : κ} {l : Links σ .owner} {child : ι'} {result : Except Error Unit}
    (hlinks : c.links σ π .owner property id = .ok l)
    (hparent : s.catalog.Stores (Stored.collection π) (EntityId.toValue id))
    (hchild : s.catalog.Stores (Stored.collection σ) (EntityId.toValue child))
    (hcall : (l.add child).runOn s = (result, t)) : RelationRun γ t := by
  rw [← runOn_addMany_singleton] at hcall
  refine hrun.addMany hlinks hparent (fun other hother => ?_) hcall
  rw [List.mem_singleton.1 hother]
  exact hchild

/-- An entity is deleted by its identifier, with or without a global filter. -/
theorem deleteOne (hrun : RelationRun γ s) {τ ι' : Type} [EntityId ι'] [Entity τ ι']
    {c : Context} {id : ι'} {cancellation : Option Cancellation} {r : DeleteResult}
    (hchunks : Entity.isFile τ = true →
      s.catalog.SparesLinked c.config.chunkCollection [EntityId.toValue id])
    (hcall : (c.deleteOne τ id cancellation).runOn s = (.ok r, t)) : RelationRun γ t := by
  refine hrun.delete (fun hfile => ?_) hcall
  exact hchunks hfile

/-! ## Rows link stored entities -/

/-- Each store that a run leads to is intact. -/
theorem intact [ReliableId ι] (hrun : RelationRun γ s) : s.Intact fun _ => True := by
  -- by induction on the run, with one law for each operation
  induction hrun with
  | start supply => exact .empty _ supply
  | save _ hcall ih => exact ih.save _ hcall
  | saveOther _ _ hcall ih => exact ih.save _ hcall
  | addMany _ hlinks hparent hstored hcall ih =>
    exact ih.addMany hlinks trivial trivial hparent hstored hcall
  | remove _ hlinks hcall ih => exact ih.remove hlinks hcall
  | removeMany _ hlinks hcall ih => exact ih.removeMany hlinks hcall
  | delete _ hchunks hcall ih => exact ih.delete hchunks hcall
  | deleteWhere _ hchunks hcall ih => exact ih.deleteWhere hchunks hcall
  | transaction _ hcall ih => exact ih.transaction hcall
  | commit _ hcall ih => exact ih.commit hcall
  | abort _ hcall ih => exact ih.abort hcall
  | elsewhere _ hcatalog hsessions ih =>
    have hsame : Evolves (· = ·) _ _ := ⟨hcatalog.symm, hsessions⟩
    exact ih.evolves hsame fun h => h ▸ ih.catalog

/-! ## The collection of the type -/

/-- In every catalog of a store that a run leads to, the collection of the type holds its entities,
each under its identifier. -/
theorem everywhere [LawfulEntity γ] [ReliableId ι] (hrun : RelationRun γ s)
    {info : EntityInfo} (hinfo : Entity.info γ = .ok info) :
    s.Everywhere (Catalog.HoldsEntities γ) := by
  have hname : isCollectionName (Stored.collection γ) = true := by
    obtain ⟨hcollection, hname, -⟩ := Entity.info_eq_ok hinfo
    rwa [hcollection] at hname
  -- by induction on the run: a save puts an entity, and rows are in other collections
  induction hrun with
  | start supply => exact .empty .empty supply
  | save _ hcall ih => exact ih.save hcall
  | saveOther _ hother hcall ih =>
    obtain ⟨hsessions, hcontent⟩ := Context.content?_of_save hcall fun hsame => absurd hsame hother
    exact ih.of_sessions_eq hsessions (ih.catalog.congr hcontent)
  | @addMany s t σ π ι' κ _ _ _ _ _ _ c property id l children result _ hlinks _ _ hcall ih =>
    obtain ⟨hid, n, -, hjoin, -⟩ := Context.exists_isLegal_of_links hlinks
    have hkey : l.entityId.key?.isSome = true := by
      rw [hid]
      exact LawfulEntityId.isSome_key?_toValue id
    have hrelinks := (keeps_relinks_addMany l children hkey fun child _ =>
      LawfulEntityId.isSome_key?_toValue child).of_runOn hcall
    refine ih.of_sessions_eq hrelinks.sessions
      (ih.catalog.congr (hrelinks.catalog.content?_of_ne _ ?_))
    rw [← hjoin]
    exact (JoinName.text_ne_of_isCollectionName hname).symm
  | remove _ _ hcall ih =>
    exact ih.shrinks ((keptByDeleting_shrinks.deleteMany _ _ _).of_runOn hcall)
  | removeMany _ _ hcall ih =>
    exact ih.shrinks ((keeps_shrinks_removeMany _ _ _).of_runOn hcall)
  | delete _ _ hcall ih =>
    exact ih.shrinks ((Context.keeps_delete keptByDeleting_shrinks _ _ _).of_runOn hcall)
  | deleteWhere _ _ hcall ih =>
    exact ih.shrinks ((Context.keeps_deleteWhere keptByDeleting_shrinks _ _ _).of_runOn hcall)
  | transaction _ hcall ih => exact ih.transaction hcall
  | commit _ hcall ih => exact ih.commit hcall
  | abort _ hcall ih => exact ih.abort hcall
  | elsewhere _ hcatalog hsessions ih =>
    exact ih.of_sessions_eq hsessions (hcatalog ▸ ih.catalog)

/-! ## One row for each link -/

/-- Under the name of a join collection, a run is one of handles. -/
theorem handleRun [ReliableId ι] (hrun : RelationRun γ s) {name : String} {n : JoinName}
    (hname : JoinName.ofText? name = some n) : HandleRun name s := by
  -- by induction on the run: only handles write there
  induction hrun with
  | start supply => exact .start supply
  | save _ hcall ih => exact ih.save hname hcall
  | saveOther _ _ hcall ih => exact ih.save hname hcall
  | addMany _ hlinks _ _ hcall ih => exact ih.addMany hlinks hcall
  | remove _ _ hcall ih => exact ih.remove hcall
  | removeMany _ _ hcall ih => exact ih.removeMany hcall
  | delete _ _ hcall ih =>
    exact ih.shrink ((Context.keeps_delete keptByDeleting_shrinks _ _ _).of_runOn hcall)
  | deleteWhere _ _ hcall ih =>
    exact ih.shrink ((Context.keeps_deleteWhere keptByDeleting_shrinks _ _ _).of_runOn hcall)
  | transaction _ hcall ih => exact ih.transaction hcall
  | commit _ hcall ih => exact ih.commit hcall
  | abort _ hcall ih => exact ih.abort hcall
  | elsewhere _ hcatalog hsessions ih => exact ih.elsewhere (by rw [hcatalog]) hsessions

end RelationRun

end DocMapper
