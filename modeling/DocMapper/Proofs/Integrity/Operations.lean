import DocMapper.Context.Links
import DocMapper.Proofs.Context.Confinement
import DocMapper.Proofs.Integrity.Invariant
import DocMapper.Proofs.Relation.LinkRows

set_option autoImplicit false

/-!
# What each operation does to linked entities

Saving lets the collection of the type grow, whatever its outcome (`keeps_grows_save`), and linking
makes no rows new but those of the two ends that it was given (`keeps_relinks_add`,
`keeps_relinks_addMany`). So each operation of a run keeps a store intact: saving, linking entities
that are stored, unlinking, deleting with success, and the operations on transactions.

Generating an identifier only draws from the supply; `LawfulGenerator` says so of the four types of
identifiers.
-/

namespace DocMapper

open Store

/-! ## Generating identifiers -/

/-- Generating an identifier changes neither the catalog nor a session. -/
class LawfulGenerator (ι : Type) [EntityId ι] : Prop where
  keeps_generate : ∀ generate : Action ι, EntityId.generate? = some generate →
    generate.Keeps (Evolves (· = ·))

instance : LawfulGenerator ObjectId where
  keeps_generate := by
    rintro _ ⟨⟩
    exact keeps_evolves_freshObjectId

instance : LawfulGenerator Uuid where
  keeps_generate := by
    rintro _ ⟨⟩
    exact keeps_evolves_freshUuid

instance : LawfulGenerator String where
  keeps_generate := by
    rintro _ ⟨⟩
    exact keeps_evolves_freshObjectId.bind fun id => .pure id.text

instance : LawfulGenerator Int64 where
  keeps_generate := by
    rintro _ ⟨⟩

/-! ## Saving -/

section Saving

variable {τ ι : Type} [EntityId ι] [Entity τ ι] [LawfulGenerator ι] {info : EntityInfo}

theorem keeps_evolves_identify (entity : τ) :
    (Context.identify entity).Keeps (Evolves (· = ·)) := by
  unfold Context.identify
  split
  · split
    · rename_i generate hgenerate
      exact (LawfulGenerator.keeps_generate generate hgenerate).bind fun id => .pure _
    · exact .throw _
  · exact .pure entity

theorem keeps_grows_save (hinfo : Entity.info τ = .ok info) (c : Context) (entity : τ) :
    (c.save entity).Keeps (Evolves (Catalog.Grows info.collection)) := by
  intro s
  rw [Context.save, Action.runOn_bind, Action.runOn_ofExcept, hinfo]
  refine Action.Keeps.bind ?_ (fun entity => ?_) s
  · exact (keeps_evolves_identify entity).mono fun _ _ h => h.of_eq
  · exact (keeps_grows_replaceOne info.collection _ _).bind fun _ => .pure entity

omit [LawfulGenerator ι] in
/-- Whether it succeeds or fails, saving an entity with an identifier does not change which
deletions fail. -/
theorem keeps_failsAlike_save (c : Context) {entity : τ}
    (hsaved : EntityId.isUnsaved (Entity.id entity) = false) :
    (c.save entity).Keeps FailsAlike := by
  refine (Action.Keeps.ofExcept _).bind fun info => ?_
  rw [Context.identify, hsaved]
  exact (Action.Keeps.pure entity).bind fun entity =>
    (keeps_failsAlike_replaceOne _ _ _ true).bind fun _ => .pure entity

end Saving

/-! ## Linking -/

section Linking

variable {j : JoinCollection} {parent child : Value} {allowed : Document → Prop}

/-- Whether it succeeds or fails, adding a link makes nothing new but what agrees with the row that
it inserts or with the pair that it upserts. -/
theorem keeps_relinks_add_of_agrees (j : JoinCollection)
    (hrow : ∀ id, ∀ row : Document, row.Agrees (JoinRow.toDocument ⟨id, parent, child⟩) →
      allowed row)
    (hpair : ∀ row : Document, row.Agrees (JoinCollection.pair parent child) → allowed row) :
    (j.add parent child).Keeps (Evolves (Catalog.Relinks j.name allowed)) := by
  unfold JoinCollection.add
  cases j.cardinality with
  | oneToMany =>
    -- the deletion makes nothing new, the identifier changes nothing, and the row is allowed
    refine (keeps_relinks_deleteMany j.name _ j.session).bind fun _ => ?_
    refine Action.Keeps.bind (keeps_evolves_freshObjectId.mono fun _ _ h => h.of_eq) fun id => ?_
    exact (keeps_relinks_insertOne j.name (hrow id)).bind fun _ => .pure _
  | manyToMany => exact (keeps_relinks_replaceOne j.name _ hpair).bind fun _ => .pure _

/-- Whether it succeeds or fails, adding a link of two keys makes only its row new. -/
theorem keeps_relinks_add (j : JoinCollection) (hparent : parent.key?.isSome = true)
    (hchild : child.key?.isSome = true) :
    (j.add parent child).Keeps (Evolves (Catalog.Relinks j.name (·.HasEnds parent child))) :=
  keeps_relinks_add_of_agrees j
    (fun id _ hrow => (Document.HasEnds.toDocument id hparent hchild).of_agrees hrow)
    fun _ hrow => (Document.HasEnds.pair parent child).of_agrees hrow

/-- Whether they succeed or fail, adding links one after another makes only their rows new. -/
theorem keeps_relinks_addMany {ι γ : Type} [EntityId ι] [Entity γ ι] (l : Links γ .owner)
    (children : List ι) (hparent : l.entityId.key?.isSome = true)
    (hchildren : ∀ child ∈ children, (EntityId.toValue child).key?.isSome = true) :
    (l.addMany children).Keeps (Evolves (Catalog.Relinks l.join.name fun row =>
      ∃ child ∈ children, row.HasEnds l.entityId (EntityId.toValue child))) := by
  induction children with
  | nil => exact .pure ()
  | cons child rest ih =>
    have hrest := ih fun other hother => hchildren other (List.mem_cons_of_mem _ hother)
    refine Action.Keeps.bind ?_ fun _ => ?_
    · refine (keeps_relinks_add l.join hparent (hchildren child List.mem_cons_self)).mono
        fun _ _ h => h.mono fun _ _ hlinks => hlinks.mono fun row hrow => ?_
      exact ⟨child, List.mem_cons_self, hrow⟩
    · refine hrest.mono fun _ _ h => h.mono fun _ _ hlinks => hlinks.mono ?_
      rintro row ⟨other, hother, hrow⟩
      exact ⟨other, List.mem_cons_of_mem _ hother, hrow⟩

theorem runOn_addMany_singleton {ι γ : Type} [EntityId ι] [Entity γ ι] (l : Links γ .owner)
    (child : ι) (s : Store) : (l.addMany [child]).runOn s = (l.add child).runOn s := by
  refine (Action.runOn_bind_pure (l.add child) id s).trans ?_
  cases (l.add child).runOn s with
  | mk result t => cases result <;> rfl

/-- Whether it succeeds or fails, removing links makes nothing new. -/
theorem keeps_relinks_removeMany (j : JoinCollection) (parent : Value) (children : List Value) :
    (j.removeMany parent children).Keeps (Evolves (Catalog.Relinks j.name allowed)) := by
  unfold JoinCollection.removeMany
  split
  · exact .pure _
  · exact keeps_relinks_deleteMany j.name _ j.session

end Linking

/-! ## Keeping a store intact -/

namespace Store.Intact

variable {entities : String → Prop} {s t : Store} {ι κ γ π τ : Type} [EntityId ι] [EntityId κ]
variable {c : Context} {r : DeleteResult} {result : Except Error Unit}

/-- A store stays intact where an entity is saved. -/
theorem save [Entity τ ι] [LawfulGenerator ι] (hs : s.Intact entities) (entity : τ)
    {result : Except Error τ} (h : (c.save entity).runOn s = (result, t)) : t.Intact entities := by
  cases hinfo : Entity.info τ with
  | error e =>
    rw [Context.save, Action.runOn_bind, Action.runOn_ofExcept, hinfo] at h
    obtain ⟨-, rfl⟩ := Prod.mk.inj h
    exact hs
  | ok info =>
    have hgrows := (keeps_grows_save hinfo c entity).of_runOn h
    obtain ⟨-, hname, -⟩ := Entity.info_eq_ok hinfo
    exact hs.evolves hgrows (hs.catalog.grows hname)

section Links

variable [Entity γ ι] [Entity π κ] {l : Links γ .owner} {property : String} {id : κ}

/-- A store stays intact where stored entities are linked to a stored one, even if that fails. -/
theorem addMany (hs : s.Intact entities) (hl : c.links γ π .owner property id = .ok l)
    (hparentType : entities (Stored.collection π)) (hchildType : entities (Stored.collection γ))
    (hparent : s.catalog.Stores (Stored.collection π) (EntityId.toValue id)) {children : List ι}
    (hchildren : ∀ child ∈ children,
      s.catalog.Stores (Stored.collection γ) (EntityId.toValue child))
    (h : (l.addMany children).runOn s = (result, t)) : t.Intact entities := by
  obtain ⟨hid, n, hn, hjoin, hnparent, hnchild⟩ := Context.exists_isLegal_of_links hl
  have hkey : l.entityId.key?.isSome = true := by
    rw [hid]
    exact hs.catalog.isSome_key? hparent
  have hrelinks := (keeps_relinks_addMany l children hkey fun child hchild =>
    hs.catalog.isSome_key? (hchildren child hchild)).of_runOn h
  rw [← hjoin] at hrelinks
  -- a row that is new has the given ends, and these were stored before the call
  refine hs.evolves hrelinks (hs.catalog.relinks ?_ hn)
  rintro row ⟨child, hchild, hends⟩
  exact {
    legal := hn
    entities_parent := by rwa [hnparent]
    entities_child := by rwa [hnchild]
    parent := ⟨_, hends.1, by rw [hid, hnparent]; exact hparent⟩
    child := ⟨_, hends.2, by rw [hnchild]; exact hchildren child hchild⟩ }

/-- A store stays intact where a stored entity is linked to a stored one, even if that fails. -/
theorem add (hs : s.Intact entities) (hl : c.links γ π .owner property id = .ok l)
    (hparentType : entities (Stored.collection π)) (hchildType : entities (Stored.collection γ))
    (hparent : s.catalog.Stores (Stored.collection π) (EntityId.toValue id)) {child : ι}
    (hchild : s.catalog.Stores (Stored.collection γ) (EntityId.toValue child))
    (h : (l.add child).runOn s = (result, t)) : t.Intact entities := by
  rw [← runOn_addMany_singleton] at h
  refine hs.addMany hl hparentType hchildType hparent (fun other hother => ?_) h
  obtain rfl := List.mem_singleton.1 hother
  exact hchild

theorem of_relinks (hs : s.Intact entities) (hl : c.links γ π .owner property id = .ok l)
    (h : Evolves (Catalog.Relinks l.join.name fun _ => False) s t) : t.Intact entities := by
  obtain ⟨-, n, hn, hjoin, -⟩ := Context.exists_isLegal_of_links hl
  rw [← hjoin] at h
  exact hs.evolves h (hs.catalog.relinks (fun _ => False.elim) hn)

theorem removeMany (hs : s.Intact entities) (hl : c.links γ π .owner property id = .ok l)
    {children : List ι} {result : Except Error DeleteResult}
    (h : (l.removeMany children).runOn s = (result, t)) : t.Intact entities :=
  hs.of_relinks hl ((keeps_relinks_removeMany l.join l.entityId _).of_runOn h)

theorem remove (hs : s.Intact entities) (hl : c.links γ π .owner property id = .ok l)
    {child : ι} {result : Except Error DeleteResult}
    (h : (l.remove child).runOn s = (result, t)) : t.Intact entities :=
  hs.of_relinks hl ((keeps_relinks_deleteMany l.join.name _ l.join.session).of_runOn h)

end Links

section Deleting

variable [Entity τ ι] {cancellation : Option Cancellation}

/-- A store stays intact where all that some identifiers reach is removed and no linked entity is
taken for a chunk. -/
theorem of_removes {k : Cascade} {info : EntityInfo} {ids : List Value} (hs : s.Intact entities)
    (hchunks : info.isFile = true → s.catalog.SparesLinked k.chunkCollection ids)
    (h : Removes (k.reaches info ids) s t) : t.Intact entities := by
  have hevolves : Evolves (fun d e => d.Without (k.reaches info ids) e) s t :=
    ⟨h.catalog, h.sessions_eq⟩
  exact hs.evolves hevolves (hs.catalog.without hchunks)

/-- A store stays intact where entities are deleted by their identifiers with success. -/
theorem delete (hs : s.Intact entities) {ids : List ι}
    (hchunks : Entity.isFile τ = true →
      s.catalog.SparesLinked c.config.chunkCollection (ids.map EntityId.toValue))
    (h : (c.delete τ ids cancellation).runOn s = (.ok r, t)) : t.Intact entities := by
  obtain ⟨info, values, hinfo, hgiven, hremoved⟩ :=
    Context.removes_of_delete (hs.catalog.wellKeyed _) h
  refine hs.of_removes (fun hfile doc hdoc hlinked => ?_) hremoved
  rw [Entity.isFile_info hinfo] at hfile
  -- a chunk of a file that was found is one of a file that was given
  have hspared := hchunks hfile doc hdoc hlinked
  rw [← Bool.not_eq_true] at hspared ⊢
  exact fun hrefers => hspared (hgiven doc fileField hrefers)

/-- A store stays intact where entities are deleted by a filter with success. -/
theorem deleteWhere (hs : s.Intact entities) {filter : Document}
    (hchunks : Entity.isFile τ = true → s.catalog.SparesLinked c.config.chunkCollection
      (identifiers ((s.catalog.documents (Stored.collection τ)).filter
        (takes (c.mergeFilter τ filter)))))
    (h : (c.deleteWhere τ filter cancellation).runOn s = (.ok r, t)) : t.Intact entities := by
  obtain ⟨info, hinfo, hremoved⟩ := Context.removes_of_deleteWhere h
  refine hs.of_removes (fun hfile => hchunks ?_) hremoved
  rwa [Entity.isFile_info hinfo] at hfile

end Deleting

section Transactions

/-- A store stays intact where a transaction is started: the session keeps an intact catalog. -/
theorem transaction (hs : s.Intact entities) {result : Except Error Context}
    (h : c.transaction.runOn s = (result, t)) : t.Intact entities :=
  iff_everywhere.2 ((iff_everywhere.1 hs).transaction h)

theorem commit (hs : s.Intact entities) (h : c.commit.runOn s = (result, t)) :
    t.Intact entities :=
  iff_everywhere.2 ((iff_everywhere.1 hs).commit h)

theorem abort (hs : s.Intact entities) (h : c.abort.runOn s = (result, t)) :
    t.Intact entities :=
  iff_everywhere.2 ((iff_everywhere.1 hs).abort h)

end Transactions

end Store.Intact

end DocMapper
