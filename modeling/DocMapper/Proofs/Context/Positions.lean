import DocMapper.Context.Links
import DocMapper.Proofs.Cascade.Matching
import DocMapper.Proofs.Store.Journals

set_option autoImplicit false

/-!
# The position of a global filter

`Context.Repositions` relates two contexts that differ, for one type of entities, at most in whether
its global filter goes before or after the filter of the caller. If the global filter can be read,
every operation that finds or deletes entities of the type agrees in both contexts: it gives the
same result and leaves the same collections (`Context.sameOutcomes`).
-/

namespace DocMapper

open Store

/-! ## Cascading deletion -/

namespace Cascade

variable {filter other : Document}

theorem agrees_deleteEach (session : Option Session) (deletes : List (String × Document)) :
    (deleteEach session deletes).Agrees (deleteEach session deletes) := by
  induction deletes with
  | nil => exact .pure ()
  | cons delete rest ih => exact (agrees_deleteMany _ _ session).bind fun _ => ih

theorem agrees_deleteBatch (c : Cascade) (info : EntityInfo) (ids : List Value) :
    (c.deleteBatch info ids).Agrees (c.deleteBatch info ids) := by
  rw [deleteBatch_eq]
  refine (agrees_listCollections _).bind fun _ => ?_
  refine (agrees_deleteMany _ _ _).bind fun result => ?_
  exact (agrees_deleteEach _ _).bind fun _ => .pure result

theorem agrees_deleteBatches (c : Cascade) (info : EntityInfo) (total : DeleteResult)
    (batches : List (List Value)) :
    (c.deleteBatches info total batches).Agrees (c.deleteBatches info total batches) := by
  induction batches generalizing total with
  | nil => exact .pure total
  | cons batch rest ih => exact (agrees_deleteBatch c info batch).bind fun _ => ih _

theorem agrees_deletePages (c : Cascade) (info : EntityInfo) (total : DeleteResult)
    (found : List (List Document)) :
    (c.deletePages info total found).Agrees (c.deletePages info total found) := by
  rw [deletePages_eq]
  exact agrees_deleteBatches c info total _

theorem agrees_checkCancellation (c : Cascade) :
    c.checkCancellation.Agrees c.checkCancellation := by
  intro s t hst
  rw [runOn_checkCancellation, runOn_checkCancellation, hst.hasActiveTransaction_eq]
  exact ⟨rfl, hst⟩

theorem agrees_deleteMatching (c : Cascade) (info : EntityInfo) (h : SameMeaning filter other) :
    (c.deleteMatching info filter).Agrees (c.deleteMatching info other) := by
  refine (agrees_checkCancellation c).bind fun _ => ?_
  unfold cancellable
  split
  · exact .throw _
  · exact (agrees_find _ h _).bind fun found => agrees_deletePages c info {} found

end Cascade

/-! ## Rows of links -/

theorem JoinCollection.agrees_rows (j : JoinCollection) (filter : Document) :
    (j.rows filter).Agrees (j.rows filter) := by
  refine (agrees_find _ (.refl filter) _).bind fun found => .mapM (fun doc => ?_) _
  cases JoinRow.ofDocument? doc with
  | some row => exact .pure row
  | none => exact .throw _

theorem Links.agrees_rows {γ : Type} {side : Side} (l : Links γ side) : l.rows.Agrees l.rows := by
  unfold Links.rows
  cases side with
  | owner => exact JoinCollection.agrees_rows _ _
  | inverse => exact JoinCollection.agrees_rows _ _

/-! ## Operations of a context -/

namespace Context

variable {τ ι : Type} [EntityId ι] [Entity τ ι] {c c' : Context}
variable {shared : GlobalFilter} {g : Filter}

/-- Two contexts that differ for a type at most in where its global filter goes, be it by the
configuration or by the filter itself. -/
structure Repositions (τ : Type) {ι : Type} [Stored τ ι] (c c' : Context) : Prop where
  session_eq : c'.session = c.session
  chunkCollection_eq : c'.config.chunkCollection = c.config.chunkCollection
  filter_eq : (c'.globalFilter? τ).map GlobalFilter.filter =
    (c.globalFilter? τ).map GlobalFilter.filter

/-- Two contexts in which the operations that find or delete the entities of a type agree. -/
structure SameOutcomes (τ : Type) {ι : Type} [EntityId ι] [Entity τ ι] (c c' : Context) : Prop where
  find : ∀ filter, (c.find τ filter).Agrees (c'.find τ filter)
  findOne? : ∀ filter, (c.findOne? τ filter).Agrees (c'.findOne? τ filter)
  findById? : ∀ id, (c.findById? τ id).Agrees (c'.findById? τ id)
  resolve? : ∀ reference : Reference τ, (c.resolve? reference).Agrees (c'.resolve? reference)
  entities : ∀ {side : Side} (l : Links τ side), l.context = c →
    l.entities.Agrees ({ l with context := c' } : Links τ side).entities
  delete : ∀ ids cancellation, (c.delete τ ids cancellation).Agrees (c'.delete τ ids cancellation)
  deleteWhere : ∀ filter cancellation,
    (c.deleteWhere τ filter cancellation).Agrees (c'.deleteWhere τ filter cancellation)

theorem Repositions.sameMeaning (h : c.Repositions τ c') (hshared : c.globalFilter? τ = some shared)
    (hg : compileFilter shared.filter = .ok g) (filter : Document) :
    SameMeaning (c.mergeFilter τ filter) (c'.mergeFilter τ filter) := by
  have heq := h.filter_eq
  rw [hshared, Option.map_some, Option.map_eq_some_iff] at heq
  obtain ⟨shared', hshared', heq⟩ := heq
  exact sameMeaning_mergeFilter hshared hshared' heq hg filter

theorem Repositions.cascade_eq (h : c.Repositions τ c') (cancellation : Option Cancellation) :
    c'.cascade cancellation = c.cascade cancellation := by
  rw [cascade, cascade, h.session_eq, h.chunkCollection_eq]

section Agreement

variable (h : c.Repositions τ c') (hshared : c.globalFilter? τ = some shared)
  (hg : compileFilter shared.filter = .ok g)

include h hshared hg

theorem agrees_findUpTo (filter : Document) (limit : Option Nat) :
    (c.findUpTo τ filter limit).Agrees (c'.findUpTo τ filter limit) := by
  refine (Action.Agrees.ofExcept _).bind fun info => ?_
  refine (agrees_find _ (h.sameMeaning hshared hg filter) _).bind fun found => ?_
  exact .mapM (fun doc => .ofExcept _) _

theorem agrees_findOne? (filter : Document) : (c.findOne? τ filter).Agrees (c'.findOne? τ filter) :=
  (agrees_findUpTo h hshared hg filter (some 1)).bind fun found => .pure found.getLast?

theorem agrees_resolve? (reference : Reference τ) :
    (c.resolve? reference).Agrees (c'.resolve? reference) := by
  unfold resolve?
  split
  · split
    · exact .pure none
    · exact agrees_findOne? h hshared hg _
  · exact .pure none

/-- Deleting by identifiers agrees. -/
theorem agrees_delete (ids : List ι) (cancellation : Option Cancellation) :
    (c.delete τ ids cancellation).Agrees (c'.delete τ ids cancellation) := by
  -- both contexts have a global filter, so both delete by the merged one
  have hsome : (c'.globalFilter? τ).isSome = true := by
    have heq := h.filter_eq
    rw [hshared, Option.map_some, Option.map_eq_some_iff] at heq
    obtain ⟨shared', hshared', -⟩ := heq
    rw [hshared']
    rfl
  unfold delete
  rw [h.cascade_eq, hshared, hsome]
  refine (Action.Agrees.ofExcept _).bind fun info => ?_
  refine (Cascade.agrees_checkCancellation _).bind fun _ => ?_
  dsimp only
  rw [Option.isSome_some, if_pos rfl, if_pos rfl]
  split
  · exact .pure _
  · exact Cascade.agrees_deleteMatching _ info (h.sameMeaning hshared hg _)

theorem agrees_deleteWhere (filter : Document) (cancellation : Option Cancellation) :
    (c.deleteWhere τ filter cancellation).Agrees (c'.deleteWhere τ filter cancellation) := by
  unfold deleteWhere
  rw [h.cascade_eq]
  refine (Action.Agrees.ofExcept _).bind fun info => ?_
  refine (Cascade.agrees_checkCancellation _).bind fun _ => ?_
  exact Cascade.agrees_deleteMatching _ info (h.sameMeaning hshared hg filter)

/-- Loading linked entities agrees. -/
theorem agrees_entities {side : Side} (l : Links τ side) (hcontext : l.context = c) :
    l.entities.Agrees ({ l with context := c' } : Links τ side).entities := by
  obtain ⟨context, descriptor, entityId⟩ := l
  obtain rfl : context = c := hcontext
  -- the rows depend on the context only by its session
  have hjoin : (⟨c', descriptor, entityId⟩ : Links τ side).join =
      (⟨context, descriptor, entityId⟩ : Links τ side).join := by
    rw [Links.join, Links.join, h.session_eq]
  have hrows : (⟨c', descriptor, entityId⟩ : Links τ side).rows =
      (⟨context, descriptor, entityId⟩ : Links τ side).rows := by
    cases side <;> simp only [Links.rows, hjoin]
  unfold Links.entities
  rw [hrows]
  refine (Links.agrees_rows _).bind fun rows => ?_
  dsimp only
  split
  · exact .pure []
  · exact agrees_findUpTo h hshared hg _ none

/-- The operations that find or delete entities agree. -/
theorem sameOutcomes : c.SameOutcomes τ c' where
  find filter := agrees_findUpTo h hshared hg filter none
  findOne? := agrees_findOne? h hshared hg
  findById? id := agrees_findOne? h hshared hg (byId id)
  resolve? := agrees_resolve? h hshared hg
  entities := agrees_entities h hshared hg
  delete := agrees_delete h hshared hg
  deleteWhere := agrees_deleteWhere h hshared hg

end Agreement

end Context

end DocMapper
