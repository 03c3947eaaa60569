import DocMapper.Proofs.Cascade.Clearing
import DocMapper.Proofs.Context.Positions
import DocMapper.Proofs.Traversal
import DocMapper.Sample.Shop

set_option autoImplicit false

/-!
# Confinement to a global filter

With a global filter for a type, a context finds the stored documents that match both the filter of
the caller and the global one, shows no entity that the global filter does not let through, and
deletes what it would find (`Context.confines`). Where the entities of a file type share their
collection with the chunks, a deletion takes documents along that the global filter does not let
through (`Context.clears_shared`).
-/

namespace DocMapper

open Store

/-! ## Reading what was found -/

theorem JoinCollection.keeps_evolves_rows (j : JoinCollection) (filter : Document) :
    (j.rows filter).Keeps (Evolves (· = ·)) := by
  refine (keeps_evolves_find _ _ _).bind fun found => .mapM (fun doc => ?_) _
  cases JoinRow.ofDocument? doc with
  | some row => exact .pure row
  | none => exact .throw _

theorem Links.keeps_evolves_rows {γ : Type} {side : Side} (l : Links γ side) :
    l.rows.Keeps (Evolves (· = ·)) := by
  cases side with
  | owner => exact l.join.keeps_evolves_rows _
  | inverse => exact l.join.keeps_evolves_rows _

/-! ## Operations of a context -/

namespace Context

variable {τ ι : Type} [EntityId ι] [Entity τ ι] {c : Context} {info : EntityInfo}
variable {filter : Document} {f g : Filter} {shared : GlobalFilter} {s t : Store}
variable {cancellation : Option Cancellation} {r : DeleteResult}

/-- Finding decodes the documents that the merged filter selects. -/
theorem runOn_findUpTo (hinfo : Entity.info τ = .ok info)
    (hf : compileFilter (c.mergeFilter τ filter) = .ok f) (limit : Option Nat) (s : Store) :
    (c.findUpTo τ filter limit).runOn s =
      ((selectDocuments f { limit := limit } (s.catalog.documents info.collection)).mapM
          Entity.decode,
        s.record (.find info.collection (c.mergeFilter τ filter) defaultBatchSize)) := by
  rw [findUpTo, hinfo, Action.runOn_bind, Action.runOn_ofExcept]
  dsimp only
  rw [Action.runOn_bind_of_ok (runOn_find info.collection { limit := limit } s hf), collect_pages,
    Action.runOn_mapM_ofExcept]
  rfl

theorem runOn_findUpTo_of_fault {e : Error} (hinfo : Entity.info τ = .ok info)
    (hf : compileFilter (c.mergeFilter τ filter) = .error e) (limit : Option Nat) (s : Store) :
    (c.findUpTo τ filter limit).runOn s = (.error e, s) := by
  rw [findUpTo, hinfo, Action.runOn_bind, Action.runOn_ofExcept]
  dsimp only
  rw [Action.runOn_bind, runOn_find_of_fault _ _ s hf]

theorem runOn_deleteWhere (hinfo : Entity.info τ = .ok info) (filter : Document)
    (cancellation : Option Cancellation) (s : Store) :
    (c.deleteWhere τ filter cancellation).runOn s =
      ((c.cascade cancellation).deleteMatching info (c.mergeFilter τ filter)).runOn s := by
  rw [deleteWhere, hinfo, Action.runOn_bind, Action.runOn_ofExcept]
  exact Cascade.runOn_checkCancellation_twice _

/-- With a global filter, a deletion by identifiers is one by the merged filter. -/
theorem runOn_delete (hinfo : Entity.info τ = .ok info) (hshared : c.globalFilter? τ = some shared)
    {ids : List ι} (hids : ids ≠ []) (cancellation : Option Cancellation) (s : Store) :
    (c.delete τ ids cancellation).runOn s =
      ((c.cascade cancellation).deleteMatching info
        (c.mergeFilter τ [("_id", JoinCollection.anyOf (ids.map EntityId.toValue))])).runOn s := by
  have hvalues : ¬ (ids.map EntityId.toValue).isEmpty = true := by simpa using hids
  rw [delete, hinfo, Action.runOn_bind, Action.runOn_ofExcept]
  dsimp only
  rw [hshared, Option.isSome_some, if_pos rfl, if_neg hvalues]
  exact Cascade.runOn_checkCancellation_twice _

theorem runOn_delete_of_none (hinfo : Entity.info τ = .ok info) (hnone : c.globalFilter? τ = none)
    (ids : List ι) (cancellation : Option Cancellation) (s : Store) :
    (c.delete τ ids cancellation).runOn s =
      ((c.cascade cancellation).deleteIds info (ids.map EntityId.toValue)).runOn s := by
  rw [delete, hinfo, Action.runOn_bind, Action.runOn_ofExcept]
  dsimp only
  rw [hnone, Option.isSome_none, if_neg Bool.false_ne_true]
  exact Cascade.runOn_checkCancellation_twice _

/-- With a global filter, a deletion by no identifiers does nothing. -/
theorem runOn_delete_nil (hinfo : Entity.info τ = .ok info)
    (hshared : c.globalFilter? τ = some shared) (cancellation : Option Cancellation) (s : Store) :
    (c.delete τ ([] : List ι) cancellation).runOn s =
      (do (c.cascade cancellation).checkCancellation; return ({} : DeleteResult)).runOn s := by
  rw [delete, hinfo, Action.runOn_bind, Action.runOn_ofExcept]
  dsimp only
  rw [hshared, Option.isSome_some, if_pos rfl, List.map_nil, List.isEmpty_nil, if_pos rfl]

/-- A deletion by identifiers removes what some identifiers reach: the given ones or, with a global
filter, those of the entities that were found by them. So what refers to one of these refers to one
of the given ones. -/
theorem removes_of_delete (hkeyed : (s.catalog.get (Stored.collection τ)).WellKeyed) {ids : List ι}
    (h : (c.delete τ ids cancellation).runOn s = (.ok r, t)) :
    ∃ info values, Entity.info τ = .ok info ∧
      (∀ (doc : Document) (field : String), doc.refersTo field values = true →
        doc.refersTo field (ids.map EntityId.toValue) = true) ∧
      Removes ((c.cascade cancellation).reaches info values) s t := by
  obtain ⟨info, hinfo, -⟩ := Action.runOn_ofExcept_bind_eq_ok_iff.1 h
  obtain ⟨hcollection, hE, -⟩ := Entity.info_eq_ok hinfo
  refine ⟨info, ?_⟩
  cases hshared : c.globalFilter? τ with
  | none =>
    rw [runOn_delete_of_none hinfo hshared] at h
    exact ⟨_, hinfo, fun _ _ hrefers => hrefers, Cascade.removes_of_deleteIds hE h⟩
  | some shared =>
    by_cases hids : ids = []
    · -- nothing is asked for, so nothing is done
      subst hids
      rw [runOn_delete_nil hinfo hshared] at h
      obtain ⟨-, rfl⟩ := Prod.mk.inj (Cascade.runOn_of_checkCancellation h)
      refine ⟨[], hinfo, fun _ _ hrefers => hrefers, (Removes.refl s).congr fun name doc _ => ?_⟩
      rw [Cascade.reaches_nil]
    · rw [runOn_delete hinfo hshared hids] at h
      obtain ⟨f, hf, hremoved⟩ := Cascade.removes_of_deleteMatching hE h
      -- what was found by the identifiers has one of their keys, so it is referred to alike
      refine ⟨_, hinfo, fun doc field hrefers => ?_, hremoved⟩
      cases hg : compileFilter shared.filter with
      | error e =>
        have hunread : ¬ ((∃ f, compileFilter
            [("_id", JoinCollection.anyOf (ids.map EntityId.toValue))] = .ok f) ∧
            ∃ g, compileFilter shared.filter = .ok g) := by simp [hg]
        obtain ⟨fault, hfault⟩ := exists_fault_of_mergeFilter hshared hunread
        rw [hfault] at hf
        cases hf
      | ok g =>
        obtain ⟨f', hf', hholds⟩ := means_mergeFilter_anyOf hshared hg (ids.map EntityId.toValue)
        obtain rfl := Except.ok.inj (hf.symm.trans hf')
        refine hkeyed.refersTo_of_identifiers (fun found hfound => ?_) hrefers
        obtain ⟨hmem, hmatch⟩ := List.mem_filter.1 hfound
        rw [hholds, Bool.and_eq_true] at hmatch
        rw [← hcollection, Catalog.documents_get]
        exact ⟨hmem, hmatch.1⟩

/-- A deletion by a filter removes what the identifiers reach of the entities that the merged filter
takes. -/
theorem removes_of_deleteWhere (h : (c.deleteWhere τ filter cancellation).runOn s = (.ok r, t)) :
    ∃ info, Entity.info τ = .ok info ∧
      Removes ((c.cascade cancellation).reaches info
        (identifiers ((s.catalog.documents (Stored.collection τ)).filter
          (takes (c.mergeFilter τ filter))))) s t := by
  obtain ⟨info, hinfo, -⟩ := Action.runOn_ofExcept_bind_eq_ok_iff.1 h
  obtain ⟨hcollection, hE, -⟩ := Entity.info_eq_ok hinfo
  rw [runOn_deleteWhere hinfo] at h
  obtain ⟨f, hf, hremoved⟩ := Cascade.removes_of_deleteMatching hE h
  have htakes : takes (c.mergeFilter τ filter) = f.holds := by
    funext doc
    rw [takes, hf]
  rw [htakes, ← hcollection]
  exact ⟨info, hinfo, hremoved⟩

/-! ## What a global filter lets through -/

/-- An entity of a stored document that a global filter lets through. -/
def Shows (shared : GlobalFilter) (docs : List Document) (entity : τ) : Prop :=
  ∃ g, compileFilter shared.filter = .ok g ∧
    ∃ doc ∈ docs, g.holds doc = true ∧ Entity.decode doc = .ok entity

section Confinement

variable (hinfo : Entity.info τ = .ok info) (hshared : c.globalFilter? τ = some shared)

include hinfo hshared

/-- Finding shows only what the global filter lets through. -/
theorem shows_of_findUpTo {limit : Option Nat} {entities : List τ}
    (h : (c.findUpTo τ filter limit).runOn s = (.ok entities, t)) :
    ∀ entity ∈ entities, Shows shared (s.catalog.documents info.collection) entity := by
  intro entity hentity
  by_cases hread : (∃ f, compileFilter filter = .ok f) ∧ ∃ g, compileFilter shared.filter = .ok g
  · obtain ⟨⟨f, hf⟩, g, hg⟩ := hread
    obtain ⟨merged, hmerged, hholds⟩ := means_mergeFilter hshared hf hg
    rw [runOn_findUpTo hinfo hmerged] at h
    obtain ⟨doc, hdoc, hdecode⟩ := exists_mem_of_mapM_eq_ok (Prod.mk.inj h).1 hentity
    -- what is selected is among the documents that match
    have hselected : doc ∈ (s.catalog.documents info.collection).filter merged.holds := by
      unfold selectDocuments project at hdoc
      cases limit with
      | none => simpa using hdoc
      | some n => exact List.mem_of_mem_take (by simpa using hdoc)
    obtain ⟨hstored, hmatch⟩ := List.mem_filter.1 hselected
    rw [hholds, Bool.and_eq_true] at hmatch
    exact ⟨g, hg, doc, hstored, hmatch.2, hdecode⟩
  · obtain ⟨fault, hfault⟩ := exists_fault_of_mergeFilter hshared hread
    rw [runOn_findUpTo_of_fault hinfo hfault] at h
    cases h

/-- Finding one entity shows only what the global filter lets through. -/
theorem shows_of_findOne? {entity : τ}
    (h : (c.findOne? τ filter).runOn s = (.ok (some entity), t)) :
    Shows shared (s.catalog.documents info.collection) entity := by
  obtain ⟨found, u, hfound, hlast⟩ := Action.runOn_bind_eq_ok_iff.1 h
  refine shows_of_findUpTo hinfo hshared hfound entity (List.mem_of_getLast? ?_)
  exact Except.ok.inj (Prod.mk.inj hlast).1

/-- Resolving a reference shows only what the global filter lets through. -/
theorem shows_of_resolve? {reference : Reference τ} {entity : τ}
    (h : (c.resolve? reference).runOn s = (.ok (some entity), t)) :
    Shows shared (s.catalog.documents info.collection) entity := by
  unfold resolve? at h
  split at h
  · split at h
    · cases h
    · exact shows_of_findOne? hinfo hshared h
  · cases h

/-- Loading linked entities shows only what the global filter lets through. -/
theorem shows_of_entities {side : Side} {l : Links τ side} (hcontext : l.context = c)
    {entities : List τ} (h : l.entities.runOn s = (.ok entities, t)) :
    ∀ entity ∈ entities, Shows shared (s.catalog.documents info.collection) entity := by
  obtain ⟨rows, u, hrows, h⟩ := Action.runOn_bind_eq_ok_iff.1 h
  -- the entities are found after the rows, in the same catalog
  have hsame := (l.keeps_evolves_rows.of_runOn hrows).catalog
  dsimp only at h
  split at h
  · obtain rfl := Except.ok.inj (Prod.mk.inj h).1
    intro entity hentity
    cases hentity
  · rw [hcontext] at h
    have hshown := shows_of_findUpTo hinfo hshared h
    rwa [← hsame] at hshown

end Confinement

/-! ## What is deleted -/

section Deletion

variable (hinfo : Entity.info τ = .ok info) (hshared : c.globalFilter? τ = some shared)
  (hg : compileFilter shared.filter = .ok g)

include hinfo hshared hg

/-- A deletion by a filter takes out what both filters take. -/
theorem loses_of_deleteWhere (hkeyed : (s.catalog.get info.collection).WellKeyed)
    (hf : compileFilter filter = .ok f)
    (h : (c.deleteWhere τ filter cancellation).runOn s = (.ok r, t)) :
    s.catalog.Loses t.catalog info.collection
      (info.clears c.config.chunkCollection (s.catalog.documents info.collection)
        fun doc => f.holds doc && g.holds doc) := by
  obtain ⟨-, hE, -⟩ := Entity.info_eq_ok hinfo
  rw [runOn_deleteWhere hinfo] at h
  exact Cascade.loses_of_deleteMatching hE hkeyed (means_mergeFilter hshared hf hg) h

/-- A deletion by identifiers takes out the entities with these that the global filter lets
through. -/
theorem loses_of_delete (hkeyed : (s.catalog.get info.collection).WellKeyed) {ids : List ι}
    (h : (c.delete τ ids cancellation).runOn s = (.ok r, t)) :
    s.catalog.Loses t.catalog info.collection
      (info.clears c.config.chunkCollection (s.catalog.documents info.collection)
        fun doc => doc.refersTo "_id" (ids.map EntityId.toValue) && g.holds doc) := by
  obtain ⟨-, hE, -⟩ := Entity.info_eq_ok hinfo
  by_cases hids : ids = []
  · subst hids
    rw [runOn_delete_nil hinfo hshared] at h
    obtain ⟨-, rfl⟩ := Prod.mk.inj (Cascade.runOn_of_checkCancellation h)
    refine (Catalog.Without.refl s.catalog info.collection).congr fun doc _ => ?_
    simp [EntityInfo.clears, identifiers]
  · rw [runOn_delete hinfo hshared hids] at h
    exact Cascade.loses_of_deleteMatching hE hkeyed (means_mergeFilter_anyOf hshared hg _) h

/-- A deletion by a filter succeeds if its token lets it proceed, a listing accepts the pattern and
no deletion is set to fail. -/
theorem exists_runOn_deleteWhere
    (haccepted : (Regex.ofText? (joinPattern info.collection)).isSome = true)
    (hfails : s.failingDeletes = []) (hproceeds : (c.cascade cancellation).Proceeds s)
    (hf : compileFilter filter = .ok f) :
    ∃ r t, (c.deleteWhere τ filter cancellation).runOn s = (.ok r, t) := by
  obtain ⟨-, hE, -⟩ := Entity.info_eq_ok hinfo
  rw [runOn_deleteWhere hinfo, Cascade.deleteMatching, hproceeds.runOn_checked]
  exact Cascade.exists_runOn_deleteFound _ hE haccepted hfails (means_mergeFilter hshared hf hg)

/-- A deletion by identifiers succeeds under the same conditions. -/
theorem exists_runOn_delete
    (haccepted : (Regex.ofText? (joinPattern info.collection)).isSome = true)
    (hfails : s.failingDeletes = []) (hproceeds : (c.cascade cancellation).Proceeds s)
    (ids : List ι) : ∃ r t, (c.delete τ ids cancellation).runOn s = (.ok r, t) := by
  obtain ⟨-, hE, -⟩ := Entity.info_eq_ok hinfo
  by_cases hids : ids = []
  · subst hids
    rw [runOn_delete_nil hinfo hshared,
      Action.runOn_bind_of_ok hproceeds.runOn_checkCancellation]
    exact ⟨_, _, rfl⟩
  · rw [runOn_delete hinfo hshared hids, Cascade.deleteMatching, hproceeds.runOn_checked]
    exact Cascade.exists_runOn_deleteFound _ hE haccepted hfails
      (means_mergeFilter_anyOf hshared hg _)

end Deletion

/-! ## Confinement -/

/-- What a global filter confines: what a context with one finds, shows and deletes of the entities
of a type in a store. -/
structure Confines (c : Context) (τ : Type) {ι : Type} [EntityId ι] [Entity τ ι] (info : EntityInfo)
    (shared : GlobalFilter) (s : Store) : Prop where
  /-- The documents that match both filters are found, in their order, and nothing is changed. -/
  find : ∀ filter f g, compileFilter filter = .ok f → compileFilter shared.filter = .ok g →
    ((c.find τ filter).runOn s).1 =
        ((s.catalog.documents info.collection).filter fun doc =>
          f.holds doc && g.holds doc).mapM Entity.decode ∧
      ((c.find τ filter).runOn s).2.catalog = s.catalog
  /-- These are deleted, and their chunks if these are in the same collection. -/
  deleteWhere : ∀ filter f g, compileFilter filter = .ok f → compileFilter shared.filter = .ok g →
    ∀ cancellation r t, (c.deleteWhere τ filter cancellation).runOn s = (.ok r, t) →
      s.catalog.Loses t.catalog info.collection
        (info.clears c.config.chunkCollection (s.catalog.documents info.collection) fun doc =>
          f.holds doc && g.holds doc)
  /-- Of the documents with some identifiers those are deleted that match the global filter. -/
  delete : ∀ (ids : List ι) g, compileFilter shared.filter = .ok g →
    ∀ cancellation r t, (c.delete τ ids cancellation).runOn s = (.ok r, t) →
      s.catalog.Loses t.catalog info.collection
        (info.clears c.config.chunkCollection (s.catalog.documents info.collection) fun doc =>
          doc.refersTo "_id" (ids.map EntityId.toValue) && g.holds doc)
  /-- Deletions succeed if the token lets them proceed and the pattern of the joins is accepted. -/
  deletes : ∀ g cancellation, compileFilter shared.filter = .ok g →
    (c.cascade cancellation).Proceeds s →
    (Regex.ofText? (joinPattern info.collection)).isSome = true →
      (∀ filter f, compileFilter filter = .ok f →
          ∃ r t, (c.deleteWhere τ filter cancellation).runOn s = (.ok r, t)) ∧
        ∀ ids : List ι, ∃ r t, (c.delete τ ids cancellation).runOn s = (.ok r, t)
  /-- One entity that is found is one that the global filter lets through. -/
  findOne? : ∀ filter entity t, (c.findOne? τ filter).runOn s = (.ok (some entity), t) →
    Shows shared (s.catalog.documents info.collection) entity
  /-- So is the one with an identifier. -/
  findById? : ∀ id entity t, (c.findById? τ id).runOn s = (.ok (some entity), t) →
    Shows shared (s.catalog.documents info.collection) entity
  /-- So is the one that a reference leads to. -/
  resolve? : ∀ (reference : Reference τ) entity t,
    (c.resolve? reference).runOn s = (.ok (some entity), t) →
      Shows shared (s.catalog.documents info.collection) entity
  /-- So are those that are linked to an entity. -/
  entities : ∀ (side : Side) (l : Links τ side) found t, l.context = c →
    l.entities.runOn s = (.ok found, t) →
      ∀ entity ∈ found, Shows shared (s.catalog.documents info.collection) entity
  /-- The position of a global filter that can be read makes no difference. -/
  position : ∀ c' g, compileFilter shared.filter = .ok g → c.Repositions τ c' →
    c.SameOutcomes τ c'
  /-- If one of the filters can not be read, finding and deleting are refused for that reason,
  unless the token of a deletion is refused already, and nothing is changed. -/
  refuses : ∀ filter,
    ¬ ((∃ f, compileFilter filter = .ok f) ∧ ∃ g, compileFilter shared.filter = .ok g) →
      ∃ fault, (c.find τ filter).runOn s = (.error (.unsupportedFilter fault), s) ∧
        ∀ cancellation, ∃ e, (c.deleteWhere τ filter cancellation).runOn s = (.error e, s) ∧
          ((c.cascade cancellation).Proceeds s → e = .unsupportedFilter fault)

/-- In every store that a run leads to and in which no deletion is set to fail, a global filter
confines its type. -/
theorem confines {events : List TransactionEvent} (hrun : StoreRun events s)
    (hfails : s.failingDeletes = []) (hinfo : Entity.info τ = .ok info)
    (hshared : c.globalFilter? τ = some shared) : c.Confines τ info shared s where
  find filter f g hf hg := by
    obtain ⟨merged, hmerged, hholds⟩ := means_mergeFilter hshared hf hg
    have hproject : project none = id := rfl
    rw [Context.find, runOn_findUpTo hinfo hmerged, selectDocuments, hproject, List.map_id,
      funext hholds]
    exact ⟨rfl, rfl⟩
  deleteWhere _ _ _ hf hg _ _ _ h :=
    loses_of_deleteWhere hinfo hshared hg (hrun.isKeyed.1 info.collection) hf h
  delete _ _ hg _ _ _ h :=
    loses_of_delete hinfo hshared hg (hrun.isKeyed.1 info.collection) h
  deletes _ _ hg hproceeds haccepted :=
    ⟨fun _ _ hf => exists_runOn_deleteWhere hinfo hshared hg haccepted hfails hproceeds hf,
      exists_runOn_delete hinfo hshared hg haccepted hfails hproceeds⟩
  findOne? _ _ _ h := shows_of_findOne? hinfo hshared h
  findById? _ _ _ h := shows_of_findOne? hinfo hshared h
  resolve? _ _ _ h := shows_of_resolve? hinfo hshared h
  entities _ _ _ _ hcontext h := shows_of_entities hinfo hshared hcontext h
  position _ _ hg h := sameOutcomes h hshared hg
  refuses filter hnot := by
    obtain ⟨fault, hfault⟩ := exists_fault_of_mergeFilter hshared hnot
    refine ⟨fault, runOn_findUpTo_of_fault hinfo hfault none s, fun cancellation => ?_⟩
    rw [runOn_deleteWhere hinfo]
    exact Cascade.exists_runOn_deleteMatching_of_fault _ info s hfault

end Context

/-! ## Two items -/

namespace Sample

/-- The first item has the tag `a`. -/
def firstItem : Document := [("_id", .int64 1), ("tag", .string "a")]

/-- The second item has another tag and refers to the first one as its file. -/
def secondItem : Document := [("_id", .int64 2), ("tag", .string "b"), (fileField, .int64 1)]

/-- A context that sees only items with the tag `a`. -/
def tagContext (chunkCollection : String) : Context :=
  Context.withGlobalFilter ⟨⟨.prepend, chunkCollection⟩, none, []⟩ Item
    ⟨[("tag", .string "a")], none⟩

theorem exists_run_items :
    ∃ s, StoreRun [] s ∧ s.failingDeletes = [] ∧
      s.catalog.documents "shop.items" = [firstItem, secondItem] :=
  StoreRun.exists_pair "shop.items" firstItem secondItem rfl rfl rfl rfl (by decide)

/-- The global filter can be read and takes the first item and not the second. -/
theorem exists_tagFilter :
    ∃ g, compileFilter [("tag", .string "a")] = .ok g ∧ g.holds firstItem = true ∧
      g.holds secondItem = false := by
  have hfield : Filter.IsPlainField "tag" := ⟨by decide, by decide⟩
  obtain ⟨g, hg, hholds⟩ := means_scalar hfield (v := .string "a") rfl
  have hfirst : firstItem.holdsAt "tag" (.string "a") = true := by
    rw [Document.holdsAt_of_get? rfl rfl]
    decide
  have hsecond : secondItem.holdsAt "tag" (.string "a") = false := by
    rw [Document.holdsAt_of_get? rfl rfl]
    decide
  exact ⟨g, hg, (hholds _).trans hfirst, (hholds _).trans hsecond⟩

theorem exists_info_fileItem :
    ∃ info, Entity.info Item = .ok info ∧ info.collection = "shop.items" ∧ info.isFile = true :=
  ⟨_, rfl, rfl, rfl⟩

end Sample

open Sample in
/-- With a collection for the chunks, a deletion of everything leaves the item that the global
filter does not let through. -/
theorem Context.confines_items :
    ∃ s r t, StoreRun [] s ∧ s.failingDeletes = [] ∧
      s.catalog.documents "shop.items" = [firstItem, secondItem] ∧
      ((tagContext "[BINARY_CHUNKS]").deleteWhere Item [] none).runOn s = (.ok r, t) ∧
      t.catalog.documents "shop.items" = [secondItem] := by
  obtain ⟨s, hrun, hfails, hdocuments⟩ := exists_run_items
  obtain ⟨g, hg, hfirst, hsecond⟩ := exists_tagFilter
  obtain ⟨info, hinfo, hcollection, -⟩ := exists_info_fileItem
  have hconfines := Context.confines (c := tagContext "[BINARY_CHUNKS]") hrun hfails hinfo rfl
  have haccepted : (Regex.ofText? (joinPattern info.collection)).isSome = true := by
    rw [hcollection]
    exact Regex.isSome_ofText?_joinPattern (by decide)
  obtain ⟨hdeletes, -⟩ := hconfines.deletes g none hg (Cascade.proceeds_of_none rfl) haccepted
  obtain ⟨r, t, h⟩ := hdeletes [] _ rfl
  refine ⟨s, r, t, hrun, hfails, hdocuments, h, ?_⟩
  have hleft := hconfines.deleteWhere [] _ g rfl hg none r t h
  rw [EntityInfo.clears_of_ne (fun _ => by rw [hcollection]; decide), hcollection] at hleft
  rw [hleft.documents, hdocuments]
  simp [hfirst, hsecond, Filter.holds, Filter.allHold]

open Sample in
/-- Where the items and the chunks share a collection, it leaves nothing: the second item refers to
the first one as its file, so it goes along although the global filter does not let it through. -/
theorem Context.clears_shared :
    ∃ s r t g, StoreRun [] s ∧ s.failingDeletes = [] ∧
      s.catalog.documents "shop.items" = [firstItem, secondItem] ∧
      (tagContext "shop.items").globalFilter? Item = some ⟨[("tag", .string "a")], none⟩ ∧
      compileFilter [("tag", .string "a")] = .ok g ∧ g.holds secondItem = false ∧
      ((tagContext "shop.items").deleteWhere Item [] none).runOn s = (.ok r, t) ∧
      t.catalog.documents "shop.items" = [] := by
  obtain ⟨s, hrun, hfails, hdocuments⟩ := exists_run_items
  obtain ⟨g, hg, hfirst, hsecond⟩ := exists_tagFilter
  obtain ⟨info, hinfo, hcollection, hfile⟩ := exists_info_fileItem
  have hshared : (tagContext "shop.items").globalFilter? Item =
      some ⟨[("tag", .string "a")], none⟩ := rfl
  have haccepted : (Regex.ofText? (joinPattern info.collection)).isSome = true := by
    rw [hcollection]
    exact Regex.isSome_ofText?_joinPattern (by decide)
  have hall : compileFilter [] = .ok (.all []) := rfl
  obtain ⟨r, t, h⟩ := Context.exists_runOn_deleteWhere hinfo hshared hg haccepted hfails
    (Cascade.proceeds_of_none rfl) hall
  refine ⟨s, r, t, g, hrun, hfails, hdocuments, hshared, hg, hsecond, h, ?_⟩
  have hleft := Context.loses_of_deleteWhere hinfo hshared hg
    (hrun.isKeyed.1 info.collection) hall h
  rw [hcollection] at hleft
  -- the first item matches, and it is the file of the second one
  have hfound : [firstItem, secondItem].filter (fun doc =>
      (Filter.all []).holds doc && g.holds doc) = [firstItem] := by
    simp [hfirst, hsecond, Filter.holds, Filter.allHold]
  have hrefers : secondItem.refersTo fileField (identifiers [firstItem]) = true := by
    rw [Document.refersTo_of_get? rfl rfl]
    decide
  rw [hdocuments] at hleft
  rw [hleft.documents, hdocuments, List.filter_eq_nil_iff]
  intro doc hdoc
  rw [EntityInfo.clears, hfound]
  rcases List.mem_pair.1 hdoc with rfl | rfl
  · simp [hfirst, Filter.holds, Filter.allHold]
  · simp [hrefers, hfile, hcollection, tagContext, Context.withGlobalFilter]

end DocMapper
