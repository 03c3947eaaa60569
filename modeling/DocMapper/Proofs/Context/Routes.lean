import DocMapper.Proofs.Cascade.Reports
import DocMapper.Proofs.Context.Confinement

set_option autoImplicit false

/-!
# The two routes of a deletion

Without a global filter a context deletes the identifiers that it was given. With one it looks for
the entities with these identifiers that the global filter lets through, and deletes by the
identifiers that it found. The identifiers that were found need not be those that were given: they
come in the order of the collection, each once, and may be numbers of another type. But they have
the same keys (`Value.SameKeys`), so they reach the same documents, whatever the batches and pages
are (`Cascade.coincides`). Where each given identifier selects an entity that the global filter lets
through, the two routes therefore report the same and leave the same collections
(`Context.routes_coincide`).
-/

namespace DocMapper

open Store

/-! ## Values with the same keys -/

/-- Two lists of values with the same keys, in which every value has one. -/
structure Value.SameKeys (xs ys : List Value) : Prop where
  keyed : none ∉ xs.map Value.key?
  mem_iff : ∀ key?, key? ∈ xs.map Value.key? ↔ key? ∈ ys.map Value.key?

section SameKeys

variable {xs ys : List Value}

/-- One list is empty if the other one is. -/
theorem Value.SameKeys.isEmpty_eq (h : Value.SameKeys xs ys) : xs.isEmpty = ys.isEmpty := by
  cases xs with
  | nil =>
    cases ys with
    | nil => rfl
    | cons y others => exact absurd ((h.mem_iff y.key?).2 List.mem_cons_self) List.not_mem_nil
  | cons x rest =>
    cases ys with
    | nil => exact absurd ((h.mem_iff x.key?).1 List.mem_cons_self) List.not_mem_nil
    | cons y others => rfl

theorem Value.SameKeys.symm (h : Value.SameKeys xs ys) : Value.SameKeys ys xs where
  keyed hnone := h.keyed ((h.mem_iff none).2 hnone)
  mem_iff key? := (h.mem_iff key?).symm

/-- Each value of the one list has a key, which a value of the other list has too. -/
theorem Value.SameKeys.exists_key?_eq (h : Value.SameKeys xs ys) {x : Value} (hx : x ∈ xs) :
    x.key?.isSome = true ∧ ∃ y ∈ ys, y.key? = x.key? := by
  refine ⟨?_, List.mem_map.1 ((h.mem_iff x.key?).1 (List.mem_map_of_mem hx))⟩
  rw [Option.isSome_iff_ne_none]
  exact fun hnone => h.keyed (List.mem_map.2 ⟨x, hx, hnone⟩)

/-- The sets of two such lists hold the same values. -/
theorem ValueSet.contains_eq_of_sameKeys (h : Value.SameKeys xs ys) (v : Value) :
    (ofList xs).contains v = (ofList ys).contains v := by
  rw [Bool.eq_iff_iff]
  exact ⟨contains_ofList_of_keys fun _ => h.exists_key?_eq,
    contains_ofList_of_keys fun _ => h.symm.exists_key?_eq⟩

theorem Document.refersTo_eq_of_sameKeys (h : Value.SameKeys xs ys) (doc : Document)
    (field : String) : doc.refersTo field xs = doc.refersTo field ys := by
  rw [refersTo, refersTo, funext (ValueSet.contains_eq_of_sameKeys h)]

theorem Cascade.reaches_eq_of_sameKeys {c c' : Cascade} {info : EntityInfo}
    (hchunk : c'.chunkCollection = c.chunkCollection) (h : Value.SameKeys xs ys) :
    c'.reaches info xs = c.reaches info ys := by
  funext name doc
  simp only [reaches, Document.links, hchunk, Document.refersTo_eq_of_sameKeys h]

end SameKeys

/-! ## Runs that coincide -/

/-- Two runs that give the same result and leave the same collections. -/
structure Action.Coincide {α : Type} (run run' : Except Error α × Store) : Prop where
  result_eq : run.1 = run'.1
  content?_eq : ∀ name, run.2.catalog.content? name = run'.2.catalog.content? name

namespace Cascade

variable {c c' : Cascade} {info : EntityInfo} {filter : Document} {test : Document → Bool}
variable {ids : List Value} {s t : Store} {r : DeleteResult}

/-- What a filter finds is deleted as identifiers with the same keys are, whatever the pages of the
one and the batches of the other are. -/
theorem coincides (hE : isCollectionName info.collection = true)
    (hchunk : info.isFile = true → c.chunkCollection ≠ info.collection)
    (hsame : c'.chunkCollection = c.chunkCollection) (hfails : s.failingDeletes = [])
    (hunack : s.unacknowledgedDelete = none) (hmeans : Means filter test)
    (hkeys : Value.SameKeys ids
      (identifiers ((s.catalog.documents info.collection).filter test))) :
    Action.Coincide ((c.deleteFound info filter).runOn s)
      ((c'.deleteIdBatches info ids).runOn s) := by
  obtain ⟨f, hf, hholds⟩ := hmeans
  obtain rfl : f.holds = test := funext hholds
  obtain ⟨found, call, hfound, hrun⟩ := exists_runOn_deleteFound_eq c info s hf
  rw [hrun, deletePages_eq, deleteIdBatches]
  rw [← hfound] at hkeys
  cases hpattern : Regex.ofText? (joinPattern info.collection) with
  | none =>
    rw [runOn_deleteBatches_of_none hpattern, runOn_deleteBatches_of_none hpattern,
      isEmpty_pageBatches, pages_isEmpty (by decide), hkeys.isEmpty_eq]
    exact ⟨rfl, fun _ => rfl⟩
  | some regex =>
    have haccepted : (Regex.ofText? (joinPattern info.collection)).isSome = true := by
      rw [hpattern]
      rfl
    obtain ⟨r, t, hpages⟩ := exists_runOn_deleteBatches c hE haccepted
      (show (s.record call).failingDeletes = [] from hfails) {} (pageBatches found)
    obtain ⟨r', t', hids⟩ := exists_runOn_deleteBatches c' hE haccepted hfails {}
      (pages batchSize ids)
    -- both take away what the keys reach
    have hleft := (removes_of_deleteBatches hE hpages).catalog
    have hleft' := (removes_of_deleteIdBatches hE hids).catalog
    rw [flatten_pageBatches] at hleft
    rw [reaches_eq_of_sameKeys hsame hkeys] at hleft'
    have hcontent : ∀ name, t.catalog.content? name = t'.catalog.content? name :=
      fun name => Eq.trans (hleft name) (Eq.symm (hleft' name))
    have hdocuments : t.catalog.documents info.collection =
        t'.catalog.documents info.collection := by
      rw [Catalog.documents_eq, Catalog.documents_eq, hcontent]
    -- so both count the same
    have hcount : r.deletedCount = r'.deletedCount := by
      have haccounted := (accounted_of_deleteBatches hchunk hpages).trans
        (accounted_of_deleteBatches (by rwa [hsame]) hids).symm
      rw [EntityInfo.accounted, EntityInfo.accounted, hdocuments] at haccounted
      exact Nat.add_right_cancel haccounted
    have hacknowledged : r.acknowledged = r'.acknowledged := by
      rw [acknowledged_of_deleteBatches_of_none (s := s.record call) hchunk hunack hpages,
        acknowledged_of_deleteBatches_of_none (by rwa [hsame]) hunack hids, isEmpty_pageBatches,
        pages_isEmpty (by decide), hkeys.isEmpty_eq]
      rfl
    have hresult : r = r' := by
      cases r
      cases r'
      exact congrArg₂ DeleteResult.mk hcount hacknowledged
    rw [hpages, hids, hresult]
    exact ⟨rfl, hcontent⟩

end Cascade

namespace Context

variable {τ ι : Type} [EntityId ι] [Entity τ ι] {c c' : Context} {info : EntityInfo}
variable {shared : GlobalFilter} {s : Store} {cancellation cancellation' : Option Cancellation}

/-! ## Selected identifiers -/

/-- A value that selects a document has the key of its identifier. -/
theorem exists_key?_eq_of_takes {collection : Collection}
    (hkeyed : collection.WellKeyed) {v : Value} {doc : Document} (hdoc : doc ∈ collection.documents)
    (h : takes [("_id", JoinCollection.anyOf [v])] doc = true) :
    ∃ id, doc.get? "_id" = some id ∧ id.key?.isSome = true ∧ v.key? = id.key? := by
  obtain ⟨id, hid, hkey⟩ := hkeyed.exists_get?_id hdoc
  rw [(means_anyOf Filter.isPlainField_id [v]).takes_eq, Document.refersTo_of_get? hid hkey,
    List.any_cons, List.any_nil, Bool.or_false, decide_eq_true_eq] at h
  exact ⟨id, hid, hkey, h⟩

/-- Where each value selects a document that a test lets through, the documents that are found by
the values and the test have identifiers with the keys of the values. -/
theorem sameKeys_identifiers {collection : Collection} (hkeyed : collection.WellKeyed)
    {values : List Value} {test : Document → Bool}
    (hselects : ∀ v ∈ values, ∃ doc ∈ collection.documents,
      takes [("_id", JoinCollection.anyOf [v])] doc = true ∧ test doc = true) :
    Value.SameKeys values
      (identifiers (collection.documents.filter fun doc =>
        doc.refersTo "_id" values && test doc)) where
  keyed := by
    intro hnone
    obtain ⟨v, hv, hkey⟩ := List.mem_map.1 hnone
    obtain ⟨doc, hdoc, htakes, -⟩ := hselects v hv
    obtain ⟨id, -, hsome, heq⟩ := exists_key?_eq_of_takes hkeyed hdoc htakes
    rw [← heq, hkey] at hsome
    cases hsome
  mem_iff key? := by
    constructor
    · intro hkey
      obtain ⟨v, hv, rfl⟩ := List.mem_map.1 hkey
      obtain ⟨doc, hdoc, htakes, htest⟩ := hselects v hv
      obtain ⟨id, hid, hsome, heq⟩ := exists_key?_eq_of_takes hkeyed hdoc htakes
      -- the document that a value selects is found, and its identifier has the same key
      have hrefers : doc.refersTo "_id" values = true := by
        rw [Document.refersTo_of_get? hid hsome]
        exact List.any_eq_true.2 ⟨v, hv, decide_eq_true heq⟩
      have hmem : doc ∈ collection.documents.filter fun doc =>
          doc.refersTo "_id" values && test doc :=
        List.mem_filter.2 ⟨hdoc, by rw [hrefers, htest]; rfl⟩
      exact List.mem_map.2 ⟨id, List.mem_filterMap.2 ⟨doc, hmem, hid⟩, heq.symm⟩
    · intro hkey
      obtain ⟨id, hid, rfl⟩ := List.mem_map.1 hkey
      obtain ⟨doc, hdoc, hget⟩ := List.mem_filterMap.1 hid
      obtain ⟨hmem, hfound⟩ := List.mem_filter.1 hdoc
      obtain ⟨id', hget', hsome⟩ := hkeyed.exists_get?_id hmem
      obtain rfl := Option.some.inj (hget.symm.trans hget')
      rw [Document.refersTo_of_get? hget hsome, Bool.and_eq_true, List.any_eq_true] at hfound
      -- a document was found because some value has the key of its identifier
      obtain ⟨⟨v, hv, heq⟩, -⟩ := hfound
      exact List.mem_map.2 ⟨v, hv, of_decide_eq_true heq⟩

/-- A filter that takes a document can be read. -/
theorem exists_compileFilter_of_takes {filter doc : Document} (h : takes filter doc = true) :
    ∃ f, compileFilter filter = .ok f ∧ takes filter = f.holds := by
  cases hf : compileFilter filter with
  | error e =>
    rw [takes, hf] at h
    cases h
  | ok f => exact ⟨f, rfl, funext fun doc => by rw [takes, hf]⟩

/-! ## The routes of a context -/

/-- Where each identifier selects an entity that the global filter of the one context lets through,
a deletion by identifiers gives the same result and leaves the same collections in a context with
the global filter and in one without. It succeeds if the type can be used and a listing accepts the
pattern. -/
theorem routes_coincide {events : List TransactionEvent} (hrun : StoreRun events s)
    (hfails : s.failingDeletes = []) (hunack : s.unacknowledgedDelete = none)
    (hshared : c.globalFilter? τ = some shared) (hnone : c'.globalFilter? τ = none)
    (hsame : c'.config.chunkCollection = c.config.chunkCollection)
    (hchunk : c.config.chunkCollection ≠ Stored.collection τ)
    (hproceeds : (c.cascade cancellation).Proceeds s)
    (hproceeds' : (c'.cascade cancellation').Proceeds s) {ids : List ι}
    (hselects : ∀ id ∈ ids, ∃ doc ∈ s.catalog.documents (Stored.collection τ),
      takes [("_id", JoinCollection.anyOf [EntityId.toValue id])] doc = true ∧
        takes shared.filter doc = true) :
    Action.Coincide ((c.delete τ ids cancellation).runOn s)
        ((c'.delete τ ids cancellation').runOn s) ∧
      ∀ info, Entity.info τ = .ok info →
        (Regex.ofText? (joinPattern info.collection)).isSome = true →
          ∃ r t, (c'.delete τ ids cancellation').runOn s = (.ok r, t) := by
  cases hinfo : Entity.info τ with
  | error e =>
    refine ⟨?_, fun info hok => nomatch hok⟩
    rw [delete, delete, hinfo, Action.runOn_bind, Action.runOn_bind, Action.runOn_ofExcept]
    exact ⟨rfl, fun _ => rfl⟩
  | ok info =>
    obtain ⟨hcollection, hE, -⟩ := Entity.info_eq_ok hinfo
    rw [← hcollection] at hchunk hselects
    rw [runOn_delete_of_none hinfo hnone, Cascade.deleteIds, hproceeds'.runOn_checked]
    refine ⟨?_, ?_⟩
    · by_cases hids : ids = []
      · subst hids
        -- with a global filter nothing is found, and without one there is no batch
        have hpages : pages Cascade.batchSize ([] : List Value) = [] := by simp [pages]
        rw [runOn_delete_nil hinfo hshared,
          Action.runOn_bind_of_ok hproceeds.runOn_checkCancellation, Cascade.deleteIdBatches,
          List.map_nil, hpages]
        exact ⟨rfl, fun _ => rfl⟩
      · -- some document is let through, so the global filter can be read
        obtain ⟨id, hid⟩ := List.exists_mem_of_ne_nil ids hids
        obtain ⟨_, -, -, htakes⟩ := hselects id hid
        obtain ⟨g, hg, hholds⟩ := exists_compileFilter_of_takes htakes
        rw [hholds, ← Catalog.documents_get] at hselects
        rw [runOn_delete hinfo hshared hids, Cascade.deleteMatching, hproceeds.runOn_checked]
        refine Cascade.coincides hE (fun _ => hchunk) hsame hfails hunack
          (means_mergeFilter_anyOf hshared hg _) ?_
        rw [← Catalog.documents_get]
        refine sameKeys_identifiers (hrun.isKeyed.1 info.collection) fun v hv => ?_
        obtain ⟨id, hid, rfl⟩ := List.mem_map.1 hv
        exact hselects id hid
    · intro info' hinfo' haccepted
      obtain rfl := Except.ok.inj hinfo'
      exact Cascade.exists_runOn_deleteBatches _ hE haccepted hfails {} _

end Context

/-! ## An item that is named twice -/

namespace Sample

/-- A context like `tagContext` without its global filter. -/
def plainContext (chunkCollection : String) : Context := ⟨⟨.prepend, chunkCollection⟩, none, []⟩

theorem exists_run_firstItem :
    ∃ s, StoreRun [] s ∧ s.failingDeletes = [] ∧ s.unacknowledgedDelete = none ∧
      s.catalog.documents "shop.items" = [firstItem] := by
  obtain ⟨s, hrun, hinsert, hdocuments⟩ := (StoreRun.new ⟨0⟩).exists_insertOne "shop.items"
    firstItem rfl rfl List.not_mem_nil
  have hframe := ((keeps_writes_insertOne _ _).of_runOn hinsert).frame
  exact ⟨s, hrun, by rw [hframe]; rfl, by rw [hframe]; rfl, hdocuments⟩

end Sample

open Sample in
/-- An item that is named twice is deleted on both routes, with the same report. -/
theorem Context.routes_coincide_item :
    ∃ s r t t', StoreRun [] s ∧ s.catalog.documents "shop.items" = [firstItem] ∧
      ((tagContext "chunks").delete Item [1, 1] none).runOn s = (.ok r, t) ∧
      ((plainContext "chunks").delete Item [1, 1] none).runOn s = (.ok r, t') ∧
      ∀ name, t.catalog.content? name = t'.catalog.content? name := by
  obtain ⟨s, hrun, hfails, hunack, hdocuments⟩ := exists_run_firstItem
  obtain ⟨g, hg, hfirst, -⟩ := exists_tagFilter
  obtain ⟨info, hinfo, hcollection, -⟩ := exists_info_fileItem
  have hselects : ∀ id ∈ ([1, 1] : List Int64), ∃ doc ∈ s.catalog.documents "shop.items",
      takes [("_id", JoinCollection.anyOf [EntityId.toValue id])] doc = true ∧
        takes [("tag", .string "a")] doc = true := by
    intro id hid
    obtain rfl : id = 1 := by simpa using hid
    refine ⟨firstItem, by rw [hdocuments]; exact List.mem_singleton_self _, ?_, ?_⟩
    · rw [(means_anyOf Filter.isPlainField_id _).takes_eq, Document.refersTo_of_get? rfl rfl]
      decide
    · rw [takes, hg]
      exact hfirst
  have hroutes := Context.routes_coincide (c := tagContext "chunks") hrun hfails hunack rfl
    (show (plainContext "chunks").globalFilter? Item = none from rfl) rfl (by decide)
    (Cascade.proceeds_of_none (rfl : ((tagContext "chunks").cascade none).cancellation = none))
    (Cascade.proceeds_of_none (rfl : ((plainContext "chunks").cascade none).cancellation = none))
    hselects
  obtain ⟨⟨hresult, hcontent⟩, hsucceeds⟩ := hroutes
  obtain ⟨r, t', h'⟩ := hsucceeds info hinfo (by
    rw [hcollection]
    exact Regex.isSome_ofText?_joinPattern (by decide))
  cases h : ((tagContext "chunks").delete Item [1, 1] none).runOn s with
  | mk result t =>
    rw [h, h'] at hresult hcontent
    obtain rfl : result = .ok r := hresult
    exact ⟨s, r, t, t', hrun, hdocuments, h, h', hcontent⟩

end DocMapper
