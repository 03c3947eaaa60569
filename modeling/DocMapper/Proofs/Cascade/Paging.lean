import DocMapper.Proofs.Cascade.Batching
import DocMapper.Proofs.Context.Positions
import DocMapper.Proofs.Context.Routes

set_option autoImplicit false

/-!
# Deletion page by page

A deletion by a filter reads the identifiers of the matching entities in pages and deletes each page
before it goes on to the next one. The pages are those of the entities that matched at the
beginning, and each of them fills one batch. So the batches are those of a deletion by all of these
identifiers (`Cascade.pageBatches_pages`), which gives the same result and leaves the same
collections (`Cascade.coincides_identifiers`). Stored documents are told apart by their identifiers,
so exactly the matching entities are deleted and counted (`Cascade.deleteMatching_by_identifiers`).

Both deletions fail alike where the listing refuses the pattern of the join collections
(`Cascade.deleteMatching_long_name`).
-/

namespace DocMapper

open Store

/-- Where each document has an identifier, the identifiers are read one by one. -/
theorem identifiers_eq_map {docs : List Document}
    (h : ∀ doc ∈ docs, ∃ id, doc.get? "_id" = some id) :
    identifiers docs = docs.map fun doc => (doc.get? "_id").getD .null := by
  induction docs with
  | nil => rfl
  | cons doc rest ih =>
    obtain ⟨⟨id, hid⟩, hrest⟩ := List.forall_mem_cons.1 h
    rw [identifiers, List.filterMap_cons, List.map_cons, hid, ← ih hrest]
    rfl

theorem map_some_identifiers {docs : List Document}
    (h : ∀ doc ∈ docs, ∃ id, doc.get? "_id" = some id) :
    (identifiers docs).map some = docs.map fun doc => doc.get? "_id" := by
  rw [identifiers_eq_map h, List.map_map]
  refine List.map_congr_left fun doc hdoc => ?_
  obtain ⟨id, hid⟩ := h doc hdoc
  rw [Function.comp_apply, hid, Option.getD_some]

namespace Cascade

variable {c : Cascade} {info : EntityInfo} {filter : Document} {f : Filter} {s : Store}

/-- The pages of documents with identifiers make one batch each, and these are the batches of all
identifiers. -/
theorem pageBatches_pages {docs : List Document}
    (h : ∀ doc ∈ docs, ∃ id, doc.get? "_id" = some id) :
    pageBatches (pages batchSize docs) = pages batchSize (identifiers docs) := by
  have hpage : ∀ page ∈ pages batchSize docs, pages batchSize (identifiers page) =
      [page.map fun doc => (doc.get? "_id").getD .null] := by
    intro page hmem
    have hdocs : ∀ doc ∈ page, ∃ id, doc.get? "_id" = some id := by
      intro doc hdoc
      refine h doc ?_
      rw [← flatten_pages (show 0 < batchSize by decide) docs]
      exact List.mem_flatten.2 ⟨page, hmem, hdoc⟩
    obtain ⟨hne, hlength⟩ := length_of_mem_pages docs hmem
    rw [identifiers_eq_map hdocs]
    exact pages_of_length_le (by decide) (by simpa using hne) (by simpa using hlength)
  rw [pageBatches, List.flatMap_congr hpage, ← List.map_eq_flatMap, identifiers_eq_map h,
    pages_map]

theorem exists_get?_id_of_mem_filter {name : String} (hkeyed : (s.catalog.get name).WellKeyed)
    (test : Document → Bool) :
    ∀ doc ∈ (s.catalog.documents name).filter test, ∃ id, doc.get? "_id" = some id := by
  intro doc hdoc
  rw [← Catalog.documents_get] at hdoc
  obtain ⟨id, hid, -⟩ := hkeyed.exists_get?_id (List.mem_filter.1 hdoc).1
  exact ⟨id, hid⟩

/-- Documents under the keys of their identifiers are deleted by a filter as by the identifiers of
those that match: the result is the same, and so are the collections that are left. -/
theorem coincides_identifiers (hkeyed : (s.catalog.get info.collection).WellKeyed)
    (hf : compileFilter filter = .ok f) :
    Action.Coincide ((c.deleteFound info filter).runOn s)
      ((c.deleteIdBatches info
        (identifiers ((s.catalog.documents info.collection).filter f.holds))).runOn s) := by
  have hids : ∀ doc ∈ ((s.catalog.documents info.collection).filter f.holds).map
      (project (some [("_id", .int32 1)])), ∃ id, doc.get? "_id" = some id := by
    intro read hread
    obtain ⟨doc, hdoc, rfl⟩ := List.mem_map.1 hread
    obtain ⟨id, hid⟩ := exists_get?_id_of_mem_filter hkeyed f.holds doc hdoc
    exact ⟨id, (get?_id_project doc).trans hid⟩
  rw [runOn_deleteFound c info s hf, deletePages_eq, pageBatches_pages hids, identifiers_project]
  -- the find is in one of the journals only, and it is no deletion
  have halike : Alike s (s.record (.find info.collection filter batchSize)) :=
    .of_journal _ fun collection => by simp [Call.deletesFrom]
  obtain ⟨hresult, hleft⟩ := agrees_deleteBatches c info {} (pages batchSize (identifiers
    ((s.catalog.documents info.collection).filter f.holds))) _ _ halike
  exact ⟨hresult.symm, fun name => by rw [hleft.catalog_eq]; rfl⟩

/-- Where the pattern of the join collections is refused, a deletion by a filter that some document
matches fails, and all collections stay. -/
theorem coincides_refused (hkeyed : (s.catalog.get info.collection).WellKeyed)
    (hf : compileFilter filter = .ok f)
    (hpattern : Regex.ofText? (joinPattern info.collection) = none)
    (hmatching : (s.catalog.documents info.collection).filter f.holds ≠ []) :
    Action.Coincide ((c.deleteFound info filter).runOn s)
      (.error (.malformedPattern (joinPattern info.collection)), s) := by
  have hids : identifiers ((s.catalog.documents info.collection).filter f.holds) ≠ [] := by
    rw [identifiers_eq_map (exists_get?_id_of_mem_filter hkeyed f.holds), ne_eq,
      List.map_eq_nil_iff]
    exact hmatching
  rw [← runOn_deleteIdBatches_of_none hpattern c s hids]
  exact coincides_identifiers hkeyed hf

/-- Deleting documents under the keys of their identifiers by the identifiers of those of which a
test holds takes exactly these out of their collection and counts them. -/
theorem exists_runOn_deleteIdBatches_identifiers {regex : Regex}
    (hr : Regex.ofText? (joinPattern info.collection) = some regex)
    (hchunk : info.isFile = true → c.chunkCollection ≠ info.collection)
    (hfails : s.failingDeletes = []) (hkeyed : (s.catalog.get info.collection).WellKeyed)
    (test : Document → Bool) :
    ∃ r t, (c.deleteIdBatches info
        (identifiers ((s.catalog.documents info.collection).filter test))).runOn s = (.ok r, t) ∧
      r.deletedCount = ((s.catalog.documents info.collection).filter test).length ∧
      s.catalog.Loses t.catalog info.collection test := by
  obtain ⟨r, t, hrun, -, hloses, haccounted, -⟩ := exists_runOn_deleteIdBatches (c := c) hr hchunk
    hfails (identifiers ((s.catalog.documents info.collection).filter test))
  have hexact : s.catalog.Loses t.catalog info.collection test := by
    refine hloses.congr fun doc hdoc => ?_
    rw [← Catalog.documents_get] at hdoc ⊢
    exact hkeyed.refersTo_identifiers test hdoc
  refine ⟨r, t, hrun, ?_, hexact⟩
  rw [EntityInfo.accounted, EntityInfo.accounted, hexact.documents, Nat.zero_add] at haccounted
  have hcount := (s.catalog.documents info.collection).length_eq_countP_add_countP (p := test)
  rw [← List.countP_eq_length_filter] at haccounted ⊢
  simp only [Bool.not_eq_true, Bool.decide_eq_false] at hcount
  omega

/-- A deletion by a filter that can not be read changes nothing. One by another filter gives the
result and leaves the collections that a deletion by the identifiers of all matching entities does,
in their order. Where the chunks have another collection, no deletion is set to fail and the listing
accepts the pattern of the join collections, as it does for names that are not too long, it counts
the matching entities and takes exactly these out of their collection. Where the pattern is refused
it fails as soon as some entity matches, and all collections stay. -/
theorem deleteMatching_by_identifiers {events : List TransactionEvent} (hrun : StoreRun events s)
    (hproceeds : c.Proceeds s) (info : EntityInfo) (filter : Document) :
    (∀ e, compileFilter filter = .error e →
        (c.deleteMatching info filter).runOn s = (.error e, s)) ∧
      ∀ f, compileFilter filter = .ok f →
        let matching := (s.catalog.documents info.collection).filter f.holds
        (identifiers matching).map some = matching.map (fun doc => doc.get? "_id") ∧
          Action.Coincide ((c.deleteMatching info filter).runOn s)
            ((c.deleteIds info (identifiers matching)).runOn s) ∧
          (Pattern.byteCount info.collection.toList ≤ Pattern.maxNameSize →
            (Regex.ofText? (joinPattern info.collection)).isSome = true) ∧
          ((info.isFile = true → c.chunkCollection ≠ info.collection) → s.failingDeletes = [] →
            (Regex.ofText? (joinPattern info.collection)).isSome = true →
            ∃ r t, (c.deleteMatching info filter).runOn s = (.ok r, t) ∧
              r.deletedCount = matching.length ∧
              s.catalog.Loses t.catalog info.collection f.holds) ∧
          (Regex.ofText? (joinPattern info.collection) = none → matching ≠ [] →
            ((c.deleteMatching info filter).runOn s).1 =
                .error (.malformedPattern (joinPattern info.collection)) ∧
              ∀ name, ((c.deleteMatching info filter).runOn s).2.catalog.content? name =
                s.catalog.content? name) := by
  have hkeyed := hrun.isKeyed.1 info.collection
  have hfound : (c.deleteMatching info filter).runOn s = (c.deleteFound info filter).runOn s :=
    hproceeds.runOn_checked _
  -- on both routes the token makes no difference
  have hids (ids : List Value) :
      (c.deleteIds info ids).runOn s = (c.deleteIdBatches info ids).runOn s :=
    hproceeds.runOn_checked _
  rw [hfound]
  refine ⟨fun e hf => runOn_deleteFound_of_fault c info s hf, fun f hf => ?_⟩
  intro matching
  have hcoincide := coincides_identifiers (c := c) hkeyed hf
  rw [hids]
  refine ⟨map_some_identifiers (exists_get?_id_of_mem_filter hkeyed f.holds), hcoincide,
    Regex.isSome_ofText?_joinPattern, ?accepted, ?refused⟩
  case accepted =>
    intro hchunk hfails haccepted
    obtain ⟨regex, hr⟩ := Option.isSome_iff_exists.1 haccepted
    obtain ⟨r, t, hdelete, hcount, hloses⟩ :=
      exists_runOn_deleteIdBatches_identifiers hr hchunk hfails hkeyed f.holds
    -- the deletion by identifiers is known to succeed, and the other one coincides with it
    rw [hdelete] at hcoincide
    refine ⟨r, ((c.deleteFound info filter).runOn s).2,
      Prod.ext hcoincide.result_eq rfl, hcount, ?_⟩
    rw [Catalog.Loses, hcoincide.content?_eq]
    exact hloses
  case refused =>
    intro hpattern hmatching
    have hrefused := coincides_refused (c := c) hkeyed hf hpattern hmatching
    exact ⟨hrefused.result_eq, hrefused.content?_eq⟩

end Cascade

/-! ## Two items, and a long name -/

open Sample in
/-- Of two items the one with the tag is deleted, and the other one stays although it refers to it
as its file. -/
theorem Cascade.deleteMatching_by_identifiers_items :
    ∃ s f r t, StoreRun [] s ∧ shopCascade.Proceeds s ∧ s.failingDeletes = [] ∧
      (itemInfo.isFile = true → shopCascade.chunkCollection ≠ itemInfo.collection) ∧
      compileFilter [("tag", .string "a")] = .ok f ∧
      (shopCascade.deleteMatching itemInfo [("tag", .string "a")]).runOn s = (.ok r, t) ∧
      r.deletedCount = 1 ∧ t.catalog.documents "shop.items" = [secondItem] ∧
      Action.Coincide (.ok r, t) ((shopCascade.deleteIds itemInfo [.int64 1]).runOn s) := by
  obtain ⟨s, hrun, hfails, hdocuments⟩ := exists_run_items
  obtain ⟨f, hf, hfirst, hsecond⟩ := exists_tagFilter
  have hproceeds : shopCascade.Proceeds s := proceeds_of_none rfl
  have hchunk : itemInfo.isFile = true → shopCascade.chunkCollection ≠ itemInfo.collection :=
    fun _ => by decide
  obtain ⟨-, hcompiled⟩ :=
    deleteMatching_by_identifiers hrun hproceeds itemInfo [("tag", .string "a")]
  obtain ⟨-, hcoincide, haccepted, hdeletes, -⟩ := hcompiled f hf
  obtain ⟨r, t, hdelete, hcount, hloses⟩ := hdeletes hchunk hfails (haccepted (by decide))
  have hmatching : (s.catalog.documents itemInfo.collection).filter f.holds = [firstItem] := by
    rw [show itemInfo.collection = "shop.items" from rfl, hdocuments]
    simp [hfirst, hsecond]
  have hleft := hloses.documents
  rw [show itemInfo.collection = "shop.items" from rfl, hdocuments] at hleft
  rw [hmatching] at hcount hcoincide
  refine ⟨s, f, r, t, hrun, hproceeds, hfails, hchunk, hf, hdelete, hcount, ?_, ?_⟩
  · rw [hleft]
    simp [hfirst, hsecond]
  · rwa [hdelete] at hcoincide

open Sample in
/-- A document that matches is not deleted where the name of its collection is too long, although no
deletion is set to fail. -/
theorem Cascade.deleteMatching_long_name :
    let info := lettersInfo 200000
    ∃ s f, StoreRun [] s ∧ s.failingDeletes = [] ∧ compileFilter [] = .ok f ∧
      (s.catalog.documents info.collection).filter f.holds = [[("_id", .int32 1)]] ∧
      ((shopCascade.deleteMatching info []).runOn s).1 =
        .error (.malformedPattern (joinPattern info.collection)) ∧
      ∀ name, ((shopCascade.deleteMatching info []).runOn s).2.catalog.content? name =
        s.catalog.content? name := by
  intro info
  obtain ⟨s, hrun, hinsert, hdocuments⟩ := (StoreRun.new ⟨0⟩).exists_insertOne info.collection
    [("_id", .int32 1)] rfl rfl List.not_mem_nil
  have hfails : s.failingDeletes = [] :=
    ((keeps_writes_insertOne _ _).of_runOn hinsert).failingDeletes_eq
  have hmatching : (s.catalog.documents info.collection).filter (Filter.all []).holds =
      [[("_id", .int32 1)]] := by
    rw [hdocuments]
    rfl
  have hproceeds : shopCascade.Proceeds s := proceeds_of_none rfl
  -- a listing refuses the pattern of so long a name, so the deletion fails for its only match
  have hrefused := coincides_refused (c := shopCascade) (hrun.isKeyed.1 info.collection)
    (show compileFilter [] = .ok (.all []) from rfl) (ofText?_joinPattern_letters (by decide))
    (by rw [hmatching]; exact List.cons_ne_nil _ _)
  refine ⟨s, .all [], hrun, hfails, rfl, hmatching, ?_⟩
  rw [deleteMatching, hproceeds.runOn_checked]
  exact ⟨hrefused.result_eq, hrefused.content?_eq⟩

end DocMapper
