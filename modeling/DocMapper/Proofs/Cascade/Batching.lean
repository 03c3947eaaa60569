import DocMapper.Proofs.Cascade.IdDelete
import DocMapper.Proofs.Cascade.Reports

set_option autoImplicit false

/-!
# Deletion in batches

The identifiers of a deletion are divided into batches in their order. For each batch the join
collections are listed and the entities with its identifiers are deleted, once each, whatever goes
along with them. The report counts the documents that disappeared, and it is confirmed if each
deletion of entities was. Once a deletion fails no later batch is begun
(`Cascade.deleteIds_in_batches`).

There is one condition: the listing has to accept the pattern of the join collections, which it does
unless the name of the collection is too long. Otherwise nothing is issued at all
(`Cascade.deleteIds_long_name`).
-/

namespace DocMapper

open Store

namespace Cascade

variable {c : Cascade} {info : EntityInfo} {s t : Store} {ids : List Value} {regex : Regex}

theorem runOn_deleteIdBatches_nil (c : Cascade) (info : EntityInfo) (s : Store) :
    (c.deleteIdBatches info []).runOn s = (.ok {}, s) := by
  rw [deleteIdBatches, pages_eq_nil (.inl rfl)]
  rfl

/-- Where the pattern of the join collections is refused, the deletion of some identifiers does
nothing. -/
theorem runOn_deleteIdBatches_of_none
    (hpattern : Regex.ofText? (joinPattern info.collection) = none) (c : Cascade) (s : Store)
    (hids : ids ≠ []) :
    (c.deleteIdBatches info ids).runOn s =
      (.error (.malformedPattern (joinPattern info.collection)), s) := by
  have hbatches : (pages batchSize ids).isEmpty = false := by
    rw [pages_isEmpty (by decide), List.isEmpty_eq_false_iff]
    exact hids
  rw [deleteIdBatches, runOn_deleteBatches_of_none hpattern, hbatches]
  rfl

/-- The deletion of some identifiers that are divided into batches, where no deletion is set to
fail. -/
theorem exists_runOn_deleteIdBatches
    (hr : Regex.ofText? (joinPattern info.collection) = some regex)
    (hchunk : info.isFile = true → c.chunkCollection ≠ info.collection)
    (hfails : s.failingDeletes = []) (ids : List Value) :
    ∃ r t, (c.deleteIdBatches info ids).runOn s = (.ok r, t) ∧
      t.journal.toList =
        s.journal.toList ++ (pages batchSize ids).flatMap (c.batchCalls info regex s) ∧
      s.catalog.Loses t.catalog info.collection (fun doc => doc.refersTo "_id" ids) ∧
      info.accounted t r = info.accounted s {} ∧
      (r.acknowledged = true ↔ ∀ i < (pages batchSize ids).length,
        s.confirms info.collection (s.deletionCount info.collection + i) = true) := by
  have hissues := issues_deleteBatches c hr {} (pages batchSize ids) s
  obtain ⟨r, hr⟩ := hissues.succeeds fun call _ => by rw [hfails, Call.failsOn_nil]
  cases hrun : (c.deleteBatches info {} (pages batchSize ids)).runOn s with
  | mk result t =>
    rw [hrun] at hissues hr
    obtain rfl : result = .ok r := hr
    have hloses := loses_of_deleteBatches hchunk hrun
    rw [flatten_batches] at hloses
    refine ⟨r, t, hrun, hissues.journal_of_ok.2, hloses, accounted_of_deleteBatches hchunk hrun, ?_⟩
    rw [acknowledged_of_deleteBatches hchunk hrun, Bool.true_and, List.all_eq_true]
    simp only [List.mem_range]

/-- The deletion of some identifiers ends with the first batch of which a deletion fails. -/
theorem exists_runOn_deleteIdBatches_of_fails
    (hr : Regex.ofText? (joinPattern info.collection) = some regex)
    {done later : List (List Value)} {batch : List Value}
    (hbatches : pages batchSize ids = done ++ batch :: later)
    (hfails : ∃ call ∈ c.batchCalls info regex s batch, call.failsOn s.failingDeletes = true) :
    ∃ name t, (c.deleteIdBatches info ids).runOn s = (.error (.deleteFailed name), t) ∧
      t.journal.toList = s.journal.toList ++
        Call.upToFailure s.failingDeletes
          ((done ++ [batch]).flatMap (c.batchCalls info regex s)) := by
  have hissues := issues_deleteBatches c hr {} (pages batchSize ids) s
  -- what follows the calls up to this batch is not issued
  have hcalls : (pages batchSize ids).flatMap (c.batchCalls info regex s) =
      (done ++ [batch]).flatMap (c.batchCalls info regex s) ++
        later.flatMap (c.batchCalls info regex s) := by
    rw [hbatches, ← List.flatMap_append, List.append_assoc, List.singleton_append]
  rw [hcalls] at hissues
  obtain ⟨call, hcall, hcallFails⟩ := hfails
  obtain ⟨name, hname, hjournal⟩ := hissues.of_append_of_fails
    ⟨call, List.mem_flatMap.2 ⟨batch, by simp, hcall⟩, hcallFails⟩
  exact ⟨name, _, Prod.ext hname rfl, hjournal⟩

/-- The identifiers of a deletion are divided into batches in their order, of which none is empty or
longer than the batch size, and as few as possible. For no identifiers nothing is done. Where the
listing accepts the pattern of the join collections, as it does for names that are not too long, and
no deletion is set to fail, there is one listing and one deletion of entities for each batch. Just
the entities with one of the identifiers are lost, the report counts them, and it is confirmed if
all of those deletions are. A deletion that is set to fail ends the run with the calls up to it, so
that no later batch is begun. Where the pattern is refused nothing is done either. -/
theorem deleteIds_in_batches (hproceeds : c.Proceeds s) (ids : List Value) :
    let batches := pages batchSize ids
    let run := (c.deleteIds info ids).runOn s
    (batches.flatten = ids ∧ batches.length = (ids.length + batchSize - 1) / batchSize ∧
        ∀ batch ∈ batches, batch ≠ [] ∧ batch.length ≤ batchSize) ∧
      (ids = [] → run = (.ok {}, s)) ∧
      (Pattern.byteCount info.collection.toList ≤ Pattern.maxNameSize →
        (Regex.ofText? (joinPattern info.collection)).isSome = true) ∧
      (∀ regex, Regex.ofText? (joinPattern info.collection) = some regex →
        let calls := batches.flatMap (c.batchCalls info regex s)
        ((info.isFile = true → c.chunkCollection ≠ info.collection) → s.failingDeletes = [] →
          (∃ r t, run = (.ok r, t) ∧ t.journal.toList = s.journal.toList ++ calls ∧
            s.catalog.Loses t.catalog info.collection (fun doc => doc.refersTo "_id" ids) ∧
            r.deletedCount + (t.catalog.documents info.collection).length =
              (s.catalog.documents info.collection).length ∧
            (r.acknowledged = true ↔ ∀ i < batches.length,
              s.confirms info.collection (s.deletionCount info.collection + i) = true)) ∧
          calls.filter Call.isListing =
            List.replicate batches.length (.list (joinPattern info.collection)) ∧
          calls.filter (Call.deletesFrom info.collection) = batches.map (c.entityCall info s)) ∧
        ∀ done batch later, batches = done ++ batch :: later →
          (∃ call ∈ c.batchCalls info regex s batch, call.failsOn s.failingDeletes = true) →
          ∃ name t, run = (.error (.deleteFailed name), t) ∧
            t.journal.toList = s.journal.toList ++ Call.upToFailure s.failingDeletes
              ((done ++ [batch]).flatMap (c.batchCalls info regex s))) ∧
      (Regex.ofText? (joinPattern info.collection) = none → ids ≠ [] →
        run = (.error (.malformedPattern (joinPattern info.collection)), s)) := by
  intro batches run
  -- a token that lets the deletion proceed makes no difference to its batches
  have hrun : run = (c.deleteIdBatches info ids).runOn s := hproceeds.runOn_checked _
  rw [hrun]
  refine ⟨⟨flatten_batches ids, length_pages (by decide) ids, fun _ => length_of_mem_pages ids⟩,
    ?none, Regex.isSome_ofText?_joinPattern,
    fun regex hr => ⟨fun hchunk hfails => ?succeeds, ?fails⟩,
    fun hpattern hids => runOn_deleteIdBatches_of_none hpattern c s hids⟩
  case none =>
    rintro rfl
    exact runOn_deleteIdBatches_nil c info s
  case succeeds =>
    obtain ⟨r, t, hdelete, hjournal, hloses, haccounted, hacknowledged⟩ :=
      exists_runOn_deleteIdBatches hr hchunk hfails ids
    rw [EntityInfo.accounted, EntityInfo.accounted, Nat.zero_add] at haccounted
    exact ⟨⟨r, t, hdelete, hjournal, hloses, haccounted, hacknowledged⟩,
      filter_isListing_batchCalls c info regex s batches,
      filter_deletesFrom_batchCalls hr hchunk s batches⟩
  case fails =>
    intro done batch later hbatches hfails
    exact exists_runOn_deleteIdBatches_of_fails hr hbatches hfails

end Cascade

/-! ## Two batches, and a long name -/

namespace Sample

/-- One identifier more than fits into a batch, all of the same item. -/
def repeatedIds : List Value := List.replicate (Cascade.batchSize + 1) (.int64 5)

/-- The first batch holds all of them but one. -/
theorem pages_repeatedIds :
    pages Cascade.batchSize repeatedIds =
      [List.replicate Cascade.batchSize (.int64 5), [.int64 5]] := by
  have hsome : ¬ (repeatedIds.isEmpty = true ∨ Cascade.batchSize = 0) := by decide +kernel
  have hfirst : repeatedIds.take Cascade.batchSize =
      List.replicate Cascade.batchSize (.int64 5) := by
    rw [repeatedIds, List.take_replicate, Nat.min_eq_left (Nat.le_succ _)]
  have hrest : repeatedIds.drop Cascade.batchSize = [.int64 5] := by
    rw [repeatedIds, List.drop_replicate, Nat.add_sub_cancel_left]
    rfl
  rw [pages_eq_cons hsome, hfirst, hrest,
    pages_of_length_le (by decide) (List.cons_ne_nil _ _) (by decide)]

/-- A name of so many letters. -/
def letters (n : Nat) : String := String.ofList (List.replicate n 'a')

theorem byteCount_letters (n : Nat) : Pattern.byteCount (letters n).toList = n := by
  rw [letters, String.toList_ofList]
  induction n with
  | zero => rfl
  | succ n ih =>
    rw [List.replicate_succ, Pattern.byteCount, List.map_cons, List.sum_cons, ← Pattern.byteCount,
      ih, Nat.add_comm]
    rfl

/-- What is known about entities whose collection has a name of so many letters. -/
def lettersInfo (n : Nat) : EntityInfo := ⟨letters n, false, []⟩

theorem ofText?_joinPattern_letters {n : Nat} (h : Plan.maxSpace < 64 * n) :
    Regex.ofText? (joinPattern (lettersInfo n).collection) = none :=
  Regex.ofText?_joinPattern_eq_none (by rwa [lettersInfo, byteCount_letters])

end Sample

open Sample in
/-- An item that is named in two batches is counted once. The second deletion in its collection goes
unconfirmed, and so does the whole. Where deletions in the collection fail, the second batch is not
begun. -/
theorem Cascade.deleteIds_in_batches_repeated :
    let unconfirmed := linked.unacknowledgeDelete "shop.items" 1
    let failing := linked.failDeletesOn "shop.items"
    (shopCascade.Proceeds unconfirmed ∧ shopCascade.Proceeds failing) ∧
      (∃ t, (shopCascade.deleteIds itemInfo repeatedIds).runOn unconfirmed = (.ok ⟨1, false⟩, t) ∧
        t.catalog.documents "shop.items" = [] ∧
        (t.journal.toList.filter Call.isListing).length = 2 ∧
        t.journal.toList.filter (Call.deletesFrom "shop.items") =
          [shopCascade.entityCall itemInfo linked (List.replicate batchSize (.int64 5)),
            shopCascade.entityCall itemInfo linked [.int64 5]]) ∧
      ∃ name t, (shopCascade.deleteIds itemInfo repeatedIds).runOn failing =
          (.error (.deleteFailed name), t) ∧
        t.journal.toList = [.list (joinPattern "shop.items"),
          shopCascade.entityCall itemInfo linked (List.replicate batchSize (.int64 5))] := by
  intro unconfirmed failing
  have hproceeds (s : Store) : shopCascade.Proceeds s := proceeds_of_none rfl
  have hpages := pages_repeatedIds
  refine ⟨⟨hproceeds _, hproceeds _⟩, ?_, ?_⟩
  · obtain ⟨-, -, haccepted, hregex, -⟩ :=
      @deleteIds_in_batches _ itemInfo _ (hproceeds unconfirmed) repeatedIds
    obtain ⟨regex, hr⟩ := Option.isSome_iff_exists.1 (haccepted (by decide))
    obtain ⟨⟨r, t, hrun, hjournal, hloses, hcount, hacknowledged⟩, hlistings, hdeletions⟩ :=
      (hregex regex hr).1 (fun _ => by decide) rfl
    have hitems : unconfirmed.catalog.documents "shop.items" = [[("_id", .int64 5)]] := rfl
    have hleft : t.catalog.documents "shop.items" = [] := by
      have hitem : Document.refersTo [("_id", .int64 5)] "_id" repeatedIds = true := by
        rw [Document.refersTo_of_get? rfl rfl, repeatedIds, List.any_replicate]
        decide
      have hdocuments := hloses.documents
      rw [show itemInfo.collection = "shop.items" from rfl, hitems] at hdocuments
      rw [hdocuments, List.filter_cons, hitem]
      rfl
    -- the second of the two deletions is the one that goes unconfirmed
    have hunconfirmed : r.acknowledged = false := by
      rw [← Bool.not_eq_true, hacknowledged, hpages]
      intro hall
      exact absurd (hall 1 (by decide)) (by decide)
    have hcounted : r.deletedCount = 1 := by
      rw [show itemInfo.collection = "shop.items" from rfl, hleft, hitems] at hcount
      exact hcount
    have hresult : r = ⟨1, false⟩ := by
      cases r
      exact congrArg₂ DeleteResult.mk hcounted hunconfirmed
    rw [hresult] at hrun
    rw [hpages] at hjournal hlistings hdeletions
    refine ⟨t, hrun, hleft, ?_, ?_⟩
    · rw [hjournal, List.filter_append, hlistings]
      rfl
    · rw [hjournal, List.filter_append]
      exact hdeletions
  · obtain ⟨-, -, haccepted, hregex, -⟩ :=
      @deleteIds_in_batches _ itemInfo _ (hproceeds failing) repeatedIds
    obtain ⟨regex, hr⟩ := Option.isSome_iff_exists.1 (haccepted (by decide))
    obtain ⟨name, t, hrun, hjournal⟩ := (hregex regex hr).2 [] _ _ hpages
      ⟨_, List.mem_cons_of_mem _ List.mem_cons_self, rfl⟩
    exact ⟨name, t, hrun, hjournal⟩

open Sample in
/-- Nothing is issued for an identifier where the name of the collection is too long, although no
deletion is set to fail. -/
theorem Cascade.deleteIds_long_name :
    let s := Store.empty ⟨0⟩
    s.failingDeletes = [] ∧
      (shopCascade.deleteIds (lettersInfo 200000) [.int32 1]).runOn s =
        (.error (.malformedPattern (joinPattern (lettersInfo 200000).collection)), s) := by
  intro s
  have hproceeds : shopCascade.Proceeds s := proceeds_of_none rfl
  refine ⟨rfl, ?_⟩
  rw [deleteIds, hproceeds.runOn_checked]
  exact runOn_deleteIdBatches_of_none (ofText?_joinPattern_letters (by decide)) shopCascade s
    (List.cons_ne_nil _ _)

end DocMapper
