import DocMapper.Proofs.Cascade.Calls
import DocMapper.Proofs.Cascade.Matching

set_option autoImplicit false

/-!
# What a deletion reports

Where the chunks are kept apart from the entities, the documents that are left in the collection of
the entities and those that were reported as deleted are as many as there were at first
(`EntityInfo.accounted`). A batch keeps this number, and so do any number of batches and pages. So
the report counts the documents that disappeared, however often an identifier is listed.

The report is confirmed if the store confirms the deletion of the entities of each batch, whatever
goes along with them (`Cascade.acknowledged_of_deleteBatches`). Where no single deletion is set to
go unconfirmed, that is the case if the store confirms its writes or there was nothing to delete.
-/

namespace DocMapper

open Store

/-- The documents that the collection of the entities has and those that were reported as deleted
from it. -/
def EntityInfo.accounted (info : EntityInfo) (s : Store) (r : DeleteResult) : Nat :=
  r.deletedCount + (s.catalog.documents info.collection).length

/-- What accounts for a store by itself does so after an earlier report. -/
theorem EntityInfo.accounted_merge {info : EntityInfo} {s t : Store} {r : DeleteResult}
    (h : info.accounted t r = info.accounted s {}) (total : DeleteResult) :
    info.accounted t (total.merge r) = info.accounted s total := by
  simp only [accounted, DeleteResult.merge] at h ⊢
  omega

theorem Store.confirms_of_none {s : Store} (h : s.unacknowledgedDelete = none) (collection : String)
    (n : Nat) : s.confirms collection n = s.acknowledged := by
  simp [confirms, h]

theorem Store.Removes.confirms_eq {removed : String → Document → Bool} {s t : Store}
    (h : Removes removed s t) (collection : String) (n : Nat) :
    t.confirms collection n = s.confirms collection n := by
  rw [confirms, confirms, h.acknowledged_eq, h.unacknowledgedDelete_eq]

namespace Cascade

variable {c : Cascade} {info : EntityInfo} {ids : List Value} {s t : Store}
variable {r total : DeleteResult} {batches : List (List Value)} {found : List (List Document)}

/-! ## One batch -/

/-- A batch takes the entities with its identifiers out of their collection, and nothing else if the
chunks have another one. -/
theorem loses_of_deleteBatch (hchunk : info.isFile = true → c.chunkCollection ≠ info.collection)
    (h : (c.deleteBatch info ids).runOn s = (.ok r, t)) :
    s.catalog.Loses t.catalog info.collection fun doc => doc.refersTo "_id" ids := by
  obtain ⟨regex, hr, hremoved⟩ := exists_removes_of_deleteBatch h
  refine (hremoved.catalog info.collection).congr fun doc _ => ?_
  have hsides : ((c.sideDeletes info (s.catalog.names.filter regex.find) (.array ids)).any
      fun delete => info.collection = delete.1 && takes delete.2 doc) = false := by
    rw [List.any_eq_false]
    intro delete hdelete
    simp [(ne_collection_of_mem_sideDeletes hr hchunk s.catalog.names _ delete hdelete).symm]
  rw [hsides]
  simp

/-- A batch reports the entities with its identifiers, and whether their deletion was confirmed. -/
theorem report_of_deleteBatch (h : (c.deleteBatch info ids).runOn s = (.ok r, t)) :
    r = ⟨(s.catalog.documents info.collection).countP fun doc => doc.refersTo "_id" ids,
      s.confirms info.collection (s.deletionCount info.collection)⟩ := by
  rw [deleteBatch_eq] at h
  obtain ⟨names, s₁, hlist, h⟩ := Action.runOn_bind_eq_ok_iff.1 h
  obtain ⟨result, s₂, hentities, h⟩ := Action.runOn_bind_eq_ok_iff.1 h
  obtain ⟨_, s₃, -, h⟩ := Action.runOn_bind_eq_ok_iff.1 h
  obtain ⟨hr, -⟩ := Prod.mk.inj h
  obtain rfl := Except.ok.inj hr
  obtain ⟨-, -, -, rfl⟩ := exists_of_listCollections hlist
  have htakes : takes [("_id", JoinCollection.anyOf ids)] = fun doc => doc.refersTo "_id" ids :=
    funext (means_anyOf Filter.isPlainField_id ids).takes_eq
  -- a listing is no deletion, so the number of this one is that before the batch
  have hnumber : (s.record (.list (joinPattern info.collection))).deletionCount info.collection =
      s.deletionCount info.collection := by
    simp [deletionCount, record, Call.deletesFrom]
  rw [report_of_deleteMany hentities, htakes, confirmsDelete_record, hnumber]
  rfl

/-- The entities that a batch reports are those that its collection lost. -/
theorem accounted_of_deleteBatch
    (hchunk : info.isFile = true → c.chunkCollection ≠ info.collection)
    (h : (c.deleteBatch info ids).runOn s = (.ok r, t)) :
    info.accounted t r = info.accounted s {} := by
  have hcount := (s.catalog.documents info.collection).length_eq_countP_add_countP
    (p := fun doc => doc.refersTo "_id" ids)
  rw [report_of_deleteBatch h, EntityInfo.accounted, EntityInfo.accounted,
    (loses_of_deleteBatch hchunk h).documents, ← List.countP_eq_length_filter, Nat.zero_add, hcount]
  simp

/-- A batch counts as one deletion on the collection of the entities. -/
theorem deletionCount_of_deleteBatch
    (hchunk : info.isFile = true → c.chunkCollection ≠ info.collection)
    (h : (c.deleteBatch info ids).runOn s = (.ok r, t)) :
    t.deletionCount info.collection = s.deletionCount info.collection + 1 := by
  obtain ⟨regex, hr, -⟩ := exists_removes_of_deleteBatch h
  have hissues := issues_deleteBatch c hr ids s
  rw [h] at hissues
  obtain ⟨-, hjournal⟩ := hissues.journal_of_ok
  have hcalls := filter_deletesFrom_batchCalls hr hchunk s [ids]
  rw [List.flatMap_singleton] at hcalls
  rw [deletionCount, deletionCount, ← Array.countP_toList, ← Array.countP_toList, hjournal,
    List.countP_append, Nat.add_left_cancel_iff, List.countP_eq_length_filter, hcalls]
  rfl

/-! ## Batches and pages -/

/-- Batch after batch takes the entities with the identifiers of all batches out of their
collection. -/
theorem loses_of_deleteBatches (hchunk : info.isFile = true → c.chunkCollection ≠ info.collection)
    (h : (c.deleteBatches info total batches).runOn s = (.ok r, t)) :
    s.catalog.Loses t.catalog info.collection fun doc => doc.refersTo "_id" batches.flatten := by
  induction batches generalizing s total with
  | nil =>
    obtain ⟨-, rfl⟩ := Prod.mk.inj h
    simp [Catalog.Loses]
  | cons batch rest ih =>
    obtain ⟨result, u, hbatch, hrest⟩ := Action.runOn_bind_eq_ok_iff.1 h
    refine ((loses_of_deleteBatch hchunk hbatch).trans (ih hrest)).congr fun doc _ => ?_
    rw [List.flatten_cons, Document.refersTo_append]

/-- Batch after batch keeps what is accounted for. -/
theorem accounted_of_deleteBatches
    (hchunk : info.isFile = true → c.chunkCollection ≠ info.collection)
    (h : (c.deleteBatches info total batches).runOn s = (.ok r, t)) :
    info.accounted t r = info.accounted s total := by
  induction batches generalizing s total with
  | nil =>
    obtain ⟨hr, rfl⟩ := Prod.mk.inj h
    obtain rfl := Except.ok.inj hr
    rfl
  | cons batch rest ih =>
    obtain ⟨result, u, hbatch, hrest⟩ := Action.runOn_bind_eq_ok_iff.1 h
    exact (ih hrest).trans
      (EntityInfo.accounted_merge (accounted_of_deleteBatch hchunk hbatch) total)

/-- Batch after batch is confirmed if the deletions of the entities of all batches are, which have
consecutive numbers. -/
theorem acknowledged_of_deleteBatches
    (hchunk : info.isFile = true → c.chunkCollection ≠ info.collection)
    (h : (c.deleteBatches info total batches).runOn s = (.ok r, t)) :
    r.acknowledged = (total.acknowledged && (List.range batches.length).all fun i =>
      s.confirms info.collection (s.deletionCount info.collection + i)) := by
  induction batches generalizing s total with
  | nil =>
    obtain ⟨hr, -⟩ := Prod.mk.inj h
    obtain rfl := Except.ok.inj hr
    simp
  | cons batch rest ih =>
    obtain ⟨result, u, hbatch, hrest⟩ := Action.runOn_bind_eq_ok_iff.1 h
    obtain ⟨regex, -, hremoved⟩ := exists_removes_of_deleteBatch hbatch
    rw [ih hrest, deletionCount_of_deleteBatch hchunk hbatch, DeleteResult.merge,
      report_of_deleteBatch hbatch, List.length_cons, List.range_succ_eq_map, List.all_cons,
      List.all_map, Bool.and_assoc]
    simp only [hremoved.confirms_eq, Nat.add_zero, Function.comp_def, Nat.add_assoc, Nat.add_comm 1]

/-- Where no single deletion is set to go unconfirmed, batch after batch is confirmed if the store
confirms its writes, or if there is no batch. -/
theorem acknowledged_of_deleteBatches_of_none
    (hchunk : info.isFile = true → c.chunkCollection ≠ info.collection)
    (hnone : s.unacknowledgedDelete = none)
    (h : (c.deleteBatches info total batches).runOn s = (.ok r, t)) :
    r.acknowledged = (total.acknowledged && (batches.isEmpty || s.acknowledged)) := by
  rw [acknowledged_of_deleteBatches hchunk h]
  simp only [confirms_of_none hnone]
  cases batches with
  | nil => rfl
  | cons batch rest => cases s.acknowledged <;> simp [List.range_succ_eq_map]

end Cascade

end DocMapper
