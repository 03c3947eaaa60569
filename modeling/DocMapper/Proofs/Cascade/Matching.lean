import DocMapper.Context.Entities
import DocMapper.Proofs.Cascade.Effect
import DocMapper.Proofs.Relation.Declarations

set_option autoImplicit false

/-!
# Deleting what a filter matches

A deletion by a filter first finds the identifiers of the matching entities and then deletes these,
page by page. One that succeeds has removed what the identifiers of all matching entities reach
(`Cascade.removes_of_deleteMatching`).
-/

namespace DocMapper

open Store

/-- The identifiers of some documents, in order. -/
def identifiers (docs : List Document) : List Value := docs.filterMap fun doc => doc.get? "_id"

theorem identifiers_append (docs rest : List Document) :
    identifiers (docs ++ rest) = identifiers docs ++ identifiers rest :=
  List.filterMap_append

/-- Fields that are taken away by their names leave a field whose name is kept. -/
theorem Fields.get?_filter {α : Type} {p : String → Bool} {name : String}
    (hname : p name = true) (fields : Fields α) :
    Fields.get? (fields.filter fun field => p field.1) name = Fields.get? fields name := by
  induction fields with
  | nil => rfl
  | cons field rest ih =>
    by_cases hfield : field.1 = name
    · rw [List.filter_cons, if_pos (by rw [hfield, hname]), Fields.get?_cons, Fields.get?_cons,
        if_pos hfield, if_pos hfield]
    · rw [Fields.get?_cons, if_neg hfield, ← ih, List.filter_cons]
      split
      · rw [Fields.get?_cons, if_neg hfield]
      · rfl

theorem get?_id_project (doc : Document) :
    (project (some [("_id", .int32 1)]) doc).get? "_id" = doc.get? "_id" :=
  Fields.get?_filter (p := fun key =>
    if key = "_id" then keepsId [("_id", .int32 1)] else
      Fields.contains [("_id", Value.int32 1)] key) (by decide) doc

namespace Cascade

variable {c : Cascade} {info : EntityInfo} {filter : Document} {s t : Store} {r : DeleteResult}
variable {total : DeleteResult} {found : List (List Document)}

/-- The batches of the identifiers of some pages, page by page. -/
def pageBatches (found : List (List Document)) : List (List Value) :=
  found.flatMap fun page => pages batchSize (identifiers page)

/-- The batches of pages hold the identifiers of these. -/
theorem flatten_pageBatches (found : List (List Document)) :
    (pageBatches found).flatten = identifiers found.flatten := by
  induction found with
  | nil => rfl
  | cons page rest ih =>
    rw [pageBatches, List.flatMap_cons, List.flatten_append, flatten_batches, List.flatten_cons,
      identifiers_append, ← ih]
    rfl

/-- Pages have no batches if none of their documents has an identifier. -/
theorem isEmpty_pageBatches (found : List (List Document)) :
    (pageBatches found).isEmpty = (identifiers found.flatten).isEmpty := by
  induction found with
  | nil => rfl
  | cons page rest ih =>
    have hpage := pages_isEmpty (show 0 < batchSize by decide) (identifiers page)
    rw [Bool.eq_iff_iff, List.isEmpty_iff, List.isEmpty_iff] at hpage ih ⊢
    rw [pageBatches, List.flatMap_cons, List.flatten_cons, identifiers_append,
      List.append_eq_nil_iff, List.append_eq_nil_iff, hpage]
    exact and_congr_right fun _ => ih

/-- Pages are deleted as their batches are. -/
theorem deletePages_eq (c : Cascade) (info : EntityInfo) (total : DeleteResult)
    (found : List (List Document)) :
    c.deletePages info total found = c.deleteBatches info total (pageBatches found) := by
  induction found generalizing total with
  | nil => rfl
  | cons page rest ih =>
    have hbatches : pageBatches (page :: rest) =
        pages batchSize (identifiers page) ++ pageBatches rest := rfl
    rw [hbatches, deleteBatches_append, deletePages, deleteIdBatches]
    simp only [ih]
    rw [deleteBatches_merge c info total {} _ fun r => c.deleteBatches info r (pageBatches rest),
      DeleteResult.merge_default]
    rfl

/-- Page after page removes what the identifiers of all pages reach. -/
theorem removes_of_deletePages (hE : isCollectionName info.collection = true)
    (h : (c.deletePages info total found).runOn s = (.ok r, t)) :
    Removes (c.reaches info (identifiers found.flatten)) s t := by
  rw [deletePages_eq] at h
  have hremoved := removes_of_deleteBatches hE h
  rwa [flatten_pageBatches] at hremoved

/-- The identifiers of documents of which only these were read. -/
theorem identifiers_project (docs : List Document) :
    identifiers (docs.map (project (some [("_id", .int32 1)]))) = identifiers docs := by
  simp only [identifiers, List.filterMap_map, Function.comp_def, get?_id_project]

/-- A deletion by a filter that can be read deletes the pages of the matching entities, of which
only the identifiers are read. -/
theorem runOn_deleteFound {f : Filter} (c : Cascade) (info : EntityInfo) (s : Store)
    (hf : compileFilter filter = .ok f) :
    (c.deleteFound info filter).runOn s =
      (c.deletePages info {} (pages batchSize
          (((s.catalog.documents info.collection).filter f.holds).map
            (project (some [("_id", .int32 1)]))))).runOn
        (s.record (.find info.collection filter batchSize)) :=
  Action.runOn_bind_of_ok (runOn_find info.collection
    { projection := some [("_id", .int32 1)], batchSize := some batchSize } s hf)

/-- The pages that a deletion by a filter deletes hold the identifiers of the matching entities in
their order. -/
theorem exists_runOn_deleteFound_eq {f : Filter} (c : Cascade) (info : EntityInfo) (s : Store)
    (hf : compileFilter filter = .ok f) :
    ∃ found call, identifiers found.flatten =
        identifiers ((s.catalog.documents info.collection).filter f.holds) ∧
      (c.deleteFound info filter).runOn s =
        (c.deletePages info {} found).runOn (s.record call) := by
  refine ⟨_, _, ?_, runOn_deleteFound c info s hf⟩
  rw [flatten_pages (by decide), identifiers_project]

theorem runOn_deleteFound_of_fault {e : Error} (c : Cascade) (info : EntityInfo) (s : Store)
    (hf : compileFilter filter = .error e) :
    (c.deleteFound info filter).runOn s = (.error e, s) := by
  rw [deleteFound, Action.runOn_bind, runOn_find_of_fault _ _ _ hf]

/-- A deletion by a filter removes what the identifiers of the matching entities reach. -/
theorem removes_of_deleteFound (hE : isCollectionName info.collection = true)
    (h : (c.deleteFound info filter).runOn s = (.ok r, t)) :
    ∃ f, compileFilter filter = .ok f ∧
      Removes (c.reaches info
        (identifiers ((s.catalog.documents info.collection).filter f.holds))) s t := by
  cases hf : compileFilter filter with
  | error e =>
    rw [runOn_deleteFound_of_fault c info s hf] at h
    cases h
  | ok f =>
    obtain ⟨found, call, hfound, hrun⟩ := exists_runOn_deleteFound_eq c info s hf
    rw [hrun] at h
    refine ⟨f, rfl, ?_⟩
    have hremoved := (removes_record s call).trans (removes_of_deletePages hE h)
    rwa [hfound] at hremoved

/-- A deletion by a filter that also checks its token removes the same. -/
theorem removes_of_deleteMatching (hE : isCollectionName info.collection = true)
    (h : (c.deleteMatching info filter).runOn s = (.ok r, t)) :
    ∃ f, compileFilter filter = .ok f ∧
      Removes (c.reaches info
        (identifiers ((s.catalog.documents info.collection).filter f.holds))) s t :=
  removes_of_deleteFound hE (runOn_of_cancellable (runOn_of_checkCancellation h))

/-- Page after page succeeds if a listing accepts the pattern and no deletion is set to fail. -/
theorem exists_runOn_deletePages (c : Cascade) (hE : isCollectionName info.collection = true)
    (haccepted : (Regex.ofText? (joinPattern info.collection)).isSome = true)
    (hfails : s.failingDeletes = []) (total : DeleteResult) (found : List (List Document)) :
    ∃ r t, (c.deletePages info total found).runOn s = (.ok r, t) := by
  rw [deletePages_eq]
  exact exists_runOn_deleteBatches c hE haccepted hfails total _

/-- A deletion by a filter that can be read succeeds if a listing accepts the pattern and no
deletion is set to fail. -/
theorem exists_runOn_deleteFound (c : Cascade) (hE : isCollectionName info.collection = true)
    (haccepted : (Regex.ofText? (joinPattern info.collection)).isSome = true)
    (hfails : s.failingDeletes = []) {test : Document → Bool} (hmeans : Means filter test) :
    ∃ r t, (c.deleteFound info filter).runOn s = (.ok r, t) := by
  obtain ⟨f, hf, -⟩ := hmeans
  obtain ⟨found, call, -, hrun⟩ := exists_runOn_deleteFound_eq c info s hf
  rw [hrun]
  exact exists_runOn_deletePages c hE haccepted
    (show (s.record call).failingDeletes = [] from hfails) {} found

end Cascade

end DocMapper
