import DocMapper.Proofs.Cascade.Effect
import DocMapper.Proofs.Store.Issuing

set_option autoImplicit false

/-!
# Calls that a cascade issues

A batch issues a listing, the deletion of the entities, and then the deletions that go along with it
(`Cascade.batchCalls`). Batches issue the calls of one after those of the other
(`Cascade.issues_deleteBatches`): no batch removes a collection, so each of them lists the same
names. Among the calls of each batch there is one listing, and one deletion on the collection of the
entities if the chunks have another one.
-/

namespace DocMapper

open Store

namespace Cascade

variable {c : Cascade} {info : EntityInfo} {s t : Store} {regex : Regex}

/-- The deletion of the entities of a batch. -/
def entityCall (c : Cascade) (info : EntityInfo) (s : Store) (batch : List Value) : Call :=
  .delete info.collection [("_id", JoinCollection.anyOf batch)] (s.hasActiveTransaction c.session)

/-- The calls of a batch in a store in which the pattern of the join collections is read as an
expression. -/
def batchCalls (c : Cascade) (info : EntityInfo) (regex : Regex) (s : Store) (batch : List Value) :
    List Call :=
  .list (joinPattern info.collection) :: c.entityCall info s batch ::
    (c.sideDeletes info (s.catalog.names.filter regex.find) (.array batch)).map fun delete =>
      .delete delete.1 delete.2 (s.hasActiveTransaction c.session)

/-- The calls of a batch depend on the names of the collections and on whether there is a
transaction. -/
theorem batchCalls_congr (hnames : t.catalog.names = s.catalog.names)
    (hactive : t.hasActiveTransaction c.session = s.hasActiveTransaction c.session) :
    c.batchCalls info regex t = c.batchCalls info regex s := by
  funext batch
  rw [batchCalls, batchCalls, entityCall, entityCall, hnames, hactive]

/-! ## Runs -/

/-- Deletions in a row whose filters can be read issue a call each. -/
theorem issues_deleteEach (session : Option Session) {deletes : List (String × Document)}
    (hmeans : ∀ delete ∈ deletes, ∃ test, Means delete.2 test) (s : Store) :
    Issues (deletes.map fun delete => .delete delete.1 delete.2 (s.hasActiveTransaction session)) s
      ((deleteEach session deletes).runOn s) := by
  induction deletes generalizing s with
  | nil => exact .pure () s
  | cons delete rest ih =>
    obtain ⟨test, htest⟩ := hmeans delete List.mem_cons_self
    have hfirst := issues_deleteMany delete.1 session htest s
    refine hfirst.bind fun result t hrun => ?_
    have hactive := hfirst.hasActiveTransaction_eq session
    rw [hrun] at hactive
    rw [← hactive]
    exact ih (fun other hother => hmeans other (List.mem_cons_of_mem _ hother)) t

/-- A batch issues its calls. -/
theorem issues_deleteBatch (c : Cascade)
    (hr : Regex.ofText? (joinPattern info.collection) = some regex)
    (batch : List Value) (s : Store) :
    Issues (c.batchCalls info regex s batch) s ((c.deleteBatch info batch).runOn s) := by
  rw [deleteBatch_eq]
  refine (issues_listCollections hr s).bind fun names s₁ hlist => ?_
  rw [runOn_listCollections hr] at hlist
  obtain ⟨hnames, rfl⟩ := Prod.mk.inj hlist
  obtain rfl := Except.ok.inj hnames
  have hentities := issues_deleteMany info.collection c.session
    (means_anyOf Filter.isPlainField_id batch) (s.record (.list (joinPattern info.collection)))
  refine hentities.bind fun result s₂ hrun => ?_
  have hactive := hentities.hasActiveTransaction_eq c.session
  rw [hrun] at hactive
  have hsides := issues_deleteEach c.session
    (sideDeletes_means c info (s.catalog.names.filter regex.find) batch) s₂
  rw [hactive] at hsides
  have hresult := hsides.bind (f := fun _ => pure result) fun _ t _ => .pure result t
  rwa [List.append_nil] at hresult

/-- Batch after batch issues the calls of each. -/
theorem issues_deleteBatches (c : Cascade)
    (hr : Regex.ofText? (joinPattern info.collection) = some regex) (total : DeleteResult)
    (batches : List (List Value)) (s : Store) :
    Issues (batches.flatMap (c.batchCalls info regex s)) s
      ((c.deleteBatches info total batches).runOn s) := by
  induction batches generalizing s total with
  | nil => exact .pure total s
  | cons batch rest ih =>
    have hbatch := issues_deleteBatch c hr batch s
    refine hbatch.bind fun result t hrun => ?_
    have hnames := hbatch.names_eq
    have hactive := hbatch.hasActiveTransaction_eq c.session
    rw [hrun] at hnames hactive
    rw [← batchCalls_congr hnames hactive]
    exact ih (total.merge result) t

/-! ## Kinds of calls -/

/-- Among calls of a kind that no deletion besides those of the entities has, there are at most a
listing and the deletion of the entities for each batch. -/
theorem filter_batchCalls {kind : Call → Bool}
    (hsides : ∀ batch, ∀ delete ∈
      c.sideDeletes info (s.catalog.names.filter regex.find) (.array batch),
      kind (.delete delete.1 delete.2 (s.hasActiveTransaction c.session)) = false)
    (batches : List (List Value)) :
    (batches.flatMap (c.batchCalls info regex s)).filter kind =
      batches.flatMap fun batch =>
        [.list (joinPattern info.collection), c.entityCall info s batch].filter kind := by
  rw [List.filter_flatMap]
  refine List.flatMap_congr fun batch _ => ?_
  have hnone : ((c.sideDeletes info (s.catalog.names.filter regex.find) (.array batch)).map
      fun delete => Call.delete delete.1 delete.2 (s.hasActiveTransaction c.session)).filter kind =
        [] := by
    rw [List.filter_eq_nil_iff]
    intro call hcall
    obtain ⟨delete, hdelete, rfl⟩ := List.mem_map.1 hcall
    rw [hsides batch delete hdelete]
    exact Bool.false_ne_true
  rw [batchCalls]
  simp only [List.filter_cons, hnone, List.filter_nil]

/-- Batches list the join collections once each. -/
theorem filter_isListing_batchCalls (c : Cascade) (info : EntityInfo) (regex : Regex) (s : Store)
    (batches : List (List Value)) :
    (batches.flatMap (c.batchCalls info regex s)).filter Call.isListing =
      List.replicate batches.length (.list (joinPattern info.collection)) := by
  have heach (batch : List Value) :
      [.list (joinPattern info.collection), c.entityCall info s batch].filter Call.isListing =
        [.list (joinPattern info.collection)] := rfl
  rw [filter_batchCalls fun _ _ _ => rfl]
  simp only [heach]
  rw [← List.map_eq_flatMap, List.map_const']

/-- What is deleted along with entities is in other collections, if the chunks are. -/
theorem ne_collection_of_mem_sideDeletes
    (hr : Regex.ofText? (joinPattern info.collection) = some regex)
    (hchunk : info.isFile = true → c.chunkCollection ≠ info.collection) (names : List String)
    (ids : Value) :
    ∀ delete ∈ c.sideDeletes info (names.filter regex.find) ids, delete.1 ≠ info.collection := by
  intro delete hdelete
  rcases List.mem_append.1 hdelete with h | h
  · obtain ⟨join, hjoin, h⟩ := List.mem_filterMap.1 h
    obtain ⟨filter, -, rfl⟩ := Option.map_eq_some_iff.1 h
    exact ne_of_find_joinPattern hr (List.mem_filter.1 hjoin).2
  · split at h
    · rename_i hfile
      obtain rfl := List.mem_singleton.1 h
      exact hchunk hfile
    · cases h

/-- Batches delete once each in the collection of the entities, if the chunks have another one. -/
theorem filter_deletesFrom_batchCalls
    (hr : Regex.ofText? (joinPattern info.collection) = some regex)
    (hchunk : info.isFile = true → c.chunkCollection ≠ info.collection) (s : Store)
    (batches : List (List Value)) :
    (batches.flatMap (c.batchCalls info regex s)).filter (Call.deletesFrom info.collection) =
      batches.map (c.entityCall info s) := by
  have hsides : ∀ batch, ∀ delete ∈
      c.sideDeletes info (s.catalog.names.filter regex.find) (.array batch),
      Call.deletesFrom info.collection
        (.delete delete.1 delete.2 (s.hasActiveTransaction c.session)) = false := by
    intro batch delete hdelete
    simp [Call.deletesFrom,
      ne_collection_of_mem_sideDeletes hr hchunk s.catalog.names _ delete hdelete]
  have heach (batch : List Value) :
      [.list (joinPattern info.collection), c.entityCall info s batch].filter
        (Call.deletesFrom info.collection) = [c.entityCall info s batch] := by
    simp [entityCall, Call.deletesFrom]
  rw [filter_batchCalls hsides]
  simp only [heach]
  exact List.map_eq_flatMap.symm

end Cascade

end DocMapper
