import DocMapper.Proofs.Cascade.Sides
import DocMapper.Proofs.Store.Reading

set_option autoImplicit false

/-!
# What a cascade removes

`Cascade.reaches` is the test of the documents that deleting entities takes away: the entities with
one of the identifiers, the rows of their join collections that link one of them on either side,
and the chunks of files. A deletion that succeeds removes exactly these (`removes_of_deleteIds`),
for any number of identifiers, as if there were a single batch; one that fails removes nothing else
(`keeps_shrinks_deleteIds`). It succeeds where no deletion is set to fail and a listing accepts the
pattern (`exists_runOn_deleteIds`).
-/

namespace DocMapper

open Store

namespace Cascade

variable {c : Cascade} {info : EntityInfo} {ids : List Value} {s t : Store} {name : String}
variable {doc : Document} {r : DeleteResult}

/-- Whether deleting the entities with some identifiers removes a document under a name. -/
def reaches (c : Cascade) (info : EntityInfo) (ids : List Value) (name : String)
    (doc : Document) : Bool :=
  (name = info.collection && doc.refersTo "_id" ids) ||
    (JoinName.joins info.collection name && doc.links ids) ||
    (info.isFile && name = c.chunkCollection && doc.refersTo fileField ids)

@[simp] theorem reaches_nil (c : Cascade) (info : EntityInfo) (name : String) (doc : Document) :
    c.reaches info [] name doc = false := by
  simp [reaches]

theorem reaches_append (c : Cascade) (info : EntityInfo) (xs ys : List Value) (name : String)
    (doc : Document) :
    c.reaches info (xs ++ ys) name doc =
      (c.reaches info xs name doc || c.reaches info ys name doc) := by
  simp only [reaches, Document.refersTo_append, Document.links_append, Bool.and_or_distrib_left]
  ac_rfl

/-! ## One batch -/

/-- What the deletions besides the entities take: rows under the names that were listed and can be
read, and chunks. -/
theorem sideDeletes_any_iff {listed : List String} :
    ((c.sideDeletes info listed (.array ids)).any fun delete =>
        name = delete.1 && takes delete.2 doc) = true ↔
      ((name ∈ listed ∧ ∃ n, JoinName.ofText? name = some n ∧
          (n.parent = info.collection ∨ n.child = info.collection)) ∧ doc.links ids = true) ∨
        (info.isFile = true ∧ name = c.chunkCollection ∧ doc.refersTo fileField ids = true) := by
  rw [sideDeletes, List.any_append, Bool.or_eq_true]
  refine or_congr ?_ ?_
  · -- the rows of join collections
    rw [List.any_eq_true, ← joinDeleteFilter?_isSome_iff (.array ids)]
    constructor
    · rintro ⟨delete, hdelete, htakes⟩
      obtain ⟨join, hjoin, hmap⟩ := List.mem_filterMap.1 hdelete
      obtain ⟨filter, hfilter, rfl⟩ := Option.map_eq_some_iff.1 hmap
      rw [(means_joinDeleteFilter? hfilter).takes_eq, Bool.and_eq_true, decide_eq_true_eq] at htakes
      obtain ⟨rfl, hdoc⟩ := htakes
      exact ⟨⟨hjoin, by rw [hfilter]; rfl⟩, hdoc⟩
    · rintro ⟨⟨hname, hsome⟩, hdoc⟩
      obtain ⟨filter, hfilter⟩ := Option.isSome_iff_exists.1 hsome
      refine ⟨(name, filter), List.mem_filterMap.2 ⟨name, hname, by rw [hfilter]; rfl⟩, ?_⟩
      rw [(means_joinDeleteFilter? hfilter).takes_eq, hdoc]
      simp
  · -- the chunks of files
    cases info.isFile with
    | false => simp
    | true =>
      have htakes : takes [(fileField, .document [("$in", .array ids)])] doc =
          doc.refersTo fileField ids :=
        (means_anyOf Filter.isPlainField_file ids).takes_eq doc
      simp [htakes]

/-- The deletions besides the entities can be read. -/
theorem sideDeletes_means (c : Cascade) (info : EntityInfo) (listed : List String)
    (ids : List Value) :
    ∀ delete ∈ c.sideDeletes info listed (.array ids), ∃ test, Means delete.2 test := by
  intro delete hdelete
  rcases List.mem_append.1 hdelete with h | h
  · obtain ⟨join, -, h⟩ := List.mem_filterMap.1 h
    obtain ⟨filter, hfilter, rfl⟩ := Option.map_eq_some_iff.1 h
    exact ⟨_, means_joinDeleteFilter? hfilter⟩
  · split at h
    · obtain rfl := List.mem_singleton.1 h
      exact ⟨_, means_anyOf Filter.isPlainField_file ids⟩
    · cases h

/-- A batch that succeeds has listed the join collections, and it removes the entities with its
identifiers and what the other deletions take. -/
theorem exists_removes_of_deleteBatch (h : (c.deleteBatch info ids).runOn s = (.ok r, t)) :
    ∃ regex, Regex.ofText? (joinPattern info.collection) = some regex ∧
      Removes (fun name doc => (name = info.collection && doc.refersTo "_id" ids) ||
        (c.sideDeletes info (s.catalog.names.filter regex.find) (.array ids)).any fun delete =>
          name = delete.1 && takes delete.2 doc) s t := by
  rw [deleteBatch_eq] at h
  obtain ⟨listed, s₁, hlist, h⟩ := Action.runOn_bind_eq_ok_iff.1 h
  obtain ⟨_, s₂, hentities, h⟩ := Action.runOn_bind_eq_ok_iff.1 h
  obtain ⟨_, s₃, hsides, h⟩ := Action.runOn_bind_eq_ok_iff.1 h
  obtain ⟨-, rfl⟩ := Prod.mk.inj h
  obtain ⟨regex, hr, rfl, rfl⟩ := exists_of_listCollections hlist
  refine ⟨regex, hr, ?_⟩
  have hremoved := (removes_record s _).trans
    ((removes_of_deleteMany hentities).trans (removes_of_deleteEach hsides))
  refine hremoved.congr fun name doc _ => ?_
  rw [Bool.false_or, (means_anyOf Filter.isPlainField_id ids).takes_eq]

/-- A batch that succeeds removes what its identifiers reach. -/
theorem removes_of_deleteBatch (hE : isCollectionName info.collection = true)
    (h : (c.deleteBatch info ids).runOn s = (.ok r, t)) :
    Removes (c.reaches info ids) s t := by
  obtain ⟨regex, hr, hremoved⟩ := exists_removes_of_deleteBatch h
  -- of a document that is there, the name was among those that the listing looked at
  refine hremoved.congr fun name doc hdoc => ?_
  have hname := Catalog.mem_names_of_mem_documents hdoc
  rw [Bool.eq_iff_iff, Bool.or_eq_true, sideDeletes_any_iff, List.mem_filter]
  have hjoins := JoinName.listed_iff_joins hE hr name
  simp only [hname, true_and, hjoins, reaches, Bool.or_eq_true, Bool.and_eq_true, or_assoc,
    and_assoc, decide_eq_true_eq]

/-- A listing removes nothing. -/
theorem keeps_shrinks_listCollections {removable : String → Document → Bool} (pattern : String) :
    (listCollections pattern).Keeps (Shrinks removable) := by
  intro s
  cases hr : Regex.ofText? pattern with
  | none =>
    rw [runOn_listCollections_of_none hr]
    exact refl_of (Shrinks removable) s
  | some regex =>
    rw [runOn_listCollections hr]
    exact shrinks_record s _

/-- Whether it succeeds or fails, a batch removes at most what its identifiers reach. -/
theorem keeps_shrinks_deleteBatch (hE : isCollectionName info.collection = true) :
    (c.deleteBatch info ids).Keeps (Shrinks (c.reaches info ids)) := by
  rw [deleteBatch_eq]
  refine (keeps_shrinks_listCollections _).bind_of_ok fun s listed t hlist => ?_
  refine Action.Keeps.bind ?_ (fun result => Action.Keeps.bind ?_ fun _ => .pure result) t
  · refine keeps_shrinks_deleteMany c.session fun doc hdoc => ?_
    rw [(means_anyOf Filter.isPlainField_id ids).takes_eq] at hdoc
    simp [reaches, hdoc]
  · refine keeps_shrinks_deleteEach c.session _ fun delete hdelete doc hdoc => ?_
    have hany : ((c.sideDeletes info listed (.array ids)).any fun other =>
        delete.1 = other.1 && takes other.2 doc) = true := by
      refine List.any_eq_true.2 ⟨delete, hdelete, ?_⟩
      simp [hdoc]
    rcases sideDeletes_any_iff.1 hany with ⟨⟨hname, hread⟩, hlinks⟩ | ⟨hfile, hname, hrefers⟩
    · -- only names that the pattern matches are listed
      obtain ⟨regex, hr, rfl, -⟩ := exists_of_listCollections hlist
      have hjoins := (JoinName.listed_iff_joins hE hr _).1 ⟨(List.mem_filter.1 hname).2, hread⟩
      simp [reaches, hjoins, hlinks]
    · simp [reaches, hfile, hname, hrefers]

/-- A batch succeeds if a listing accepts the pattern and no deletion is set to fail. -/
theorem exists_runOn_deleteBatch (c : Cascade) (ids : List Value)
    (haccepted : (Regex.ofText? (joinPattern info.collection)).isSome = true)
    (hfails : s.failingDeletes = []) :
    ∃ r t, (c.deleteBatch info ids).runOn s = (.ok r, t) := by
  obtain ⟨regex, hr⟩ := Option.isSome_iff_exists.1 haccepted
  rw [deleteBatch_eq, Action.runOn_bind_of_ok (runOn_listCollections hr s)]
  obtain ⟨r, u, hentities⟩ := exists_runOn_deleteMany
    (s.record (.list (joinPattern info.collection))) info.collection c.session
    (means_anyOf Filter.isPlainField_id ids) (by simp [record, hfails])
  rw [Action.runOn_bind_of_ok hentities]
  have hu : u.failingDeletes = [] :=
    (removes_of_deleteMany hentities).failingDeletes_eq.trans hfails
  obtain ⟨t, hsides⟩ := exists_runOn_deleteEach c.session
    (sideDeletes_means c info (s.catalog.names.filter regex.find) ids) hu
  exact ⟨r, t, Action.runOn_bind_of_ok hsides⟩

/-! ## All batches -/

variable {total : DeleteResult} {batches : List (List Value)}

/-- The report of batches after an earlier report. -/
theorem deleteBatches_merge {α : Type} (c : Cascade) (info : EntityInfo)
    (total start : DeleteResult) (batches : List (List Value)) (f : DeleteResult → Action α) :
    (c.deleteBatches info start batches >>= fun r => f (total.merge r)) =
      c.deleteBatches info (total.merge start) batches >>= f := by
  induction batches generalizing start with
  | nil => rw [deleteBatches, deleteBatches, pure_bind, pure_bind]
  | cons batch rest ih =>
    rw [deleteBatches, deleteBatches, bind_assoc, bind_assoc]
    simp only [ih, DeleteResult.merge_assoc]

/-- Batches are deleted one part after the other. -/
theorem deleteBatches_append (c : Cascade) (info : EntityInfo) (total : DeleteResult)
    (batches more : List (List Value)) :
    c.deleteBatches info total (batches ++ more) =
      c.deleteBatches info total batches >>= fun r => c.deleteBatches info r more := by
  induction batches generalizing total with
  | nil => rw [List.nil_append, deleteBatches, pure_bind]
  | cons batch rest ih =>
    rw [List.cons_append, deleteBatches, deleteBatches, bind_assoc]
    simp only [ih]

/-- Where the pattern of the join collections is refused, so is the first batch. -/
theorem runOn_deleteBatches_of_none
    (hpattern : Regex.ofText? (joinPattern info.collection) = none) (c : Cascade)
    (total : DeleteResult) (batches : List (List Value)) (s : Store) :
    (c.deleteBatches info total batches).runOn s =
      (if batches.isEmpty then .ok total
        else .error (.malformedPattern (joinPattern info.collection)), s) := by
  cases batches with
  | nil => rfl
  | cons batch rest =>
    rw [deleteBatches, deleteBatch, Action.runOn_bind, Action.runOn_bind,
      runOn_listCollections_of_none hpattern]
    rfl

/-- Batch after batch removes what the identifiers of all batches reach. -/
theorem removes_of_deleteBatches (hE : isCollectionName info.collection = true)
    (h : (c.deleteBatches info total batches).runOn s = (.ok r, t)) :
    Removes (c.reaches info batches.flatten) s t := by
  induction batches generalizing s total with
  | nil =>
    obtain ⟨-, rfl⟩ := Prod.mk.inj h
    exact (Removes.refl s).congr fun name doc _ => (reaches_nil c info name doc).symm
  | cons batch rest ih =>
    obtain ⟨_, u, hbatch, hrest⟩ := Action.runOn_bind_eq_ok_iff.1 h
    refine ((removes_of_deleteBatch hE hbatch).trans (ih hrest)).congr fun name doc _ => ?_
    rw [List.flatten_cons, reaches_append]

/-- Whether it succeeds or fails, batch after batch removes at most what all of them reach. -/
theorem keeps_shrinks_deleteBatches (c : Cascade) (hE : isCollectionName info.collection = true)
    (total : DeleteResult) (batches : List (List Value)) :
    (c.deleteBatches info total batches).Keeps (Shrinks (c.reaches info batches.flatten)) := by
  induction batches generalizing total with
  | nil => exact Action.Keeps.pure total
  | cons batch rest ih =>
    rw [List.flatten_cons]
    refine Action.Keeps.bind ?_ fun result => ?_
    · refine (keeps_shrinks_deleteBatch hE).mono fun s t h => h.mono fun name doc hdoc => ?_
      rw [reaches_append, hdoc, Bool.true_or]
    · refine (ih (total.merge result)).mono fun s t h => h.mono fun name doc hdoc => ?_
      rw [reaches_append, hdoc, Bool.or_true]

/-- All batches succeed if a listing accepts the pattern and no deletion is set to fail. -/
theorem exists_runOn_deleteBatches (c : Cascade) (hE : isCollectionName info.collection = true)
    (haccepted : (Regex.ofText? (joinPattern info.collection)).isSome = true)
    (hfails : s.failingDeletes = []) (total : DeleteResult) (batches : List (List Value)) :
    ∃ r t, (c.deleteBatches info total batches).runOn s = (.ok r, t) := by
  induction batches generalizing s total with
  | nil => exact ⟨total, s, rfl⟩
  | cons batch rest ih =>
    obtain ⟨r, u, hbatch⟩ :=
      exists_runOn_deleteBatch c batch haccepted hfails
    have hu : u.failingDeletes = [] :=
      (removes_of_deleteBatch hE hbatch).failingDeletes_eq.trans hfails
    obtain ⟨r', t, hrest⟩ := ih hu (total.merge r)
    exact ⟨r', t, Action.runOn_bind_eq_ok_iff.2 ⟨r, u, hbatch, hrest⟩⟩

theorem flatten_batches (ids : List Value) : (pages batchSize ids).flatten = ids :=
  flatten_pages (by decide) ids

/-- The deletion of some identifiers removes what they reach, however many they are. -/
theorem removes_of_deleteIdBatches (hE : isCollectionName info.collection = true)
    (h : (c.deleteIdBatches info ids).runOn s = (.ok r, t)) :
    Removes (c.reaches info ids) s t := by
  have hremoved := removes_of_deleteBatches hE h
  rwa [flatten_batches] at hremoved

theorem runOn_checkCancellation (c : Cascade) (s : Store) :
    c.checkCancellation.runOn s =
      (if c.cancellation.isSome && !s.hasActiveTransaction c.session then
        .error .cancellationOutsideTransaction else .ok (), s) := by
  rw [checkCancellation, Action.runOn_bind, Action.runOn_get]
  dsimp only
  split <;> rfl

theorem runOn_of_checkCancellation {α : Type} {f : Unit → Action α} {x : α}
    (h : (c.checkCancellation >>= f).runOn s = (.ok x, t)) : (f ()).runOn s = (.ok x, t) := by
  obtain ⟨_, u, hcheck, h⟩ := Action.runOn_bind_eq_ok_iff.1 h
  rw [runOn_checkCancellation] at hcheck
  obtain ⟨-, rfl⟩ := Prod.mk.inj hcheck
  exact h

theorem runOn_of_cancellable {α : Type} {action : Action α} {x : α}
    (h : (c.cancellable action).runOn s = (.ok x, t)) : action.runOn s = (.ok x, t) := by
  unfold cancellable at h
  split at h
  · cases h
  · exact h

/-! ## Tokens -/

/-- A token that is given is accepted in a transaction only, and a check does no more. -/
theorem checkCancellation_cases (c : Cascade) (s : Store) :
    c.checkCancellation.runOn s = (.ok (), s) ∧
        (c.cancellation.isSome = true → s.hasActiveTransaction c.session = true) ∨
      c.checkCancellation.runOn s = (.error .cancellationOutsideTransaction, s) ∧
        c.cancellation.isSome = true ∧ s.hasActiveTransaction c.session = false := by
  rw [runOn_checkCancellation]
  cases c.cancellation.isSome with
  | false => exact Or.inl ⟨rfl, fun h => Bool.noConfusion h⟩
  | true =>
    cases s.hasActiveTransaction c.session with
    | false => exact Or.inr ⟨rfl, rfl, rfl⟩
    | true => exact Or.inl ⟨rfl, fun _ => rfl⟩

/-- The token, if there is one, is accepted in a store and has not fired. -/
structure Proceeds (c : Cascade) (s : Store) : Prop where
  accepted : c.cancellation.isSome = true → s.hasActiveTransaction c.session = true
  not_fired : c.cancellation ≠ some .fired

theorem proceeds_of_none (h : c.cancellation = none) : c.Proceeds s :=
  ⟨fun hsome => by simp [h] at hsome, by simp [h]⟩

theorem Proceeds.runOn_checkCancellation (h : c.Proceeds s) :
    c.checkCancellation.runOn s = (.ok (), s) := by
  rcases checkCancellation_cases c s with ⟨hcheck, -⟩ | ⟨-, hsome, hinactive⟩
  · exact hcheck
  · rw [h.accepted hsome] at hinactive
    cases hinactive

/-- What proceeds is done as if there were no token. -/
theorem Proceeds.runOn_checked {α : Type} (h : c.Proceeds s) (action : Action α) :
    (do c.checkCancellation; c.cancellable action).runOn s = action.runOn s := by
  rw [Action.runOn_bind_of_ok h.runOn_checkCancellation, cancellable, if_neg h.not_fired]

/-- What does not proceed fails and does nothing. -/
theorem exists_runOn_checked_of_not_proceeds {α : Type} (h : ¬ c.Proceeds s) (action : Action α) :
    ∃ e, (do c.checkCancellation; c.cancellable action).runOn s = (.error e, s) := by
  rcases checkCancellation_cases c s with ⟨hcheck, haccepted⟩ | ⟨hcheck, -⟩
  · have hfired : c.cancellation = some .fired := by
      by_contra hnot
      exact h ⟨haccepted, hnot⟩
    rw [Action.runOn_bind_of_ok hcheck, cancellable, if_pos hfired]
    exact ⟨_, rfl⟩
  · rw [Action.runOn_bind, hcheck]
    exact ⟨_, rfl⟩

theorem runOn_checkCancellation_twice {α : Type} (f : Unit → Action α) :
    (do c.checkCancellation; c.checkCancellation >>= f).runOn s =
      (c.checkCancellation >>= f).runOn s := by
  rcases checkCancellation_cases c s with ⟨hcheck, -⟩ | ⟨hcheck, -⟩
  · rw [Action.runOn_bind_of_ok hcheck]
  · rw [Action.runOn_bind, Action.runOn_bind, hcheck]

/-! ## The whole deletion -/

/-- The entities with some identifiers are deleted with what they reach, however many they are. -/
theorem removes_of_deleteIds (hE : isCollectionName info.collection = true)
    (h : (c.deleteIds info ids).runOn s = (.ok r, t)) :
    Removes (c.reaches info ids) s t :=
  removes_of_deleteIdBatches hE (runOn_of_cancellable (runOn_of_checkCancellation h))

/-- Whether it succeeds or fails, the deletion of some identifiers removes at most what they
reach. -/
theorem keeps_shrinks_deleteIds (hE : isCollectionName info.collection = true) :
    (c.deleteIds info ids).Keeps (Shrinks (c.reaches info ids)) := by
  refine Action.Keeps.bind (fun s => ?_) fun _ => ?_
  · rw [runOn_checkCancellation]
    exact refl_of (Shrinks _) s
  · unfold cancellable
    split
    · exact Action.Keeps.throw _
    · have hkeeps := keeps_shrinks_deleteBatches c hE {} (pages batchSize ids)
      rwa [flatten_batches] at hkeeps

/-- Without a token the deletion of some identifiers succeeds if a listing accepts the pattern and
no deletion is set to fail. -/
theorem exists_runOn_deleteIds (c : Cascade) (s : Store)
    (hE : isCollectionName info.collection = true)
    (haccepted : (Regex.ofText? (joinPattern info.collection)).isSome = true)
    (hcancel : c.cancellation = none) (hfails : s.failingDeletes = []) (ids : List Value) :
    ∃ r t, (c.deleteIds info ids).runOn s = (.ok r, t) := by
  obtain ⟨r, t, h⟩ := exists_runOn_deleteBatches c hE haccepted hfails {} (pages batchSize ids)
  refine ⟨r, t, Action.runOn_bind_eq_ok_iff.2 ⟨(), s, ?_, ?_⟩⟩
  · rw [runOn_checkCancellation, hcancel]
    rfl
  · rw [cancellable, hcancel, if_neg (by simp)]
    exact h

end Cascade

end DocMapper
