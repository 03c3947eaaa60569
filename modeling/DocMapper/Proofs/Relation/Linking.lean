import DocMapper.Proofs.Relation.LinkRows
import DocMapper.Proofs.Store.Evolution
import DocMapper.Proofs.Store.Reading

set_option autoImplicit false

/-!
# Adding, removing and reading links

What each operation of a join collection that succeeds does to the links that the collection holds.
Where a child has one parent, adding a link takes the child's other links away (`linkAlone`);
otherwise a link is added once (`linkOnce`). Reading the children of a parent gives one record for
each of its links, in order, and likewise for the parents of a child.

The operations succeed if no deletion on the collection is set to fail and the next generated
identifier is not in use.
-/

namespace DocMapper

open Store

/-- The links after one link more, where a child has one parent. -/
def linkAlone (link : Link) (links : List Link) : List Link :=
  links.filter (fun other => other.2 ≠ link.2) ++ [link]

/-- The links after one link more, where a link is held once. -/
def linkOnce (link : Link) (links : List Link) : List Link :=
  if link ∈ links then links else links ++ [link]

/-- The links after one link more. -/
def Cardinality.link : Cardinality → Link → List Link → List Link
  | oneToMany => linkAlone
  | manyToMany => linkOnce

namespace JoinCollection

variable {j : JoinCollection} {s t : Store} {links : List Link} {p c : LinkId} {r : DeleteResult}

/-! ## Removing -/

/-- Removing a link takes it away. -/
theorem holds_of_remove (h : Holds s.catalog j.name links)
    (hrun : (j.remove p.toValue c.toValue).runOn s = (.ok r, t)) :
    Holds t.catalog j.name (links.filter fun link => link ≠ (p, c)) := by
  have hloses := (removes_of_deleteMany hrun).catalog j.name
  have hmeans := means_pair (LinkId.isSome_key?_toValue p) (LinkId.isSome_key?_toValue c)
  have hholds := h.loses (p := fun link => link = (p, c)) hloses fun link doc hrow => by
    rw [hmeans.takes_eq, hrow.holdsAt_parent, hrow.holdsAt_child]
    simp [Prod.ext_iff]
  simpa using hholds

/-- Removing the links of a parent with several children takes these away. -/
theorem holds_of_removeMany (h : Holds s.catalog j.name links) {children : List LinkId}
    (hrun : (j.removeMany p.toValue (children.map LinkId.toValue)).runOn s = (.ok r, t)) :
    Holds t.catalog j.name (links.filter fun link => !(link.1 = p && link.2 ∈ children)) := by
  unfold removeMany at hrun
  split at hrun
  · rename_i hempty
    obtain ⟨-, rfl⟩ := Prod.mk.inj hrun
    have hnil : children = [] := by simpa using hempty
    simpa [hnil] using h
  · have hloses := (removes_of_deleteMany hrun).catalog j.name
    have hmeans := means_pairs (LinkId.isSome_key?_toValue p) (children.map LinkId.toValue)
    refine h.loses (p := fun link => link.1 = p && link.2 ∈ children) hloses fun link doc hrow => ?_
    rw [hmeans.takes_eq, hrow.holdsAt_parent, hrow.refersTo_child]
    simp

/-- Removals succeed if no deletion on the collection is set to fail. -/
theorem exists_runOn_removeMany (hfails : j.name ∉ s.failingDeletes) (p : LinkId)
    (children : List LinkId) :
    ∃ r t, (j.removeMany p.toValue (children.map LinkId.toValue)).runOn s = (.ok r, t) := by
  unfold removeMany
  split
  · exact ⟨_, _, rfl⟩
  · exact exists_runOn_deleteMany s j.name j.session
      (means_pairs (LinkId.isSome_key?_toValue p) _) hfails

theorem exists_runOn_remove (hfails : j.name ∉ s.failingDeletes) (p c : LinkId) :
    ∃ r t, (j.remove p.toValue c.toValue).runOn s = (.ok r, t) :=
  exists_runOn_deleteMany s j.name j.session
    (means_pair (LinkId.isSome_key?_toValue p) (LinkId.isSome_key?_toValue c)) hfails

/-! ## Adding -/

/-- A prepared document with the ends of a link is a row of it, unless it had some other
identifier. -/
theorem isRow_of_prepare {collection : Collection} {name : String} {supply : IdSupply}
    {doc : Document} {prepared : Collection.Prepared}
    (h : collection.prepare name supply doc = .ok prepared)
    (hid : ∀ id, doc.get? "_id" = some id → ∃ oid, id = .objectId oid)
    (hends : doc.HasEnds p.toValue c.toValue) : IsRow (p, c) prepared.doc := by
  have hfits := Collection.fits_of_prepare h
  have hoid : ∃ oid, prepared.id = .objectId oid := by
    rcases Collection.prepare_eq_ok_iff.1 h with ⟨id, _, hget, _, _, rfl⟩ | ⟨_, _, rfl⟩
    · exact hid id hget
    · exact ⟨_, rfl⟩
  obtain ⟨oid, hoid⟩ := hoid
  have hget : prepared.doc.get? "_id" = some (.objectId oid) := by rw [hfits.get?_id, hoid]
  exact IsRow.of_hasEnds hget (hends.of_agrees hfits.agrees)

theorem get?_id_pair (parent child : Value) : (pair parent child).get? "_id" = none := by
  simp [pair, Fields.get?_cons, parentField, childField]

theorem upsertDocument_pair (parent child : Value) :
    upsertDocument (pair parent child) (pair parent child) = pair parent child := by
  rw [upsertDocument, get?_id_pair]
  simp

/-- What the deletion at the start of an addition leaves where a child has one parent. -/
theorem holds_of_unlink {σ : Option Session} (h : Holds s.catalog j.name links)
    (hrun : (deleteMany j.name [(childField, c.toValue)] σ).runOn s = (.ok r, t)) :
    Holds t.catalog j.name (links.filter fun link => link.2 ≠ c) := by
  have hloses := (removes_of_deleteMany hrun).catalog j.name
  have hmeans := means_scalar Filter.isPlainField_child (LinkId.isSome_key?_toValue c)
  have hholds := h.loses (p := fun link => link.2 = c) hloses fun link doc hrow => by
    rw [hmeans.takes_eq, hrow.holdsAt_child]
    simp
  simpa using hholds

/-- Adding a link where a child has one parent takes the child's other links away. -/
theorem holds_of_add_oneToMany (hj : j.cardinality = .oneToMany)
    (h : Holds s.catalog j.name links)
    (hrun : (j.add p.toValue c.toValue).runOn s = (.ok (), t)) :
    Holds t.catalog j.name (linkAlone (p, c) links) := by
  rw [add, hj] at hrun
  obtain ⟨_, s₁, hdelete, hrun⟩ := Action.runOn_bind_eq_ok_iff.1 hrun
  obtain ⟨id, s₂, hfresh, hrun⟩ := Action.runOn_bind_eq_ok_iff.1 hrun
  obtain ⟨_, s₃, hinsert, hrun⟩ := Action.runOn_bind_eq_ok_iff.1 hrun
  obtain ⟨-, rfl⟩ := Prod.mk.inj hrun
  -- the child's row is deleted before its new one is inserted
  have hdeleted := holds_of_unlink h hdelete
  have hcatalog : s₂.catalog = s₁.catalog := by
    obtain ⟨-, rfl⟩ := Prod.mk.inj hfresh
    rfl
  rw [← hcatalog] at hdeleted
  obtain ⟨prepared, hprepared, hdocuments⟩ := documents_of_insertOne hinsert
  have hends := Document.HasEnds.toDocument id (LinkId.isSome_key?_toValue p)
    (LinkId.isSome_key?_toValue c)
  have hrow := isRow_of_prepare hprepared (fun _ hget => ⟨id, (Option.some.inj hget).symm⟩) hends
  exact hdeleted.append hrow hdocuments

/-- Adding a link where a pair has one row adds it once. -/
theorem holds_of_add_manyToMany (hj : j.cardinality = .manyToMany)
    (h : Holds s.catalog j.name links)
    (hrun : (j.add p.toValue c.toValue).runOn s = (.ok (), t)) :
    Holds t.catalog j.name (linkOnce (p, c) links) := by
  rw [add, hj] at hrun
  obtain ⟨_, s₁, hreplace, hrun⟩ := Action.runOn_bind_eq_ok_iff.1 hrun
  obtain ⟨-, rfl⟩ := Prod.mk.inj hrun
  obtain ⟨f, hf, hmeans⟩ :=
    means_pair (LinkId.isSome_key?_toValue p) (LinkId.isSome_key?_toValue c)
  -- the pair as a filter takes the rows of its own link
  have hmatches : ∀ link doc, IsRow link doc → (f.holds doc = true ↔ link = (p, c)) := by
    intro link doc hrow
    simp only [hmeans, hrow.holdsAt_parent, hrow.holdsAt_child]
    simp [Prod.ext_iff]
  have hends := Document.HasEnds.pair p.toValue c.toValue
  rcases documents_of_replaceOne hf hreplace with
    ⟨i, hi, hdocuments⟩ | ⟨hnone, prepared, hprepared, hdocuments⟩
  · -- the pair has a row, which is replaced by another one of the pair
    obtain ⟨link, hlink, hold⟩ := h.exists_link_at i
    obtain rfl := (hmatches _ _ hold).1 (Collection.of_findFirst?_eq_some hi).1
    obtain ⟨id, hstored⟩ := hold.id
    have hrow := IsRow.of_hasEnds (Catalog.get?_id_withStoredId hstored)
      (hends.of_agrees (Catalog.agrees_withStoredId _ (pair p.toValue c.toValue)))
    rw [linkOnce, if_pos (List.mem_of_getElem? hlink)]
    exact h.set hlink hrow hdocuments
  · -- a row of the pair would have matched
    have hnot : (p, c) ∉ links := by
      intro hmem
      obtain ⟨doc, hdoc, hrow⟩ := h.exists_row hmem
      rw [← Catalog.documents_get] at hdoc
      have hfalse := Collection.findFirst?_eq_none_iff.1 hnone doc hdoc
      rw [(hmatches _ doc hrow).2 rfl] at hfalse
      cases hfalse
    rw [upsertDocument_pair] at hprepared
    rw [linkOnce, if_neg hnot]
    have hnoId : ∀ id, (pair p.toValue c.toValue).get? "_id" = some id →
        ∃ oid, id = .objectId oid := by
      intro id hget
      rw [get?_id_pair] at hget
      cases hget
    have hrow := isRow_of_prepare hprepared hnoId hends
    exact h.append hrow hdocuments

theorem holds_of_add (h : Holds s.catalog j.name links)
    (hrun : (j.add p.toValue c.toValue).runOn s = (.ok (), t)) :
    Holds t.catalog j.name (j.cardinality.link (p, c) links) := by
  cases hj : j.cardinality with
  | oneToMany => exact holds_of_add_oneToMany hj h hrun
  | manyToMany => exact holds_of_add_manyToMany hj h hrun

/-- An addition that fails leaves the documents, or it was cut off after the child's links were
taken away. -/
theorem holds_of_add_error {e : Error} (h : Holds s.catalog j.name links)
    (hrun : (j.add p.toValue c.toValue).runOn s = (.error e, t)) :
    t.catalog.documents j.name = s.catalog.documents j.name ∨
      (j.cardinality = .oneToMany ∧
        Holds t.catalog j.name (links.filter fun link => link.2 ≠ c)) := by
  unfold add at hrun
  cases hj : j.cardinality with
  | oneToMany =>
    rw [hj] at hrun
    -- either the deletion fails or something after it
    rcases Action.runOn_bind_eq_error_iff.1 hrun with hdelete | ⟨r, s₁, hdelete, hrun⟩
    · left
      rw [catalog_of_deleteMany_error hdelete]
    · right
      have hdeleted := holds_of_unlink h hdelete
      -- taking an identifier does not fail, so the insertion did
      rcases Action.runOn_bind_eq_error_iff.1 hrun with hfresh | ⟨id, s₂, hfresh, hrun⟩
      · cases hfresh
      · obtain ⟨-, rfl⟩ := Prod.mk.inj hfresh
        rcases Action.runOn_bind_eq_error_iff.1 hrun with hinsert | ⟨_, s₃, _, hrun⟩
        · have hdocuments := documents_of_insertOne_error hinsert
          exact ⟨rfl, hdeleted.congr hdocuments⟩
        · cases hrun
  | manyToMany =>
    left
    rw [hj] at hrun
    rcases Action.runOn_bind_eq_error_iff.1 hrun with hreplace | ⟨_, s₁, _, hrun⟩
    · exact documents_of_replaceOne_error hreplace
    · cases hrun

/-- Whether it succeeds or fails, adding a link does not change which deletions fail. -/
theorem keeps_failsAlike_add (j : JoinCollection) (parent child : Value) :
    (j.add parent child).Keeps FailsAlike := by
  have hfresh : Action.freshObjectId.Keeps FailsAlike := fun _ => rfl
  unfold add
  cases j.cardinality with
  | oneToMany =>
    refine (keeps_failsAlike_deleteMany _ _ _).bind fun _ => hfresh.bind fun id => ?_
    exact (keeps_failsAlike_insertOne _ _).bind fun _ => .pure _
  | manyToMany => exact (keeps_failsAlike_replaceOne _ _ _ true).bind fun _ => .pure _

/-- Whether the next generated identifier is not in use. -/
def IsFresh (j : JoinCollection) (s : Store) : Prop :=
  Key.objectId s.supply.objectId ∉ (s.catalog.get j.name).toList.map Prod.fst

/-- Without links no identifier is in use. -/
theorem isFresh_of_holds_nil (h : Holds s.catalog j.name []) : j.IsFresh s := by
  have hdocuments : (s.catalog.get j.name).documents = [] := by
    rw [Catalog.documents_get]
    exact List.forall₂_nil_left_iff.1 h
  have hempty : (s.catalog.get j.name).toList = [] := List.map_eq_nil_iff.1 hdocuments
  rw [IsFresh, hempty]
  exact List.not_mem_nil

/-- Where a child has one parent, adding a link succeeds if no deletion on the collection is set to
fail and the next generated identifier is not in use. -/
theorem exists_runOn_add_oneToMany (hj : j.cardinality = .oneToMany)
    (hfails : j.name ∉ s.failingDeletes) (hfresh : j.IsFresh s) (p c : LinkId) :
    ∃ t, (j.add p.toValue c.toValue).runOn s = (.ok (), t) := by
  rw [add, hj]
  obtain ⟨r, s₁, hdelete⟩ := exists_runOn_deleteMany s j.name j.session
    (means_scalar Filter.isPlainField_child (LinkId.isSome_key?_toValue c)) hfails
  have hremoves := removes_of_deleteMany hdelete
  have hunused : Key.objectId s₁.supply.objectId ∉
      (s₁.catalog.get j.name).toList.map Prod.fst := by
    rw [hremoves.supply_eq]
    exact fun hmem => hfresh ((hremoves.catalog j.name).mem_keys_get hmem)
  -- the identifier is taken from the supply before the insertion
  obtain ⟨prepared, hprepare⟩ : ∃ prepared, (s₁.catalog.get j.name).prepare j.name
      s₁.supply.advance (JoinRow.toDocument ⟨s₁.supply.objectId, p.toValue, c.toValue⟩) =
      .ok prepared :=
    ⟨_, Collection.prepare_eq_ok_iff.2 (Or.inl ⟨_, _, rfl, rfl, hunused, rfl⟩)⟩
  obtain ⟨r', t, hinsert⟩ := exists_runOn_insertOne
    (s := { s₁ with supply := s₁.supply.advance }) hprepare
  refine ⟨t, Action.runOn_bind_eq_ok_iff.2 ⟨r, s₁, hdelete, ?_⟩⟩
  refine Action.runOn_bind_eq_ok_iff.2 ⟨s₁.supply.objectId, _, rfl, ?_⟩
  exact Action.runOn_bind_eq_ok_iff.2 ⟨r', t, hinsert, rfl⟩

/-- Where a pair has one row, adding a link succeeds if the next generated identifier is not in
use. -/
theorem exists_runOn_add_manyToMany (hj : j.cardinality = .manyToMany) (hfresh : j.IsFresh s)
    (p c : LinkId) : ∃ t, (j.add p.toValue c.toValue).runOn s = (.ok (), t) := by
  rw [add, hj]
  obtain ⟨f, hf, -⟩ := means_pair (LinkId.isSome_key?_toValue p) (LinkId.isSome_key?_toValue c)
  obtain ⟨prepared, hprepare⟩ : ∃ prepared, (s.catalog.get j.name).prepare j.name s.supply
      (upsertDocument (pair p.toValue c.toValue) (pair p.toValue c.toValue)) =
      .ok prepared := by
    rw [upsertDocument_pair]
    exact ⟨_, Collection.prepare_eq_ok_iff.2 (Or.inr ⟨get?_id_pair _ _, hfresh, rfl⟩)⟩
  obtain ⟨r, t, hreplace⟩ := exists_runOn_replaceOne hf hprepare
  exact ⟨t, Action.runOn_bind_eq_ok_iff.2 ⟨r, t, hreplace, rfl⟩⟩

/-- Where there are no rows yet and a pair has one row, a link may be added and is the only one. -/
theorem exists_runOn_add_of_absent (hj : j.cardinality = .manyToMany)
    (habsent : s.catalog.content? j.name = none) (p c : LinkId) :
    ∃ t, (j.add p.toValue c.toValue).runOn s = (.ok (), t) ∧ Holds t.catalog j.name [(p, c)] := by
  have hholds : Holds s.catalog j.name [] := by
    rw [Holds, Catalog.documents_eq, habsent]
    exact .nil
  obtain ⟨t, hadd⟩ := exists_runOn_add_manyToMany hj (isFresh_of_holds_nil hholds) p c
  exact ⟨t, hadd, holds_of_add_manyToMany hj hholds hadd⟩

/-! ## Reading -/

/-- The two ends of a record. -/
def ends (row : JoinRow) : Value × Value := (row.parent, row.child)

/-- The two ends of a link as values. -/
def linkValues (link : Link) : Value × Value := (link.1.toValue, link.2.toValue)

/-- The rows of links are read as these, in order. -/
theorem runOn_mapM_ofDocument? {docs : List Document} (h : List.Forall₂ IsRow links docs)
    (s : Store) :
    ∃ rows : List JoinRow, (docs.mapM fun doc =>
        match JoinRow.ofDocument? doc with
        | some row => (pure row : Action JoinRow)
        | none => throw Error.undecodable).runOn s = (.ok rows, s) ∧
      rows.map ends = links.map linkValues := by
  induction h with
  | nil => exact ⟨[], rfl, rfl⟩
  | @cons link doc links docs hrow _ ih =>
    obtain ⟨rows, hrun, hends⟩ := ih
    obtain ⟨id, hread⟩ := hrow.ofDocument?
    refine ⟨⟨id, link.1.toValue, link.2.toValue⟩ :: rows, ?_, ?_⟩
    · rw [List.mapM_cons, hread]
      refine Action.runOn_bind_eq_ok_iff.2 ⟨_, s, rfl, ?_⟩
      exact Action.runOn_bind_eq_ok_iff.2 ⟨rows, s, hrun, rfl⟩
    · rw [List.map_cons, List.map_cons, hends]
      rfl

/-- Reading the rows that a filter takes gives the records of their links, in order. -/
theorem runOn_rows (h : Holds s.catalog j.name links) {filter : Document} {test : Document → Bool}
    {q : Link → Bool} (hmeans : Means filter test)
    (htest : ∀ link doc, IsRow link doc → q link = test doc) :
    ∃ rows t, (j.rows filter).runOn s = (.ok rows, t) ∧
      rows.map ends = (links.filter q).map linkValues := by
  obtain ⟨f, hf, hholds⟩ := hmeans
  -- the documents that are answered are the rows of the links that pass the test
  have hselected : List.Forall₂ IsRow (links.filter q)
      (selectDocuments f {} (s.catalog.documents j.name)) := by
    have hproject : project none = id := rfl
    rw [selectDocuments, hproject, List.map_id]
    refine h.filter fun link doc hrow => ?_
    rw [htest link doc hrow, hholds]
  obtain ⟨rows, hrun, hends⟩ := runOn_mapM_ofDocument? hselected
    (s.record (.find j.name filter (FindOptions.effectiveBatchSize {})))
  refine ⟨rows, s.record (.find j.name filter (FindOptions.effectiveBatchSize {})), ?_, hends⟩
  refine Action.runOn_bind_eq_ok_iff.2 ⟨_, _, runOn_find j.name {} s hf, ?_⟩
  rw [collect_pages]
  exact hrun

/-- The children of a parent are read as the records of its links, in order. -/
theorem runOn_childrenOf (h : Holds s.catalog j.name links) (p : LinkId) :
    ∃ rows t, (j.childrenOf p.toValue).runOn s = (.ok rows, t) ∧
      rows.map ends = (links.filter fun link => link.1 = p).map linkValues :=
  runOn_rows h (means_scalar Filter.isPlainField_parent (LinkId.isSome_key?_toValue p))
    fun _ _ hrow => (hrow.holdsAt_parent p).symm

/-- The parents of a child are read as the records of its links, in order. -/
theorem runOn_parentsOf (h : Holds s.catalog j.name links) (c : LinkId) :
    ∃ rows t, (j.parentsOf c.toValue).runOn s = (.ok rows, t) ∧
      rows.map ends = (links.filter fun link => link.2 = c).map linkValues :=
  runOn_rows h (means_scalar Filter.isPlainField_child (LinkId.isSome_key?_toValue c))
    fun _ _ hrow => (hrow.holdsAt_child c).symm

end JoinCollection

end DocMapper
