import DocMapper.Proofs.Store.Contents
import DocMapper.Proofs.Store.Runs
import DocMapper.Store.Write

set_option autoImplicit false

/-!
# The effect of an insertion and of a replacement

An insertion puts a prepared document at the end of its collection (`runOn_insertInto`), and
`Prepared.Fits` says what a prepared document is: the given one under its `_id`, which has a key
that is not taken. A replacement changes the first document that matches and leaves it its `_id`, or
inserts (`runOn_replaceOne`).

Both keep a collection `WellKeyed`: each document has an `_id`, whose key is the one that it is
stored under, and no key is used twice.
-/

namespace DocMapper

/-! ## Fields apart from the identifier -/

/-- Two documents with the same fields apart from `_id`. -/
def Document.Agrees (doc other : Document) : Prop :=
  ∀ field, field ≠ "_id" → doc.get? field = other.get? field

namespace Document.Agrees

variable {doc other third : Document}

theorem refl (doc : Document) : doc.Agrees doc := fun _ _ => rfl

theorem trans (h : doc.Agrees other) (h' : other.Agrees third) : doc.Agrees third :=
  fun field hfield => (h field hfield).trans (h' field hfield)

theorem insert_id (id : Value) (doc : Document) :
    Document.Agrees (Fields.insert "_id" id doc) doc := by
  intro field hfield
  rw [Fields.get?_insert, if_neg hfield.symm]

end Document.Agrees

/-! ## Prepared documents -/

namespace Collection

variable {c : Collection} {name : String} {supply : IdSupply} {doc : Document} {id : Value}
variable {p : Prepared}

/-- A document that is ready for a collection: it is the given one under an identifier of its own,
with a key that is not taken. -/
structure Prepared.Fits (p : Prepared) (c : Collection) (doc : Document) : Prop where
  key?_id : p.id.key? = some p.key
  not_mem_keys : p.key ∉ c.toList.map Prod.fst
  get?_id : p.doc.get? "_id" = some p.id
  agrees : p.doc.Agrees doc

/-- Preparing a document under an identifier checks its key and whether it is taken. -/
theorem prepareWithId_eq_ok_iff :
    c.prepareWithId name supply id doc = .ok p ↔
      ∃ key, id.key? = some key ∧ key ∉ c.toList.map Prod.fst ∧ p = ⟨id, key, doc, supply⟩ := by
  unfold prepareWithId
  cases id.key? with
  | none => simp
  | some key =>
    simp only [Option.some.injEq, exists_eq_left']
    cases hcontains : c.contains key with
    | true =>
      have hmem := (contains_iff c key).1 hcontains
      simp [hmem]
    | false =>
      have hmem : key ∉ c.toList.map Prod.fst := by
        rw [← contains_iff, hcontains]
        exact Bool.false_ne_true
      simp [hmem, eq_comm]

/-- A prepared document keeps its identifier, or gets the next one of the supply. -/
theorem prepare_eq_ok_iff :
    c.prepare name supply doc = .ok p ↔
      (∃ id key, doc.get? "_id" = some id ∧ id.key? = some key ∧
          key ∉ c.toList.map Prod.fst ∧ p = ⟨id, key, doc, supply⟩) ∨
        (doc.get? "_id" = none ∧ Key.objectId supply.objectId ∉ c.toList.map Prod.fst ∧
          p = ⟨.objectId supply.objectId, .objectId supply.objectId,
            Fields.insert "_id" (.objectId supply.objectId) doc, supply.advance⟩) := by
  unfold prepare
  cases hid : Fields.get? doc "_id" with
  | some id => simp [prepareWithId_eq_ok_iff]
  | none => simp [prepareWithId_eq_ok_iff, Value.key?]

theorem fits_of_prepare (h : c.prepare name supply doc = .ok p) : p.Fits c doc := by
  rcases prepare_eq_ok_iff.1 h with ⟨id, key, hid, hkey, hfresh, rfl⟩ | ⟨hid, hfresh, rfl⟩
  · exact ⟨hkey, hfresh, hid, .refl doc⟩
  · refine ⟨rfl, hfresh, ?_, .insert_id _ doc⟩
    rw [Fields.get?_insert, if_pos rfl]

theorem of_findFirst?_eq_some {test : Document → Bool} {i : Fin c.entries.size}
    (h : c.findFirst? test = some i) :
    test (c.documentAt i) = true ∧ c.documentAt i ∈ c.documents := by
  refine ⟨(Array.findFinIdx?_eq_some_iff.1 h).1, ?_⟩
  exact List.mem_map_of_mem (Array.getElem_mem_toList _)

/-- There is no first document exactly if none matches. -/
theorem findFirst?_eq_none_iff {test : Document → Bool} :
    c.findFirst? test = none ↔ ∀ doc ∈ c.documents, test doc = false := by
  rw [findFirst?, Array.findFinIdx?_eq_none_iff]
  simp only [documents, toList, List.mem_map, Array.mem_toList_iff, Bool.not_eq_true]
  constructor
  · intro h doc hdoc
    obtain ⟨entry, hentry, rfl⟩ := hdoc
    exact h entry hentry
  · intro h entry hentry
    exact h entry.2 ⟨entry, hentry, rfl⟩

theorem getElem?_documents (c : Collection) (i : Fin c.entries.size) :
    c.documents[i.val]? = some (c.documentAt i) := by
  rw [documents, toList, List.getElem?_map, Array.getElem?_toList, Array.getElem?_eq_getElem i.isLt]
  rfl

theorem documents_replaceAt (c : Collection) (i : Fin c.entries.size) (doc : Document) :
    (c.replaceAt i doc).documents = c.documents.set i doc := by
  rw [documents, toList_replaceAt, List.map_set, documents]

theorem documents_push (c : Collection) (key : Key) (doc : Document) :
    (c.push key doc).documents = c.documents ++ [doc] := by
  simp [documents]

/-! ## Documents under the keys of their identifiers -/

/-- Each document is stored under the key of its identifier, and no key is used twice. -/
structure WellKeyed (c : Collection) : Prop where
  nodup : (c.toList.map Prod.fst).Nodup
  exists_id : ∀ entry ∈ c.toList, ∃ id, entry.2.get? "_id" = some id ∧ id.key? = some entry.1

namespace WellKeyed

theorem empty : Collection.empty.WellKeyed := ⟨List.nodup_nil, fun _ h => nomatch h⟩

/-- A prepared document may be put at the end. -/
theorem push (hc : c.WellKeyed) (hp : p.Fits c doc) : (c.push p.key p.doc).WellKeyed where
  nodup := by
    rw [toList_push, List.map_append, List.nodup_append]
    refine ⟨hc.nodup, List.nodup_singleton _, ?_⟩
    intro key hkey other hother heq
    obtain rfl := List.mem_singleton.1 hother
    rw [heq] at hkey
    exact hp.not_mem_keys hkey
  exists_id := by
    intro entry hentry
    rw [toList_push] at hentry
    rcases List.mem_append.1 hentry with h | h
    · exact hc.exists_id entry h
    · obtain rfl := List.mem_singleton.1 h
      exact ⟨p.id, hp.get?_id, hp.key?_id⟩

theorem of_sublist {d : Collection} (hc : c.WellKeyed) (hd : d.toList.Sublist c.toList) :
    d.WellKeyed where
  nodup := hc.nodup.sublist (hd.map Prod.fst)
  exists_id entry hentry := hc.exists_id entry (hd.subset hentry)

/-- A document may be replaced by one with its identifier. -/
theorem replaceAt (hc : c.WellKeyed) (i : Fin c.entries.size)
    (hdoc : doc.get? "_id" = (c.documentAt i).get? "_id") : (c.replaceAt i doc).WellKeyed where
  nodup := by
    rw [toList_replaceAt, List.map_set]
    have hlt : i.val < (c.toList.map Prod.fst).length := by
      rw [List.length_map]
      exact i.isLt
    -- the key at the position is written over by itself
    have hkeep : (c.toList.map Prod.fst).set i c.entries[i].1 = c.toList.map Prod.fst := by
      have hget : (c.toList.map Prod.fst)[i.val] = c.entries[i].1 := by
        simp [toList]
      rw [← hget, List.set_getElem_self]
    rw [hkeep]
    exact hc.nodup
  exists_id := by
    intro entry hentry
    rw [toList_replaceAt] at hentry
    rcases List.mem_or_eq_of_mem_set hentry with h | rfl
    · exact hc.exists_id entry h
    · rw [hdoc]
      exact hc.exists_id c.entries[i] (Array.getElem_mem_toList _)

/-- Documents may be inserted one after another, also if one of them is refused. -/
theorem insertDocuments (hc : c.WellKeyed) (name : String) (supply : IdSupply) (count : Nat)
    (docs : List Document) :
    (c.insertDocuments name supply count docs).collection.WellKeyed := by
  induction docs generalizing c supply count with
  | nil => exact hc
  | cons doc rest ih =>
    rw [Collection.insertDocuments]
    cases hp : c.prepare name supply doc with
    | ok p => exact ih (hc.push (fits_of_prepare hp)) p.supply (count + 1)
    | error e => exact hc

end WellKeyed

end Collection

/-! ## Writes to one collection -/

/-- What a write to one collection does to a catalog: it leaves the others alone, keeps documents
under the keys of their identifiers and loses none of these, and every document that is new has the
fields of what was written. -/
structure Catalog.Writes (name : String) (written : Document) (c d : Catalog) : Prop where
  find?_of_ne : ∀ other, other ≠ name → d.find? other = c.find? other
  wellKeyed : (c.get name).WellKeyed → (d.get name).WellKeyed
  keeps_id : ∀ doc ∈ c.documents name, ∀ id, doc.get? "_id" = some id →
    ∃ doc ∈ d.documents name, doc.get? "_id" = some id
  agrees : ∀ doc ∈ d.documents name, doc ∈ c.documents name ∨ doc.Agrees written

namespace Catalog

variable {c : Catalog} {name : String} {written doc : Document} {collection : Collection}

theorem documents_insert (c : Catalog) (name : String) (collection : Collection) (other : String) :
    (c.insert name collection).documents other =
      if name = other then collection.documents else c.documents other := by
  rw [documents_eq, content?_insert]
  split
  · rfl
  · rw [documents_eq]

/-- A collection that is put back under its name, or an empty one where there is none, leaves the
documents. -/
theorem documents_insert_get (c : Catalog) (name other : String) :
    (c.insert name (c.get name)).documents other = c.documents other := by
  rw [documents_insert, documents_get]
  split
  · next heq => rw [heq]
  · rfl

theorem get_insert_self (c : Catalog) (name : String) (collection : Collection) :
    (c.insert name collection).get name = collection := by
  rw [get, find?_insert, if_pos rfl]
  rfl

theorem Writes.refl (name : String) (written : Document) (c : Catalog) :
    Writes name written c c where
  find?_of_ne _ _ := rfl
  wellKeyed h := h
  keeps_id doc hdoc _ hid := ⟨doc, hdoc, hid⟩
  agrees _ hdoc := Or.inl hdoc

/-- The collection exists afterwards. -/
theorem writes_ensure (name : String) (written : Document) (c : Catalog) :
    Writes name written c (c.insert name (c.get name)) where
  find?_of_ne other hother := by
    rw [find?_insert, if_neg hother.symm]
  wellKeyed h := by
    rw [get_insert_self]
    exact h
  keeps_id doc hdoc id hid := by
    rw [documents_insert, if_pos rfl, documents_get]
    exact ⟨doc, hdoc, hid⟩
  agrees doc hdoc := by
    rw [documents_insert, if_pos rfl, documents_get] at hdoc
    exact Or.inl hdoc

/-- A prepared document is put at the end. -/
theorem writes_push {p : Collection.Prepared} (hp : p.Fits (c.get name) written) :
    Writes name written c (c.insert name ((c.get name).push p.key p.doc)) where
  find?_of_ne other hother := by
    rw [find?_insert, if_neg hother.symm]
  wellKeyed h := by
    rw [get_insert_self]
    exact h.push hp
  keeps_id doc hdoc id hid := by
    refine ⟨doc, ?_, hid⟩
    rw [documents_insert, if_pos rfl, Collection.documents_push, documents_get]
    exact List.mem_append_left _ hdoc
  agrees doc hdoc := by
    rw [documents_insert, if_pos rfl, Collection.documents_push, documents_get] at hdoc
    rcases List.mem_append.1 hdoc with h | h
    · exact Or.inl h
    · obtain rfl := List.mem_singleton.1 h
      exact Or.inr hp.agrees

theorem get?_id_withStoredId {stored replacement : Document} {id : Value}
    (h : stored.get? "_id" = some id) :
    (Store.withStoredId stored replacement).get? "_id" = some id := by
  rw [Store.withStoredId, h]
  exact (Fields.get?_insert _ _ _ _).trans (if_pos rfl)

theorem agrees_withStoredId (stored replacement : Document) :
    (Store.withStoredId stored replacement).Agrees replacement := by
  unfold Store.withStoredId
  split
  · exact .insert_id _ replacement
  · exact .refl replacement

/-- What an upsert inserts has the fields of the replacement. -/
theorem agrees_upsertDocument (filter replacement : Document) :
    (Store.upsertDocument filter replacement).Agrees replacement := by
  unfold Store.upsertDocument
  split
  · exact .refl replacement
  · split
    · split
      · exact .insert_id _ replacement
      · exact .refl replacement
    · exact .refl replacement

/-- A document is replaced and keeps its identifier. -/
theorem writes_replaceAt (i : Fin (c.get name).entries.size) (replacement : Document) :
    Writes name replacement c (c.insert name ((c.get name).replaceAt i
      (Store.withStoredId (c.get name).entries[i].2 replacement))) where
  find?_of_ne other hother := by
    rw [find?_insert, if_neg hother.symm]
  wellKeyed h := by
    rw [get_insert_self]
    refine h.replaceAt i ?_
    obtain ⟨_, hid, -⟩ := h.exists_id (c.get name).entries[i] (Array.getElem_mem_toList _)
    rw [get?_id_withStoredId hid, hid]
  keeps_id doc hdoc id hid := by
    rw [documents_insert, if_pos rfl, Collection.documents_replaceAt]
    rw [← documents_get] at hdoc
    obtain ⟨n, hn, rfl⟩ := List.getElem_of_mem hdoc
    have hn' : n < ((c.get name).documents.set i
        (Store.withStoredId (c.get name).entries[i].2 replacement)).length := by
      rwa [List.length_set]
    refine ⟨_, List.getElem_mem hn', ?_⟩
    -- the replaced document keeps its identifier, and the others are as they were
    rw [List.getElem_set]
    split
    · rename_i heq
      subst heq
      refine get?_id_withStoredId ?_
      rw [← hid]
      simp [Collection.documents, Collection.toList]
    · exact hid
  agrees doc hdoc := by
    rw [documents_insert, if_pos rfl, Collection.documents_replaceAt, documents_get] at hdoc
    rcases List.mem_or_eq_of_mem_set hdoc with h | rfl
    · exact Or.inl h
    · exact Or.inr (agrees_withStoredId _ replacement)

theorem Writes.of_agrees {d : Catalog} {other : Document} (h : Writes name written c d)
    (hagrees : written.Agrees other) : Writes name other c d where
  find?_of_ne := h.find?_of_ne
  wellKeyed := h.wellKeyed
  keeps_id := h.keeps_id
  agrees doc hdoc := (h.agrees doc hdoc).imp_right fun h' => h'.trans hagrees

end Catalog

/-! ## The writes of a store -/

namespace Store

open Collection

variable {s t : Store} {collection : String} {filter replacement doc : Document} {f : Filter}

/-- An insertion puts the prepared document at the end; one that is refused leaves at least an empty
collection. -/
theorem runOn_insertInto (collection : String) (doc : Document) (s : Store) :
    (insertInto collection doc).runOn s =
      match (s.catalog.get collection).prepare collection s.supply doc with
      | .ok p =>
          (.ok p.id,
            { s with
              catalog := s.catalog.insert collection ((s.catalog.get collection).push p.key p.doc)
              supply := p.supply })
      | .error e =>
          (.error e,
            { s with catalog := s.catalog.insert collection (s.catalog.get collection) }) := by
  rw [insertInto, Action.runOn_bind, Action.runOn_get]
  dsimp only
  cases (s.catalog.get collection).prepare collection s.supply doc with
  | ok p => rfl
  | error e => rfl

/-- An insertion that succeeds puts a prepared document at the end and changes no other collection.
-/
theorem documents_of_insertInto {id : Value}
    (h : (insertInto collection doc).runOn s = (.ok id, t)) :
    ∃ p, (s.catalog.get collection).prepare collection s.supply doc = .ok p ∧
      t.catalog.documents collection = s.catalog.documents collection ++ [p.doc] := by
  rw [runOn_insertInto] at h
  cases hp : (s.catalog.get collection).prepare collection s.supply doc with
  | ok p =>
    rw [hp] at h
    obtain ⟨-, rfl⟩ := Prod.mk.inj h
    refine ⟨p, rfl, ?_⟩
    rw [Catalog.documents_insert, if_pos rfl, Collection.documents_push, Catalog.documents_get]
  | error e =>
    rw [hp] at h
    cases h

theorem runOn_insertOne (collection : String) (doc : Document) (s : Store) :
    (insertOne collection doc).runOn s =
      (((insertInto collection doc).runOn (s.record (.insert collection))).1.map InsertResult.mk,
        ((insertInto collection doc).runOn (s.record (.insert collection))).2) := by
  rw [insertOne, Action.runOn_bind, Action.runOn_modify]
  exact Action.runOn_bind_pure _ _ _

theorem documents_of_insertOne {r : InsertResult}
    (h : (insertOne collection doc).runOn s = (.ok r, t)) :
    ∃ p, (s.catalog.get collection).prepare collection s.supply doc = .ok p ∧
      t.catalog.documents collection = s.catalog.documents collection ++ [p.doc] := by
  rw [runOn_insertOne] at h
  obtain ⟨id, hrun⟩ := Action.eq_ok_of_map_eq h
  exact documents_of_insertInto (s := s.record (.insert collection)) hrun

/-- An insertion that fails leaves the documents. -/
theorem documents_of_insertInto_error {e : Error}
    (h : (insertInto collection doc).runOn s = (.error e, t)) :
    t.catalog.documents collection = s.catalog.documents collection := by
  rw [runOn_insertInto] at h
  cases hp : (s.catalog.get collection).prepare collection s.supply doc with
  | ok p =>
    rw [hp] at h
    cases h
  | error e =>
    rw [hp] at h
    obtain ⟨-, rfl⟩ := Prod.mk.inj h
    rw [Catalog.documents_insert, if_pos rfl, Catalog.documents_get]

theorem documents_of_insertOne_error {e : Error}
    (h : (insertOne collection doc).runOn s = (.error e, t)) :
    t.catalog.documents collection = s.catalog.documents collection := by
  rw [runOn_insertOne] at h
  have hrun := Action.eq_error_of_map_eq h
  exact documents_of_insertInto_error (s := s.record (.insert collection)) hrun

theorem exists_runOn_insertInto {p : Prepared}
    (hp : (s.catalog.get collection).prepare collection s.supply doc = .ok p) :
    ∃ id t, (insertInto collection doc).runOn s = (.ok id, t) := by
  rw [runOn_insertInto, hp]
  exact ⟨_, _, rfl⟩

theorem exists_runOn_insertOne {p : Prepared}
    (hp : (s.catalog.get collection).prepare collection s.supply doc = .ok p) :
    ∃ r t, (insertOne collection doc).runOn s = (.ok r, t) := by
  obtain ⟨id, t, hrun⟩ := exists_runOn_insertInto (s := s.record (.insert collection)) hp
  rw [runOn_insertOne, hrun]
  exact ⟨⟨id⟩, t, rfl⟩

/-- An insertion under an identifier with a key is refused exactly if the key is taken. -/
theorem fst_runOn_insertOne {id : Value} {key : Key} (s : Store) (collection : String)
    (hid : doc.get? "_id" = some id) (hkey : id.key? = some key) :
    ((insertOne collection doc).runOn s).1 =
      if key ∈ (s.catalog.get collection).toList.map Prod.fst then
        .error (.duplicateId collection id)
      else .ok ⟨id⟩ := by
  have hprepare : (s.catalog.get collection).prepare collection s.supply doc =
      if (s.catalog.get collection).contains key then .error (.duplicateId collection id)
      else .ok ⟨id, key, doc, s.supply⟩ := by
    rw [Collection.prepare, hid]
    dsimp only
    rw [Collection.prepareWithId, hkey]
  rw [runOn_insertOne, runOn_insertInto]
  dsimp only [record]
  rw [hprepare]
  by_cases hmem : key ∈ (s.catalog.get collection).toList.map Prod.fst
  · rw [if_pos hmem, if_pos ((Collection.contains_iff _ key).2 hmem)]
    rfl
  · rw [if_neg hmem, if_neg fun h => hmem ((Collection.contains_iff _ key).1 h)]
    rfl

/-- An insertion under an identifier whose key is not taken puts the document at the end. -/
theorem exists_runOn_insertOne_of_fresh {id : Value} {key : Key} (hid : doc.get? "_id" = some id)
    (hkey : id.key? = some key) (hfresh : key ∉ (s.catalog.get collection).toList.map Prod.fst) :
    ∃ t, (insertOne collection doc).runOn s = (.ok ⟨id⟩, t) ∧
      t.catalog.documents collection = s.catalog.documents collection ++ [doc] := by
  have hprepare : (s.catalog.get collection).prepare collection s.supply doc =
      .ok ⟨id, key, doc, s.supply⟩ :=
    prepare_eq_ok_iff.2 (Or.inl ⟨id, key, hid, hkey, hfresh, rfl⟩)
  obtain ⟨r, t, hrun⟩ := exists_runOn_insertOne hprepare
  have hresult := fst_runOn_insertOne s collection hid hkey
  rw [hrun, if_neg hfresh] at hresult
  obtain rfl := Except.ok.inj hresult
  obtain ⟨p, hp, hdocuments⟩ := documents_of_insertOne hrun
  obtain rfl := Except.ok.inj (hp.symm.trans hprepare)
  exact ⟨t, hrun, hdocuments⟩

/-- Loading documents keeps those before the first one that is refused. -/
theorem runOn_insertMany (collection : String) (docs : List Document) (s : Store) :
    let done := (s.catalog.get collection).insertDocuments collection s.supply 0 docs
    (insertMany collection docs).runOn s =
      (done.result,
        { s with
          catalog := s.catalog.insert collection done.collection
          supply := done.supply }) := by
  intro done
  rw [insertMany, Action.runOn_bind, Action.runOn_get]
  dsimp only
  rw [Action.runOn_bind, Action.runOn_set]
  exact Action.runOn_ofExcept _ _

theorem runOn_replaceOne_of_fault {e : Error} (replacement : Document) (upsert : Bool)
    (hf : compileFilter filter = .error e) :
    (replaceOne collection filter replacement upsert).runOn s = (.error e, s) := by
  rw [replaceOne, Action.runOn_bind, Action.runOn_ofExcept, hf]

/-- A replacement changes the first document that matches. -/
theorem runOn_replaceOne_of_some (replacement : Document) (upsert : Bool)
    (hf : compileFilter filter = .ok f)
    {i : Fin (s.catalog.get collection).entries.size}
    (hi : (s.catalog.get collection).findFirst? f.holds = some i) :
    (replaceOne collection filter replacement upsert).runOn s =
      (.ok { matchedCount := 1, modifiedCount := 1, acknowledged := s.acknowledged },
        { s.record (.replace collection) with
          catalog := s.catalog.insert collection ((s.catalog.get collection).replaceAt i
            (withStoredId (s.catalog.get collection).entries[i].2 replacement)) }) := by
  rw [replaceOne, Action.runOn_bind, Action.runOn_ofExcept, hf]
  dsimp only
  rw [Action.runOn_bind, Action.runOn_modify]
  dsimp only
  rw [Action.runOn_bind, Action.runOn_get]
  dsimp only [record]
  rw [hi]
  rfl

/-- Where no document matches, an upsert inserts. -/
theorem runOn_replaceOne_of_none (replacement : Document)
    (hf : compileFilter filter = .ok f)
    (hnone : (s.catalog.get collection).findFirst? f.holds = none) :
    let run := (insertInto collection (upsertDocument filter replacement)).runOn
      (s.record (.replace collection))
    (replaceOne collection filter replacement true).runOn s =
      (run.1.map fun id => { upsertedId := some id, acknowledged := s.acknowledged }, run.2) := by
  intro run
  rw [replaceOne, Action.runOn_bind, Action.runOn_ofExcept, hf]
  dsimp only
  rw [Action.runOn_bind, Action.runOn_modify]
  dsimp only
  rw [Action.runOn_bind, Action.runOn_get]
  dsimp only [record]
  rw [hnone]
  dsimp only
  rw [if_pos rfl]
  exact Action.runOn_bind_pure _ _ _

/-- Where no document matches, a replacement that is no upsert only makes sure that the collection
exists. -/
theorem runOn_replaceOne_of_none_of_false (replacement : Document)
    (hf : compileFilter filter = .ok f)
    (hnone : (s.catalog.get collection).findFirst? f.holds = none) :
    (replaceOne collection filter replacement false).runOn s =
      (.ok { acknowledged := s.acknowledged },
        { s.record (.replace collection) with
          catalog := s.catalog.insert collection (s.catalog.get collection) }) := by
  rw [replaceOne, Action.runOn_bind, Action.runOn_ofExcept, hf]
  dsimp only
  rw [Action.runOn_bind, Action.runOn_modify]
  dsimp only
  rw [Action.runOn_bind, Action.runOn_get]
  dsimp only [record]
  rw [hnone]
  rfl

/-- An upsert that succeeds replaced the first document that matches, or none matches and it put a
prepared document at the end. -/
theorem documents_of_replaceOne {r : UpdateResult} (hf : compileFilter filter = .ok f)
    (h : (replaceOne collection filter replacement true).runOn s = (.ok r, t)) :
    (∃ i, (s.catalog.get collection).findFirst? f.holds = some i ∧
        t.catalog.documents collection = (s.catalog.documents collection).set i
          (withStoredId (s.catalog.get collection).entries[i].2 replacement)) ∨
      ((s.catalog.get collection).findFirst? f.holds = none ∧
        ∃ p, (s.catalog.get collection).prepare collection s.supply
            (upsertDocument filter replacement) = .ok p ∧
          t.catalog.documents collection = s.catalog.documents collection ++ [p.doc]) := by
  cases hi : (s.catalog.get collection).findFirst? f.holds with
  | some i =>
    rw [runOn_replaceOne_of_some replacement true hf hi] at h
    obtain ⟨-, rfl⟩ := Prod.mk.inj h
    refine Or.inl ⟨i, rfl, ?_⟩
    rw [Catalog.documents_insert, if_pos rfl, Collection.documents_replaceAt,
      Catalog.documents_get]
  | none =>
    rw [runOn_replaceOne_of_none replacement hf hi] at h
    obtain ⟨id, hrun⟩ := Action.eq_ok_of_map_eq h
    exact Or.inr ⟨rfl, documents_of_insertInto (s := s.record (.replace collection)) hrun⟩

/-- An upsert that fails leaves the documents. -/
theorem documents_of_replaceOne_error {e : Error}
    (h : (replaceOne collection filter replacement true).runOn s = (.error e, t)) :
    t.catalog.documents collection = s.catalog.documents collection := by
  cases hf : compileFilter filter with
  | error e' =>
    rw [runOn_replaceOne_of_fault replacement true hf] at h
    obtain ⟨-, rfl⟩ := Prod.mk.inj h
    rfl
  | ok f =>
    cases hi : (s.catalog.get collection).findFirst? f.holds with
    | some i =>
      rw [runOn_replaceOne_of_some replacement true hf hi] at h
      cases h
    | none =>
      rw [runOn_replaceOne_of_none replacement hf hi] at h
      have hrun := Action.eq_error_of_map_eq h
      exact documents_of_insertInto_error (s := s.record (.replace collection)) hrun

/-- An upsert succeeds if its filter can be read and what it may insert can be prepared. -/
theorem exists_runOn_replaceOne {p : Prepared} (hf : compileFilter filter = .ok f)
    (hp : (s.catalog.get collection).prepare collection s.supply
      (upsertDocument filter replacement) = .ok p) :
    ∃ r t, (replaceOne collection filter replacement true).runOn s = (.ok r, t) := by
  cases hi : (s.catalog.get collection).findFirst? f.holds with
  | some i => exact ⟨_, _, runOn_replaceOne_of_some replacement true hf hi⟩
  | none =>
    obtain ⟨id, t, hrun⟩ := exists_runOn_insertInto (s := s.record (.replace collection)) hp
    rw [runOn_replaceOne_of_none replacement hf hi, hrun]
    exact ⟨_, t, rfl⟩

/-- A store before and after a write to one collection. -/
structure Writes (name : String) (written : Document) (s t : Store) : Prop where
  catalog : s.catalog.Writes name written t.catalog
  frame : t = { s with catalog := t.catalog, journal := t.journal, supply := t.supply }

theorem Writes.sessions_eq (h : Writes collection doc s t) : t.sessions = s.sessions := by
  rw [h.frame]

theorem Writes.failingDeletes_eq (h : Writes collection doc s t) :
    t.failingDeletes = s.failingDeletes := by
  rw [h.frame]

/-- Whether it succeeds or fails, an insertion writes the document or nothing. -/
theorem keeps_writes_insertInto (collection : String) (doc : Document) :
    (insertInto collection doc).Keeps (Writes collection doc) := by
  intro s
  rw [runOn_insertInto]
  cases hp : (s.catalog.get collection).prepare collection s.supply doc with
  | ok p => exact ⟨Catalog.writes_push (fits_of_prepare hp), rfl⟩
  | error e => exact ⟨Catalog.writes_ensure collection doc s.catalog, rfl⟩

/-- Whether it succeeds or fails, an insertion writes the document or nothing. -/
theorem keeps_writes_insertOne (collection : String) (doc : Document) :
    (insertOne collection doc).Keeps (Writes collection doc) := by
  intro s
  rw [runOn_insertOne]
  obtain ⟨hcatalog, hframe⟩ :=
    keeps_writes_insertInto collection doc (s.record (.insert collection))
  refine ⟨hcatalog, ?_⟩
  rw [hframe]
  rfl

/-- Whether it succeeds or fails, a replacement writes itself or nothing. -/
theorem keeps_writes_replaceOne (collection : String) (filter replacement : Document)
    {upsert : Bool} :
    (replaceOne collection filter replacement upsert).Keeps (Writes collection replacement) := by
  intro s
  -- one case for each way through a replacement
  cases hf : compileFilter filter with
  | error e =>
    rw [runOn_replaceOne_of_fault replacement upsert hf]
    exact ⟨.refl collection replacement s.catalog, rfl⟩
  | ok f =>
    cases hi : (s.catalog.get collection).findFirst? f.holds with
    | some i =>
      rw [runOn_replaceOne_of_some replacement upsert hf hi]
      exact ⟨Catalog.writes_replaceAt i replacement, rfl⟩
    | none =>
      cases upsert with
      | false =>
        rw [runOn_replaceOne_of_none_of_false replacement hf hi]
        exact ⟨Catalog.writes_ensure collection replacement s.catalog, rfl⟩
      | true =>
        rw [runOn_replaceOne_of_none replacement hf hi]
        obtain ⟨hcatalog, hframe⟩ := keeps_writes_insertInto collection
          (upsertDocument filter replacement) (s.record (.replace collection))
        refine ⟨hcatalog.of_agrees (Catalog.agrees_upsertDocument filter replacement), ?_⟩
        rw [hframe]
        rfl

end Store

end DocMapper
