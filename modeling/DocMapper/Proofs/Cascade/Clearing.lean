import DocMapper.Proofs.Cascade.Matching
import DocMapper.Proofs.Store.Identity

set_option autoImplicit false

/-!
# What deleting clears from a collection

A deletion by a filter first finds the identifiers of the matching entities and then deletes by
these. Documents under the keys of their identifiers are told apart by them, so the identifiers that
were found are those of no other document (`Collection.WellKeyed.refersTo_identifiers`), and of the
collection of the entities the deletion takes out what matches (`Cascade.loses_of_deleteMatching`).

There is one exception. If a file type keeps its chunks in its own collection, the documents that
refer to a deleted entity as their file go along with it, whether or not they match
(`EntityInfo.clears`).
-/

namespace DocMapper

open Store

/-- The identifiers of the documents of which a test holds are those of no other document. -/
theorem Collection.WellKeyed.refersTo_identifiers {c : Collection} (hc : c.WellKeyed)
    (test : Document → Bool) {doc : Document} (hdoc : doc ∈ c.documents) :
    doc.refersTo "_id" (identifiers (c.documents.filter test)) = test doc := by
  obtain ⟨id, hid, hkey⟩ := hc.exists_get?_id hdoc
  rw [Document.refersTo_of_get? hid hkey, Bool.eq_iff_iff, List.any_eq_true]
  constructor
  · rintro ⟨other, hother, hsame⟩
    obtain ⟨found, hfound, hotherId⟩ := List.mem_filterMap.1 hother
    obtain ⟨hmem, htest⟩ := List.mem_filter.1 hfound
    obtain rfl := hc.eq_of_idKey?_eq hdoc hmem
      (by simpa [Document.idKey?, hid, hotherId] using (of_decide_eq_true hsame).symm)
    exact htest
  · intro htest
    exact ⟨id, List.mem_filterMap.2 ⟨doc, List.mem_filter.2 ⟨hdoc, htest⟩, hid⟩, by simp⟩

/-- What refers to the identifier of a document that was found by some values refers to one of
these. -/
theorem Collection.WellKeyed.refersTo_of_identifiers {c : Collection} (hc : c.WellKeyed)
    {values : List Value} {docs : List Document}
    (hdocs : ∀ doc ∈ docs, doc ∈ c.documents ∧ doc.refersTo "_id" values = true) {doc : Document}
    {field : String} (h : doc.refersTo field (identifiers docs) = true) :
    doc.refersTo field values = true := by
  refine Document.refersTo_of_keys (fun id hid => ?_) h
  obtain ⟨found, hfound, hget⟩ := List.mem_filterMap.1 hid
  obtain ⟨hmem, hrefers⟩ := hdocs found hfound
  obtain ⟨id', hid', hkey⟩ := hc.exists_get?_id hmem
  obtain rfl := Option.some.inj (hget.symm.trans hid')
  rw [Document.refersTo_of_get? hget hkey, List.any_eq_true] at hrefers
  obtain ⟨v, hv, hsame⟩ := hrefers
  exact ⟨hkey, v, hv, of_decide_eq_true hsame⟩

/-- Whether deleting the entities of which a test holds takes a document out of their collection:
the test holds of it or, where a file type keeps its chunks in its own collection, it is a chunk of
such an entity. -/
def EntityInfo.clears (info : EntityInfo) (chunkCollection : String) (docs : List Document)
    (test : Document → Bool) (doc : Document) : Bool :=
  test doc || (info.isFile && info.collection = chunkCollection &&
    doc.refersTo fileField (identifiers (docs.filter test)))

/-- With a collection for the chunks, exactly the entities are taken. -/
theorem EntityInfo.clears_of_ne {info : EntityInfo} {chunkCollection : String}
    (h : info.isFile = true → info.collection ≠ chunkCollection) (docs : List Document)
    (test : Document → Bool) : info.clears chunkCollection docs test = test := by
  funext doc
  rw [clears]
  cases hfile : info.isFile with
  | false => simp
  | true => simp [h hfile]

namespace Cascade

variable {c : Cascade} {info : EntityInfo} {filter : Document} {test : Document → Bool}
variable {s t : Store} {r : DeleteResult}

/-- What the identifiers of the entities of which a test holds reach in their own collection. -/
theorem reaches_identifiers (c : Cascade) (hE : isCollectionName info.collection = true)
    (hkeyed : (s.catalog.get info.collection).WellKeyed) (test : Document → Bool) {doc : Document}
    (hdoc : doc ∈ s.catalog.documents info.collection) :
    c.reaches info (identifiers ((s.catalog.documents info.collection).filter test))
        info.collection doc =
      info.clears c.chunkCollection (s.catalog.documents info.collection) test doc := by
  rw [← Catalog.documents_get] at hdoc ⊢
  rw [reaches, hkeyed.refersTo_identifiers test hdoc, JoinName.joins_of_isCollectionName hE,
    EntityInfo.clears]
  simp

/-- A deletion by a filter takes the matching entities out of their collection. -/
theorem loses_of_deleteMatching (hE : isCollectionName info.collection = true)
    (hkeyed : (s.catalog.get info.collection).WellKeyed) (hmeans : Means filter test)
    (h : (c.deleteMatching info filter).runOn s = (.ok r, t)) :
    s.catalog.Loses t.catalog info.collection
      (info.clears c.chunkCollection (s.catalog.documents info.collection) test) := by
  obtain ⟨f, hf, hremoved⟩ := removes_of_deleteMatching hE h
  have htest : f.holds = test := by
    funext doc
    rw [← hmeans.takes_eq, takes, hf]
  rw [← htest]
  exact (hremoved.catalog info.collection).congr fun doc hdoc =>
    reaches_identifiers c hE hkeyed f.holds hdoc

/-- A deletion by a filter that can not be read fails and does nothing, and if its token lets it
proceed it fails for that reason. -/
theorem exists_runOn_deleteMatching_of_fault {e : Error} (c : Cascade) (info : EntityInfo)
    (s : Store) (hf : compileFilter filter = .error e) :
    ∃ e', (c.deleteMatching info filter).runOn s = (.error e', s) ∧ (c.Proceeds s → e' = e) := by
  by_cases h : c.Proceeds s
  · exact ⟨e, (h.runOn_checked _).trans (runOn_deleteFound_of_fault c info s hf), fun _ => rfl⟩
  · obtain ⟨e', he'⟩ := exists_runOn_checked_of_not_proceeds h (c.deleteFound info filter)
    exact ⟨e', he', fun hproceeds => absurd hproceeds h⟩

end Cascade

end DocMapper
