import DocMapper.Proofs.Filter.Membership
import DocMapper.Proofs.Store.Histories
import DocMapper.Proofs.Value.KeyEquality

set_option autoImplicit false

/-!
# Identifiers and the documents that they find

An index tells identifiers apart by their keys, and a query by equality. In a collection whose
documents are under the keys of their identifiers, a key stands for one document at most
(`WellKeyed.eq_of_idKey?_eq`), so an insertion is refused exactly if a document has the key of its
identifier.

`StoreRun.identifies` says when the two agree on a value: exactly if no stored identifier clashes
with it. Where an integer from `9 * 10 ^ 15` on is stored, the double nearest to it is not refused,
and a query for either finds both (`StoreRun.clash_large`).
-/

namespace DocMapper

open Store

/-- The key of the identifier of a document. -/
def Document.idKey? (doc : Document) : Option Key := (doc.get? "_id").bind Value.key?

/-! ## Documents and their keys -/

namespace Collection.WellKeyed

variable {c : Collection} {doc other : Document} {key : Key}

theorem map_idKey? (hc : c.WellKeyed) :
    c.documents.map Document.idKey? = (c.toList.map Prod.fst).map some := by
  rw [documents, List.map_map, List.map_map]
  refine List.map_congr_left fun entry hentry => ?_
  obtain ⟨id, hid, hkey⟩ := hc.exists_id entry hentry
  simp [Document.idKey?, hid, hkey]

theorem exists_get?_id (hc : c.WellKeyed) (hdoc : doc ∈ c.documents) :
    ∃ id, doc.get? "_id" = some id ∧ id.key?.isSome = true := by
  obtain ⟨entry, hentry, rfl⟩ := List.mem_map.1 hdoc
  obtain ⟨id, hid, hkey⟩ := hc.exists_id entry hentry
  exact ⟨id, hid, by rw [hkey]; rfl⟩

theorem mem_keys_iff (hc : c.WellKeyed) :
    key ∈ c.toList.map Prod.fst ↔ ∃ doc ∈ c.documents, doc.idKey? = some key := by
  rw [← List.mem_map, hc.map_idKey?]
  simp

theorem nodup_map_idKey? (hc : c.WellKeyed) : (c.documents.map Document.idKey?).Nodup := by
  rw [hc.map_idKey?]
  exact hc.nodup.map (Option.some_injective Key)

theorem eq_of_idKey?_eq (hc : c.WellKeyed) (hdoc : doc ∈ c.documents) (hother : other ∈ c.documents)
    (h : doc.idKey? = other.idKey?) : doc = other :=
  List.inj_on_of_nodup_map hc.nodup_map_idKey? hdoc hother h

/-- A test that holds of documents with one key only holds of one document at most. -/
theorem countP_le_one (hc : c.WellKeyed) {test : Document → Bool}
    (htest : ∀ doc ∈ c.documents, test doc = true → doc.idKey? = some key) :
    c.documents.countP test ≤ 1 := by
  calc c.documents.countP test ≤ c.documents.countP fun doc => doc.idKey? == some key := by
        refine List.countP_mono_left fun doc hdoc h => ?_
        rw [htest doc hdoc h]
        exact beq_self_eq_true _
    _ = (c.documents.map Document.idKey?).count (some key) := by
        rw [List.count_eq_countP, List.countP_map]
        rfl
    _ ≤ 1 := List.nodup_iff_count_le_one.1 hc.nodup_map_idKey? _

end Collection.WellKeyed

/-- Where a test holds of one document at most, documents of which it holds are the same. -/
theorem Document.eq_of_countP_le_one {docs : List Document} {test : Document → Bool}
    {doc other : Document} (h : docs.countP test ≤ 1) (hdoc : doc ∈ docs) (hother : other ∈ docs)
    (htest : test doc = true) (htest' : test other = true) : doc = other := by
  rw [List.countP_eq_length_filter] at h
  have hmem := List.mem_filter.2 ⟨hdoc, htest⟩
  have hmem' := List.mem_filter.2 ⟨hother, htest'⟩
  cases hfiltered : docs.filter test with
  | nil =>
    rw [hfiltered] at hmem
    cases hmem
  | cons first rest =>
    rw [hfiltered] at h hmem hmem'
    obtain rfl : rest = [] := List.length_eq_zero_iff.1 (by simpa using h)
    rw [List.mem_singleton.1 hmem, List.mem_singleton.1 hmem']

/-! ## Where queries and the index agree -/

section Agreement

variable {c : Collection} {x : Value} {doc : Document}

/-- No identifier of some documents clashes with a value. -/
def Document.NoneClashes (docs : List Document) (x : Value) : Prop :=
  ∀ doc ∈ docs, ∀ id, doc.get? "_id" = some id → id.clash x = false

/-- The query for an identifier takes the documents whose identifier is equal to it. -/
theorem takes_id_eq {id : Value} (hx : x.key?.isSome = true) (hid : doc.get? "_id" = some id)
    (hkey : id.key?.isSome = true) : takes [("_id", x)] doc = id.equal x := by
  rw [(means_scalar Filter.isPlainField_id hx).takes_eq, Document.holdsAt_of_get? hid hkey]

/-- Where no identifier clashes with a value, the query for it takes the documents with its key. -/
theorem takes_id_iff_of_noneClashes (hc : c.WellKeyed) (hx : x.key?.isSome = true)
    (hnone : Document.NoneClashes c.documents x) (hdoc : doc ∈ c.documents) :
    takes [("_id", x)] doc = true ↔ doc.idKey? = x.key? := by
  obtain ⟨id, hid, hkey⟩ := hc.exists_get?_id hdoc
  rw [takes_id_eq hx hid hkey, (Value.clash_eq_false_iff hkey).1 (hnone doc hdoc id hid),
    Document.idKey?, hid, Option.bind_some]

/-- At most one document matches a value and one does exactly if its key is taken, precisely where
no identifier clashes with the value. -/
theorem agrees_iff_noneClashes (hc : c.WellKeyed) {key : Key} (hx : x.key? = some key) :
    (c.documents.countP (takes [("_id", x)]) ≤ 1 ∧
        (key ∈ c.toList.map Prod.fst ↔ ∃ doc ∈ c.documents, takes [("_id", x)] doc = true)) ↔
      Document.NoneClashes c.documents x := by
  have hsome : x.key?.isSome = true := by rw [hx]; rfl
  constructor
  · rintro ⟨hone, htaken⟩ doc hdoc id hid
    obtain ⟨id', hid', hkey⟩ := hc.exists_get?_id hdoc
    obtain rfl := Option.some.inj (hid.symm.trans hid')
    rw [Value.clash, Bool.or_eq_false_iff, ← Bool.not_eq_true, ← Bool.not_eq_true]
    refine ⟨fun hsplits => ?_, fun hmerges => ?_⟩
    · -- the document matches, so another one has the key, which matches as well
      obtain ⟨hequal, hne⟩ := (Value.splits_iff hkey).1 hsplits
      have hmatch : takes [("_id", x)] doc = true := by rw [takes_id_eq hsome hid hkey, hequal]
      obtain ⟨other, hother, hotherKey⟩ := hc.mem_keys_iff.1 (htaken.2 ⟨doc, hdoc, hmatch⟩)
      obtain ⟨id', hid', hkey'⟩ := hc.exists_get?_id hother
      rw [Document.idKey?, hid', Option.bind_some, ← hx] at hotherKey
      have hequal' : id'.equal x = true := by
        have hnot : ¬ id'.merges x = true := by
          rw [Value.merges_eq_false_of_splits hsplits]
          exact Bool.false_ne_true
        rw [Value.merges_iff hkey', not_and'] at hnot
        exact Bool.not_eq_false _ |>.mp (hnot hotherKey)
      have hmatch' : takes [("_id", x)] other = true := by
        rw [takes_id_eq hsome hid' hkey', hequal']
      obtain rfl := Document.eq_of_countP_le_one hone hdoc hother hmatch hmatch'
      obtain rfl := Option.some.inj (hid.symm.trans hid')
      exact hne hotherKey
    · -- the key is taken, so another document matches, whose identifier has another key
      obtain ⟨hequal, heq⟩ := (Value.merges_iff hkey).1 hmerges
      have hidKey : doc.idKey? = some key := by
        rw [Document.idKey?, hid, Option.bind_some, heq, hx]
      obtain ⟨other, hother, hmatch⟩ := htaken.1 (hc.mem_keys_iff.2 ⟨doc, hdoc, hidKey⟩)
      obtain ⟨id', hid', hkey'⟩ := hc.exists_get?_id hother
      rw [takes_id_eq hsome hid' hkey'] at hmatch
      have hne : id'.key? ≠ x.key? := by
        intro heq'
        have hsame : doc.idKey? = other.idKey? := by
          rw [hidKey, Document.idKey?, hid', Option.bind_some, heq', hx]
        obtain rfl := hc.eq_of_idKey?_eq hdoc hother hsame
        obtain rfl := Option.some.inj (hid.symm.trans hid')
        rw [hmatch] at hequal
        cases hequal
      have hsplits := (Value.splits_iff hkey').2 ⟨hmatch, hne⟩
      rw [Value.merges_eq_false_of_splits hsplits] at hmerges
      cases hmerges
  · -- without a clash a document matches exactly if it is the one with the key
    intro hnone
    have htakes : ∀ doc ∈ c.documents, takes [("_id", x)] doc = true ↔ doc.idKey? = some key := by
      intro doc hdoc
      rw [takes_id_iff_of_noneClashes hc hsome hnone hdoc, hx]
    refine ⟨hc.countP_le_one fun doc hdoc => (htakes doc hdoc).1, ?_⟩
    rw [hc.mem_keys_iff]
    exact exists_congr fun doc => and_congr_right fun hdoc => (htakes doc hdoc).symm

end Agreement

/-! ## Identifiers in a store -/

/-- An upsert by an identifier inserts under it, unless its replacement has another one. -/
theorem get?_id_upsertDocument {x : Value} {replacement : Document} (hx : x.key?.isSome = true)
    (h : replacement.get? "_id" = none ∨ replacement.get? "_id" = some x) :
    (upsertDocument [("_id", x)] replacement).get? "_id" = some x := by
  rcases h with h | h
  · have hfilter : Fields.get? [("_id", x)] "_id" = some x := rfl
    rw [upsertDocument, Fields.contains, h, if_neg (by decide), hfilter]
    dsimp only
    rw [if_pos hx, Fields.get?_insert, if_pos rfl]
  · rw [upsertDocument, Fields.contains, h, Option.isSome_some, if_pos rfl, h]

namespace StoreRun

variable {events : List TransactionEvent} {s : Store}

/-- In every store that a run leads to, the index of a collection and the queries for a value with a
key agree exactly if no stored identifier clashes with the value: then at most one document matches
the value, and an insertion under it is refused as a duplicate exactly if one does. Then an upsert
by the value succeeds as well, unless its replacement has another identifier. -/
theorem identifies (hrun : StoreRun events s) (name : String) {x : Value}
    (hx : x.key?.isSome = true) :
    let docs := s.catalog.documents name
    ((docs.countP (takes [("_id", x)]) ≤ 1 ∧
        ∀ doc : Document, doc.get? "_id" = some x →
          (((insertOne name doc).runOn s).1 = .error (.duplicateId name x) ↔
            ∃ stored ∈ docs, takes [("_id", x)] stored = true)) ↔
      Document.NoneClashes docs x) ∧
    (Document.NoneClashes docs x → ∀ replacement : Document,
      replacement.get? "_id" = none ∨ replacement.get? "_id" = some x →
        ∃ r t, (replaceOne name [("_id", x)] replacement true).runOn s = (.ok r, t)) := by
  intro docs
  obtain ⟨key, hkey⟩ := Option.isSome_iff_exists.1 hx
  have hc : (s.catalog.get name).WellKeyed := hrun.isKeyed.1 name
  have hdocs : (s.catalog.get name).documents = docs := Catalog.documents_get s.catalog name
  -- what matches and what is taken are compared in the collection itself
  have hagrees := agrees_iff_noneClashes hc hkey
  rw [hdocs] at hagrees
  refine ⟨?agreement, fun hnone replacement hreplacement => ?upsert⟩
  case agreement =>
    rw [← hagrees]
    refine and_congr_right fun _ => ?_
    -- an insertion is refused if the key is taken
    have hrefused : ∀ doc : Document, doc.get? "_id" = some x →
        (((insertOne name doc).runOn s).1 = .error (.duplicateId name x) ↔
          key ∈ (s.catalog.get name).toList.map Prod.fst) := by
      intro doc hdoc
      rw [fst_runOn_insertOne s name hdoc hkey]
      split <;> simp [*]
    constructor
    · intro h
      rw [← hrefused [("_id", x)] rfl]
      exact h _ rfl
    · intro h doc hdoc
      rw [hrefused doc hdoc]
      exact h
  case upsert =>
    obtain ⟨f, hf, hholds⟩ := means_scalar Filter.isPlainField_id hx
    cases hfirst : (s.catalog.get name).findFirst? f.holds with
    | some i => exact ⟨_, _, runOn_replaceOne_of_some replacement true hf hfirst⟩
    | none =>
      -- no document matches, so the key is free for the document that is inserted
      have hfree : key ∉ (s.catalog.get name).toList.map Prod.fst := by
        rw [(hagrees.2 hnone).2]
        rintro ⟨stored, hstored, hmatch⟩
        rw [← hdocs] at hstored
        have hnot := Collection.findFirst?_eq_none_iff.1 hfirst stored hstored
        rw [takes, hf] at hmatch
        exact Bool.noConfusion (hnot.symm.trans hmatch)
      have hid := get?_id_upsertDocument hx hreplacement
      exact exists_runOn_replaceOne hf
        (Collection.prepare_eq_ok_iff.2 (Or.inl ⟨x, key, hid, hkey, hfree, rfl⟩))

/-- In a store with a document under the number one, a second one is refused, and an upsert by that
number succeeds. -/
theorem identifies_stored :
    ∃ s, StoreRun [] s ∧ s.catalog.documents "c" = [[("_id", .int64 1)]] ∧
      ((insertOne "c" [("_id", .int32 1)]).runOn s).1 = .error (.duplicateId "c" (.int32 1)) ∧
      ∃ r t, (replaceOne "c" [("_id", .int32 1)] [] true).runOn s = (.ok r, t) := by
  obtain ⟨s, hrun, hdocuments⟩ := exists_single "c" [("_id", .int64 1)] rfl rfl
  have hnone : Document.NoneClashes (s.catalog.documents "c") (.int32 1) := by
    rw [hdocuments]
    intro doc hdoc id hid
    obtain rfl := List.mem_singleton.1 hdoc
    obtain rfl := Option.some.inj hid
    rfl
  obtain ⟨hagrees, hupsert⟩ := hrun.identifies "c" (x := .int32 1) rfl
  refine ⟨s, hrun, hdocuments, ?_, hupsert hnone [] (Or.inl rfl)⟩
  rw [(hagrees.2 hnone).2 _ rfl, hdocuments]
  refine ⟨_, List.mem_singleton_self _, ?_⟩
  rw [takes_id_eq rfl rfl rfl]
  decide

/-- Where the integer `9 * 10 ^ 15` is stored, the double of the same number is inserted although a
document matches it, and afterwards two documents do. -/
theorem clash_large :
    let integer : Value := .int64 9000000000000000
    let double : Value := .double ⟨0x433ff973cafa8000#64⟩
    ∃ s t, StoreRun [] s ∧ StoreRun [] t ∧
      (∃ stored ∈ s.catalog.documents "c", takes [("_id", double)] stored = true) ∧
      (insertOne "c" [("_id", double)]).runOn s = (.ok ⟨double⟩, t) ∧
      t.catalog.documents "c" = [[("_id", integer)], [("_id", double)]] ∧
      (t.catalog.documents "c").countP (takes [("_id", double)]) = 2 := by
  intro integer double
  obtain ⟨s, hrun, hdocuments⟩ := exists_single "c" [("_id", integer)] rfl rfl
  have hkey : double.key? = some (.double ⟨0x433ff973cafa8000#64⟩) := by decide +kernel
  have hfresh : Key.double ⟨0x433ff973cafa8000#64⟩ ∉ (s.catalog.get "c").toList.map Prod.fst := by
    rw [(hrun.isKeyed.1 "c").mem_keys_iff, Catalog.documents_get, hdocuments]
    rintro ⟨stored, hstored, heq⟩
    obtain rfl := List.mem_singleton.1 hstored
    cases heq
  have hsome : double.key?.isSome = true := by rw [hkey]; rfl
  have hinteger : takes [("_id", double)] [("_id", integer)] = true := by
    rw [takes_id_eq hsome rfl rfl]
    decide +kernel
  have hdouble : takes [("_id", double)] [("_id", double)] = true := by
    rw [takes_id_eq hsome rfl hsome]
    decide +kernel
  obtain ⟨t, hrun', hinsert, hdocuments'⟩ :=
    hrun.exists_insertOne "c" [("_id", double)] rfl hkey hfresh
  rw [hdocuments] at hdocuments'
  refine ⟨s, t, hrun, hrun', ?_, hinsert, hdocuments', ?_⟩
  · rw [hdocuments]
    exact ⟨_, List.mem_singleton_self _, hinteger⟩
  · rw [hdocuments', List.singleton_append, List.countP_cons_of_pos hinteger,
      List.countP_cons_of_pos hdouble]
    rfl

end StoreRun

end DocMapper
