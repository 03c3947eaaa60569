import DocMapper.Proofs.Store.Histories
import DocMapper.Proofs.Store.Identity

set_option autoImplicit false

/-!
# Replacing one document

A replacement touches one document at most (`StoreRun.replaces`). Where documents match, the first
of them becomes the replacement under its own identifier and in its own place
(`Store.ReplacesFirst`). Where none does, an upsert puts one document at the end. That is the
replacement, and if it has no identifier it gets a scalar one from the filter or else a generated
one (`Store.Upserted`).
-/

namespace DocMapper

/-- A name that is new goes to the end. -/
theorem Fields.insert_eq_append {α : Type} {fields : Fields α} {key : String} (value : α)
    (h : get? fields key = none) : insert key value fields = fields ++ [(key, value)] := by
  induction fields with
  | nil => rfl
  | cons field rest ih =>
    obtain ⟨name, first⟩ := field
    rw [get?_cons] at h
    split at h
    · cases h
    · rename_i hname
      rw [insert, if_neg hname, ih h, List.cons_append]

/-- The first document for which a test holds divides the documents, and one that replaces it stands
between the same ones. -/
theorem Collection.exists_of_findFirst? {c : Collection} {test : Document → Bool}
    {i : Fin c.entries.size} (h : c.findFirst? test = some i) (doc : Document) :
    ∃ before after, c.documents = before ++ c.documentAt i :: after ∧
      (∀ other ∈ before, test other = false) ∧ test (c.documentAt i) = true ∧
      (c.replaceAt i doc).documents = before ++ doc :: after := by
  obtain ⟨htest, hfirst⟩ := Array.findFinIdx?_eq_some_iff.1 h
  obtain ⟨hlt, hget⟩ := List.getElem?_eq_some_iff.1 (c.getElem?_documents i)
  refine ⟨c.documents.take i, c.documents.drop (i + 1), ?_, ?_, htest, ?_⟩
  · rw [← hget, ← List.drop_eq_getElem_cons hlt, List.take_append_drop]
  · intro other hother
    obtain ⟨j, hj, rfl⟩ := List.mem_take_iff_getElem.1 hother
    have hji : j < i.val := by omega
    let k : Fin c.entries.size := ⟨j, Nat.lt_trans hji i.isLt⟩
    obtain ⟨_, hother⟩ := List.getElem?_eq_some_iff.1 (c.getElem?_documents k)
    rw [hother]
    exact Bool.not_eq_true _ ▸ hfirst k hji
  · rw [documents_replaceAt, List.set_eq_take_append_cons_drop, if_pos hlt]

namespace Store

/-! ## What is written -/

/-- Of the documents before and after a replacement only the first one that a test takes differs: it
has become the replacement under its own identifier. -/
inductive ReplacesFirst (test : Document → Bool) (replacement : Document) :
    List Document → List Document → Prop
  | intro {before after : List Document} {stored : Document} {id : Value}
      (hbefore : ∀ doc ∈ before, test doc = false) (hstored : test stored = true)
      (hid : stored.get? "_id" = some id) :
      ReplacesFirst test replacement (before ++ stored :: after)
        (before ++ Fields.insert "_id" id replacement :: after)

/-- The document that an upsert puts at the end, and its identifier. -/
inductive Upserted (filter replacement : Document) (generated : Value) : Document → Value → Prop
  /-- The replacement has an identifier. -/
  | own {id : Value} (hid : replacement.get? "_id" = some id) :
      Upserted filter replacement generated replacement id
  /-- The filter gives a scalar one. -/
  | given {id : Value} (hnone : replacement.get? "_id" = none)
      (hid : filter.get? "_id" = some id) (hscalar : id.key?.isSome = true) :
      Upserted filter replacement generated (replacement ++ [("_id", id)]) id
  /-- Neither does. -/
  | generated (hnone : replacement.get? "_id" = none)
      (hfilter : ∀ id, filter.get? "_id" = some id → id.key?.isSome = false) :
      Upserted filter replacement generated (replacement ++ [("_id", generated)]) generated

variable {filter replacement doc : Document} {f : Filter} {generated id : Value} {name : String}
variable {s t : Store} {docs docs' : List Document} {test : Document → Bool}

theorem ReplacesFirst.length_eq (h : ReplacesFirst test replacement docs docs') :
    docs'.length = docs.length := by
  cases h
  simp

/-- The identifier of the document that an upsert puts at the end. -/
theorem Upserted.get?_id (h : Upserted filter replacement generated doc id) :
    doc.get? "_id" = some id := by
  cases h with
  | own hid => exact hid
  | given hnone | generated hnone =>
    rw [← Fields.insert_eq_append _ hnone, Fields.get?_insert, if_pos rfl]

/-- An upsert takes the identifier of the filter only where its replacement has none. -/
theorem upsertDocument_cases (filter replacement : Document) :
    (∃ id, replacement.get? "_id" = some id ∧ upsertDocument filter replacement = replacement) ∨
      replacement.get? "_id" = none ∧
        ((∃ id, filter.get? "_id" = some id ∧ id.key?.isSome = true ∧
            upsertDocument filter replacement = Fields.insert "_id" id replacement) ∨
          (∀ id, filter.get? "_id" = some id → id.key?.isSome = false) ∧
            upsertDocument filter replacement = replacement) := by
  unfold upsertDocument Fields.contains
  cases hown : replacement.get? "_id" with
  | some id => exact Or.inl ⟨id, rfl, rfl⟩
  | none =>
    refine Or.inr ⟨rfl, ?_⟩
    cases hfilter : filter.get? "_id" with
    | none => exact Or.inr ⟨fun _ h => (nomatch h), rfl⟩
    | some id =>
      cases hscalar : id.key?.isSome with
      | true => exact Or.inl ⟨id, rfl, hscalar, by simp [hscalar]⟩
      | false =>
        refine Or.inr ⟨fun other hother => ?_, by simp [hscalar]⟩
        obtain rfl := Option.some.inj hother
        exact hscalar

/-- What an upsert inserts, once it is prepared. -/
theorem upserted_of_prepare {c : Collection} {supply : IdSupply} {p : Collection.Prepared}
    (hp : c.prepare name supply (upsertDocument filter replacement) = .ok p) :
    Upserted filter replacement (.objectId supply.objectId) p.doc p.id := by
  rcases upsertDocument_cases filter replacement with
    ⟨id, hown, heq⟩ | ⟨hnone, ⟨id, hgiven, hscalar, heq⟩ | ⟨hfilter, heq⟩⟩
  · -- the identifier of the replacement
    rw [heq, Collection.prepare_eq_ok_iff, hown] at hp
    rcases hp with ⟨_, _, hid, -, -, rfl⟩ | ⟨hid, -, -⟩
    · obtain rfl := Option.some.inj hid
      exact .own hown
    · cases hid
  · -- the one that the filter gives
    have hid : (Fields.insert "_id" id replacement).get? "_id" = some id := by
      rw [Fields.get?_insert, if_pos rfl]
    rw [heq, Collection.prepare_eq_ok_iff, hid] at hp
    rcases hp with ⟨_, _, hsame, -, -, rfl⟩ | ⟨hsame, -, -⟩
    · obtain rfl := Option.some.inj hsame
      dsimp only
      rw [Fields.insert_eq_append _ hnone]
      exact .given hnone hgiven hscalar
    · cases hsame
  · -- a generated one
    rw [heq, Collection.prepare_eq_ok_iff, hnone] at hp
    rcases hp with ⟨_, _, hid, -, -, -⟩ | ⟨-, -, rfl⟩
    · cases hid
    · dsimp only
      rw [Fields.insert_eq_append _ hnone]
      exact .generated hnone hfilter

/-! ## What a replacement does -/

/-- Where a document matches, a replacement succeeds and replaces the first one that does. -/
theorem exists_runOn_replaceOne_of_match (hs : (s.catalog.get name).WellKeyed)
    (hf : compileFilter filter = .ok f) (replacement : Document)
    (hmatch : ∃ doc ∈ s.catalog.documents name, f.holds doc = true) (upsert : Bool) :
    ∃ t, (replaceOne name filter replacement upsert).runOn s =
        (.ok { matchedCount := 1, modifiedCount := 1, acknowledged := s.acknowledged }, t) ∧
      ReplacesFirst f.holds replacement (s.catalog.documents name) (t.catalog.documents name) := by
  cases hi : (s.catalog.get name).findFirst? f.holds with
  | none =>
    obtain ⟨doc, hdoc, hholds⟩ := hmatch
    rw [← Catalog.documents_get] at hdoc
    rw [Collection.findFirst?_eq_none_iff.1 hi doc hdoc] at hholds
    cases hholds
  | some i =>
    refine ⟨_, runOn_replaceOne_of_some replacement upsert hf hi, ?_⟩
    obtain ⟨id, hid, -⟩ := hs.exists_get?_id (Collection.of_findFirst?_eq_some hi).2
    have hwritten : withStoredId (s.catalog.get name).entries[i].2 replacement =
        Fields.insert "_id" id replacement := by
      rw [withStoredId, hid]
    rw [Catalog.documents_insert, if_pos rfl, ← Catalog.documents_get, hwritten]
    obtain ⟨before, after, hdocs, hbefore, hstored, hdocs'⟩ :=
      Collection.exists_of_findFirst? hi (Fields.insert "_id" id replacement)
    rw [hdocs, hdocs']
    exact .intro hbefore hstored hid

/-- Where no document matches, an upsert that succeeds puts one document at the end. -/
theorem upserted_of_replaceOne {r : UpdateResult} (hf : compileFilter filter = .ok f)
    (hnone : ∀ doc ∈ s.catalog.documents name, f.holds doc = false)
    (h : (replaceOne name filter replacement true).runOn s = (.ok r, t)) :
    ∃ doc id, t.catalog.documents name = s.catalog.documents name ++ [doc] ∧
      Upserted filter replacement (.objectId s.supply.objectId) doc id ∧
      r = { matchedCount := 0, upsertedId := some id, acknowledged := s.acknowledged } := by
  have hi : (s.catalog.get name).findFirst? f.holds = none := by
    rwa [Collection.findFirst?_eq_none_iff, Catalog.documents_get]
  rw [runOn_replaceOne_of_none replacement hf hi, runOn_insertInto] at h
  dsimp only [record] at h
  cases hp : (s.catalog.get name).prepare name s.supply (upsertDocument filter replacement) with
  | error e =>
    rw [hp] at h
    cases h
  | ok p =>
    rw [hp] at h
    obtain ⟨hr, rfl⟩ := Prod.mk.inj h
    refine ⟨p.doc, p.id, ?_, upserted_of_prepare hp, (Except.ok.inj hr).symm⟩
    rw [Catalog.documents_insert, if_pos rfl, Collection.documents_push, Catalog.documents_get]

theorem documents_of_replaceOne_of_ne {upsert : Bool} {result : Except Error UpdateResult}
    (h : (replaceOne name filter replacement upsert).runOn s = (result, t)) {other : String}
    (hother : other ≠ name) : t.catalog.documents other = s.catalog.documents other := by
  have hwrites := (keeps_writes_replaceOne name filter replacement).of_runOn h
  exact (Catalog.Changes.of_writes hwrites.catalog).documents_of_ne hother

end Store

namespace StoreRun

variable {events : List TransactionEvent} {s : Store} {filter : Document} {f : Filter}

open Store

/-- In every store that a run leads to, a replacement touches one document at most. If documents of
the collection match, the first of them becomes the replacement, under its identifier and in its
place, and no other document changes. If none matches, a replacement that is no upsert changes no
document, and an upsert puts one document at the end and reports its identifier, or it fails and
changes none. -/
theorem replaces (hrun : StoreRun events s) (hf : compileFilter filter = .ok f) (name : String)
    (replacement : Document) :
    ((∃ doc ∈ s.catalog.documents name, f.holds doc = true) → ∀ upsert, ∃ t,
        (replaceOne name filter replacement upsert).runOn s =
          (.ok { matchedCount := 1, modifiedCount := 1, acknowledged := s.acknowledged }, t) ∧
        ReplacesFirst f.holds replacement (s.catalog.documents name) (t.catalog.documents name) ∧
        (t.catalog.documents name).length = (s.catalog.documents name).length ∧
        ∀ other, other ≠ name → t.catalog.documents other = s.catalog.documents other) ∧
      ((∀ doc ∈ s.catalog.documents name, f.holds doc = false) →
        (∃ t, (replaceOne name filter replacement false).runOn s =
            (.ok { matchedCount := 0, acknowledged := s.acknowledged }, t) ∧
          ∀ other, t.catalog.documents other = s.catalog.documents other) ∧
        (∀ r t, (replaceOne name filter replacement true).runOn s = (.ok r, t) → ∃ doc id,
          t.catalog.documents name = s.catalog.documents name ++ [doc] ∧
          Upserted filter replacement (.objectId s.supply.objectId) doc id ∧
          doc.get? "_id" = some id ∧
          r = { matchedCount := 0, upsertedId := some id, acknowledged := s.acknowledged } ∧
          ∀ other, other ≠ name → t.catalog.documents other = s.catalog.documents other) ∧
        ∀ e t, (replaceOne name filter replacement true).runOn s = (.error e, t) →
          ∀ other, t.catalog.documents other = s.catalog.documents other) := by
  refine ⟨fun hmatch upsert => ?_, fun hnone => ⟨?_, fun r t h => ?_, fun e t h other => ?_⟩⟩
  · obtain ⟨t, hcall, hreplaces⟩ := exists_runOn_replaceOne_of_match (hrun.isKeyed.1 name) hf
      replacement hmatch upsert
    exact ⟨t, hcall, hreplaces, hreplaces.length_eq, fun _ => documents_of_replaceOne_of_ne hcall⟩
  · have hi : (s.catalog.get name).findFirst? f.holds = none := by
      rwa [Collection.findFirst?_eq_none_iff, Catalog.documents_get]
    exact ⟨_, runOn_replaceOne_of_none_of_false replacement hf hi,
      s.catalog.documents_insert_get name⟩
  · obtain ⟨doc, id, hdocuments, hupserted, hr⟩ := upserted_of_replaceOne hf hnone h
    exact ⟨doc, id, hdocuments, hupserted, hupserted.get?_id, hr,
      fun _ => documents_of_replaceOne_of_ne h⟩
  · by_cases hother : other = name
    · subst hother
      exact documents_of_replaceOne_error h
    · exact documents_of_replaceOne_of_ne h hother

/-- Of two documents that match the first one gets the fields of the replacement and keeps its place
and its identifier, which comes last. -/
theorem replaces_first :
    let first : Document := [("_id", .int64 1), ("a", .null)]
    let second : Document := [("_id", .int64 2), ("a", .null)]
    ∃ s t r, StoreRun [] s ∧ s.catalog.documents "c" = [first, second] ∧
      takes [("a", .null)] first = true ∧ takes [("a", .null)] second = true ∧
      (replaceOne "c" [("a", .null)] [("b", .null)] true).runOn s = (.ok r, t) ∧
      t.catalog.documents "c" = [[("b", .null), ("_id", .int64 1)], second] := by
  intro first second
  obtain ⟨s, hrun, -, hdocs⟩ := exists_pair "c" first second rfl rfl rfl rfl (by decide)
  have hf : compileFilter [("a", .null)] = .ok (.all [.field ["a"] [.equal .null]]) := rfl
  have hfirst : (Filter.all [.field ["a"] [.equal .null]]).holds first = true := by decide
  obtain ⟨hmatched, -⟩ := hrun.replaces hf "c" [("b", .null)]
  have hmatch : ∃ doc ∈ s.catalog.documents "c",
      (Filter.all [.field ["a"] [.equal .null]]).holds doc = true := by
    rw [hdocs]
    exact ⟨_, List.mem_cons_self, hfirst⟩
  obtain ⟨t, hcall, hreplaces, -⟩ := hmatched hmatch true
  refine ⟨s, t, _, hrun, hdocs, by rw [takes, hf]; exact hfirst,
    by rw [takes, hf]; decide, hcall, ?_⟩
  generalize s.catalog.documents "c" = docs at hdocs hreplaces
  generalize t.catalog.documents "c" = docs' at hreplaces
  cases hreplaces with
  | @intro before after stored id hbefore _ hid =>
    -- the first document matches, so none is before the one that is replaced
    cases before with
    | nil =>
      obtain ⟨rfl, rfl⟩ := List.cons.inj hdocs
      obtain rfl := Option.some.inj hid
      rfl
    | cons other rest =>
      obtain ⟨rfl, -⟩ := List.cons.inj hdocs
      have hnot := hbefore _ List.mem_cons_self
      rw [hfirst] at hnot
      cases hnot

end StoreRun

end DocMapper
