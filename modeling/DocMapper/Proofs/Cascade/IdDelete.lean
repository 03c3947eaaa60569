import DocMapper.Proofs.Cascade.Effect
import DocMapper.Sample.Shop

set_option autoImplicit false

/-!
# Deleting entities by their identifiers

In a store whose names with a leading `~` are those of join collections, `deleteIds_effect` gives
the exact outcome of a deletion that succeeds, collection by collection: what the entities'
collection loses, what each of its join collections loses, what the chunks lose, and that everything
else is as it was.

`Sample.linked` is a small store of the sample shop on which deletions are tried out. An item and a
counter of it have the same number.
-/

namespace DocMapper

open Store

/-- Every name with a leading `~` is the text of a join name of legal parts. -/
def Catalog.HasLegalJoins (c : Catalog) : Prop :=
  ∀ name ∈ c.names, name.toList.head? = some '~' → ∃ n : JoinName, n.IsLegal ∧ n.text = name

namespace Cascade

variable {c : Cascade} {info : EntityInfo} {ids : List Value} {s t : Store} {r : DeleteResult}

/-- Among names that are legal if they begin with `~`, those are joined that are made of legal parts
with the collection in them. -/
theorem joins_iff_of_hasLegalJoins {collection name : String} (hlegal : s.catalog.HasLegalJoins)
    (hname : name ∈ s.catalog.names) :
    JoinName.joins collection name = true ↔
      ∃ n : JoinName, n.IsLegal ∧ n.text = name ∧
        (n.parent = collection ∨ n.child = collection) := by
  constructor
  · intro hjoins
    have hread : JoinName.ofText? name ≠ none := by
      intro hnone
      rw [JoinName.joins, hnone] at hjoins
      cases hjoins
    obtain ⟨m, hm⟩ := Option.ne_none_iff_exists'.1 hread
    have hhead : name.toList.head? = some '~' := by
      rw [← (JoinName.ofText?_eq_some_iff.1 hm).1, JoinName.toList_text]
      rfl
    obtain ⟨n, hn, rfl⟩ := hlegal name hname hhead
    exact ⟨n, hn, rfl, (JoinName.joins_text_iff hn).1 hjoins⟩
  · rintro ⟨n, hn, rfl, hside⟩
    exact (JoinName.joins_text_iff hn).2 hside

theorem holdsChunks_eq_false {name : String}
    (h : info.isFile = true → name ≠ c.chunkCollection) :
    (info.isFile && decide (name = c.chunkCollection)) = false := by
  cases hfile : info.isFile with
  | false => rfl
  | true => rw [Bool.true_and, decide_eq_false (h hfile)]

/-- The outcome of deleting entities by their identifiers: the entities with one of them are gone,
the rows of the entities' join collections that have one of them on some side, and, of files, the
chunks. All else is as it was, and no collection appears or disappears. -/
theorem deleteIds_effect (hE : isCollectionName info.collection = true)
    (hlegal : s.catalog.HasLegalJoins)
    (hchunks : info.isFile = true → c.chunkCollection ≠ info.collection ∧
      ∀ n : JoinName, n.IsLegal → n.text ≠ c.chunkCollection)
    (h : (c.deleteIds info ids).runOn s = (.ok r, t)) :
    t.catalog.names = s.catalog.names ∧
      s.catalog.Loses t.catalog info.collection (fun doc => doc.refersTo "_id" ids) ∧
      (∀ n : JoinName, n.IsLegal → n.parent = info.collection ∨ n.child = info.collection →
        s.catalog.Loses t.catalog n.text fun row =>
          row.refersTo parentField ids || row.refersTo childField ids) ∧
      (info.isFile = true →
        s.catalog.Loses t.catalog c.chunkCollection fun chunk => chunk.refersTo fileField ids) ∧
      ∀ name, name ≠ info.collection →
        (∀ n : JoinName, n.IsLegal → n.parent = info.collection ∨ n.child = info.collection →
          n.text ≠ name) →
        (info.isFile = true → name ≠ c.chunkCollection) →
        t.catalog.content? name = s.catalog.content? name := by
  have hremoved := (removes_of_deleteIds hE h).catalog
  refine ⟨hremoved.names_eq, ?entities, ?rows, ?chunks, ?others⟩
  -- the four kinds of collections do not overlap: no name is of two of them
  case entities =>
    refine (hremoved info.collection).congr fun doc _ => ?_
    have hfile := holdsChunks_eq_false fun hfile => (hchunks hfile).1.symm
    simp [reaches, hfile, JoinName.joins_of_isCollectionName hE]
  case rows =>
    intro n hn hside
    refine (hremoved n.text).congr fun row _ => ?_
    have hfile := holdsChunks_eq_false fun hfile => (hchunks hfile).2 n hn
    simp [reaches, hfile, JoinName.text_ne_of_isCollectionName hE,
      (JoinName.joins_text_iff hn).2 hside, Document.links]
  case chunks =>
    intro hfile
    obtain ⟨hentities, hjoins⟩ := hchunks hfile
    refine (hremoved c.chunkCollection).congr fun chunk hchunk => ?_
    have hnot : JoinName.joins info.collection c.chunkCollection = false := by
      have hname := Catalog.mem_names_of_mem_documents hchunk
      rw [← Bool.not_eq_true, joins_iff_of_hasLegalJoins hlegal hname]
      rintro ⟨n, hn, htext, -⟩
      exact hjoins n hn htext
    simp [reaches, hfile, hentities, hnot]
  case others =>
    intro name hentities hrows hfile
    by_cases hname : name ∈ s.catalog.names
    · refine hremoved.content?_eq fun doc => ?_
      have hnot : JoinName.joins info.collection name = false := by
        rw [← Bool.not_eq_true, joins_iff_of_hasLegalJoins hlegal hname]
        rintro ⟨n, hn, htext, hside⟩
        exact hrows n hn hside htext
      have hchunk := holdsChunks_eq_false hfile
      simp [reaches, hentities, hnot, hchunk]
    · -- under a name that is not there nothing is held before or after
      rw [Catalog.mem_names_iff, Bool.not_eq_true, Option.isSome_eq_false_iff,
        Option.isNone_iff_eq_none] at hname
      rw [hremoved name, hname]
      rfl

end Cascade

/-! ## A small store -/

namespace Sample

/-- The links of items with counters. -/
def itemCounters : JoinName := ⟨"shop.items", "Counter", "Counters"⟩

theorem isLegal_itemCounters : itemCounters.IsLegal :=
  ⟨by decide, by decide, by decide +kernel⟩

theorem isCollectionName_chunks : isCollectionName "[BINARY_CHUNKS]" = true := by decide

/-- What is known about items, without their relationships. -/
def itemInfo : EntityInfo := ⟨"shop.items", true, []⟩

/-- What is known about counters. -/
def counterInfo : EntityInfo := ⟨"Counter", false, []⟩

/-- A row that links an item with a counter. -/
def itemRow : Document := JoinRow.toDocument ⟨⟨1⟩, .int64 5, .int64 7⟩

/-- An item and a counter with the same number, another counter that is linked to the item, and a
chunk of the item and one of another file. -/
def linked : Store :=
  { Store.empty ⟨10⟩ with
    catalog := (((Catalog.empty.insert "shop.items"
        (Collection.empty.push (.integer 5) [("_id", .int64 5)])).insert "Counter"
        ((Collection.empty.push (.integer 5) [("_id", .int64 5)]).push (.integer 7)
          [("_id", .int64 7)])).insert itemCounters.text
        (Collection.empty.push (.objectId ⟨1⟩) itemRow)).insert "[BINARY_CHUNKS]"
        ((Collection.empty.push (.objectId ⟨2⟩)
          [("_id", .objectId ⟨2⟩), (fileField, .int64 5)]).push (.objectId ⟨3⟩)
          [("_id", .objectId ⟨3⟩), (fileField, .int64 6)]) }

/-- How the entities of the shop are deleted. -/
def shopCascade : Cascade := ⟨none, "[BINARY_CHUNKS]", none⟩

/-- The names with a leading `~` are legal in the small store. -/
theorem hasLegalJoins_linked : linked.catalog.HasLegalJoins := by
  have hnames : linked.catalog.names =
      ["Counter", "[BINARY_CHUNKS]", "shop.items", itemCounters.text] := by decide +kernel
  intro name hname hhead
  simp only [hnames, List.mem_cons, List.not_mem_nil, or_false] at hname
  rcases hname with rfl | rfl | rfl | rfl
  · exact absurd hhead (by decide)
  · exact absurd hhead (by decide)
  · exact absurd hhead (by decide)
  · exact ⟨itemCounters, isLegal_itemCounters, rfl⟩

theorem refersTo_parent_itemRow (values : List Value) :
    itemRow.refersTo parentField values = values.any fun w => w.key? = some (.integer 5) := by
  rw [Document.refersTo_of_get? (v := .int64 5) rfl rfl]
  rfl

theorem refersTo_child_itemRow (values : List Value) :
    itemRow.refersTo childField values = values.any fun w => w.key? = some (.integer 7) := by
  rw [Document.refersTo_of_get? (v := .int64 7) rfl rfl]
  rfl

end Sample

open Sample in
/-- Deleting the item of the small store takes its link and its chunk along and leaves the counters
and the other chunk. -/
theorem Cascade.deleteIds_effect_item :
    ∃ r t, (shopCascade.deleteIds itemInfo [.int64 5]).runOn linked = (.ok r, t) ∧
      t.catalog.names = linked.catalog.names ∧
      t.catalog.documents "shop.items" = [] ∧
      t.catalog.documents itemCounters.text = [] ∧
      t.catalog.documents "[BINARY_CHUNKS]" = [[("_id", .objectId ⟨3⟩), (fileField, .int64 6)]] ∧
      t.catalog.content? "Counter" = linked.catalog.content? "Counter" := by
  have hE : isCollectionName itemInfo.collection = true := by decide
  obtain ⟨r, t, h⟩ := exists_runOn_deleteIds shopCascade linked hE
    (Regex.isSome_ofText?_joinPattern (by decide)) rfl rfl [.int64 5]
  obtain ⟨hnames, hentities, hrows, hchunks, hothers⟩ := deleteIds_effect hE hasLegalJoins_linked
    (fun _ => ⟨by decide, fun _ _ => JoinName.text_ne_of_isCollectionName isCollectionName_chunks⟩)
    h
  have hitems : linked.catalog.Loses t.catalog "shop.items" fun doc =>
      doc.refersTo "_id" [.int64 5] := hentities
  have hlinks := hrows itemCounters isLegal_itemCounters (Or.inl rfl)
  have hchunks : linked.catalog.Loses t.catalog "[BINARY_CHUNKS]" fun chunk =>
      chunk.refersTo fileField [.int64 5] := hchunks rfl
  refine ⟨r, t, h, hnames, ?_, ?_, ?_, ?_⟩
  · rw [hitems.documents, show linked.catalog.documents "shop.items" = [[("_id", .int64 5)]] from
      rfl]
    have hitem : Document.refersTo [("_id", .int64 5)] "_id" [.int64 5] = true := by
      rw [Document.refersTo_of_get? rfl rfl]
      decide
    simp [hitem]
  · rw [hlinks.documents, show linked.catalog.documents itemCounters.text = [itemRow] from rfl]
    simp [refersTo_parent_itemRow, Value.key?]
  · rw [hchunks.documents, show linked.catalog.documents "[BINARY_CHUNKS]" =
      [[("_id", .objectId ⟨2⟩), (fileField, .int64 5)],
        [("_id", .objectId ⟨3⟩), (fileField, .int64 6)]] from rfl]
    have hfirst : Document.refersTo [("_id", .objectId ⟨2⟩), (fileField, .int64 5)] fileField
        [.int64 5] = true := by
      rw [Document.refersTo_of_get? rfl rfl]
      decide
    have hsecond : Document.refersTo [("_id", .objectId ⟨3⟩), (fileField, .int64 6)] fileField
        [.int64 5] = false := by
      rw [Document.refersTo_of_get? rfl rfl]
      decide
    simp only [List.filter_cons, hfirst, hsecond]
    rfl
  · refine hothers "Counter" (by decide) (fun n _ _ => ?_) (fun _ => by decide)
    exact JoinName.text_ne_of_isCollectionName (by decide)

end DocMapper
