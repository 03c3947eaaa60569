import DocMapper.Proofs.Store.Deletion
import DocMapper.Proofs.Store.Writing
import Mathlib.Data.List.Forall2

set_option autoImplicit false

/-!
# The rows of a join collection

The identifiers of entities are object identifiers, texts and integers (`LinkId`), on which the
equality of filters and that of keys are the same as equality. A document is a row of a link if it
holds the two ends of it under an object identifier (`IsRow`), and a collection holds links if its
documents are their rows, one by one and in order (`Holds`).

Each operation of a join collection that succeeds changes the links by a function on lists:
`linkAlone` where a child has one parent, `linkOnce` where a pair has one row, and a filter for the
removals.
-/

namespace DocMapper

/-- The value of an identifier of an entity. -/
inductive LinkId where
  | objectId (id : ObjectId)
  | string (s : String)
  | int64 (n : Int64)
deriving DecidableEq

/-- A parent and a child. -/
abbrev Link := LinkId × LinkId

namespace LinkId

/-- The identifier as the value of a field. -/
def toValue : LinkId → Value
  | objectId id => .objectId id
  | string s => .string s
  | int64 n => .int64 n

@[simp] theorem isSome_key?_toValue (a : LinkId) : a.toValue.key?.isSome = true := by
  cases a <;> rfl

theorem key?_toValue_inj {a b : LinkId} : a.toValue.key? = b.toValue.key? ↔ a = b := by
  cases a <;> cases b <;> simp [toValue, Value.key?, Int64.toInt_inj]

theorem toValue_inj {a b : LinkId} : a.toValue = b.toValue ↔ a = b := by
  constructor
  · intro h
    exact key?_toValue_inj.1 (congrArg Value.key? h)
  · intro h
    rw [h]

theorem equal_toValue (a b : LinkId) : a.toValue.equal b.toValue = decide (a = b) := by
  rw [Bool.eq_iff_iff, decide_eq_true_eq]
  cases a <;> cases b <;>
    simp [toValue, Value.equal, Value.number?, Value.identical, Number.order, Int64.toInt_inj]

end LinkId

/-! ## The two ends of a row -/

/-- Whether a document holds two values in the fields of a parent and a child. -/
def Document.HasEnds (doc : Document) (parent child : Value) : Prop :=
  doc.get? parentField = some parent ∧ doc.get? childField = some child

namespace Document.HasEnds

variable {doc other : Document} {parent child : Value}

theorem of_agrees (h : other.HasEnds parent child) (hdoc : doc.Agrees other) :
    doc.HasEnds parent child :=
  ⟨(hdoc parentField (by decide)).trans h.1, (hdoc childField (by decide)).trans h.2⟩

theorem toDocument (id : ObjectId) (hparent : parent.key?.isSome = true)
    (hchild : child.key?.isSome = true) :
    (JoinRow.toDocument ⟨id, parent, child⟩).HasEnds parent child := by
  simp [HasEnds, JoinRow.toDocument, Fields.get?_cons, parentField, childField,
    Value.settled_of_isSome_key? hparent, Value.settled_of_isSome_key? hchild]

theorem pair (parent child : Value) : (JoinCollection.pair parent child).HasEnds parent child := by
  simp [HasEnds, JoinCollection.pair, Fields.get?_cons, parentField, childField]

end Document.HasEnds

/-! ## Rows -/

/-- Whether a document is a row of a link. -/
structure IsRow (link : Link) (doc : Document) : Prop where
  id : ∃ id : ObjectId, doc.get? "_id" = some (.objectId id)
  parent : doc.get? parentField = some link.1.toValue
  child : doc.get? childField = some link.2.toValue

namespace IsRow

variable {link : Link} {doc : Document}

theorem holdsAt_parent (h : IsRow link doc) (p : LinkId) :
    doc.holdsAt parentField p.toValue = decide (link.1 = p) := by
  rw [Document.holdsAt_of_get? h.parent (LinkId.isSome_key?_toValue _), LinkId.equal_toValue]

theorem holdsAt_child (h : IsRow link doc) (c : LinkId) :
    doc.holdsAt childField c.toValue = decide (link.2 = c) := by
  rw [Document.holdsAt_of_get? h.child (LinkId.isSome_key?_toValue _), LinkId.equal_toValue]

theorem refersTo_child (h : IsRow link doc) (children : List LinkId) :
    doc.refersTo childField (children.map LinkId.toValue) = decide (link.2 ∈ children) := by
  rw [Document.refersTo_of_get? h.child (LinkId.isSome_key?_toValue _), Bool.eq_iff_iff]
  simp [LinkId.key?_toValue_inj]

theorem ofDocument? (h : IsRow link doc) :
    ∃ id, JoinRow.ofDocument? doc = some ⟨id, link.1.toValue, link.2.toValue⟩ := by
  obtain ⟨id, hid⟩ := h.id
  refine ⟨id, ?_⟩
  -- a key is read back as it is, even where values may be tagged
  have hread : ∀ a : LinkId, a.toValue.ofTagged? = some a.toValue :=
    fun a => Value.ofTagged?_of_isSome_key? (LinkId.isSome_key?_toValue a)
  simp [JoinRow.ofDocument?, Document.required, hid, h.parent, h.child, hread, Value.asObjectId?]

/-- A document with the ends of a link is a row of it once it has an object identifier. -/
theorem of_hasEnds {id : ObjectId} {parent child : LinkId}
    (hid : doc.get? "_id" = some (.objectId id)) (h : doc.HasEnds parent.toValue child.toValue) :
    IsRow (parent, child) doc where
  id := ⟨id, hid⟩
  parent := h.1
  child := h.2

end IsRow

/-- The documents under a name are the rows of some links, one by one. -/
def Holds (c : Catalog) (name : String) (links : List Link) : Prop :=
  List.Forall₂ IsRow links (c.documents name)

namespace Holds

variable {c d : Catalog} {name : String} {links : List Link} {link : Link} {doc : Document}

theorem filter (h : Holds c name links) {p : Link → Bool} {q : Document → Bool}
    (hpq : ∀ link doc, IsRow link doc → p link = q doc) :
    List.Forall₂ IsRow (links.filter p) ((c.documents name).filter q) := by
  refine List.rel_filter (R := IsRow) (fun link doc hrow => ?_) h
  simp only [hpq link doc hrow]

theorem loses (h : Holds c name links) {test : Document → Bool} (hloses : c.Loses d name test)
    {p : Link → Bool} (hp : ∀ link doc, IsRow link doc → test doc = p link) :
    Holds d name (links.filter fun link => !p link) := by
  unfold Holds
  rw [hloses.documents]
  refine h.filter fun link doc hrow => ?_
  rw [hp link doc hrow]

/-- Whatever rows are removed, those that are left are the rows of some of the links, in order. -/
theorem exists_sublist (h : Holds c name links) {test : Document → Bool}
    (hloses : c.Loses d name test) : ∃ kept, kept.Sublist links ∧ Holds d name kept := by
  unfold Holds at h ⊢
  rw [hloses.documents]
  generalize c.documents name = docs at h
  induction h with
  | nil => exact ⟨[], .refl _, .nil⟩
  | @cons link doc links docs hrow _ ih =>
    obtain ⟨kept, hkept, hrows⟩ := ih
    rw [List.filter_cons]
    split
    · exact ⟨link :: kept, hkept.cons_cons link, .cons hrow hrows⟩
    · exact ⟨kept, hkept.cons link, hrows⟩

theorem append (h : Holds c name links) (hrow : IsRow link doc)
    (hdocuments : d.documents name = c.documents name ++ [doc]) :
    Holds d name (links ++ [link]) := by
  unfold Holds
  rw [hdocuments]
  exact List.rel_append h (.cons hrow .nil)

/-- A row in the place of another row of its link. -/
theorem set (h : Holds c name links) {i : Nat} (hi : links[i]? = some link) (hrow : IsRow link doc)
    (hdocuments : d.documents name = (c.documents name).set i doc) : Holds d name links := by
  unfold Holds
  rw [hdocuments, List.forall₂_iff_get]
  obtain ⟨hlength, hget⟩ := List.forall₂_iff_get.1 h
  refine ⟨by rw [List.length_set, hlength], fun n hn hn' => ?_⟩
  simp only [List.get_eq_getElem, List.getElem_set]
  split
  · rename_i heq
    subst heq
    rw [List.getElem?_eq_getElem hn] at hi
    rw [Option.some.inj hi]
    exact hrow
  · exact hget n hn (by rwa [List.length_set] at hn')

/-- The document at a position is the row of the link at that position. -/
theorem exists_link_at (h : Holds c name links) (i : Fin (c.get name).entries.size) :
    ∃ link, links[i.val]? = some link ∧ IsRow link ((c.get name).documentAt i) := by
  unfold Holds at h
  rw [← Catalog.documents_get] at h
  have hlt : i.val < (c.get name).documents.length := by
    rw [Collection.documents, List.length_map]
    exact i.isLt
  have hlinks : i.val < links.length := by rwa [h.length_eq]
  refine ⟨links[i.val], List.getElem?_eq_getElem hlinks, ?_⟩
  have hrow := h.get hlinks hlt
  simpa [Collection.documents, Collection.toList, Collection.documentAt] using hrow

theorem congr (h : Holds c name links) (hdocuments : d.documents name = c.documents name) :
    Holds d name links := by
  unfold Holds
  rw [hdocuments]
  exact h

/-- Each link has a row. -/
theorem exists_row (h : Holds c name links) (hlink : link ∈ links) :
    ∃ doc ∈ c.documents name, IsRow link doc := by
  unfold Holds at h
  generalize c.documents name = docs at h ⊢
  induction h with
  | nil => cases hlink
  | @cons other row links rows hrow _ ih =>
    rcases List.mem_cons.1 hlink with rfl | hrest
    · exact ⟨row, List.mem_cons_self, hrow⟩
    · obtain ⟨doc, hdoc, hrow'⟩ := ih hrest
      exact ⟨doc, List.mem_cons_of_mem _ hdoc, hrow'⟩

/-- Each document is the row of a link. -/
theorem exists_link (h : Holds c name links) (hdoc : doc ∈ c.documents name) :
    ∃ link ∈ links, IsRow link doc := by
  unfold Holds at h
  generalize c.documents name = docs at h hdoc
  induction h with
  | nil => cases hdoc
  | @cons link row links rows hrow _ ih =>
    rcases List.mem_cons.1 hdoc with rfl | hrest
    · exact ⟨link, List.mem_cons_self, hrow⟩
    · obtain ⟨other, hother, hrow'⟩ := ih hrest
      exact ⟨other, List.mem_cons_of_mem _ hother, hrow'⟩

/-- A link is held if a document has its two ends. -/
theorem mem_iff (h : Holds c name links) (link : Link) :
    link ∈ links ↔ ∃ doc ∈ c.documents name, doc.HasEnds link.1.toValue link.2.toValue := by
  constructor
  · intro hlink
    obtain ⟨doc, hdoc, hrow⟩ := h.exists_row hlink
    exact ⟨doc, hdoc, hrow.parent, hrow.child⟩
  · rintro ⟨doc, hdoc, hparent, hchild⟩
    obtain ⟨other, hother, hrow⟩ := h.exists_link hdoc
    -- a document holds one value in each of its fields
    rw [hrow.parent] at hparent
    rw [hrow.child] at hchild
    have hsame : other = link :=
      Prod.ext (LinkId.toValue_inj.1 (Option.some.inj hparent))
        (LinkId.toValue_inj.1 (Option.some.inj hchild))
    rwa [← hsame]

end Holds

end DocMapper
