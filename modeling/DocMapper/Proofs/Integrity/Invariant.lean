import DocMapper.Proofs.Cascade.Effect
import DocMapper.Proofs.Store.Snapshots

set_option autoImplicit false

/-!
# The invariant of linked entities

A catalog is intact if every row under the name of a join collection links two entities that are
stored: its parent in the parent's collection and its child in the child's collection
(`Catalog.Intact`). That documents are under the keys of their identifiers is part of it, since an
identifier that is a key is written into a row as it is.

A collection of entities may grow (`Intact.grows`), rows may be removed and rows of stored entities
added (`Intact.relinks`), and entities may be removed with everything that their identifiers reach
(`Intact.without`): an entity that is gone has taken along each row that links it. A store is intact
if its catalog is and the catalogs are that its sessions keep for an abort.
-/

namespace DocMapper

namespace Catalog

variable {entities : String → Prop} {c d : Catalog} {name field : String} {n : JoinName}
variable {row : Document}

/-- Whether a field of a row holds the identifier of a document that is stored under a name. -/
def HasEnd (c : Catalog) (name field : String) (row : Document) : Prop :=
  ∃ id, row.get? field = some id ∧ c.Stores name id

/-- Whether a row under a join name links two entities that are stored. -/
structure IsLink (entities : String → Prop) (c : Catalog) (n : JoinName) (row : Document) :
    Prop where
  legal : n.IsLegal
  entities_parent : entities n.parent
  entities_child : entities n.child
  parent : c.HasEnd n.parent parentField row
  child : c.HasEnd n.child childField row

/-- A catalog in which every row links entities that are stored. -/
structure Intact (entities : String → Prop) (c : Catalog) : Prop where
  /-- Each document is under the key of its identifier. -/
  wellKeyed : ∀ name, (c.get name).WellKeyed
  /-- What is read as the name of a join collection holds links. -/
  links : ∀ name n, JoinName.ofText? name = some n → ∀ row ∈ c.documents name,
    c.IsLink entities n row

/-- Whether a row links a document that is stored under a name. -/
def IsLinked (c : Catalog) (name : String) (doc : Document) : Prop :=
  ∃ join n, JoinName.ofText? join = some n ∧ ∃ row ∈ c.documents join,
    n.parent = name ∧ row.get? parentField = doc.get? "_id" ∨
      n.child = name ∧ row.get? childField = doc.get? "_id"

/-- Whether a deletion of some files takes no linked document for a chunk: where the chunks are
kept, no document that a row links refers to one of the files. -/
def SparesLinked (c : Catalog) (chunkCollection : String) (files : List Value) : Prop :=
  ∀ doc ∈ c.documents chunkCollection, c.IsLinked chunkCollection doc →
    doc.refersTo fileField files = false

theorem HasEnd.mono (h : c.HasEnd name field row)
    (hstores : ∀ id, c.Stores name id → d.Stores name id) : d.HasEnd name field row := by
  obtain ⟨id, hfield, hid⟩ := h
  exact ⟨id, hfield, hstores id hid⟩

/-- A row is a link as long as the entities at its ends are stored. -/
theorem IsLink.mono (h : c.IsLink entities n row)
    (hparent : ∀ id, c.Stores n.parent id → d.Stores n.parent id)
    (hchild : ∀ id, c.Stores n.child id → d.Stores n.child id) : d.IsLink entities n row where
  legal := h.legal
  entities_parent := h.entities_parent
  entities_child := h.entities_child
  parent := h.parent.mono hparent
  child := h.child.mono hchild

namespace Intact

theorem empty (entities : String → Prop) : Catalog.empty.Intact entities where
  wellKeyed _ := .empty
  links _ _ _ _ h := absurd h List.not_mem_nil

theorem isSome_key? (hc : c.Intact entities) {id : Value} (hid : c.Stores name id) :
    id.key?.isSome = true := by
  obtain ⟨doc, hdoc, hid⟩ := hid
  rw [← documents_get] at hdoc
  obtain ⟨entry, hentry, rfl⟩ := List.mem_map.1 hdoc
  obtain ⟨id', hid', hkey⟩ := (hc.wellKeyed name).exists_id entry hentry
  rw [hid] at hid'
  obtain rfl := Option.some.inj hid'
  rw [hkey]
  rfl

/-- A collection of entities may grow. -/
theorem grows (hc : c.Intact entities) (hname : isCollectionName name = true)
    (h : Grows name c d) : d.Intact entities where
  wellKeyed := h.toChanges.wellKeyed_all hc.wellKeyed
  links := by
    intro join n hread row hrow
    have hne : join ≠ name := by
      rintro rfl
      rw [JoinName.ofText?_of_isCollectionName hname] at hread
      cases hread
    rw [h.toChanges.documents_of_ne hne] at hrow
    -- under its own name no identifier is lost, and other names are not changed
    have hstores : ∀ other id, c.Stores other id → d.Stores other id := by
      intro other id hid
      by_cases hother : other = name
      · rw [hother] at hid ⊢
        exact h.stores id hid
      · exact h.toChanges.stores_of_ne hother hid
    exact (hc.links join n hread row hrow).mono (hstores n.parent) (hstores n.child)

/-- Rows of stored entities may be new in a join collection, and rows may be removed from it. -/
theorem relinks (hc : c.Intact entities) {allowed : Document → Prop}
    (hallowed : ∀ row, allowed row → c.IsLink entities n row)
    (hn : n.IsLegal) (h : Relinks n.text allowed c d) : d.Intact entities where
  wellKeyed := h.toChanges.wellKeyed_all hc.wellKeyed
  links := by
    intro join m hread row hrow
    -- the ends are in collections of entities, which are not changed
    have hlink : c.IsLink entities m row := by
      by_cases hjoin : join = n.text
      · rw [hjoin] at hread hrow
        rcases h.mem row hrow with hold | hnew
        · exact hc.links n.text m hread row hold
        · rw [hn.isReadable.ofText?_text] at hread
          obtain rfl := Option.some.inj hread
          exact hallowed row hnew
      · rw [h.toChanges.documents_of_ne hjoin] at hrow
        exact hc.links join m hread row hrow
    have hstores : ∀ other, isCollectionName other = true →
        ∀ id, c.Stores other id → d.Stores other id := by
      intro other hother id hid
      exact h.toChanges.stores_of_ne (JoinName.text_ne_of_isCollectionName hother).symm hid
    exact hlink.mono (hstores _ hlink.legal.parent) (hstores _ hlink.legal.child)

section Removal

variable {k : Cascade} {info : EntityInfo} {ids : List Value}

/-- An end of a row is stored after a deletion if its identifier is not deleted and its document is
not taken for a chunk. -/
theorem hasEnd_of_without (hname : isCollectionName name = true)
    (hchunks : info.isFile = true → name = k.chunkCollection → ∀ doc ∈ c.documents name,
      row.get? field = doc.get? "_id" → doc.refersTo fileField ids = false)
    (h : c.Without (k.reaches info ids) d) (hrow : c.HasEnd name field row)
    (hkept : name = info.collection → row.refersTo field ids = false) :
    d.HasEnd name field row := by
  obtain ⟨id, hfield, doc, hdoc, hid⟩ := hrow
  refine ⟨id, hfield, doc, (h name).mem_documents_iff.2 ⟨hdoc, ?_⟩, hid⟩
  have hentity : (decide (name = info.collection) && doc.refersTo "_id" ids) = false := by
    by_cases hcollection : name = info.collection
    · -- the document refers to what its identifier does, and so does the row
      rw [Document.refersTo_congr (hid.trans hfield.symm), hkept hcollection, Bool.and_false]
    · rw [decide_eq_false hcollection, Bool.false_and]
  have hchunk : (info.isFile && decide (name = k.chunkCollection) &&
      doc.refersTo fileField ids) = false := by
    rw [← Bool.not_eq_true, Bool.and_eq_true, Bool.and_eq_true]
    rintro ⟨⟨hfile, hplace⟩, hrefers⟩
    rw [hchunks hfile (of_decide_eq_true hplace) doc hdoc (hfield.trans hid.symm)] at hrefers
    cases hrefers
  rw [Cascade.reaches, hentity, JoinName.joins_of_isCollectionName hname, hchunk]
  rfl

/-- Entities may be removed together with all that their identifiers reach, if no linked entity is
taken for a chunk. -/
theorem without (hc : c.Intact entities)
    (hchunks : info.isFile = true → c.SparesLinked k.chunkCollection ids)
    (h : c.Without (k.reaches info ids) d) : d.Intact entities where
  wellKeyed name := (h name).wellKeyed (hc.wellKeyed name)
  links := by
    intro join n hread row hrow
    obtain ⟨hold, hkept⟩ := (h join).mem_documents_iff.1 hrow
    have hlink := hc.links join n hread row hold
    obtain ⟨rfl, -⟩ := JoinName.ofText?_eq_some_iff.1 hread
    -- a row that is left of a collection's join collections links none of the identifiers
    have hunlinked : n.parent = info.collection ∨ n.child = info.collection →
        row.refersTo parentField ids = false ∧ row.refersTo childField ids = false := by
      intro hside
      rw [Cascade.reaches, (JoinName.joins_text_iff hlink.legal).2 hside] at hkept
      simp only [Bool.true_and, Bool.or_eq_false_iff, Document.links] at hkept
      exact hkept.1.2
    exact {
      legal := hlink.legal
      entities_parent := hlink.entities_parent
      entities_child := hlink.entities_child
      parent := hasEnd_of_without hlink.legal.parent
        (fun hfile hplace doc hdoc hend => hchunks hfile doc (hplace ▸ hdoc)
          ⟨_, n, hread, row, hold, Or.inl ⟨hplace, hend⟩⟩)
        h hlink.parent fun hside => (hunlinked (Or.inl hside)).1
      child := hasEnd_of_without hlink.legal.child
        (fun hfile hplace doc hdoc hend => hchunks hfile doc (hplace ▸ hdoc)
          ⟨_, n, hread, row, hold, Or.inr ⟨hplace, hend⟩⟩)
        h hlink.child fun hside => (hunlinked (Or.inr hside)).2 }

/-- Where chunks are not kept among entities, no linked entity is taken for one. -/
theorem sparesLinked (hc : c.Intact entities) {chunkCollection : String}
    (hchunks : ¬ entities chunkCollection) (files : List Value) :
    c.SparesLinked chunkCollection files := by
  rintro doc - ⟨join, n, hread, row, hrow, hend⟩
  have hlink := hc.links join n hread row hrow
  rcases hend with ⟨rfl, -⟩ | ⟨rfl, -⟩
  · exact absurd hlink.entities_parent hchunks
  · exact absurd hlink.entities_child hchunks

end Removal

end Intact

end Catalog

/-! ## Stores and their sessions -/

/-- A store whose catalog is intact, and so is each catalog that an abort would bring back. -/
structure Store.Intact (entities : String → Prop) (s : Store) : Prop where
  catalog : s.catalog.Intact entities
  snapshots : ∀ state ∈ s.sessions, ∀ c, state.snapshot = some c → c.Intact entities

namespace Store.Intact

variable {entities : String → Prop} {s t : Store} {R : Catalog → Catalog → Prop}

theorem iff_everywhere : s.Intact entities ↔ s.Everywhere (Catalog.Intact entities) :=
  ⟨fun h => ⟨h.catalog, h.snapshots⟩, fun h => ⟨h.catalog, h.snapshots⟩⟩

theorem empty (entities : String → Prop) (supply : IdSupply) :
    (Store.empty supply).Intact entities :=
  iff_everywhere.2 (.empty (.empty entities) supply)

theorem evolves (hs : s.Intact entities) (h : Evolves R s t)
    (hcatalog : R s.catalog t.catalog → t.catalog.Intact entities) : t.Intact entities :=
  iff_everywhere.2 ((iff_everywhere.1 hs).of_sessions_eq h.sessions (hcatalog h.catalog))

end Store.Intact

end DocMapper
