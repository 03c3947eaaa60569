import DocMapper.Proofs.Store.Evolution
import DocMapper.Proofs.Store.Reading
import Mathlib.Logic.Relation

set_option autoImplicit false

/-!
# Steps of a store

A `Store.Step` is one call that a store serves apart from those on sessions: documents are inserted,
replaced or deleted, or the collections are left alone. A call takes the step whether it succeeds or
fails. Whatever is composed of such calls goes from store to store by steps (`Store.Operates`).

No step changes a session, and each keeps documents under the keys of their identifiers
(`Step.exists_evolves`, `Operates.isKeyed`).
-/

namespace DocMapper

/-! ## Documents under the keys of their identifiers -/

namespace Catalog

variable {c d : Catalog} {name : String}

/-- Each document of each collection is stored under the key of its identifier, and no key of a
collection is used twice. -/
def IsKeyed (c : Catalog) : Prop := ∀ name, (c.get name).WellKeyed

theorem isKeyed_empty : Catalog.empty.IsKeyed := fun _ => .empty

theorem changes_insertDocuments (c : Catalog) (name : String) (supply : IdSupply)
    (docs : List Document) :
    Changes name c (c.insert name
      ((c.get name).insertDocuments name supply 0 docs).collection) where
  content?_of_ne other hother := by
    rw [content?_insert, if_neg hother.symm]
  wellKeyed h := by
    rw [get_insert_self]
    exact h.insertDocuments name supply 0 docs

end Catalog

namespace Store

variable {s t : Store} {name : String}

/-! ## One step -/

/-- The stores before and after a call that is not on a session, whether it succeeds or fails. -/
inductive Step : Store → Store → Prop
  | insertMany (name : String) (docs : List Document) (s : Store) :
      Step s ((insertMany name docs).runOn s).2
  | insertOne (name : String) (doc : Document) (s : Store) : Step s ((insertOne name doc).runOn s).2
  | replaceOne (name : String) (filter replacement : Document) (upsert : Bool) (s : Store) :
      Step s ((replaceOne name filter replacement upsert).runOn s).2
  | deleteMany (name : String) (filter : Document) (session : Option Session) (s : Store) :
      Step s ((deleteMany name filter session).runOn s).2
  /-- Anything that leaves the collections and the sessions alone, such as reading. -/
  | elsewhere {s t : Store} (h : Evolves (· = ·) s t) : Step s t

/-- A step changes one collection at most and no session. -/
theorem Step.exists_evolves (h : Step s t) : ∃ name, Evolves (Catalog.Changes name) s t := by
  cases h with
  | insertMany name docs =>
    rw [runOn_insertMany]
    exact ⟨name, Catalog.changes_insertDocuments s.catalog name s.supply docs, rfl⟩
  | insertOne name doc =>
    have hwrites := keeps_writes_insertOne name doc s
    exact ⟨name, .of_writes hwrites.catalog, hwrites.sessions_eq⟩
  | replaceOne name filter replacement upsert =>
    have hwrites : Writes name replacement s
        ((Store.replaceOne name filter replacement upsert).runOn s).2 :=
      keeps_writes_replaceOne name filter replacement s
    exact ⟨name, .of_writes hwrites.catalog, hwrites.sessions_eq⟩
  | deleteMany name filter session =>
    have hrelinks : Evolves (Catalog.Relinks name fun _ => True) s
        ((Store.deleteMany name filter session).runOn s).2 :=
      keeps_relinks_deleteMany name filter session s
    exact ⟨name, hrelinks.mono fun _ _ h => h.toChanges⟩
  | elsewhere h =>
    -- nothing is changed, so any collection will do
    refine ⟨"", h.mono ?_⟩
    rintro c _ rfl
    exact .refl "" c

/-! ## Any number of steps -/

/-- The stores before and after any number of steps. -/
def Operates : Store → Store → Prop := Relation.ReflTransGen Step

instance : Std.Refl Operates where
  refl _ := .refl

instance : IsTrans Store Operates where
  trans _ _ _ h h' := Relation.ReflTransGen.trans h h'

namespace Operates

theorem sessions_eq (h : Operates s t) : t.sessions = s.sessions := by
  induction h with
  | refl => rfl
  | tail _ hstep ih =>
    obtain ⟨_, hevolves⟩ := hstep.exists_evolves
    exact hevolves.sessions.trans ih

theorem isKeyed (h : Operates s t) (hs : s.catalog.IsKeyed) : t.catalog.IsKeyed := by
  induction h with
  | refl => exact hs
  | tail _ hstep ih =>
    obtain ⟨_, hevolves⟩ := hstep.exists_evolves
    exact hevolves.catalog.wellKeyed_all ih

theorem of_eq (h : Evolves (· = ·) s t) : Operates s t := .single (.elsewhere h)

end Operates

/-! ## Actions that are composed of calls -/

theorem keeps_operates_of_eq {α : Type} {a : Action α} (ha : a.Keeps (Evolves (· = ·))) :
    a.Keeps Operates :=
  ha.mono fun _ _ => .of_eq

theorem keeps_operates_insertOne (name : String) (doc : Document) :
    (insertOne name doc).Keeps Operates :=
  fun s => .single (.insertOne name doc s)

theorem keeps_operates_replaceOne (name : String) (filter replacement : Document) (upsert : Bool) :
    (replaceOne name filter replacement upsert).Keeps Operates :=
  fun s => .single (.replaceOne name filter replacement upsert s)

theorem keeps_operates_deleteMany (name : String) (filter : Document) (session : Option Session) :
    (deleteMany name filter session).Keeps Operates :=
  fun s => .single (.deleteMany name filter session s)

theorem keeps_evolves_find (name : String) (filter : Document) (options : FindOptions) :
    (find name filter options).Keeps (Evolves (· = ·)) := by
  intro s
  cases hf : compileFilter filter with
  | error e =>
    rw [runOn_find_of_fault name options s hf]
    exact ⟨rfl, rfl⟩
  | ok f =>
    rw [runOn_find name options s hf]
    exact ⟨rfl, rfl⟩

theorem keeps_operates_find (name : String) (filter : Document) (options : FindOptions) :
    (find name filter options).Keeps Operates :=
  keeps_operates_of_eq (keeps_evolves_find name filter options)

theorem keeps_operates_listCollections (pattern : String) :
    (listCollections pattern).Keeps Operates := by
  refine keeps_operates_of_eq fun s => ?_
  cases hr : Regex.ofText? pattern with
  | none =>
    rw [runOn_listCollections_of_none hr]
    exact ⟨rfl, rfl⟩
  | some regex =>
    rw [runOn_listCollections hr]
    exact ⟨rfl, rfl⟩

end Store

end DocMapper
