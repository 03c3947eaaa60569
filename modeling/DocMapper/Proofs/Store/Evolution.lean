import DocMapper.Proofs.Store.Deletion
import DocMapper.Proofs.Store.Writing

set_option autoImplicit false

/-!
# Changes to one collection

Most operations change at most one collection and no session. `Catalog.Changes name` says so of two
catalogs, and that documents stay under the keys of their identifiers. Of a collection of entities
it is known that no identifier is lost (`Catalog.Grows`), and of a join collection which rows can be
new (`Catalog.Relinks`). Both are preorders, so they are kept by sequences of operations.

`Store.Evolves R` relates stores whose sessions are the same and whose catalogs are related by `R`.
-/

namespace DocMapper

namespace Catalog

variable {c d e : Catalog} {name other : String} {allowed allowed' : Document → Prop}

/-- Whether a document with an identifier is stored under a name. -/
def Stores (c : Catalog) (name : String) (id : Value) : Prop :=
  ∃ doc ∈ c.documents name, doc.get? "_id" = some id

/-- A catalog before and after a change under one name at most, where documents are under the keys
of their identifiers if they were before. -/
structure Changes (name : String) (c d : Catalog) : Prop where
  content?_of_ne : ∀ other, other ≠ name → d.content? other = c.content? other
  wellKeyed : (c.get name).WellKeyed → (d.get name).WellKeyed

namespace Changes

theorem refl (name : String) (c : Catalog) : Changes name c c := ⟨fun _ _ => rfl, fun h => h⟩

theorem trans (h : Changes name c d) (h' : Changes name d e) : Changes name c e where
  content?_of_ne other hother :=
    (h'.content?_of_ne other hother).trans (h.content?_of_ne other hother)
  wellKeyed hc := h'.wellKeyed (h.wellKeyed hc)

theorem documents_of_ne (h : Changes name c d) (hother : other ≠ name) :
    d.documents other = c.documents other := by
  rw [documents_eq, documents_eq, h.content?_of_ne other hother]

theorem stores_of_ne (h : Changes name c d) (hother : other ≠ name) {id : Value}
    (hid : c.Stores other id) : d.Stores other id := by
  rw [Stores, h.documents_of_ne hother]
  exact hid

/-- Everywhere documents stay under the keys of their identifiers. -/
theorem wellKeyed_all (h : Changes name c d) (hc : ∀ other, (c.get other).WellKeyed)
    (other : String) : (d.get other).WellKeyed := by
  by_cases hother : other = name
  · rw [hother]
    exact h.wellKeyed (hc name)
  · refine (hc other).of_sublist ?_
    rw [toList_get, toList_get, h.content?_of_ne other hother]

theorem of_writes {written : Document} (h : Writes name written c d) : Changes name c d where
  content?_of_ne other hother := by
    rw [content?, content?, h.find?_of_ne other hother]
  wellKeyed := h.wellKeyed

end Changes

/-- Documents that lose some of their number are still under the keys of their identifiers. -/
theorem Loses.wellKeyed {test : Document → Bool} (h : c.Loses d name test)
    (hc : (c.get name).WellKeyed) : (d.get name).WellKeyed := by
  refine hc.of_sublist ?_
  rw [toList_get, toList_get, h]
  cases c.content? name with
  | none => exact List.Sublist.refl _
  | some entries => exact List.filter_sublist

/-- A catalog before and after a change of a collection that loses no identifier. -/
structure Grows (name : String) (c d : Catalog) : Prop extends Changes name c d where
  stores : ∀ id, c.Stores name id → d.Stores name id

/-- A write loses no identifier. -/
theorem Grows.of_writes {written : Document} (h : Writes name written c d) : Grows name c d where
  toChanges := .of_writes h
  stores := by
    rintro id ⟨doc, hdoc, hid⟩
    exact h.keeps_id doc hdoc id hid

instance : Std.Refl (Grows name) where
  refl c := ⟨.refl name c, fun _ h => h⟩

instance : IsTrans Catalog (Grows name) where
  trans _ _ _ h h' := ⟨h.toChanges.trans h'.toChanges, fun id hid => h'.stores id (h.stores id hid)⟩

/-- A catalog before and after a change of a collection in which only allowed documents are new. -/
structure Relinks (name : String) (allowed : Document → Prop) (c d : Catalog) : Prop
    extends Changes name c d where
  mem : ∀ row ∈ d.documents name, row ∈ c.documents name ∨ allowed row

namespace Relinks

theorem mono (h : Relinks name allowed c d) (hle : ∀ row, allowed row → allowed' row) :
    Relinks name allowed' c d :=
  ⟨h.toChanges, fun row hrow => (h.mem row hrow).imp_right (hle row)⟩

theorem of_writes {written : Document} (h : Writes name written c d) :
    Relinks name (·.Agrees written) c d :=
  ⟨.of_writes h, h.agrees⟩

/-- A removal under one name makes nothing new. -/
theorem of_without {removed : String → Document → Bool} (h : c.Without removed d)
    (hname : ∀ other doc, removed other doc = true → other = name) :
    Relinks name allowed c d where
  content?_of_ne other hother := by
    refine h.content?_eq fun doc => ?_
    rw [← Bool.not_eq_true]
    exact fun hdoc => hother (hname other doc hdoc)
  wellKeyed hc := (h name).wellKeyed hc
  mem row hrow := Or.inl ((h name).mem_documents_iff.1 hrow).1

end Relinks

instance : Std.Refl (Relinks name allowed) where
  refl c := ⟨.refl name c, fun _ h => Or.inl h⟩

instance : IsTrans Catalog (Relinks name allowed) where
  trans _ _ _ h h' := by
    refine ⟨h.toChanges.trans h'.toChanges, fun row hrow => ?_⟩
    rcases h'.mem row hrow with hold | hallowed
    · exact h.mem row hold
    · exact Or.inr hallowed

end Catalog

/-! ## Stores with the same sessions -/

namespace Store

variable {R S : Catalog → Catalog → Prop} {s t : Store} {name : String}
variable {allowed : Document → Prop}

/-- A store before and after a change of its catalog that leaves the sessions alone. -/
structure Evolves (R : Catalog → Catalog → Prop) (s t : Store) : Prop where
  catalog : R s.catalog t.catalog
  sessions : t.sessions = s.sessions

theorem Evolves.mono (h : Evolves R s t) (hle : ∀ c d, R c d → S c d) : Evolves S s t :=
  ⟨hle _ _ h.catalog, h.sessions⟩

theorem Evolves.of_eq [Std.Refl R] (h : Evolves (· = ·) s t) : Evolves R s t := by
  refine h.mono ?_
  rintro c _ rfl
  exact refl_of R c

instance [Std.Refl R] : Std.Refl (Evolves R) where
  refl s := ⟨refl_of R s.catalog, rfl⟩

instance [IsTrans Catalog R] : IsTrans Store (Evolves R) where
  trans _ _ _ h h' := ⟨trans_of R h.catalog h'.catalog, h'.sessions.trans h.sessions⟩

theorem keeps_evolves_freshObjectId : Action.freshObjectId.Keeps (Evolves (· = ·)) :=
  fun _ => ⟨rfl, rfl⟩

theorem keeps_evolves_freshUuid : Action.freshUuid.Keeps (Evolves (· = ·)) :=
  fun _ => ⟨rfl, rfl⟩

/-- Whether it succeeds or fails, an upsert loses no identifier. -/
theorem keeps_grows_replaceOne (name : String) (filter replacement : Document) :
    (replaceOne name filter replacement true).Keeps (Evolves (Catalog.Grows name)) :=
  (keeps_writes_replaceOne name filter replacement).mono fun _ _ h =>
    ⟨.of_writes h.catalog, h.sessions_eq⟩

/-- Whether it succeeds or fails, a deletion makes nothing new. -/
theorem keeps_relinks_deleteMany (name : String) (filter : Document) (session : Option Session) :
    (deleteMany name filter session).Keeps (Evolves (Catalog.Relinks name allowed)) := by
  have hkeeps : (deleteMany name filter session).Keeps (Shrinks fun other _ => other = name) :=
    keeps_shrinks_deleteMany session fun _ _ => by simp
  refine hkeeps.mono fun s t h => ?_
  obtain ⟨removed, hremoved, h⟩ := h
  refine ⟨.of_without h.catalog fun other doc hdoc => ?_, h.sessions_eq⟩
  simpa using hremoved other doc hdoc

/-- Whether it succeeds or fails, an insertion makes nothing new but what agrees with its
document. -/
theorem keeps_relinks_insertOne (name : String) {doc : Document}
    (hallowed : ∀ row : Document, row.Agrees doc → allowed row) :
    (insertOne name doc).Keeps (Evolves (Catalog.Relinks name allowed)) :=
  (keeps_writes_insertOne name doc).mono fun _ _ h =>
    ⟨(Catalog.Relinks.of_writes h.catalog).mono hallowed, h.sessions_eq⟩

/-- Whether it succeeds or fails, an upsert makes nothing new but what agrees with its
replacement. -/
theorem keeps_relinks_replaceOne (name : String) (filter : Document) {replacement : Document}
    (hallowed : ∀ row : Document, row.Agrees replacement → allowed row) :
    (replaceOne name filter replacement true).Keeps (Evolves (Catalog.Relinks name allowed)) :=
  (keeps_writes_replaceOne name filter replacement).mono fun _ _ h =>
    ⟨(Catalog.Relinks.of_writes h.catalog).mono hallowed, h.sessions_eq⟩

/-! ## Deletions that are set to fail -/

/-- Two stores in which the same deletions are set to fail. -/
def FailsAlike (s t : Store) : Prop := t.failingDeletes = s.failingDeletes

instance : Std.Refl FailsAlike where
  refl _ := rfl

instance : IsTrans Store FailsAlike where
  trans _ _ _ h h' := Eq.trans h' h

theorem keeps_failsAlike_insertOne (name : String) (doc : Document) :
    (insertOne name doc).Keeps FailsAlike :=
  (keeps_writes_insertOne name doc).mono fun _ _ h => h.failingDeletes_eq

theorem keeps_failsAlike_replaceOne (name : String) (filter replacement : Document)
    (upsert : Bool) : (replaceOne name filter replacement upsert).Keeps FailsAlike :=
  (keeps_writes_replaceOne name filter replacement).mono fun _ _ h => h.failingDeletes_eq

theorem keeps_failsAlike_deleteMany (name : String) (filter : Document)
    (session : Option Session) : (deleteMany name filter session).Keeps FailsAlike := by
  intro s
  rcases runOn_deleteMany_cases name filter session s with
    ⟨e, journal, hrun⟩ | ⟨r, t, hrun, hremoves⟩
  · rw [hrun]
    exact rfl
  · rw [hrun]
    exact hremoves.failingDeletes_eq

end Store

end DocMapper
