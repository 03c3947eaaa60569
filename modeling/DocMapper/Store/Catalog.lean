import DocMapper.Store.Collection

set_option autoImplicit false

/-!
# Catalogs

A catalog is the collections of a store by name. The names increase, in the order of their
characters, so a catalog is determined by what it holds under each name.
-/

namespace DocMapper

/-- Collections by increasing name. -/
structure Catalog where
  entries : List (String × Collection)
  sorted : entries.Pairwise fun a b => a.1 < b.1

namespace Catalog

/-- The catalog without collections. -/
def empty : Catalog := ⟨[], List.Pairwise.nil⟩

/-- The names in increasing order. -/
def names (c : Catalog) : List String := c.entries.map Prod.fst

/-- The collection of a name. -/
def find? (c : Catalog) (name : String) : Option Collection := Fields.get? c.entries name

/-- The documents under a name; there are none where there is no collection. -/
def documents (c : Catalog) (name : String) : List Document :=
  match c.find? name with
  | some collection => collection.documents
  | none => []

/-- The number of documents under a name. -/
def count (c : Catalog) (name : String) : Nat :=
  match c.find? name with
  | some collection => collection.size
  | none => 0

/-- Puts a collection at the place of its name, instead of one with the same name. -/
def place (name : String) (collection : Collection) :
    List (String × Collection) → List (String × Collection)
  | [] => [(name, collection)]
  | (n, c) :: rest =>
      if name < n then (name, collection) :: (n, c) :: rest
      else if name = n then (name, collection) :: rest
      else (n, c) :: place name collection rest

theorem lt_of_not_lt_of_ne {a b : String} (h : ¬ a < b) (hne : ¬ a = b) : b < a := by
  rcases Decidable.em (b < a) with hlt | hlt
  · exact hlt
  · exact absurd (String.le_antisymm (String.not_lt.1 hlt) (String.not_lt.1 h)) hne

/-- The names after placing a collection are the old ones and the new one. -/
theorem mem_place {name : String} {collection : Collection}
    {entries : List (String × Collection)} {entry : String × Collection}
    (h : entry ∈ place name collection entries) :
    entry = (name, collection) ∨ entry ∈ entries := by
  induction entries with
  | nil => exact Or.inl (by simpa [place] using h)
  | cons head rest ih =>
      obtain ⟨n, c⟩ := head
      simp only [place] at h
      split at h
      · rcases List.mem_cons.1 h with h' | h'
        · exact Or.inl h'
        · exact Or.inr h'
      · split at h
        · rcases List.mem_cons.1 h with h' | h'
          · exact Or.inl h'
          · exact Or.inr (List.mem_cons_of_mem _ h')
        · rcases List.mem_cons.1 h with h' | h'
          · exact Or.inr (h' ▸ List.mem_cons_self)
          · rcases ih h' with h'' | h''
            · exact Or.inl h''
            · exact Or.inr (List.mem_cons_of_mem _ h'')

/-- Placing a collection keeps the names increasing. -/
theorem sorted_place {name : String} {collection : Collection}
    {entries : List (String × Collection)} (h : entries.Pairwise fun a b => a.1 < b.1) :
    (place name collection entries).Pairwise fun a b => a.1 < b.1 := by
  induction entries with
  | nil => simp [place]
  | cons head rest ih =>
      obtain ⟨n, c⟩ := head
      rw [List.pairwise_cons] at h
      simp only [place]
      split
      · -- the name comes before all others
        rename_i hlt
        refine List.pairwise_cons.2 ⟨?_, List.pairwise_cons.2 h⟩
        intro entry hmem
        rcases List.mem_cons.1 hmem with rfl | hmem'
        · exact hlt
        · exact String.lt_trans hlt (h.1 entry hmem')
      · rename_i hnot
        split
        · -- the name is there already
          rename_i heq
          subst heq
          exact List.pairwise_cons.2 h
        · -- the name comes further back
          rename_i hne
          refine List.pairwise_cons.2 ⟨?_, ih h.2⟩
          intro entry hmem
          rcases mem_place hmem with rfl | hmem'
          · exact lt_of_not_lt_of_ne hnot hne
          · exact h.1 entry hmem'

/-- The catalog with a collection under a name, instead of what was there. -/
def insert (c : Catalog) (name : String) (collection : Collection) : Catalog :=
  ⟨place name collection c.entries, sorted_place c.sorted⟩

/-- The collection of a name, empty if there is none. -/
def get (c : Catalog) (name : String) : Collection := (c.find? name).getD .empty

/-- A collection is found under the name under which it was put, and the others stay. -/
theorem find?_insert (c : Catalog) (name : String) (collection : Collection) (other : String) :
    (c.insert name collection).find? other =
      if name = other then some collection else c.find? other := by
  obtain ⟨entries, sorted⟩ := c
  simp only [insert, find?]
  induction entries with
  | nil => simp [place, Fields.get?_cons]
  | cons head rest ih =>
      obtain ⟨n, c⟩ := head
      simp only [place]
      split
      · simp only [Fields.get?_cons]
      · split
        · rename_i heq
          subst heq
          by_cases ho : name = other <;> simp [Fields.get?_cons, ho]
        · rename_i hne
          have ih' := ih (List.pairwise_cons.1 sorted).2
          by_cases hn : n = other
          · subst hn
            simp [Fields.get?_cons, hne]
          · simp only [Fields.get?_cons, if_neg hn, ih']

end Catalog

end DocMapper
