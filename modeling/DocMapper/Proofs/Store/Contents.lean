import DocMapper.Store.Catalog
import Mathlib.Data.List.Sort

set_option autoImplicit false

/-!
# What a catalog holds

`Catalog.content?` gives the entries under a name, and a catalog is described by it: the names are
those that have a content (`names_eq_of_content?`).

`Catalog.Without removed` relates a catalog to the one that is left when the documents for which
`removed` holds are taken away: the collections stay, and so do the other entries, in their order.
Removals follow each other as the disjunction of what they remove (`Without.trans`).
-/

namespace DocMapper

theorem Collection.size_sub_size_retain (c : Collection) (test : Document → Bool) :
    c.size - (c.retain test).size = c.documents.countP fun doc => !test doc := by
  have hsize : ∀ d : Collection, d.size = d.toList.length := fun d => Array.length_toList.symm
  have hcount : c.toList.length = c.toList.countP (fun entry => test entry.2) +
      c.toList.countP fun entry => !test entry.2 := by
    simpa using c.toList.length_eq_countP_add_countP (p := fun entry => test entry.2)
  rw [hsize, hsize, toList_retain, ← List.countP_eq_length_filter, hcount, documents,
    List.countP_map, Nat.add_sub_cancel_left]
  rfl

namespace Catalog

variable {c d e : Catalog} {name : String}

/-! ## Contents -/

/-- The entries under a name, if there is a collection. -/
def content? (c : Catalog) (name : String) : Option (List (Key × Document)) :=
  (c.find? name).map Collection.toList

@[simp] theorem content?_empty (name : String) : empty.content? name = none := rfl

theorem content?_insert (c : Catalog) (name : String) (collection : Collection)
    (other : String) :
    (c.insert name collection).content? other =
      if name = other then some collection.toList else c.content? other := by
  rw [content?, find?_insert]
  split <;> rfl

theorem documents_eq (c : Catalog) (name : String) :
    c.documents name = ((c.content? name).getD []).map Prod.snd := by
  unfold documents content?
  cases c.find? name <;> rfl

theorem toList_get (c : Catalog) (name : String) :
    (c.get name).toList = (c.content? name).getD [] := by
  unfold get content?
  cases c.find? name <;> rfl

theorem documents_get (c : Catalog) (name : String) :
    (c.get name).documents = c.documents name := by
  rw [Collection.documents, toList_get, documents_eq]

theorem exists_find?_of_documents {doc : Document} {rest : List Document}
    (h : c.documents name = doc :: rest) :
    ∃ collection, c.find? name = some collection ∧ collection.documents = doc :: rest := by
  unfold documents at h
  split at h
  · exact ⟨_, ‹_›, h⟩
  · cases h

theorem mem_names_iff : name ∈ c.names ↔ (c.content? name).isSome = true := by
  have hkeys := Fields.get?_eq_none_iff c.entries name
  change name ∈ Fields.keys c.entries ↔ _
  rw [← not_iff_not, ← hkeys, content?, Option.isSome_map, find?, Bool.not_eq_true,
    Option.isSome_eq_false_iff, Option.isNone_iff_eq_none]

theorem mem_names_of_mem_documents {doc : Document} (h : doc ∈ c.documents name) :
    name ∈ c.names := by
  rw [mem_names_iff]
  rw [documents_eq] at h
  cases hcontent : c.content? name with
  | none => simp [hcontent] at h
  | some entries => rfl

theorem names_eq_of_content?
    (h : ∀ name, (c.content? name).isSome = (d.content? name).isSome) : c.names = d.names := by
  have hsorted : ∀ x : Catalog, x.names.Pairwise (· < ·) :=
    fun x => List.pairwise_map.2 x.sorted
  refine (hsorted c).eq_of_mem_iff (hsorted d) fun name => ?_
  rw [mem_names_iff, mem_names_iff, h]

/-! ## Removal -/

/-- Under a name the second catalog holds what the first one does without the documents for which a
test holds; the others keep their order. -/
def Loses (c d : Catalog) (name : String) (test : Document → Bool) : Prop :=
  d.content? name =
    (c.content? name).map fun entries => entries.filter fun entry => !test entry.2

/-- The second catalog loses, under each name, the documents for which the test holds. -/
def Without (c : Catalog) (removed : String → Document → Bool) (d : Catalog) : Prop :=
  ∀ name, c.Loses d name (removed name)

namespace Loses

variable {test test' : Document → Bool}

theorem congr (h : c.Loses d name test) (heq : ∀ doc ∈ c.documents name, test doc = test' doc) :
    c.Loses d name test' := by
  rw [Loses, h]
  cases hcontent : c.content? name with
  | none => rfl
  | some entries =>
    refine congrArg some (List.filter_congr fun entry hentry => ?_)
    rw [heq entry.2]
    rw [documents_eq, hcontent]
    exact List.mem_map_of_mem hentry

theorem trans (h : c.Loses d name test) (h' : d.Loses e name test') :
    c.Loses e name fun doc => test doc || test' doc := by
  rw [Loses, h', h, Option.map_map]
  congr 1
  funext entries
  simp only [Function.comp_apply, List.filter_filter, Bool.not_or, Bool.and_comm]

theorem documents (h : c.Loses d name test) :
    d.documents name = (c.documents name).filter fun doc => !test doc := by
  rw [documents_eq, documents_eq, h]
  cases c.content? name with
  | none => rfl
  | some entries => simp [List.filter_map, Function.comp_def]

/-- The keys that are left were there. -/
theorem mem_keys_get (h : c.Loses d name test) {key : Key}
    (hkey : key ∈ (d.get name).toList.map Prod.fst) : key ∈ (c.get name).toList.map Prod.fst := by
  rw [toList_get, h] at hkey
  rw [toList_get]
  cases hcontent : c.content? name with
  | none =>
    rw [hcontent] at hkey
    exact hkey
  | some entries =>
    rw [hcontent] at hkey
    exact (List.filter_sublist.map Prod.fst).subset hkey

theorem mem_documents_iff (h : c.Loses d name test) {doc : Document} :
    doc ∈ d.documents name ↔ doc ∈ c.documents name ∧ test doc = false := by
  rw [h.documents, List.mem_filter, Bool.not_eq_true']

end Loses

namespace Without

variable {removed removed' : String → Document → Bool}

theorem refl (c : Catalog) : c.Without (fun _ _ => false) c := by
  intro name
  simp [Loses]

theorem trans (h : c.Without removed d) (h' : d.Without removed' e) :
    c.Without (fun name doc => removed name doc || removed' name doc) e :=
  fun name => (h name).trans (h' name)

theorem congr (h : c.Without removed d)
    (heq : ∀ name, ∀ doc ∈ c.documents name, removed name doc = removed' name doc) :
    c.Without removed' d :=
  fun name => (h name).congr (heq name)

theorem names_eq (h : c.Without removed d) : d.names = c.names := by
  refine names_eq_of_content? fun name => ?_
  rw [h name, Option.isSome_map]

theorem content?_eq (h : c.Without removed d) (hname : ∀ doc, removed name doc = false) :
    d.content? name = c.content? name := by
  rw [h name]
  simp [hname]

end Without

/-- The catalog without the documents under a name for which a test holds. -/
def removeWhere (c : Catalog) (name : String) (test : Document → Bool) : Catalog :=
  match c.find? name with
  | none => c
  | some collection => c.insert name (collection.retain fun doc => !test doc)

/-- The removal under one name. -/
theorem without_removeWhere (c : Catalog) (name : String) (test : Document → Bool) :
    c.Without (fun other doc => other = name && test doc) (c.removeWhere name test) := by
  intro other
  unfold removeWhere Loses
  cases hfind : c.find? name with
  | none =>
    -- nothing is held under the name, so the test is asked of no document
    by_cases hother : other = name
    · subst hother
      simp [content?, hfind]
    · simp [hother]
  | some collection =>
    rw [content?_insert]
    by_cases hother : name = other
    · subst hother
      simp [content?, hfind]
    · simp [hother, Ne.symm hother]

end Catalog

end DocMapper
