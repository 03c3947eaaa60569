import DocMapper.Value.Key
import Std.Data.HashSet

set_option autoImplicit false

/-!
# Collections

A collection holds documents in the order of their insertion, each under the key of its `_id`. The
set `keys` is an index of the keys that are taken; the type keeps it in step with the entries, so
the look-up `contains` speaks about the entries (`contains_iff`). Every operation is described by
its effect on the list of entries.
-/

namespace DocMapper

/-- Documents under keys, in order. -/
structure Collection where
  entries : Array (Key × Document)
  keys : Std.HashSet Key
  mem_keys_iff : ∀ key, key ∈ keys ↔ key ∈ entries.toList.map Prod.fst

namespace Collection

/-- The collection without documents. -/
def empty : Collection := ⟨#[], ∅, by simp⟩

/-- The entries in order. -/
def toList (c : Collection) : List (Key × Document) := c.entries.toList

/-- The documents in order. -/
def documents (c : Collection) : List Document := c.toList.map Prod.snd

/-- The number of documents. -/
def size (c : Collection) : Nat := c.entries.size

/-- Whether a key is taken. -/
def contains (c : Collection) (key : Key) : Bool := c.keys.contains key

/-- Adds a document at the end. -/
def push (c : Collection) (key : Key) (doc : Document) : Collection where
  entries := c.entries.push (key, doc)
  keys := c.keys.insert key
  mem_keys_iff := by
    intro other
    have h := c.mem_keys_iff other
    rw [Std.HashSet.mem_insert, h]
    simp only [Array.toList_push, List.map_append, List.map_cons, List.map_nil, List.mem_append,
      List.mem_singleton, beq_iff_eq]
    constructor
    · rintro (rfl | h')
      · exact Or.inr rfl
      · exact Or.inl h'
    · rintro (h' | rfl)
      · exact Or.inr h'
      · exact Or.inl rfl

/-- Replaces the document at a position and leaves it under its key. -/
def replaceAt (c : Collection) (i : Fin c.entries.size) (doc : Document) : Collection where
  entries := c.entries.set i (c.entries[i].1, doc)
  keys := c.keys
  mem_keys_iff := by
    intro other
    have hmap : (c.entries.set i (c.entries[i].1, doc)).toList.map Prod.fst =
        c.entries.toList.map Prod.fst := by
      rw [Array.toList_set, List.map_set]
      apply List.ext_getElem
      · simp
      · intro n h₁ h₂
        rw [List.getElem_set]
        split
        · rename_i hn
          subst hn
          simp
        · rfl
    rw [hmap]
    exact c.mem_keys_iff other

/-- The document at a position. -/
abbrev documentAt (c : Collection) (i : Fin c.entries.size) : Document := c.entries[i].2

/-- Keeps the documents for which a test holds. -/
def retain (c : Collection) (test : Document → Bool) : Collection :=
  let kept := c.entries.filter fun entry => test entry.2
  { entries := kept
    keys := Std.HashSet.ofList (kept.toList.map Prod.fst)
    mem_keys_iff := by
      intro other
      rw [Std.HashSet.mem_ofList, List.contains_iff_mem] }

/-- The position of the first document for which a test holds. -/
def findFirst? (c : Collection) (test : Document → Bool) : Option (Fin c.entries.size) :=
  c.entries.findFinIdx? fun entry => test entry.2

@[simp] theorem toList_empty : empty.toList = [] := rfl

@[simp] theorem toList_push (c : Collection) (key : Key) (doc : Document) :
    (c.push key doc).toList = c.toList ++ [(key, doc)] := by
  simp [push, toList]

@[simp] theorem toList_retain (c : Collection) (test : Document → Bool) :
    (c.retain test).toList = c.toList.filter fun entry => test entry.2 := by
  simp [retain, toList]

@[simp] theorem toList_replaceAt (c : Collection) (i : Fin c.entries.size) (doc : Document) :
    (c.replaceAt i doc).toList = c.toList.set i (c.entries[i].1, doc) := by
  simp [replaceAt, toList]

theorem contains_iff (c : Collection) (key : Key) :
    c.contains key = true ↔ key ∈ c.toList.map Prod.fst := by
  rw [contains, Std.HashSet.contains_iff_mem, c.mem_keys_iff]
  rfl

end Collection

end DocMapper
