set_option autoImplicit false

/-!
# Ordered fields

`Fields α` is an association list from names to values that keeps the order in which the names were
first written. `insert` replaces the value of a name in place and appends a new name at the end, so
fields built by `ofList` have each name once. A document is `Fields` of values; the registrations of
a template are `Fields` of texts.

`get?_insert` says what a write does to every look-up, and `keys_insert` what it does to the order.
-/

namespace DocMapper

universe u

/-- Named values in the order in which the names were first written. -/
abbrev Fields (α : Type u) := List (String × α)

namespace Fields

variable {α : Type u}

/-- The value of a name. -/
def get? : Fields α → String → Option α
  | [], _ => none
  | (k, v) :: rest, key => if k = key then some v else get? rest key

/-- Whether a name has a value. -/
def contains (fields : Fields α) (key : String) : Bool := (get? fields key).isSome

/-- The names in order. -/
def keys (fields : Fields α) : List String := fields.map Prod.fst

/-- Replaces the value of a name in place; a new name goes to the end. -/
def insert (key : String) (value : α) : Fields α → Fields α
  | [] => [(key, value)]
  | (k, v) :: rest =>
      if k = key then (k, value) :: rest else (k, v) :: insert key value rest

/-- Fields written one after another. -/
def ofList (entries : List (String × α)) : Fields α :=
  entries.foldl (fun fields entry => insert entry.1 entry.2 fields) []

@[simp] theorem get?_nil (key : String) : get? ([] : Fields α) key = none := rfl

theorem get?_cons (k : String) (v : α) (rest : Fields α) (key : String) :
    get? ((k, v) :: rest) key = if k = key then some v else get? rest key := rfl

/-- A write is seen under its own name and under no other. -/
theorem get?_insert (fields : Fields α) (key : String) (value : α) (other : String) :
    get? (insert key value fields) other =
      if key = other then some value else get? fields other := by
  induction fields with
  | nil => simp [insert, get?_cons]
  | cons entry rest ih =>
      obtain ⟨k, v⟩ := entry
      by_cases hk : k = key
      · subst hk
        by_cases ho : k = other <;> simp [insert, get?_cons, ho]
      · by_cases ho : key = other
        · subst ho
          simp [insert, get?_cons, hk, ih]
        · simp [insert, get?_cons, hk, ih, ho]

/-- A name has a value exactly when it is among the names. -/
theorem get?_eq_none_iff (fields : Fields α) (key : String) :
    get? fields key = none ↔ key ∉ keys fields := by
  induction fields with
  | nil => simp [keys]
  | cons entry rest ih =>
      obtain ⟨k, v⟩ := entry
      simp only [get?_cons, keys, List.map_cons, List.mem_cons, not_or]
      by_cases hk : k = key
      · simp [hk]
      · rw [if_neg hk, ih]
        exact ⟨fun h => ⟨fun he => hk he.symm, h⟩, fun h => h.2⟩

/-- A write keeps the order of the names and puts a new one last. -/
theorem keys_insert (fields : Fields α) (key : String) (value : α) :
    keys (insert key value fields) =
      if key ∈ keys fields then keys fields else keys fields ++ [key] := by
  induction fields with
  | nil => simp [insert, keys]
  | cons entry rest ih =>
      obtain ⟨k, v⟩ := entry
      by_cases hk : k = key
      · simp [insert, keys, hk]
      · have hne : ¬ key = k := fun he => hk he.symm
        simp only [keys] at ih
        simp only [insert, if_neg hk, keys, List.map_cons, List.mem_cons, hne, false_or, ih]
        by_cases hmem : key ∈ List.map Prod.fst rest <;> simp [hmem]

/-- Fields written one after another have each name once. -/
theorem nodup_keys_insert {fields : Fields α} (h : (keys fields).Nodup) (key : String)
    (value : α) : (keys (insert key value fields)).Nodup := by
  rw [keys_insert]
  split
  · exact h
  · rename_i hnot
    rw [List.nodup_append]
    refine ⟨h, by simp, ?_⟩
    intro a ha b hb
    rw [List.mem_singleton] at hb
    subst hb
    exact fun he => hnot (he ▸ ha)

end Fields

end DocMapper
