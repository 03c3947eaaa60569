import DocMapper.Error
import Mathlib.Data.List.Forall2

set_option autoImplicit false

/-!
# Computations for the items of a list

A computation that runs over a list succeeds exactly if it does for each item, and its results are
those of the items, in order (`mapM_eq_ok_iff`). One that carries a state through a list fails
exactly if it succeeds for the items before some item and fails for this one, whatever comes after
(`foldlM_eq_error_iff`).
-/

namespace DocMapper

section Traversal

variable {ε α β : Type} {f : α → Except ε β} {items : List α} {results : List β}

theorem exists_map_eq_ok_iff {x : Except ε α} {g : α → β} :
    (∃ b, x.map g = .ok b) ↔ ∃ a, x = .ok a := by
  cases x <;> simp [Except.map]

theorem map_eq_error_iff {x : Except ε α} {g : α → β} {e : ε} :
    x.map g = .error e ↔ x = .error e := by
  cases x <;> simp [Except.map]

/-- The results for a list are those for its items, one for each. -/
theorem mapM_eq_ok_iff :
    items.mapM f = .ok results ↔ List.Forall₂ (fun x y => f x = .ok y) items results := by
  induction items generalizing results with
  | nil =>
    rw [List.forall₂_nil_left_iff]
    exact ⟨fun h => (Except.ok.inj h).symm, fun h => h ▸ rfl⟩
  | cons item rest ih =>
    rw [List.mapM_cons, bind_eq_ok_iff, List.forall₂_cons_left_iff]
    constructor
    · rintro ⟨first, hfirst, h⟩
      obtain ⟨others, hrest, h⟩ := bind_eq_ok_iff.1 h
      exact ⟨first, others, hfirst, ih.1 hrest, (Except.ok.inj h).symm⟩
    · rintro ⟨first, others, hfirst, hrest, rfl⟩
      exact ⟨first, hfirst, bind_eq_ok_iff.2 ⟨others, ih.2 hrest, rfl⟩⟩

/-- There are results for a list if there is one for each item. -/
theorem exists_mapM_eq_ok_iff :
    (∃ results, items.mapM f = .ok results) ↔ ∀ item ∈ items, ∃ result, f item = .ok result := by
  simp only [mapM_eq_ok_iff]
  induction items with
  | nil => exact ⟨fun _ _ h => (nomatch h), fun _ => ⟨[], .nil⟩⟩
  | cons item rest ih =>
    rw [List.forall_mem_cons, ← ih]
    simp only [List.forall₂_cons_left_iff]
    constructor
    · rintro ⟨_, first, others, hfirst, hrest, -⟩
      exact ⟨⟨first, hfirst⟩, others, hrest⟩
    · rintro ⟨⟨first, hfirst⟩, others, hrest⟩
      exact ⟨_, first, others, hfirst, hrest, rfl⟩

/-- Each result for a list is that for one of its items. -/
theorem exists_mem_of_mapM_eq_ok (h : items.mapM f = .ok results) {y : β} (hy : y ∈ results) :
    ∃ x ∈ items, f x = .ok y := by
  induction mapM_eq_ok_iff.1 h with
  | nil => cases hy
  | cons hfirst hrest ih =>
    rcases List.mem_cons.1 hy with rfl | hy
    · exact ⟨_, List.mem_cons_self, hfirst⟩
    · obtain ⟨x, hx, heq⟩ := ih (mapM_eq_ok_iff.2 hrest) hy
      exact ⟨x, List.mem_cons_of_mem _ hx, heq⟩

theorem mapM_take_of_mapM_eq_ok (h : items.mapM f = .ok results) (n : Nat) :
    (items.take n).mapM f = .ok (results.take n) :=
  mapM_eq_ok_iff.2 (List.forall₂_take n (mapM_eq_ok_iff.1 h))

/-- A computation with a state fails with the failure of the first item for which it fails. -/
theorem foldlM_eq_error_iff {g : β → α → Except ε β} {state : β} {e : ε} :
    items.foldlM g state = .error e ↔
      ∃ before item after next, items = before ++ item :: after ∧
        before.foldlM g state = .ok next ∧ g next item = .error e := by
  induction items generalizing state with
  | nil => simp [pure, Except.pure]
  | cons first rest ih =>
    rw [List.foldlM_cons, bind_eq_error_iff]
    constructor
    · rintro (hfirst | ⟨next, hnext, hrest⟩)
      · exact ⟨[], first, rest, state, rfl, rfl, hfirst⟩
      · obtain ⟨before, item, after, last, rfl, hbefore, hitem⟩ := ih.1 hrest
        refine ⟨first :: before, item, after, last, rfl, ?_, hitem⟩
        rw [List.foldlM_cons]
        exact bind_eq_ok_iff.2 ⟨next, hnext, hbefore⟩
    · rintro ⟨before, item, after, last, hitems, hbefore, hitem⟩
      -- the first item fails, or it passes and a later one fails
      cases before with
      | nil =>
        obtain ⟨rfl, -⟩ := List.cons.inj hitems
        obtain rfl := Except.ok.inj hbefore
        exact Or.inl hitem
      | cons next before =>
        obtain ⟨rfl, rfl⟩ := List.cons.inj hitems
        rw [List.foldlM_cons] at hbefore
        obtain ⟨middle, hmiddle, hbefore⟩ := bind_eq_ok_iff.1 hbefore
        exact Or.inr ⟨middle, hmiddle, ih.2 ⟨before, item, after, last, rfl, hbefore, hitem⟩⟩

end Traversal

end DocMapper
