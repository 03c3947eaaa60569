import DocMapper.Proofs.Relation.Linking
import Mathlib.Data.Finset.Basic
import Mathlib.Logic.Function.Basic

set_option autoImplicit false

/-!
# Changes of a relation

The relation that a join collection stands for, without the collection. A `LinkChange` inserts or
erases a link, or takes a child away from its parent. After a list of changes the links are a set of
pairs (`pairsAfter`), or, where a child has one parent, a partial map from children to parents
(`parentsAfter`); `Related` is the one or the other.

A list of links `Represents` the changes if it has each related pair once. Each operation on lists
of links keeps this together with its change.
-/

namespace DocMapper

/-- A change of the links. -/
inductive LinkChange where
  | add (link : Link)
  | remove (link : Link)
  /-- What is left of an addition that was cut off after its deletion. -/
  | unlink (child : LinkId)

namespace LinkChange

/-- A set of pairs after a change. -/
def onPairs (pairs : Finset Link) : LinkChange → Finset Link
  | add link => insert link pairs
  | remove link => pairs.erase link
  | unlink child => pairs.filter fun link => link.2 ≠ child

/-- The parents of children after a change: the last parent added counts, and only the current
parent can be erased. -/
def onParents (parent : LinkId → Option LinkId) : LinkChange → LinkId → Option LinkId
  | add link => Function.update parent link.2 (some link.1)
  | remove link =>
      if parent link.2 = some link.1 then Function.update parent link.2 none else parent
  | unlink child => Function.update parent child none

end LinkChange

/-- The set of pairs after changes from the empty set. -/
def pairsAfter (changes : List LinkChange) : Finset Link :=
  changes.foldl LinkChange.onPairs ∅

/-- The parents of children after changes from no child with a parent. -/
def parentsAfter (changes : List LinkChange) : LinkId → Option LinkId :=
  changes.foldl LinkChange.onParents fun _ => none

/-- Whether a parent and a child are related after changes. -/
def Related (changes : List LinkChange) (p c : LinkId) : Cardinality → Prop
  | .manyToMany => (p, c) ∈ pairsAfter changes
  | .oneToMany => parentsAfter changes c = some p

theorem pairsAfter_append (changes : List LinkChange) (change : LinkChange) :
    pairsAfter (changes ++ [change]) = change.onPairs (pairsAfter changes) :=
  List.foldl_append

theorem parentsAfter_append (changes : List LinkChange) (change : LinkChange) :
    parentsAfter (changes ++ [change]) = change.onParents (parentsAfter changes) :=
  List.foldl_append

/-- A link that takes the child's other links away leaves each child with one link. -/
theorem nodup_children_linkAlone {links : List Link}
    (h : (links.map Prod.snd).Nodup) (link : Link) :
    ((linkAlone link links).map Prod.snd).Nodup := by
  rw [linkAlone, List.map_append, List.map_singleton]
  have hrest := h.sublist ((List.filter_sublist (p := fun other => other.2 ≠ link.2)).map Prod.snd)
  exact hrest.append (List.nodup_singleton _) (by simp)

/-- A list of links that has each related pair once, and each child once where a child has one
parent. -/
structure Represents (card : Cardinality) (changes : List LinkChange) (links : List Link) :
    Prop where
  nodup : links.Nodup
  mem_iff : ∀ p c, (p, c) ∈ links ↔ Related changes p c card
  nodup_children : card = .oneToMany → (links.map Prod.snd).Nodup

namespace Represents

variable {card : Cardinality} {changes : List LinkChange} {links : List Link}

theorem nil (card : Cardinality) : Represents card [] [] where
  nodup := List.nodup_nil
  mem_iff p c := by
    cases card <;> simp [Related, pairsAfter, parentsAfter]
  nodup_children _ := List.nodup_nil

/-- Some of the links have no more duplicates than all of them. -/
theorem filter (h : Represents card changes links) (keep : Link → Bool)
    {changes' : List LinkChange}
    (hmem : ∀ p c, Related changes' p c card ↔ Related changes p c card ∧ keep (p, c) = true) :
    Represents card changes' (links.filter keep) where
  nodup := h.nodup.filter keep
  mem_iff p c := by
    rw [List.mem_filter, h.mem_iff, hmem]
  nodup_children hcard := (h.nodup_children hcard).sublist (List.filter_sublist.map Prod.snd)

/-- Taking a link away. -/
theorem remove (h : Represents card changes links) (link : Link) :
    Represents card (changes ++ [.remove link]) (links.filter fun other => other ≠ link) := by
  refine h.filter _ fun p c => ?_
  obtain ⟨p', c'⟩ := link
  cases card with
  | oneToMany =>
    simp only [Related, parentsAfter_append, LinkChange.onParents, ne_eq, Prod.mk.injEq,
      decide_eq_true_eq]
    -- the pair taken away may not be the current one of its child
    split
    · rename_i hcurrent
      by_cases hc : c = c'
      · subst hc
        rw [Function.update_self, hcurrent]
        simp [eq_comm]
      · rw [Function.update_of_ne hc]
        simp [hc]
    · rename_i hother
      constructor
      · intro hrelated
        refine ⟨hrelated, ?_⟩
        rintro ⟨rfl, rfl⟩
        exact hother hrelated
      · exact And.left
  | manyToMany =>
    simp only [Related, pairsAfter_append, LinkChange.onPairs, Finset.mem_erase, ne_eq,
      decide_eq_true_eq]
    exact and_comm

/-- Taking the links of a child away. -/
theorem unlink (h : Represents card changes links) (child : LinkId) :
    Represents card (changes ++ [.unlink child])
      (links.filter fun other => other.2 ≠ child) := by
  refine h.filter _ fun p c => ?_
  cases card with
  | oneToMany =>
    simp only [Related, parentsAfter_append, LinkChange.onParents, ne_eq, decide_eq_true_eq]
    -- an update is read at its own child and past any other
    by_cases hc : c = child
    · rw [hc, Function.update_self]
      simp
    · rw [Function.update_of_ne hc]
      simp [hc]
  | manyToMany =>
    simp only [Related, pairsAfter_append, LinkChange.onPairs, Finset.mem_filter, ne_eq,
      decide_eq_true_eq]

/-- Adding a link. -/
theorem add (h : Represents card changes links) (link : Link) :
    Represents card (changes ++ [.add link]) (card.link link links) := by
  obtain ⟨p', c'⟩ := link
  cases card with
  | oneToMany =>
    -- the other links of the child go first, so its new link is its only one
    have hchildren := nodup_children_linkAlone (h.nodup_children rfl) (p', c')
    refine ⟨hchildren.of_map, fun p c => ?_, fun _ => hchildren⟩
    simp only [Cardinality.link, linkAlone, List.mem_append, List.mem_filter, List.mem_singleton,
      h.mem_iff, Related, parentsAfter_append, LinkChange.onParents, ne_eq, decide_eq_true_eq,
      Prod.mk.injEq]
    by_cases hc : c = c'
    · rw [hc, Function.update_self]
      simp [eq_comm]
    · rw [Function.update_of_ne hc]
      simp [hc]
  | manyToMany =>
    refine ⟨?_, fun p c => ?_, fun hcard => by cases hcard⟩
    · simp only [Cardinality.link, linkOnce]
      split
      · exact h.nodup
      · rename_i hnot
        exact h.nodup.append (List.nodup_singleton _) (by simpa using hnot)
    · rw [show Related (changes ++ [.add (p', c')]) p c .manyToMany ↔
          (p, c) = (p', c') ∨ (p, c) ∈ pairsAfter changes by
        rw [Related, pairsAfter_append, LinkChange.onPairs, Finset.mem_insert]]
      rw [← show (p, c) ∈ links ↔ (p, c) ∈ pairsAfter changes from h.mem_iff p c]
      simp only [Cardinality.link, linkOnce]
      split
      · rename_i hmem
        constructor
        · exact Or.inr
        · rintro (heq | hold)
          · rwa [heq]
          · exact hold
      · rw [List.mem_append, List.mem_singleton, or_comm]

/-- Taking several links of a parent away. -/
theorem removeMany (h : Represents card changes links) (p : LinkId) (children : List LinkId) :
    Represents card (changes ++ children.map fun c => .remove (p, c))
      (links.filter fun link => !(link.1 = p && link.2 ∈ children)) := by
  induction children generalizing changes links with
  | nil => simpa using h
  | cons c rest ih =>
    -- one child is taken away, and then the rest from what is left
    have hrest := ih (h.remove (p, c))
    rw [List.filter_filter] at hrest
    rw [List.map_cons, List.append_cons]
    refine Eq.mp (congrArg _ (List.filter_congr fun link _ => ?_)) hrest
    obtain ⟨p', c'⟩ := link
    rw [Bool.eq_iff_iff]
    simp only [List.mem_cons, ne_eq, Prod.mk.injEq, Bool.and_eq_true, Bool.not_eq_true',
      Bool.and_eq_false_iff, decide_eq_true_eq, decide_eq_false_iff_not]
    tauto

end Represents

end DocMapper
