set_option autoImplicit false

/-!
# Sets of code points given by ranges

Character classes of the Unicode standard are tables of closed intervals of code points. A set has
many such tables; `CodeRanges.merged` is the one of the fewest intervals in ascending order, and
`CodeRanges.complement` holds the code points of characters that a set leaves out.
-/

namespace DocMapper.Text

/-- Closed intervals of code points. -/
abbrev CodeRanges := List (Nat × Nat)

/-- Whether one of the intervals holds the code point. -/
def CodeRanges.covers (ranges : CodeRanges) (code : Nat) : Bool :=
  ranges.any fun (first, last) => first ≤ code && code ≤ last

theorem CodeRanges.covers_iff {ranges : CodeRanges} {code : Nat} :
    ranges.covers code = true ↔ ∃ r ∈ ranges, r.1 ≤ code ∧ code ≤ r.2 := by
  simp only [CodeRanges.covers, List.any_eq_true, Bool.and_eq_true, decide_eq_true_eq]

/-- The intervals after a current one, ascending in their first code points, where an interval that
touches the current one is joined to it. -/
def CodeRanges.mergedAfter (current : Nat × Nat) : CodeRanges → CodeRanges
  | [] => [current]
  | next :: rest =>
      if next.1 ≤ current.2 + 1 then mergedAfter (current.1, max current.2 next.2) rest
      else current :: mergedAfter next rest

/-- The same set by the fewest intervals, in ascending order. -/
def CodeRanges.merged (ranges : CodeRanges) : CodeRanges :=
  match ranges.mergeSort fun r s => r.1 ≤ s.1 with
  | [] => []
  | first :: rest => mergedAfter first rest

/-- The intervals from a code point to a last one that ascending intervals leave out. -/
def CodeRanges.gaps (start last : Nat) : CodeRanges → CodeRanges
  | [] => if start ≤ last then [(start, last)] else []
  | (a, b) :: rest =>
      if start < a then (start, a - 1) :: gaps (max start (b + 1)) last rest
      else gaps (max start (b + 1)) last rest

/-- The code points that stand for no character of their own. -/
def surrogates : Nat × Nat := (0xD800, 0xDFFF)

/-- The last code point. -/
def lastCode : Nat := 0x10FFFF

/-- The characters outside a set. -/
def CodeRanges.complement (ranges : CodeRanges) : CodeRanges :=
  gaps 0 lastCode (merged (surrogates :: ranges))

theorem CodeRanges.covers_cons_iff {r : Nat × Nat} {ranges : CodeRanges} {code : Nat} :
    covers (r :: ranges) code = true ↔
      (r.1 ≤ code ∧ code ≤ r.2) ∨ ranges.covers code = true := by
  simp [covers]

/-- Joining the intervals that touch keeps the set, as long as the intervals ascend and none runs
backwards. -/
theorem CodeRanges.covers_mergedAfter {current : Nat × Nat} {ranges : CodeRanges} (code : Nat)
    (hle : current.1 ≤ current.2) (hranges : ∀ r ∈ ranges, current.1 ≤ r.1 ∧ r.1 ≤ r.2)
    (hsorted : ranges.Pairwise fun r s => r.1 ≤ s.1) :
    (mergedAfter current ranges).covers code = covers (current :: ranges) code := by
  induction ranges generalizing current with
  | nil => rfl
  | cons next rest ih =>
      obtain ⟨hfirst, hnext⟩ := hranges next (by simp)
      have hafter : ∀ r ∈ rest, next.1 ≤ r.1 ∧ r.1 ≤ r.2 := fun r hr =>
        ⟨List.rel_of_pairwise_cons hsorted hr, (hranges r (by simp [hr])).2⟩
      rw [mergedAfter]
      split
      · rename_i htouch
        have hjoin := @ih (current.1, max current.2 next.2) (by simp; omega)
          (fun r hr => ⟨by have := (hafter r hr).1; simp; omega, (hafter r hr).2⟩)
          (List.Pairwise.of_cons hsorted)
        rw [hjoin, Bool.eq_iff_iff, covers_cons_iff, covers_cons_iff, covers_cons_iff, ← or_assoc]
        refine or_congr ?_ Iff.rfl
        simp only
        omega
      · have hrest := ih hnext hafter (List.Pairwise.of_cons hsorted)
        rw [Bool.eq_iff_iff] at hrest ⊢
        rw [covers_cons_iff, hrest, ← covers_cons_iff]

/-- Merging keeps the set, as long as no interval runs backwards. -/
theorem CodeRanges.covers_merged {ranges : CodeRanges} (code : Nat)
    (h : ∀ r ∈ ranges, r.1 ≤ r.2) : ranges.merged.covers code = ranges.covers code := by
  have hsorted : (ranges.mergeSort fun r s => decide (r.1 ≤ s.1)).Pairwise
      fun r s => r.1 ≤ s.1 := by
    have := @List.pairwise_mergeSort _ (fun r s : Nat × Nat => decide (r.1 ≤ s.1))
      (fun a b c hab hbc => by simp at hab hbc ⊢; omega) (fun a b => by simp; omega) ranges
    simpa using this
  have hperm : (covers (ranges.mergeSort fun r s => decide (r.1 ≤ s.1)) code) =
      ranges.covers code := by
    rw [Bool.eq_iff_iff, covers_iff, covers_iff]
    simp only [List.mem_mergeSort]
  rw [← hperm, merged]
  cases hs : ranges.mergeSort fun r s => decide (r.1 ≤ s.1) with
  | nil => rfl
  | cons first rest =>
      rw [hs] at hsorted
      have hmem : ∀ r ∈ first :: rest, r.1 ≤ r.2 := fun r hr =>
        h r (List.mem_mergeSort.1 (hs ▸ hr))
      exact covers_mergedAfter code (hmem first (by simp))
        (fun r hr => ⟨List.rel_of_pairwise_cons hsorted hr, hmem r (by simp [hr])⟩)
        (List.Pairwise.of_cons hsorted)

end DocMapper.Text
