import DocMapper.Proofs.Store.Reading

set_option autoImplicit false

/-!
# Reading a cursor to its end

`Cursor.Reads` is the relation between a cursor and the batches that `nextBatch` gives, called again
and again until it gives none. Every cursor comes to its end (`reads_pages`) in one way only
(`Reads.unique`), and collecting it joins what the calls give (`Reads.collect_eq`).

A cursor over the pages of some documents partitions them (`Cursor.Partitions`): its batches are
full up to the last one and make up the documents.
-/

namespace DocMapper

open Store

variable {cursor rest : Cursor} {batch docs : List Document} {batches : List (List Document)}
variable {size : Nat}

/-! ## Calls of `nextBatch` -/

/-- Collecting takes one batch after the other. -/
theorem Store.collect_of_nextBatch (h : cursor.nextBatch = (some batch, rest)) :
    collect cursor = batch ++ collect rest := by
  cases cursor with
  | nil => cases h
  | cons page pages =>
    cases h
    rfl

theorem Store.collect_of_nextBatch_none (h : cursor.nextBatch = (none, rest)) :
    collect cursor = [] := by
  cases cursor with
  | nil => rfl
  | cons page pages => cases h

namespace Cursor

/-- The batches that a cursor gives until a call gives none. -/
inductive Reads : Cursor → List (List Document) → Prop
  /-- The first call gives none. -/
  | done {cursor rest : Cursor} (h : cursor.nextBatch = (none, rest)) : Reads cursor []
  /-- The first call gives a batch, and the calls after it the others. -/
  | next {cursor rest : Cursor} {batch : List Document} {batches : List (List Document)}
      (h : cursor.nextBatch = (some batch, rest)) (hrest : Reads rest batches) :
      Reads cursor (batch :: batches)

theorem reads_pages (cursor : Cursor) : cursor.Reads cursor := by
  induction cursor with
  | nil => exact .done rfl
  | cons page rest ih => exact .next rfl ih

/-- A cursor gives the same batches whenever it is read. -/
theorem Reads.unique {others : List (List Document)} (h : cursor.Reads batches)
    (hothers : cursor.Reads others) : batches = others := by
  induction h generalizing others with
  | done hnone =>
    cases hothers with
    | done => rfl
    | next hsome =>
      rw [hnone] at hsome
      cases hsome
  | next hsome _ ih =>
    cases hothers with
    | done hnone =>
      rw [hsome] at hnone
      cases hnone
    | next hsome' hrest =>
      rw [hsome] at hsome'
      obtain ⟨hbatch, rfl⟩ := Prod.mk.inj hsome'
      rw [Option.some.inj hbatch, ih hrest]

theorem Reads.collect_eq (h : cursor.Reads batches) : collect cursor = batches.flatten := by
  induction h with
  | done hnone => exact collect_of_nextBatch_none hnone
  | next hsome _ ih => rw [collect_of_nextBatch hsome, ih, List.flatten_cons]

/-! ## Partitions -/

/-- Reading a cursor gives some documents in batches of a size. -/
structure Partitions (size : Nat) (docs : List Document) (cursor : Cursor)
    (batches : List (List Document)) : Prop where
  /-- The calls give these batches and no others. -/
  reads_iff : ∀ given, cursor.Reads given ↔ given = batches
  nonempty : ∀ batch ∈ batches, batch ≠ []
  /-- Only the last batch may be smaller than the others. -/
  full : ∀ batch ∈ batches.dropLast, batch.length = size
  fits : ∀ batch ∈ batches, batch.length ≤ size
  joins : batches.flatten = docs
  collects : collect cursor = docs

/-- A cursor over the pages of some documents gives these documents. -/
theorem partitions_pages (hsize : 0 < size) (docs : List Document) :
    Partitions size docs (pages size docs) (pages size docs) where
  reads_iff given := ⟨fun h => h.unique (reads_pages _), fun h => h ▸ reads_pages _⟩
  nonempty _ hbatch := (length_of_mem_pages docs hbatch).1
  full _ := length_of_mem_dropLast_pages docs
  fits _ hbatch := (length_of_mem_pages docs hbatch).2
  joins := flatten_pages hsize docs
  collects := by rw [(reads_pages _).collect_eq, flatten_pages hsize]

end Cursor

end DocMapper
