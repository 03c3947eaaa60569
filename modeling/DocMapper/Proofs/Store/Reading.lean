import DocMapper.Proofs.Store.Runs
import DocMapper.Store.Find

set_option autoImplicit false

/-!
# What a store answers

A find and a listing change nothing but the journal, and their answers are determined by the catalog
(`runOn_find`, `runOn_listCollections`). The pages of an answer make up the selected documents
(`collect_pages`).
-/

namespace DocMapper

/-! ## Pages -/

section Pages

variable {α β : Type} {size : Nat}

theorem pages_eq_nil {items : List α} (h : items.isEmpty = true ∨ size = 0) :
    pages size items = [] := by
  rw [pages, if_pos h]

theorem pages_eq_cons {items : List α} (h : ¬ (items.isEmpty = true ∨ size = 0)) :
    pages size items = items.take size :: pages size (items.drop size) := by
  rw [pages, if_neg h]

/-- A list that is not empty and fits into one page is that page. -/
theorem pages_of_length_le (hsize : 0 < size) {items : List α} (hitems : items ≠ [])
    (hlength : items.length ≤ size) : pages size items = [items] := by
  have hsome : ¬ (items.isEmpty = true ∨ size = 0) := by
    rw [List.isEmpty_iff, not_or]
    exact ⟨hitems, Nat.ne_of_gt hsize⟩
  rw [pages_eq_cons hsome, List.take_of_length_le hlength, List.drop_eq_nil_of_le hlength,
    pages_eq_nil (.inl rfl)]

/-- The pages of a list make up the list. -/
theorem flatten_pages (hsize : 0 < size) (items : List α) : (pages size items).flatten = items := by
  induction items using pages.induct size with
  | case1 items h =>
    rw [pages_eq_nil h]
    rcases h with h | h
    · exact (List.isEmpty_iff.1 h).symm
    · omega
  | case2 items h ih =>
    rw [pages_eq_cons h, List.flatten_cons, ih]
    exact List.take_append_drop size items

/-- A list that is divided into no pages is empty. -/
theorem pages_isEmpty (hsize : 0 < size) (items : List α) :
    (pages size items).isEmpty = items.isEmpty := by
  cases hitems : items.isEmpty with
  | true =>
    rw [pages_eq_nil (.inl hitems)]
    rfl
  | false =>
    rw [pages_eq_cons (by simp [hitems]; omega)]
    rfl

/-- No page is empty or longer than its size. -/
theorem length_of_mem_pages (items : List α) {page : List α} (h : page ∈ pages size items) :
    page ≠ [] ∧ page.length ≤ size := by
  induction items using pages.induct size with
  | case1 items hnone =>
    rw [pages_eq_nil hnone] at h
    cases h
  | case2 items hsome ih =>
    rw [pages_eq_cons hsome] at h
    rcases List.mem_cons.1 h with rfl | h
    · simp only [List.isEmpty_iff, not_or] at hsome
      exact ⟨by simp [hsome], List.length_take_le size items⟩
    · exact ih h

/-- All pages but the last one are full. -/
theorem length_of_mem_dropLast_pages (items : List α) {page : List α}
    (h : page ∈ (pages size items).dropLast) : page.length = size := by
  induction items using pages.induct size with
  | case1 items hnone =>
    rw [pages_eq_nil hnone] at h
    cases h
  | case2 items hsome ih =>
    rw [pages_eq_cons hsome] at h
    by_cases hrest : pages size (items.drop size) = []
    · rw [hrest] at h
      cases h
    · rw [List.dropLast_cons_of_ne_nil hrest] at h
      rcases List.mem_cons.1 h with rfl | h
      · -- there are items after a page that is not the last one
        have hmore : items.drop size ≠ [] := fun hnil =>
          hrest (pages_eq_nil (.inl (List.isEmpty_iff.2 hnil)))
        rw [Ne, List.drop_eq_nil_iff, Nat.not_le] at hmore
        exact List.length_take_of_le (Nat.le_of_lt hmore)
      · exact ih h

/-- There are as many pages as are needed for the items. -/
theorem length_pages (hsize : 0 < size) (items : List α) :
    (pages size items).length = (items.length + size - 1) / size := by
  induction items using pages.induct size with
  | case1 items h =>
    rw [pages_eq_nil h]
    rcases h with h | h
    · rw [List.isEmpty_iff.1 h]
      exact (Nat.div_eq_of_lt (by simp; omega)).symm
    · omega
  | case2 items h ih =>
    rw [pages_eq_cons h, List.length_cons, ih, List.length_drop]
    simp only [List.isEmpty_iff, not_or] at h
    have hpos := List.length_pos_iff.2 h.1
    by_cases hle : items.length ≤ size
    · -- one page holds all items
      rw [Nat.sub_eq_zero_of_le hle, Nat.div_eq_of_lt (by omega), Nat.zero_add,
        show items.length + size - 1 = items.length - 1 + size by omega,
        Nat.add_div_right _ hsize, Nat.div_eq_of_lt (by omega)]
    · rw [show items.length + size - 1 = items.length - size + size - 1 + size by omega,
        Nat.add_div_right _ hsize]

/-- The pages of a list whose items are changed are its changed pages. -/
theorem pages_map (size : Nat) (f : α → β) (items : List α) :
    pages size (items.map f) = (pages size items).map (List.map f) := by
  induction items using pages.induct size with
  | case1 items h =>
    rw [pages_eq_nil h, pages_eq_nil (by rwa [List.isEmpty_map])]
    rfl
  | case2 items h ih =>
    rw [pages_eq_cons h, pages_eq_cons (by rwa [List.isEmpty_map]), List.map_cons, ← ih,
      List.map_take, List.map_drop]

end Pages

theorem FindOptions.effectiveBatchSize_pos (options : FindOptions) :
    0 < options.effectiveBatchSize := by
  unfold effectiveBatchSize
  split
  · exact Nat.succ_pos _
  · decide

namespace Store

variable {filter : Document} {f : Filter}

theorem collect_pages (options : FindOptions) (docs : List Document) :
    collect (pages options.effectiveBatchSize docs) = docs :=
  flatten_pages options.effectiveBatchSize_pos docs

/-- A find answers with the pages of the documents that its filter selects. -/
theorem runOn_find (collection : String) (options : FindOptions) (s : Store)
    (hf : compileFilter filter = .ok f) :
    (find collection filter options).runOn s =
      (.ok (pages options.effectiveBatchSize
          (selectDocuments f options (s.catalog.documents collection))),
        s.record (.find collection filter options.effectiveBatchSize)) := by
  rw [find, Action.runOn_bind, Action.runOn_ofExcept, hf]
  rfl

theorem runOn_find_of_fault {e : Error} (collection : String) (options : FindOptions) (s : Store)
    (hf : compileFilter filter = .error e) :
    (find collection filter options).runOn s = (.error e, s) := by
  rw [find, Action.runOn_bind, Action.runOn_ofExcept, hf]

theorem runOn_listCollections {pattern : String} {regex : Regex}
    (h : Regex.ofText? pattern = some regex) (s : Store) :
    (listCollections pattern).runOn s =
      (.ok (s.catalog.names.filter regex.find), s.record (.list pattern)) := by
  rw [listCollections, h]
  rfl

theorem runOn_listCollections_of_none {pattern : String} (h : Regex.ofText? pattern = none)
    (s : Store) :
    (listCollections pattern).runOn s = (.error (.malformedPattern pattern), s) := by
  rw [listCollections, h]
  rfl

/-- A listing that succeeds has read its pattern and gives the names that it matches. -/
theorem exists_of_listCollections {pattern : String} {names : List String} {s t : Store}
    (h : (listCollections pattern).runOn s = (.ok names, t)) :
    ∃ regex, Regex.ofText? pattern = some regex ∧ names = s.catalog.names.filter regex.find ∧
      t = s.record (.list pattern) := by
  cases hr : Regex.ofText? pattern with
  | none =>
    rw [runOn_listCollections_of_none hr] at h
    cases h
  | some regex =>
    rw [runOn_listCollections hr] at h
    obtain ⟨hnames, ht⟩ := Prod.mk.inj h
    exact ⟨regex, rfl, (Except.ok.inj hnames).symm, ht.symm⟩

end Store

end DocMapper
