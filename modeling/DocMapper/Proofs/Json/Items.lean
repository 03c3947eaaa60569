import DocMapper.Proofs.Json.Contents

set_option autoImplicit false

/-!
# One item more

An array that is read from a text ends at a place where a comma and an item could come instead of
the closing bracket, unless it has no items; then the item could come alone. So an object whose text
is written there is read as the item that it is when it is read alone (`ofText?_array_append`).
Blanks before the bracket and around the text of the object make no difference.
-/

namespace DocMapper.Json

namespace Reader

variable {stack : List Frame} {r next : Reader} {c : Char} {v : Json} {closable : Bool}
variable {blanks : List Char} {items : List Json}

/-! ## Blanks between values -/

/-- Where a value begins, only a space may come of the blanks. -/
theorem stepValue_of_isBlank (hc : Text.isBlank c = true) :
    stepValue closable stack c = if isSpace c then some ⟨.value closable, stack⟩ else none := by
  have harray : c ≠ '[' := ne_of_isBlank hc rfl
  have hobject : c ≠ '\x7b' := ne_of_isBlank hc rfl
  have hquote : c ≠ '"' := ne_of_isBlank hc rfl
  have ht : c ≠ 't' := ne_of_isBlank hc rfl
  have hf : c ≠ 'f' := ne_of_isBlank hc rfl
  have hn : c ≠ 'n' := ne_of_isBlank hc rfl
  have hclose : ¬ (c = ']' ∧ closable = true) := fun h => ne_of_isBlank hc rfl h.1
  have hstart := NumberReader.start?_eq_none (endsNumber_of_isBlank hc)
  unfold stepValue
  rw [if_neg harray, if_neg hobject, if_neg hquote, if_neg ht, if_neg hf, if_neg hn,
    if_neg hclose, hstart]
  rfl

theorem stepName_of_isBlank (hc : Text.isBlank c = true) :
    stepName closable stack c = if isSpace c then some ⟨.name closable, stack⟩ else none := by
  have hquote : c ≠ '"' := ne_of_isBlank hc rfl
  have hclose : ¬ (c = '\x7d' ∧ closable = true) := fun h => ne_of_isBlank hc rfl h.1
  unfold stepName
  rw [if_neg hquote, if_neg hclose]

/-- After a value, only a space may come of the blanks. -/
theorem stepAfter_of_isBlank (hc : Text.isBlank c = true) :
    stepAfter stack c = if isSpace c then some ⟨.after, stack⟩ else none := by
  have hcomma : c ≠ ',' := ne_of_isBlank hc rfl
  have hclose : c ≠ ']' := ne_of_isBlank hc rfl
  have hclose' : c ≠ '\x7d' := ne_of_isBlank hc rfl
  unfold stepAfter
  rw [if_neg hcomma, if_neg hclose, if_neg hclose']

theorem eq_of_ite_eq_some {p : Prop} [Decidable p] (h : (if p then some r else none) = some next) :
    next = r := by
  split_ifs at h
  exact (Option.some.inj h).symm

theorem eq_of_step_of_complete (hc : Text.isBlank c = true) (hdone : complete v stack = some r)
    (h : r.step? c = some next) : next = r := by
  rcases complete_cases hdone with ⟨-, rfl⟩ | ⟨-, frame, rest, rfl⟩
  · exact eq_of_ite_eq_some h
  · exact eq_of_ite_eq_some ((stepAfter_of_isBlank hc).symm.trans h)

/-- A blank in the contents changes nothing, or it stands in a string, or it ends a number. -/
theorem InContents.step_of_isBlank (hr : r.InContents) (hc : Text.isBlank c = true)
    (h : r.step? c = some next) :
    next = r ∨ (∃ isName reader, next.mode = .string isName reader) ∨
      ∃ reader v, r.mode = .number reader ∧ reader.finish? = some v ∧
        complete v r.stack = some next := by
  obtain ⟨mode, stack⟩ := r
  cases mode with
  | value closable => exact Or.inl (eq_of_ite_eq_some ((stepValue_of_isBlank hc).symm.trans h))
  | name closable => exact Or.inl (eq_of_ite_eq_some ((stepName_of_isBlank hc).symm.trans h))
  | colon =>
    have hcolon : c ≠ ':' := ne_of_isBlank hc rfl
    rw [step?_colon, if_neg hcolon] at h
    exact Or.inl (eq_of_ite_eq_some h)
  | after => exact Or.inl (eq_of_ite_eq_some ((stepAfter_of_isBlank hc).symm.trans h))
  | finished v => exact Or.inl (eq_of_ite_eq_some h)
  | string isName reader =>
    have hend : reader.isEnd c = false := by
      have hquote : c ≠ '"' := ne_of_isBlank hc rfl
      simp [StringReader.isEnd, hquote]
    rw [step?_string, hend] at h
    obtain ⟨reader', -, rfl⟩ := Option.map_eq_some_iff.1 h
    exact Or.inr (Or.inl ⟨isName, reader', rfl⟩)
  | number reader =>
    have hreader := reader.step?_eq_none (endsNumber_of_isBlank hc)
    obtain ⟨v, hv, done, hdone, hstep⟩ := (step?_number_eq_some_iff_of_none hreader).1 h
    obtain rfl := eq_of_step_of_complete hc hdone hstep
    exact Or.inr (Or.inr ⟨reader, v, rfl, hv, hdone⟩)
  | word first rest v =>
    -- the letters of a word are no blanks
    rw [step?_word] at h
    split_ifs at h with hfirst
    have hlower := hr.2 first List.mem_cons_self
    rw [← hfirst, isLower_of_isBlank hc] at hlower
    cases hlower

/-! ## The end of a text -/

theorem result?_of_complete (h : complete v stack = some r) :
    r.result? = if stack.isEmpty then some v else none := by
  rcases complete_cases h with ⟨rfl, rfl⟩ | ⟨hopen, frame, rest, rfl⟩
  · rfl
  · rw [List.isEmpty_eq_false_iff.2 hopen]
    rfl

/-- A value in an array or object is followed by what may come after it. -/
theorem exists_eq_after_of_complete (hopen : stack ≠ []) (h : complete v stack = some r) :
    ∃ rest, r = ⟨.after, rest⟩ := by
  rcases complete_cases h with ⟨hempty, -⟩ | ⟨-, frame, rest, rfl⟩
  · exact absurd hempty hopen
  · exact ⟨frame :: rest, rfl⟩

/-- Contents that have begun give a result when they are complete. -/
theorem InContents.mode_eq_of_result? (hr : r.InContents) (hv : r.result? = some v) :
    r.mode = .finished v := by
  obtain ⟨mode, stack⟩ := r
  cases mode with
  | finished w =>
    obtain rfl := Option.some.inj hv
    rfl
  | number reader =>
    have hopen : stack ≠ [] := hr
    have hnone : result? ⟨.number reader, stack⟩ = none :=
      if_neg fun hempty => hopen (List.isEmpty_iff.1 hempty)
    rw [hnone] at hv
    cases hv
  | value closable => cases hv
  | name closable => cases hv
  | colon => cases hv
  | after => cases hv
  | string isName reader => cases hv
  | word first rest w => cases hv

/-- Blanks after the contents are not needed for a result. -/
theorem InContents.result?_of_blanks (hr : r.InContents)
    (hblanks : ∀ c ∈ blanks, Text.isBlank c = true) (h : r.run? blanks = some next)
    (hv : next.result? = some v) : r.result? = some v := by
  induction blanks generalizing r with
  | nil =>
    obtain rfl := Option.some.inj h
    exact hv
  | cons c blanks ih =>
    obtain ⟨first, hstep, hrun⟩ := run?_cons_eq_some_iff.1 h
    rw [List.forall_mem_cons] at hblanks
    have hfirst := ih (hr.step hstep) hblanks.2 hrun
    rcases hr.step_of_isBlank hblanks.1 hstep with
      rfl | ⟨isName, reader, hmode⟩ | ⟨reader, w, hmode, -, hdone⟩
    · exact hfirst
    · rw [(hr.step hstep).mode_eq_of_result? hfirst] at hmode
      cases hmode
    · -- around the number something is open
      have hopen : r.stack ≠ [] := by
        unfold InContents at hr
        rw [hmode] at hr
        exact hr
      obtain ⟨rest, rfl⟩ := exists_eq_after_of_complete hopen hdone
      cases hfirst

/-- Where the last bracket of a text closes an array, a comma could come. -/
theorem exists_items_of_stepAfter (h : stepAfter stack ']' = some next)
    (hv : next.result? = some v) : ∃ items, stack = [.array items] ∧ v = .array items.reverse := by
  have hclose : closeArray stack = some next := h
  unfold closeArray at hclose
  split at hclose
  · rename_i items rest
    rw [result?_of_complete hclose] at hv
    cases rest with
    | nil => exact ⟨items, rfl, (Option.some.inj hv).symm⟩
    | cons frame rest => cases hv
  · cases hclose

/-- Where the last bracket of a text stands, a comma and an item more could come. -/
theorem InContents.exists_items (hr : r.InContents) (h : r.step? ']' = some next)
    (hv : next.result? = some v) :
    ∃ items, v = .array items.reverse ∧ r.step? ',' = some ⟨.value false, [.array items]⟩ := by
  obtain ⟨mode, stack⟩ := r
  cases mode with
  | value closable =>
    cases closable with
    | false => cases h
    | true =>
      -- the bracket would close an array within the outermost one
      obtain ⟨items, rfl, -⟩ := exists_items_of_stepAfter h hv
      exact absurd hr (Nat.lt_irrefl 1)
  | name closable => cases closable <;> cases h
  | colon => cases h
  | after =>
    obtain ⟨items, rfl, rfl⟩ := exists_items_of_stepAfter h hv
    exact ⟨items, rfl, rfl⟩
  | finished w => cases h
  | string isName reader =>
    have hend : reader.isEnd ']' = false := by simp [StringReader.isEnd]
    rw [step?_string, hend] at h
    obtain ⟨reader', -, rfl⟩ := Option.map_eq_some_iff.1 h
    cases hv
  | number reader =>
    have hreader : reader.step? ']' = none := reader.step?_eq_none rfl
    have hreader' : reader.step? ',' = none := reader.step?_eq_none rfl
    obtain ⟨w, hw, done, hdone, hstep⟩ := (step?_number_eq_some_iff_of_none hreader).1 h
    -- the number ends before the bracket, as it would before a comma
    obtain ⟨rest, rfl⟩ := exists_eq_after_of_complete hr hdone
    obtain ⟨items, rfl, rfl⟩ := exists_items_of_stepAfter hstep hv
    exact ⟨items, rfl, (step?_number_eq_some_iff_of_none hreader').2 ⟨w, hw, _, hdone, rfl⟩⟩
  | word first rest w =>
    rw [step?_word] at h
    split_ifs at h with hfirst
    have hlower := hr.2 first List.mem_cons_self
    rw [← hfirst] at hlower
    cases hlower

/-- Blanks before the last bracket do not matter to what could stand in its place. -/
theorem InContents.exists_items_of_blanks (hr : r.InContents)
    (hblanks : ∀ c ∈ blanks, Text.isBlank c = true) (h : r.run? (blanks ++ [']']) = some next)
    (hv : next.result? = some v) :
    ∃ items, v = .array items.reverse ∧ r.step? ',' = some ⟨.value false, [.array items]⟩ := by
  induction blanks generalizing r with
  | nil =>
    obtain ⟨last, hstep, hlast⟩ := run?_cons_eq_some_iff.1 h
    obtain rfl := Option.some.inj hlast
    exact hr.exists_items hstep hv
  | cons c blanks ih =>
    obtain ⟨first, hstep, hrun⟩ := run?_cons_eq_some_iff.1 h
    rw [List.forall_mem_cons] at hblanks
    obtain ⟨items, rfl, hcomma⟩ := ih (hr.step hstep) hblanks.2 hrun
    refine ⟨items, rfl, ?_⟩
    rcases hr.step_of_isBlank hblanks.1 hstep with
      rfl | ⟨isName, reader, hmode⟩ | ⟨reader, w, hmode, hw, hdone⟩
    · exact hcomma
    · -- a comma in a string would not end it
      obtain ⟨mode, stack⟩ := first
      obtain rfl : mode = .string isName reader := hmode
      have hend : reader.isEnd ',' = false := by simp [StringReader.isEnd]
      rw [step?_string, hend] at hcomma
      obtain ⟨reader', -, hreader'⟩ := Option.map_eq_some_iff.1 hcomma
      cases hreader'
    · obtain ⟨mode, stack⟩ := r
      obtain rfl : mode = .number reader := hmode
      have hreader : reader.step? ',' = none := reader.step?_eq_none rfl
      exact (step?_number_eq_some_iff_of_none hreader).2 ⟨w, hw, first, hdone, hcomma⟩

/-- Blanks before a text are not read. -/
theorem eq_of_run?_blanks (hblanks : ∀ c ∈ blanks, Text.isBlank c = true)
    (h : run? ⟨.value closable, stack⟩ blanks = some next) : next = ⟨.value closable, stack⟩ := by
  induction blanks with
  | nil => exact (Option.some.inj h).symm
  | cons c blanks ih =>
    obtain ⟨first, hstep, hrun⟩ := run?_cons_eq_some_iff.1 h
    rw [List.forall_mem_cons] at hblanks
    obtain rfl := eq_of_ite_eq_some ((stepValue_of_isBlank hblanks.1).symm.trans hstep)
    exact ih hblanks.2 hrun

/-! ## An object in an array -/

variable {before after object front : List Char} {w : Json}

/-- The text of an object in an array is read as the object that it is when it is read alone. -/
theorem run?_object_inArray (hbefore : ∀ c ∈ before, Text.isBlank c = true)
    (hafter : ∀ c ∈ after, Text.isBlank c = true)
    (h : ofText? (before ++ ('\x7b' :: object ++ after)) = some v)
    (hdepth : start.peak (before ++ ('\x7b' :: object ++ after)) < maxDepth) :
    run? ⟨.value closable, [.array items]⟩ ('\x7b' :: object) =
      some ⟨.after, [.array (v :: items)]⟩ := by
  obtain ⟨last, hrun, hv⟩ := Option.bind_eq_some_iff.1 h
  obtain ⟨first, hfirst, hrun⟩ := run?_append_eq_some_iff.1 hrun
  obtain ⟨done, hobject, hblanks⟩ := run?_append_eq_some_iff.1 hrun
  obtain rfl : first = start := eq_of_run?_blanks hbefore hfirst
  obtain ⟨opened, hopen, hrest⟩ := run?_cons_eq_some_iff.1 hobject
  obtain rfl : opened = ⟨.name true, [.object []]⟩ := (Option.some.inj hopen).symm
  -- the object is complete before the blanks, and has no more open than the whole text
  have hopened : InContents ⟨.name true, [.object []]⟩ := List.cons_ne_nil _ _
  have hdone : done.mode = .finished v := (hopened.run hrest).mode_eq_of_result?
    ((hopened.run hrest).result?_of_blanks hafter hblanks hv)
  have hpeak : peak ⟨.name true, [.object []]⟩ object < maxDepth :=
    calc peak ⟨.name true, [.object []]⟩ object
      _ ≤ start.peak ('\x7b' :: object) := peak_le_of_step hopen object
      _ ≤ start.peak ('\x7b' :: object ++ after) := peak_le_peak_append _ _ _
      _ ≤ start.peak (before ++ ('\x7b' :: object ++ after)) := peak_le_of_run hfirst _
      _ < maxDepth := hdepth
  have hinside : run? ⟨.name true, [.object [], .array items]⟩ object =
      some (done.inArray items []) := run?_inArray hrest hpeak
  obtain ⟨mode, stack⟩ := done
  obtain rfl : mode = .finished v := hdone
  exact run?_cons_eq_some_iff.2 ⟨_, rfl, hinside⟩

end Reader

open Reader

variable {before after object front blanks : List Char} {v w : Json}

/-- An array whose text is empty but for blanks has no items. -/
theorem eq_of_ofText?_blanks (hblanks : ∀ c ∈ blanks, Text.isBlank c = true)
    (h : ofText? ('[' :: (blanks ++ [']'])) = some w) : w = .array [] := by
  obtain ⟨last, hrun, hw⟩ := Option.bind_eq_some_iff.1 h
  obtain ⟨opened, hopen, hrun⟩ := run?_cons_eq_some_iff.1 hrun
  obtain rfl : opened = ⟨.value true, [.array []]⟩ := (Option.some.inj hopen).symm
  obtain ⟨first, hfirst, hclose⟩ := run?_append_eq_some_iff.1 hrun
  obtain rfl := eq_of_run?_blanks hblanks hfirst
  obtain rfl : last = ⟨.finished (.array []), []⟩ := (Option.some.inj hclose).symm
  exact (Option.some.inj hw).symm

/-- Where an array is read whose contents are more than blanks, a comma may come for the last
bracket, and then an item. -/
theorem exists_items_of_ofText? (hfront : ∃ c ∈ front, ¬ Text.isBlank c = true)
    (hblanks : ∀ c ∈ blanks, Text.isBlank c = true)
    (h : ofText? ('[' :: (front ++ (blanks ++ [']']))) = some w) :
    ∃ items, w = .array items.reverse ∧
      start.run? ('[' :: (front ++ [','])) = some ⟨.value false, [.array items]⟩ := by
  obtain ⟨last, hrun, hw⟩ := Option.bind_eq_some_iff.1 h
  obtain ⟨opened, hopen, hrun⟩ := run?_cons_eq_some_iff.1 hrun
  obtain rfl : opened = ⟨.value true, [.array []]⟩ := (Option.some.inj hopen).symm
  obtain ⟨inside, hinside, hclose⟩ := run?_append_eq_some_iff.1 hrun
  -- a space is a blank, so the contents have begun
  have hspace : ∃ c ∈ front, ¬ isSpace c = true := by
    obtain ⟨c, hc, hnot⟩ := hfront
    exact ⟨c, hc, fun h => hnot (isBlank_of_isSpace h)⟩
  obtain ⟨items, rfl, hcomma⟩ :=
    (inContents_of_run hinside hspace).exists_items_of_blanks hblanks hclose hw
  refine ⟨items, rfl, run?_cons_eq_some_iff.2 ⟨_, hopen, ?_⟩⟩
  exact run?_append_eq_some_iff.2 ⟨inside, hinside, run?_cons_eq_some_iff.2 ⟨_, hcomma, rfl⟩⟩

/-- The text of an object that is read alone may be written at the end of an array, behind a comma
unless the array has only blanks. Then the array has the object as one item more. -/
theorem ofText?_array_append (hfront : front = [] ∨ ∃ c ∈ front, ¬ Text.isBlank c = true)
    (hblanks : ∀ c ∈ blanks, Text.isBlank c = true)
    (hbefore : ∀ c ∈ before, Text.isBlank c = true) (hafter : ∀ c ∈ after, Text.isBlank c = true)
    (harray : ofText? ('[' :: (front ++ (blanks ++ [']']))) = some w)
    (hobject : ofText? (before ++ ('\x7b' :: object ++ after)) = some v)
    (hdepth : start.peak (before ++ ('\x7b' :: object ++ after)) < maxDepth) :
    ∃ items, w = .array items ∧
      ofText? ('[' :: (front ++ ((if front.isEmpty then [] else [',']) ++
        ('\x7b' :: object ++ [']'])))) = some (.array (items ++ [v])) := by
  -- the array is read up to the place of the object
  obtain ⟨items, closable, rfl, hplace⟩ : ∃ items closable, w = .array items.reverse ∧
      start.run? ('[' :: (front ++ if front.isEmpty then [] else [','])) =
        some ⟨.value closable, [.array items]⟩ := by
    rcases hfront with rfl | hfront
    · exact ⟨[], true, eq_of_ofText?_blanks hblanks harray, rfl⟩
    · obtain ⟨items, hw, hrun⟩ := exists_items_of_ofText? hfront hblanks harray
      have hne : front.isEmpty = false :=
        List.isEmpty_eq_false_iff.2 (List.ne_nil_of_mem hfront.choose_spec.1)
      rw [hne]
      exact ⟨items, false, hw, hrun⟩
  refine ⟨items.reverse, rfl, Option.bind_eq_some_iff.2 ⟨⟨.finished _, []⟩, ?_, rfl⟩⟩
  rw [← List.append_assoc, ← List.cons_append, run?_append_eq_some_iff]
  refine ⟨_, hplace, run?_append_eq_some_iff.2
    ⟨_, run?_object_inArray hbefore hafter hobject hdepth, ?_⟩⟩
  -- the bracket closes the array behind the object
  rw [← List.reverse_cons]
  rfl

end DocMapper.Json
