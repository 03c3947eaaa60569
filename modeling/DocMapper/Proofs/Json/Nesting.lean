import DocMapper.Json.Reader
import Mathlib.Tactic.SplitIfs

set_option autoImplicit false

/-!
# Values inside an array

A text is read as an item of an array in the same way as it is read alone: what it opens stands
above what is open already, and it closes nothing but that. `Reader.inArray` puts a reader into an
array, one step at a time (`step?_inArray`), and so a whole text (`run?_inArray`).

Only the number of arrays and objects that may be open together is shared. `Reader.peak` is the
greatest number that a text has open at a time.
-/

namespace DocMapper.Json.Reader

variable {items : List Json} {outer stack : List Frame} {r next : Reader} {c : Char} {v : Json}
variable {closable : Bool} {text : List Char}

/-- The greatest number of arrays and objects that are open at a time while a text is read. -/
def peak (r : Reader) : List Char → Nat
  | [] => r.stack.length
  | c :: text =>
      match r.step? c with
      | some next => max r.stack.length (peak next text)
      | none => r.stack.length

/-- The reader of a text that is an item of an array: the items before it are given in reverse, and
the arrays and objects around the array from the inside. -/
def inArray (items : List Json) (outer : List Frame) (r : Reader) : Reader :=
  match r.mode with
  | .finished v => ⟨.after, .array (v :: items) :: outer⟩
  | mode => ⟨mode, r.stack ++ .array items :: outer⟩

/-! ## The machine, mode by mode -/

theorem step?_colon :
    step? ⟨.colon, stack⟩ c =
      if isSpace c then some ⟨.colon, stack⟩
      else if c = ':' then some ⟨.value false, stack⟩ else none := rfl

theorem step?_finished :
    step? ⟨.finished v, stack⟩ c = if isSpace c then some ⟨.finished v, stack⟩ else none := rfl

theorem step?_string {isName : Bool} {reader : StringReader} :
    step? ⟨.string isName reader, stack⟩ c =
      if reader.isEnd c then completeString isName reader.text stack
      else (reader.step? c).map fun next => ⟨.string isName next, stack⟩ := rfl

theorem step?_number {reader : NumberReader} :
    step? ⟨.number reader, stack⟩ c =
      match reader.step? c with
      | some next => some ⟨.number next, stack⟩
      | none =>
          reader.finish?.bind fun v => (complete v stack).bind fun done => done.stepOutside c := rfl

theorem step?_number_of_some {reader reader' : NumberReader} (h : reader.step? c = some reader') :
    step? ⟨.number reader, stack⟩ c = some ⟨.number reader', stack⟩ := by
  rw [step?_number, h]

/-- A whole value is the text, or what may come after a value comes next. -/
theorem complete_cases (h : complete v stack = some r) :
    (stack = [] ∧ r = ⟨.finished v, []⟩) ∨
      (stack ≠ [] ∧ ∃ frame rest, r = ⟨.after, frame :: rest⟩) := by
  cases stack with
  | nil => exact Or.inl ⟨rfl, (Option.some.inj h).symm⟩
  | cons frame rest =>
    cases frame with
    | array before => exact Or.inr ⟨List.cons_ne_nil _ _, _, _, (Option.some.inj h).symm⟩
    | object members => cases h
    | member members name => exact Or.inr ⟨List.cons_ne_nil _ _, _, _, (Option.some.inj h).symm⟩

theorem stepOutside_of_complete (h : complete v stack = some r) (c : Char) :
    r.stepOutside c = r.step? c := by
  rcases complete_cases h with ⟨-, rfl⟩ | ⟨-, frame, rest, rfl⟩
  · rfl
  · rfl

theorem step?_number_eq_some_iff_of_none {reader : NumberReader} (h : reader.step? c = none) :
    step? ⟨.number reader, stack⟩ c = some next ↔
      ∃ v, reader.finish? = some v ∧ ∃ done, complete v stack = some done ∧
        done.step? c = some next := by
  rw [step?_number, h]
  simp only [Option.bind_eq_some_iff]
  refine exists_congr fun v => and_congr_right fun _ => exists_congr fun done => ?_
  exact and_congr_right fun hdone => by rw [stepOutside_of_complete hdone]

theorem step?_word {first : Char} {rest : List Char} :
    step? ⟨.word first rest v, stack⟩ c =
      if c = first then
        match rest with
        | [] => complete v stack
        | letter :: others => some ⟨.word letter others v, stack⟩
      else none := rfl

/-! ## Runs -/

theorem run?_cons (r : Reader) (c : Char) (text : List Char) :
    r.run? (c :: text) = (r.step? c).bind fun next => next.run? text := by
  rw [run?, List.foldlM_cons]
  rfl

theorem run?_cons_eq_some_iff :
    r.run? (c :: text) = some next ↔
      ∃ first, r.step? c = some first ∧ first.run? text = some next := by
  rw [run?_cons, Option.bind_eq_some_iff]

theorem run?_append_eq_some_iff {first second : List Char} :
    r.run? (first ++ second) = some next ↔
      ∃ middle, r.run? first = some middle ∧ middle.run? second = some next := by
  rw [run?_append, Option.bind_eq_some_iff]

/-- What is open at the beginning counts. -/
theorem length_stack_le_peak (r : Reader) (text : List Char) : r.stack.length ≤ r.peak text := by
  cases text with
  | nil => exact Nat.le_refl _
  | cons c text =>
    rw [peak]
    split
    · exact Nat.le_max_left _ _
    · exact Nat.le_refl _

/-- What is open after the first character counts. -/
theorem peak_le_of_step (h : r.step? c = some next) (text : List Char) :
    next.peak text ≤ r.peak (c :: text) := by
  rw [peak, h]
  exact Nat.le_max_right _ _

/-- What the beginning of a text has open counts. -/
theorem peak_le_peak_append (r : Reader) (first second : List Char) :
    r.peak first ≤ r.peak (first ++ second) := by
  induction first generalizing r with
  | nil => exact length_stack_le_peak r second
  | cons c first ih =>
    rw [List.cons_append, peak, peak]
    split
    · rename_i next _
      have hrest := ih next
      omega
    · exact Nat.le_refl _

/-- What the end of a text has open counts. -/
theorem peak_le_of_run {first : List Char} (h : r.run? first = some next) (second : List Char) :
    next.peak second ≤ r.peak (first ++ second) := by
  induction first generalizing r with
  | nil =>
    obtain rfl := Option.some.inj h
    exact Nat.le_refl _
  | cons c first ih =>
    obtain ⟨middle, hstep, hrun⟩ := run?_cons_eq_some_iff.1 h
    exact Nat.le_trans (ih hrun) (peak_le_of_step hstep _)

/-! ## One step -/

/-- A value is completed above what is open already, or as an item of the array. -/
theorem complete_append (h : complete v stack = some next) :
    complete v (stack ++ .array items :: outer) = some (next.inArray items outer) := by
  cases stack with
  | nil =>
    obtain rfl := Option.some.inj h
    rfl
  | cons frame rest =>
    cases frame with
    | array before =>
      obtain rfl := Option.some.inj h
      rfl
    | object members => cases h
    | member members name =>
      obtain rfl := Option.some.inj h
      rfl

/-- An array is closed above what is open already. -/
theorem closeArray_append (h : closeArray stack = some next) :
    closeArray (stack ++ .array items :: outer) = some (next.inArray items outer) := by
  cases stack with
  | nil => cases h
  | cons frame rest =>
    cases frame with
    | array before => exact complete_append h
    | object members => cases h
    | member members name => cases h

/-- An object is closed above what is open already. -/
theorem closeObject_append (h : closeObject stack = some next) :
    closeObject (stack ++ .array items :: outer) = some (next.inArray items outer) := by
  cases stack with
  | nil => cases h
  | cons frame rest =>
    cases frame with
    | array before => cases h
    | object members => exact complete_append h
    | member members name => cases h

/-- An array or object is opened above what is open already, if it may be. -/
theorem openFrame_append {frame : Frame} {mode : Mode}
    (h : openFrame stack frame mode = some next)
    (hdepth : next.stack.length + outer.length < maxDepth) :
    next = ⟨mode, frame :: stack⟩ ∧
      openFrame (stack ++ .array items :: outer) frame mode =
        some ⟨mode, frame :: stack ++ .array items :: outer⟩ := by
  unfold openFrame at h
  split at h
  · obtain rfl := Option.some.inj h
    refine ⟨rfl, if_pos ?_⟩
    simp only [List.length_cons, List.length_append] at hdepth ⊢
    omega
  · cases h

/-- A value begins above what is open already. -/
theorem stepValue_append (h : stepValue closable stack c = some next)
    (hdepth : next.stack.length + outer.length < maxDepth) :
    stepValue closable (stack ++ .array items :: outer) c = some (next.inArray items outer) := by
  -- the same branch is taken with every stack, and it opens a frame, closes one or keeps all
  unfold stepValue at h ⊢
  split_ifs at h ⊢
  · obtain rfl := Option.some.inj h
    rfl
  · obtain ⟨hnext, hopen⟩ := openFrame_append h hdepth
    rw [hnext]
    exact hopen
  · obtain ⟨hnext, hopen⟩ := openFrame_append h hdepth
    rw [hnext]
    exact hopen
  · obtain rfl := Option.some.inj h
    rfl
  · obtain rfl := Option.some.inj h
    rfl
  · obtain rfl := Option.some.inj h
    rfl
  · obtain rfl := Option.some.inj h
    rfl
  · exact closeArray_append h
  · obtain ⟨reader, hreader, rfl⟩ := Option.map_eq_some_iff.1 h
    exact Option.map_eq_some_iff.2 ⟨reader, hreader, rfl⟩

/-- The name of a member begins above what is open already. -/
theorem stepName_append (h : stepName closable stack c = some next) :
    stepName closable (stack ++ .array items :: outer) c = some (next.inArray items outer) := by
  unfold stepName at h ⊢
  split_ifs at h ⊢
  · obtain rfl := Option.some.inj h
    rfl
  · obtain rfl := Option.some.inj h
    rfl
  · exact closeObject_append h

/-- What follows a value follows it above what is open already. -/
theorem stepAfter_append (h : stepAfter stack c = some next) :
    stepAfter (stack ++ .array items :: outer) c = some (next.inArray items outer) := by
  unfold stepAfter at h ⊢
  split_ifs at h ⊢
  · obtain rfl := Option.some.inj h
    rfl
  · cases stack with
    | nil => cases h
    | cons frame rest =>
      cases frame with
      | array before =>
        obtain rfl := Option.some.inj h
        rfl
      | object members =>
        obtain rfl := Option.some.inj h
        rfl
      | member members name => cases h
  · exact closeArray_append h
  · exact closeObject_append h

/-- A string is completed above what is open already. -/
theorem completeString_append {isName : Bool} {string : String}
    (h : completeString isName string stack = some next) :
    completeString isName string (stack ++ .array items :: outer) =
      some (next.inArray items outer) := by
  unfold completeString at h ⊢
  split_ifs at h ⊢
  · cases stack with
    | nil => cases h
    | cons frame rest =>
      cases frame with
      | array before => cases h
      | object members =>
        obtain rfl := Option.some.inj h
        rfl
      | member members name => cases h
  · exact complete_append h

/-- Spaces may follow an item as they may follow the whole text. -/
theorem step?_inArray_finished (h : step? ⟨.finished v, stack⟩ c = some next) :
    (inArray items outer ⟨.finished v, stack⟩).step? c = some (next.inArray items outer) := by
  rw [step?_finished] at h
  split_ifs at h with hspace
  obtain rfl := Option.some.inj h
  exact if_pos hspace

/-- What follows a value follows it in the array. -/
theorem step?_inArray_of_complete (hdone : complete v stack = some r) (h : r.step? c = some next) :
    (r.inArray items outer).step? c = some (next.inArray items outer) := by
  rcases complete_cases hdone with ⟨-, rfl⟩ | ⟨-, frame, rest, rfl⟩
  · exact step?_inArray_finished h
  · exact stepAfter_append h

/-- One character is read in an array as it is read alone, if what it opens may be open. -/
theorem step?_inArray (h : r.step? c = some next)
    (hdepth : next.stack.length + outer.length < maxDepth) :
    (r.inArray items outer).step? c = some (next.inArray items outer) := by
  -- what is read in an array does not touch what is open around it, in any mode
  obtain ⟨mode, stack⟩ := r
  cases mode with
  | value closable => exact stepValue_append h hdepth
  | name closable => exact stepName_append h
  | after => exact stepAfter_append h
  | finished v => exact step?_inArray_finished h
  | colon =>
    show step? ⟨.colon, stack ++ .array items :: outer⟩ c = _
    rw [step?_colon] at h ⊢
    split_ifs at h ⊢
    · obtain rfl := Option.some.inj h
      rfl
    · obtain rfl := Option.some.inj h
      rfl
  | string isName reader =>
    show step? ⟨.string isName reader, stack ++ .array items :: outer⟩ c = _
    rw [step?_string] at h ⊢
    split_ifs at h ⊢
    · exact completeString_append h
    · obtain ⟨reader', hreader, rfl⟩ := Option.map_eq_some_iff.1 h
      exact Option.map_eq_some_iff.2 ⟨reader', hreader, rfl⟩
  | number reader =>
    show step? ⟨.number reader, stack ++ .array items :: outer⟩ c = _
    cases hreader : reader.step? c with
    | some reader' =>
      rw [step?_number_of_some hreader] at h
      obtain rfl := Option.some.inj h
      exact step?_number_of_some hreader
    | none =>
      obtain ⟨v, hv, done, hcomplete, hdone⟩ := (step?_number_eq_some_iff_of_none hreader).1 h
      exact (step?_number_eq_some_iff_of_none hreader).2
        ⟨v, hv, _, complete_append hcomplete, step?_inArray_of_complete hcomplete hdone⟩
  | word first rest v =>
    show step? ⟨.word first rest v, stack ++ .array items :: outer⟩ c = _
    rw [step?_word] at h ⊢
    split_ifs at h ⊢
    cases rest with
    | nil => exact complete_append h
    | cons letter others =>
      obtain rfl := Option.some.inj h
      rfl

/-! ## Whole texts -/

/-- A text is read in an array as it is read alone, if what it opens may be open. -/
theorem run?_inArray (h : r.run? text = some next)
    (hdepth : r.peak text + outer.length < maxDepth) :
    (r.inArray items outer).run? text = some (next.inArray items outer) := by
  -- the peak of a text is a bound for what is open after each of its characters
  induction text generalizing r with
  | nil =>
    obtain rfl := Option.some.inj h
    rfl
  | cons c text ih =>
    obtain ⟨first, hstep, hrun⟩ := run?_cons_eq_some_iff.1 h
    have hpeak := peak_le_of_step hstep text
    have hopen := length_stack_le_peak first text
    exact run?_cons_eq_some_iff.2
      ⟨_, step?_inArray hstep (by omega), ih hrun (by omega)⟩

end DocMapper.Json.Reader
