import DocMapper.Proofs.Json.Nesting
import DocMapper.Text.Segments

set_option autoImplicit false

/-!
# Within the contents of an array or object

`Reader.InContents` says of a reader that the contents of the outermost array or object have begun.
It holds from the first character that is no space (`inContents_of_run`), and every step keeps it
(`InContents.step`): what is open does not become empty before the whole text is a value, and only
an array within another one may still be closed as an empty one.

Blanks end numbers, and they are no letters of words.
-/

namespace DocMapper.Json

/-! ## The end of a number -/

/-- Whether a character does not continue a number. -/
def endsNumber (c : Char) : Bool :=
  !c.isDigit && c ≠ '.' && c ≠ 'e' && c ≠ 'E' && c ≠ '+' && c ≠ '-'

namespace NumberReader

variable {c : Char}

theorem digit?_eq_none (h : c.isDigit = false) : digit? c = none := by
  rw [digit?, h]
  rfl

theorem markPhase?_eq_none {n : Nat} {places : Int} {pointAllowed : Bool}
    (h : c ≠ '.' ∧ c ≠ 'e' ∧ c ≠ 'E') : markPhase? n places pointAllowed c = none := by
  simp [markPhase?, h]

/-- A number ends before a character that does not continue it. -/
theorem step?_eq_none (reader : NumberReader) (h : endsNumber c = true) :
    reader.step? c = none := by
  simp only [endsNumber, Bool.and_eq_true, Bool.not_eq_true', decide_eq_true_eq] at h
  obtain ⟨⟨⟨⟨⟨hdigit, hpoint⟩, he⟩, hE⟩, hplus⟩, hminus⟩ := h
  have hnone := digit?_eq_none hdigit
  have hzero : c ≠ '0' := by
    rintro rfl
    cases hdigit
  rw [step?, Option.map_eq_none_iff]
  cases reader.phase <;>
    simp [nextPhase?, markPhase?_eq_none, *]

/-- A number does not begin with a character that does not continue one. -/
theorem start?_eq_none (h : endsNumber c = true) : start? c = none := by
  simp only [endsNumber, Bool.and_eq_true, Bool.not_eq_true', decide_eq_true_eq] at h
  have hzero : c ≠ '0' := by
    rintro rfl
    cases h.1.1.1.1.1
  simp [start?, h.2, hzero, digit?_eq_none h.1.1.1.1.1]

end NumberReader

/-! ## Blanks -/

section Blanks

variable {c : Char}

theorem ne_of_isBlank (h : Text.isBlank c = true) {other : Char}
    (hother : Text.isBlank other = false) : c ≠ other := by
  rintro rfl
  rw [h] at hother
  cases hother

theorem isBlank_of_isSpace (h : Reader.isSpace c = true) : Text.isBlank c = true := by
  simp only [Reader.isSpace, Bool.or_eq_true, decide_eq_true_eq] at h
  rcases h with ((rfl | rfl) | rfl) | rfl <;> rfl

/-- A blank does not continue a number. -/
theorem endsNumber_of_isBlank (h : Text.isBlank c = true) : endsNumber c = true := by
  have hdigit : c.isDigit = false := by
    have hbounds : '0'.toNat = 48 ∧ '9'.toNat = 57 := by decide
    simp only [Text.isBlank, Bool.or_eq_true, Bool.and_eq_true, decide_eq_true_eq, beq_iff_eq] at h
    rw [← Bool.not_eq_true, Char.isDigit_iff_toNat]
    omega
  have hpoint : c ≠ '.' := ne_of_isBlank h rfl
  have he : c ≠ 'e' := ne_of_isBlank h rfl
  have hE : c ≠ 'E' := ne_of_isBlank h rfl
  have hplus : c ≠ '+' := ne_of_isBlank h rfl
  have hminus : c ≠ '-' := ne_of_isBlank h rfl
  simp [endsNumber, *]

/-- A blank is no letter. -/
theorem isLower_of_isBlank (h : Text.isBlank c = true) : c.isLower = false := by
  have hbounds : 'a'.toNat = 97 ∧ 'z'.toNat = 122 := by decide
  simp only [Text.isBlank, Bool.or_eq_true, Bool.and_eq_true, decide_eq_true_eq, beq_iff_eq] at h
  rw [← Bool.not_eq_true]
  intro hlower
  have hrange : (decide ('a' ≤ c) && decide (c ≤ 'z')) = true := hlower
  rw [Bool.and_eq_true, decide_eq_true_iff, decide_eq_true_iff, Char.le_def, Char.le_def,
    UInt32.le_iff_toNat_le, UInt32.le_iff_toNat_le] at hrange
  simp only [Char.toNat] at h hbounds
  omega

end Blanks

namespace Reader

variable {stack : List Frame} {r next : Reader} {c : Char} {v : Json} {closable : Bool}
variable {text : List Char}

/-! ## Within the contents -/

/-- Whether the contents of the outermost array or object have begun. They may be complete, but what
is open is not empty otherwise, and the outermost array may not be closed as an empty one. -/
def InContents (r : Reader) : Prop :=
  match r.mode with
  | .finished _ => True
  | .value true => 2 ≤ r.stack.length
  | .word first rest _ => r.stack ≠ [] ∧ ∀ c ∈ first :: rest, c.isLower = true
  | _ => r.stack ≠ []

/-- After a value the contents have begun, or they are complete. -/
theorem inContents_of_complete (h : complete v stack = some next) : next.InContents := by
  rcases complete_cases h with ⟨-, rfl⟩ | ⟨-, frame, rest, rfl⟩
  · trivial
  · exact List.cons_ne_nil frame rest

theorem inContents_of_closeArray (h : closeArray stack = some next) : next.InContents := by
  unfold closeArray at h
  split at h
  · exact inContents_of_complete h
  · cases h

theorem inContents_of_closeObject (h : closeObject stack = some next) : next.InContents := by
  unfold closeObject at h
  split at h
  · exact inContents_of_complete h
  · cases h

/-- The contents have begun with the first character of a value. -/
theorem inContents_of_stepValue (hopen : stack ≠ []) (hspace : ¬ isSpace c = true)
    (h : stepValue closable stack c = some next) : next.InContents := by
  unfold stepValue at h
  split_ifs at h with harray hobject hquote ht hf hn hclose
  · unfold openFrame at h
    split_ifs at h
    obtain rfl := Option.some.inj h
    exact Nat.succ_le_succ (List.length_pos_iff.2 hopen)
  · unfold openFrame at h
    split_ifs at h
    obtain rfl := Option.some.inj h
    exact List.cons_ne_nil _ _
  · obtain rfl := Option.some.inj h
    exact hopen
  · obtain rfl := Option.some.inj h
    exact ⟨hopen, List.all_eq_true.1 rfl⟩
  · obtain rfl := Option.some.inj h
    exact ⟨hopen, List.all_eq_true.1 rfl⟩
  · obtain rfl := Option.some.inj h
    exact ⟨hopen, List.all_eq_true.1 rfl⟩
  · exact inContents_of_closeArray h
  · obtain ⟨reader, -, rfl⟩ := Option.map_eq_some_iff.1 h
    exact hopen

/-- The contents go on after a value in them. -/
theorem inContents_of_stepAfter (hopen : stack ≠ []) (h : stepAfter stack c = some next) :
    next.InContents := by
  unfold stepAfter at h
  split_ifs at h
  · obtain rfl := Option.some.inj h
    exact hopen
  · split at h
    · obtain rfl := Option.some.inj h
      exact hopen
    · obtain rfl := Option.some.inj h
      exact hopen
    · cases h
  · exact inContents_of_closeArray h
  · exact inContents_of_closeObject h

/-- The contents go on after the name of a member, or a string in them. -/
theorem inContents_of_completeString {isName : Bool} {string : String}
    (h : completeString isName string stack = some next) : next.InContents := by
  unfold completeString at h
  split_ifs at h
  · split at h
    · obtain rfl := Option.some.inj h
      exact List.cons_ne_nil _ _
    · cases h
  · exact inContents_of_complete h

/-- Spaces after the contents are not among them. -/
theorem inContents_of_step_finished (h : step? ⟨.finished v, stack⟩ c = some next) :
    next.InContents := by
  obtain ⟨-, hnext⟩ := Option.ite_none_right_eq_some.1 (step?_finished.symm.trans h)
  obtain rfl := Option.some.inj hnext
  trivial

/-- The contents go on with what follows a value. -/
theorem inContents_of_step_of_complete (hdone : complete v stack = some r)
    (h : r.step? c = some next) : next.InContents := by
  rcases complete_cases hdone with ⟨-, rfl⟩ | ⟨-, frame, rest, rfl⟩
  · exact inContents_of_step_finished h
  · exact inContents_of_stepAfter (List.cons_ne_nil frame rest) h

/-- Contents that have begun go on with every character. -/
theorem InContents.step (hr : r.InContents) (h : r.step? c = some next) : next.InContents := by
  obtain ⟨mode, stack⟩ := r
  cases mode with
  | value closable =>
    -- after a space the contents are as before, and any other character begins a value
    have hopen : stack ≠ [] := by
      cases closable with
      | false => exact hr
      | true => exact List.ne_nil_of_length_pos (Nat.lt_of_succ_lt hr)
    by_cases hspace : isSpace c = true
    · obtain rfl := Option.some.inj ((if_pos hspace).symm.trans h)
      exact hr
    · exact inContents_of_stepValue hopen hspace h
  | name closable =>
    have hstep : stepName closable stack c = some next := h
    unfold stepName at hstep
    split_ifs at hstep
    · obtain rfl := Option.some.inj hstep
      exact hr
    · obtain rfl := Option.some.inj hstep
      exact hr
    · exact inContents_of_closeObject hstep
  | colon =>
    rw [step?_colon] at h
    split_ifs at h
    · obtain rfl := Option.some.inj h
      exact hr
    · obtain rfl := Option.some.inj h
      exact hr
  | after => exact inContents_of_stepAfter hr h
  | finished v => exact inContents_of_step_finished h
  | string isName reader =>
    rw [step?_string] at h
    split_ifs at h
    · exact inContents_of_completeString h
    · obtain ⟨reader', -, rfl⟩ := Option.map_eq_some_iff.1 h
      exact hr
  | number reader =>
    cases hreader : reader.step? c with
    | some reader' =>
      rw [step?_number_of_some hreader] at h
      obtain rfl := Option.some.inj h
      exact hr
    | none =>
      obtain ⟨v, -, done, hdone, hstep⟩ := (step?_number_eq_some_iff_of_none hreader).1 h
      exact inContents_of_step_of_complete hdone hstep
  | word first rest v =>
    rw [step?_word] at h
    split_ifs at h
    cases rest with
    | nil => exact inContents_of_complete h
    | cons letter others =>
      obtain rfl := Option.some.inj h
      exact ⟨hr.1, fun c hc => hr.2 c (List.mem_cons_of_mem first hc)⟩

/-- Contents that have begun go on with every text. -/
theorem InContents.run (hr : r.InContents) (h : r.run? text = some next) : next.InContents := by
  induction text generalizing r with
  | nil =>
    obtain rfl := Option.some.inj h
    exact hr
  | cons c text ih =>
    obtain ⟨first, hstep, hrun⟩ := run?_cons_eq_some_iff.1 h
    exact ih (hr.step hstep) hrun

/-- The contents of an array begin with the first character that is no space. -/
theorem inContents_of_run (h : run? ⟨.value true, [.array []]⟩ text = some r)
    (htext : ∃ c ∈ text, ¬ isSpace c = true) : r.InContents := by
  induction text with
  | nil => exact absurd htext.choose_spec.1 List.not_mem_nil
  | cons c text ih =>
    obtain ⟨first, hstep, hrun⟩ := run?_cons_eq_some_iff.1 h
    by_cases hspace : isSpace c = true
    · obtain rfl := Option.some.inj ((if_pos hspace).symm.trans hstep)
      -- the character that is no space comes later
      obtain ⟨d, hd, hnot⟩ := htext
      rcases List.mem_cons.1 hd with rfl | hd
      · exact absurd hspace hnot
      · exact ih hrun ⟨d, hd, hnot⟩
    · exact (inContents_of_stepValue (List.cons_ne_nil _ _) hspace hstep).run hrun

end Reader

end DocMapper.Json
