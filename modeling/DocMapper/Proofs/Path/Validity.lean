import DocMapper.Proofs.Path.Forms
import DocMapper.Proofs.Template.Registrations
import DocMapper.Proofs.Traversal

set_option autoImplicit false

/-!
# Which expressions are accepted

An expression is valid if its first step goes into a member and each step is valid on its own
(`Expr.IsValid`). Otherwise it is refused with one fault: that there is no first member, or that of
the first step that offends (`Expr.Refuses`). `render` keeps a rendering while it looks at the
steps, and what it answers is still exactly this (`exists_render_eq_ok_iff`, `render_eq_error_iff`).

All texts of an expression are read off its rendering, and so are its registrations in templates, so
they fail together (`accepts_valid`). No text holds the value of a literal index: valid expressions
that differ in nothing else have one rendering (`render_eq_of_differsInLiterals`).
-/

namespace DocMapper.Path

/-- The characters that have a meaning in paths or tokens. -/
def pathCharacters : List Char := ['.', '$', '<', '>', '[', ']']

theorem isPathCharacter_iff (c : Char) : isPathCharacter c = true ↔ c ∈ pathCharacters := by
  simp [isPathCharacter, pathCharacters, or_assoc]

/-! ## Steps -/

namespace Step

/-- Steps that may stand in an expression. -/
inductive IsValid : Step → Prop
  | member {name : String} (hne : name ≠ "") (hplain : ∀ c ∈ name.toList, c ∉ pathCharacters) :
      IsValid (.member name)
  | index {value : Int64} (hvalue : 0 ≤ value.toInt) : IsValid (.index (.literal value))

/-- What is wrong with a step. -/
inductive Offends : Step → Fault → Prop
  | emptyMember : Offends (.member "") .emptyMember
  | pathCharacter {name : String} {c : Char} (hc : c ∈ name.toList) (hpath : c ∈ pathCharacters) :
      Offends (.member name) (.pathCharacter name)
  | negativeIndex {value : Int64} (hvalue : value.toInt < 0) :
      Offends (.index (.literal value)) (.negativeIndex value)
  | variableIndex (source : String) : Offends (.index (.variable source)) (.variableIndex source)

/-- Steps that differ at most in the value of a literal index. -/
inductive DiffersInLiteral : Step → Step → Prop
  | member (name : String) : DiffersInLiteral (.member name) (.member name)
  | literal (value other : Int64) :
      DiffersInLiteral (.index (.literal value)) (.index (.literal other))
  | variable (source : String) :
      DiffersInLiteral (.index (.variable source)) (.index (.variable source))

theorem DiffersInLiteral.isMember_eq {step step' : Step} (h : step.DiffersInLiteral step') :
    step.isMember = step'.isMember := by
  cases h <;> rfl

variable {step : Step} {fault : Fault}

/-- A step passes its check exactly if it is valid. -/
theorem check_eq_ok_iff : step.check = .ok () ↔ step.IsValid := by
  cases step with
  | member name =>
    rw [check, checkMember_eq_ok_iff]
    constructor
    · rintro ⟨hne, hplain⟩
      apply IsValid.member
      · intro hempty
        simp [hempty] at hne
      · intro c hc hpath
        rw [← isPathCharacter_iff, hplain c hc] at hpath
        cases hpath
    · rintro ⟨hne, hplain⟩
      refine ⟨by simpa using hne, ?_⟩
      intro c hc
      rw [Bool.eq_false_iff, Ne, isPathCharacter_iff]
      exact hplain c hc
  | index argument =>
    -- an index passes if it is a literal that is not negative
    cases argument with
    | literal value =>
      simp only [check, checkIndex]
      constructor
      · intro h
        split at h
        · exact IsValid.index ‹_›
        · cases h
      · intro h
        cases h with
        | index hvalue => rw [if_pos hvalue]
    | «variable» source =>
      constructor
      · intro h
        cases h
      · intro h
        cases h

/-- A step that fails its check fails it with what is wrong with it. -/
theorem offends_of_check_eq_error (h : step.check = .error fault) : step.Offends fault := by
  cases step with
  | member name =>
    simp only [check, checkMember] at h
    split at h
    · rename_i hempty
      obtain rfl := Except.error.inj h
      rw [String.isEmpty_iff] at hempty
      subst hempty
      exact Offends.emptyMember
    · split at h
      · rename_i hany
        obtain rfl := Except.error.inj h
        obtain ⟨c, hc, hpath⟩ := List.any_eq_true.1 hany
        exact Offends.pathCharacter hc ((isPathCharacter_iff c).1 hpath)
      · cases h
  | index argument =>
    cases argument with
    | literal value =>
      simp only [check, checkIndex] at h
      split at h
      · cases h
      · obtain rfl := Except.error.inj h
        exact Offends.negativeIndex (by omega)
    | «variable» source =>
      obtain rfl := Except.error.inj h
      exact Offends.variableIndex source

/-- One thing at most is wrong with a step. -/
theorem Offends.unique {fault' : Fault} (h : step.Offends fault) (h' : step.Offends fault') :
    fault = fault' := by
  cases h with
  | emptyMember =>
    cases h' with
    | emptyMember => rfl
    | pathCharacter hc => simp at hc
  | pathCharacter hc =>
    cases h' with
    | emptyMember => simp at hc
    | pathCharacter => rfl
  | negativeIndex => cases h'; rfl
  | variableIndex => cases h'; rfl

/-- A valid step does not offend. -/
theorem IsValid.not_offends (h : step.IsValid) : ¬ step.Offends fault := by
  intro hoffends
  cases h with
  | member hne hplain =>
    cases hoffends with
    | emptyMember => exact hne rfl
    | pathCharacter hc hpath => exact hplain _ hc hpath
  | index hvalue =>
    cases hoffends with
    | negativeIndex hnegative => omega

/-- A step fails its check exactly with what is wrong with it. -/
theorem check_eq_error_iff : step.check = .error fault ↔ step.Offends fault := by
  constructor
  · exact offends_of_check_eq_error
  · intro hoffends
    cases hcheck : step.check with
    | ok => exact absurd hoffends (check_eq_ok_iff.1 hcheck).not_offends
    | error other => rw [hoffends.unique (offends_of_check_eq_error hcheck)]

end Step

/-! ## Expressions -/

namespace Expr

/-- Expressions that have a rendering. -/
structure IsValid (e : Expr) : Prop where
  startsWithMember : e.StartsWithMember
  step : ∀ step ∈ e, step.IsValid

/-- Why an expression has none: there is no first member, or a step offends and all before it are
valid. -/
inductive Refuses : Expr → Fault → Prop
  | bareParameter : Refuses [] .bareParameter
  | leadingIndex (argument : Index) (rest : Expr) : Refuses (.index argument :: rest) .leadingIndex
  | step {before rest : Expr} {step : Step} {fault : Fault}
      (hstarts : StartsWithMember (before ++ step :: rest))
      (hvalid : ∀ earlier ∈ before, earlier.IsValid) (hoffends : step.Offends fault) :
      Refuses (before ++ step :: rest) fault

/-- Expressions that differ at most in the values of literal indices. -/
def DiffersInLiterals (e e' : Expr) : Prop := List.Forall₂ Step.DiffersInLiteral e e'

variable {e e' : Expr}

/-- The members do not depend on the values of literal indices. -/
theorem DiffersInLiterals.members_eq (h : e.DiffersInLiterals e') : members e = members e' := by
  induction h with
  | nil => rfl
  | cons hstep hrest ih =>
    cases hstep with
    | member name => exact congrArg (name :: ·) ih
    | literal value other => exact ih
    | «variable» source => exact ih

/-- What stands for an index does not depend on its value. -/
theorem DiffersInLiterals.segments_eq (h : e.DiffersInLiterals e')
    (position : Nat → Option String) (n : Nat) :
    segments position n e = segments position n e' := by
  induction h generalizing n with
  | nil => rfl
  | cons hstep hrest ih =>
    cases hstep with
    | member name => exact congrArg (name :: ·) (ih n)
    | literal value other => exact congrArg ((position n).toList ++ ·) (ih (n + 1))
    | «variable» source => exact congrArg ((position n).toList ++ ·) (ih (n + 1))

/-- Indices are counted whatever their values are. -/
theorem DiffersInLiterals.indexCount_eq (h : e.DiffersInLiterals e') :
    indexCount e = indexCount e' := by
  induction h with
  | nil => rfl
  | cons hstep hrest ih =>
    have hmember := hstep.isMember_eq
    simp only [indexCount, List.countP_cons, hmember] at ih ⊢
    rw [ih]

end Expr

open DocMapper.Path.Expr

/-- The forms of an expression do not depend on the values of literal indices. -/
theorem Rendering.ofExpr_eq_of_differsInLiterals {e e' : Expr} (h : e.DiffersInLiterals e') :
    ofExpr e = ofExpr e' := by
  simp only [ofExpr, h.members_eq, h.segments_eq, h.indexCount_eq]

/-! ## Renderings -/

variable {e e' : Expr} {fault : Fault} {r : Rendering}

/-- The rendering of a valid expression is made up of its forms, and other expressions have none. -/
theorem render_eq_ok_iff_isValid : render e = .ok r ↔ e.IsValid ∧ r = .ofExpr e := by
  rw [render_eq_ok_iff, ← and_assoc]
  simp only [Step.check_eq_ok_iff]
  refine and_congr_left fun _ => ?_
  exact ⟨fun h => ⟨h.1, h.2⟩, fun h => ⟨h.startsWithMember, h.step⟩⟩

theorem exists_render_eq_ok_iff : (∃ r, render e = .ok r) ↔ e.IsValid := by
  simp [render_eq_ok_iff_isValid]

/-- Expressions are rendered without a look at the values of literal indices. -/
theorem render_eq_of_differsInLiterals (h : e.DiffersInLiterals e') (he : e.IsValid)
    (he' : e'.IsValid) : render e = render e' := by
  rw [render_eq_ok_iff_isValid.2 ⟨he, rfl⟩, render_eq_ok_iff_isValid.2 ⟨he', rfl⟩,
    Rendering.ofExpr_eq_of_differsInLiterals h]

/-- After the first member a step fails as its check does. -/
theorem renderStep_some_eq_error_iff {step : Step} :
    renderStep (some r) step = .error fault ↔ step.Offends fault := by
  rw [← Step.check_eq_error_iff]
  cases step with
  | member name =>
    simp only [renderStep, Step.check, bind_eq_error_iff]
    simp [pure, Except.pure]
  | index argument =>
    simp only [renderStep, Step.check, bind_eq_error_iff]
    simp [pure, Except.pure]

/-- The first step fails as its check does if it goes into a member, and otherwise for being an
index. -/
theorem renderStep_none_eq_error_iff {step : Step} :
    renderStep none step = .error fault ↔
      ((∃ name, step = .member name) ∧ step.Offends fault) ∨
        ((∃ argument, step = .index argument) ∧ fault = .leadingIndex) := by
  rw [← Step.check_eq_error_iff]
  cases step with
  | member name =>
    simp only [renderStep, Step.check, bind_eq_error_iff]
    simp [pure, Except.pure]
  | index argument => simp [renderStep, eq_comm]

/-- An expression is refused with what is wrong with it. -/
theorem render_eq_error_iff : render e = .error fault ↔ e.Refuses fault := by
  rw [render, bind_eq_error_iff]
  constructor
  · rintro (hfold | ⟨state, hstate, h⟩)
    · obtain ⟨before, step, rest, next, rfl, hbefore, hstep⟩ := foldlM_eq_error_iff.1 hfold
      rcases foldlM_renderStep_none_eq_ok_iff.1 hbefore with ⟨rfl, rfl⟩ | ⟨hstarts, hchecks, rfl⟩
      -- the step that fails is the first one, or it comes after a valid expression
      · rcases renderStep_none_eq_error_iff.1 hstep with ⟨⟨name, rfl⟩, hoffends⟩ |
          ⟨⟨argument, rfl⟩, rfl⟩
        · have hstarts : StartsWithMember ([] ++ .member name :: rest) := ⟨name, rest, rfl⟩
          exact Refuses.step hstarts (List.forall_mem_nil _) hoffends
        · exact Refuses.leadingIndex argument rest
      · obtain ⟨name, tail, hbegins⟩ := hstarts
        refine Refuses.step ⟨name, tail ++ step :: rest, ?_⟩
          (fun earlier hearlier => Step.check_eq_ok_iff.1 (hchecks earlier hearlier))
          (renderStep_some_eq_error_iff.1 hstep)
        rw [hbegins, List.cons_append]
    · rcases foldlM_renderStep_none_eq_ok_iff.1 hstate with ⟨rfl, rfl⟩ | ⟨-, -, rfl⟩
      · obtain rfl := Except.error.inj h
        exact Refuses.bareParameter
      · cases h
  · intro hrefuses
    cases hrefuses with
    | bareParameter => exact Or.inr ⟨none, rfl, rfl⟩
    | leadingIndex argument rest => exact Or.inl rfl
    | @step before rest step _ hstarts hvalid hoffends =>
      refine Or.inl (foldlM_eq_error_iff.2 ⟨before, step, rest, ?_⟩)
      simp only [← Step.check_eq_ok_iff] at hvalid
      obtain ⟨name, tail, hbegins⟩ := hstarts
      cases before with
      | nil =>
        obtain ⟨rfl, -⟩ := List.cons.inj hbegins
        exact ⟨none, rfl, rfl, renderStep_none_eq_error_iff.2 (Or.inl ⟨⟨name, rfl⟩, hoffends⟩)⟩
      | cons first before =>
        obtain ⟨rfl, -⟩ := List.cons.inj hbegins
        refine ⟨_, rfl,
          foldlM_renderStep_none_eq_ok_iff.2 (Or.inr ⟨⟨name, before, rfl⟩, hvalid, rfl⟩), ?_⟩
        exact renderStep_some_eq_error_iff.2 hoffends

/-! ## What is read off a rendering -/

/-- The texts of an expression, for elements of arrays with a number. -/
def texts (n : Nat) : List (Expr → Except Fault String) :=
  [dotted, posFiltered, posFirst, posAll, property, elements n, elementsPath]

/-- Every text is read off the rendering. -/
theorem exists_eq_map_render {n : Nat} {text : Expr → Except Fault String} (h : text ∈ texts n) :
    ∃ read : Rendering → String, ∀ e, text e = (render e).map read := by
  simp only [texts, List.mem_cons, List.not_mem_nil, or_false] at h
  rcases h with rfl | rfl | rfl | rfl | rfl | rfl | rfl
  case inr.inr.inr.inr.inr.inl =>
    refine ⟨fun r => identifier n ++ "." ++ joinDots r.dotted, fun e => ?_⟩
    rw [elements, dotted]
    cases render e <;> rfl
  all_goals exact ⟨_, fun e => rfl⟩

theorem pathResult_eq_error_iff {α : Type} {result : Except Fault α} {error : Error} :
    Template.pathResult result = .error error ↔
      ∃ fault, result = .error fault ∧ error = .invalidPath fault := by
  cases result <;> simp [Template.pathResult, Except.mapError, eq_comm]

theorem exists_pathResult_eq_ok_iff {α : Type} {result : Except Fault α} :
    (∃ a, Template.pathResult result = .ok a) ↔ ∃ a, result = .ok a := by
  cases result <;> simp [Template.pathResult, Except.mapError]

/-- An expression is accepted exactly if it is valid, and every other one is refused as invalid,
with what is wrong with it. Of valid expressions that differ in the values of literal indices at
most the renderings are the same. Every text of an expression, and every registration of it in a
template, is there if the expression is valid and is refused in the same way if it is not. -/
theorem accepts_valid (e : Expr) :
    ((∃ r, render e = .ok r) ↔ e.IsValid) ∧
      (∀ error, Template.pathResult (render e) = .error error ↔
        ∃ fault, e.Refuses fault ∧ error = .invalidPath fault) ∧
      (∀ e', e.DiffersInLiterals e' → e.IsValid → e'.IsValid → render e = render e') ∧
      (∀ n, ∀ text ∈ texts n, ((∃ s, text e = .ok s) ↔ e.IsValid) ∧
        ∀ fault, text e = .error fault ↔ e.Refuses fault) ∧
      ∀ (form : Template.PathForm) (t : Template),
        ((∃ t', form.register t e = .ok t') ↔ e.IsValid) ∧
          ∀ error, form.register t e = .error error ↔
            ∃ fault, e.Refuses fault ∧ error = .invalidPath fault := by
  refine ⟨exists_render_eq_ok_iff, ?refused,
    fun e' h he he' => render_eq_of_differsInLiterals h he he', ?texts, ?registrations⟩
  case refused =>
    intro error
    simp only [pathResult_eq_error_iff, render_eq_error_iff]
  case texts =>
    intro n text htext
    obtain ⟨read, hread⟩ := exists_eq_map_render htext
    rw [hread, exists_map_eq_ok_iff, exists_render_eq_ok_iff]
    refine ⟨Iff.rfl, fun fault => ?_⟩
    rw [map_eq_error_iff, render_eq_error_iff]
  case registrations =>
    intro form t
    rw [form.register_eq, exists_pathResult_eq_ok_iff, exists_map_eq_ok_iff,
      exists_render_eq_ok_iff]
    refine ⟨Iff.rfl, fun error => ?_⟩
    simp only [pathResult_eq_error_iff, map_eq_error_iff, render_eq_error_iff]

/-- Two paths into reviews have one rendering, and an expression that begins with an index is
refused by a text of it too. -/
theorem accepts_valid_reviews :
    let first : Expr :=
      [.member "Books", .index (.literal 0), .member "reviews", .index (.literal 1)]
    let second : Expr :=
      [.member "Books", .index (.literal 5), .member "reviews", .index (.literal 9)]
    (first.DiffersInLiterals second ∧ first.IsValid ∧ second.IsValid ∧
      render first = render second) ∧
      elements 1 ∈ texts 1 ∧ elements 1 [.index (.literal 0)] = .error .leadingIndex := by
  intro first second
  have hdiffer : first.DiffersInLiterals second :=
    .cons (.member _) (.cons (.literal _ _) (.cons (.member _) (.cons (.literal _ _) .nil)))
  have hfirst : ∀ step ∈ first, step.check = .ok () := by decide
  have hsecond : ∀ step ∈ second, step.check = .ok () := by decide
  have hvalid : first.IsValid := ⟨⟨_, _, rfl⟩, fun step h => Step.check_eq_ok_iff.1 (hfirst step h)⟩
  have hvalid' : second.IsValid :=
    ⟨⟨_, _, rfl⟩, fun step h => Step.check_eq_ok_iff.1 (hsecond step h)⟩
  have hmem : elements 1 ∈ texts 1 := by simp [texts]
  obtain ⟨-, -, hsame, -⟩ := accepts_valid first
  obtain ⟨-, -, -, htexts, -⟩ := accepts_valid [.index (.literal 0)]
  exact ⟨⟨hdiffer, hvalid, hvalid', hsame second hdiffer hvalid hvalid'⟩, hmem,
    ((htexts 1 (elements 1) hmem).2 .leadingIndex).2 (Refuses.leadingIndex (.literal 0) [])⟩

end DocMapper.Path
