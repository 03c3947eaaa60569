import DocMapper.Error
import DocMapper.Path.Rendering
import Mathlib.Data.List.Induction

set_option autoImplicit false

/-!
# The forms of an expression

All forms of an expression have the same members and differ in what stands for an index: `segments`
is the form whose positions are given. An expression is accepted exactly if it begins with a member
and every step passes its own check, and then its rendering consists of such forms
(`render_eq_ok_iff`).

A segment is a member, or it is what stands for an index (`mem_members_or_of_mem_segments`), and
what is true of the characters of all segments is true of the joined form
(`forall_mem_joinDots_iff`).
-/

namespace DocMapper.Path

/-! ## Steps -/

namespace Step

/-- The name of a step into a member. -/
def member? : Step → Option String
  | member name => some name
  | index _ => none

/-- Whether a step may stand in an expression. -/
def check : Step → Except Fault Unit
  | member name => checkMember name
  | index argument => checkIndex argument

end Step

namespace Expr

/-- The names of the members in order. -/
def members (e : Expr) : List String := e.filterMap Step.member?

/-- The number of indices. -/
def indexCount (e : Expr) : Nat := e.countP fun step => !step.isMember

/-- The members of an expression with what stands for its indices, which are counted from a number.
-/
def segments (position : Nat → Option String) : Nat → Expr → List String
  | _, [] => []
  | n, .member name :: rest => name :: segments position n rest
  | n, .index _ :: rest => (position n).toList ++ segments position (n + 1) rest

/-- Whether the first step goes into a member. -/
def StartsWithMember (e : Expr) : Prop := ∃ name rest, e = .member name :: rest

variable {e : Expr} {position : Nat → Option String} {n : Nat} {name segment : String}

/-- Segments are those of the two parts of an expression. -/
theorem segments_append (position : Nat → Option String) (n : Nat) (e e' : Expr) :
    segments position n (e ++ e') =
      segments position n e ++ segments position (n + indexCount e) e' := by
  induction e generalizing n with
  | nil => rfl
  | cons step rest ih =>
    cases step with
    | member name =>
      have hcount : indexCount (.member name :: rest) = indexCount rest := rfl
      rw [List.cons_append, segments, ih, hcount]
      rfl
    | index argument =>
      have hcount : indexCount (.index argument :: rest) = indexCount rest + 1 :=
        List.countP_cons_of_pos rfl
      rw [List.cons_append, segments, ih, hcount, segments, List.append_assoc, Nat.add_assoc,
        Nat.add_comm 1]

/-- Members are segments of every form. -/
theorem mem_segments_of_mem_members (h : name ∈ members e) : name ∈ segments position n e := by
  induction e generalizing n with
  | nil => exact absurd h List.not_mem_nil
  | cons step rest ih =>
    cases step with
    | member first =>
      rcases List.mem_cons.1 h with rfl | hrest
      · exact List.mem_cons_self
      · exact List.mem_cons_of_mem _ (ih hrest)
    | index argument => exact List.mem_append_right _ (ih h)

/-- A segment is a member or stands for an index. -/
theorem mem_members_or_of_mem_segments (h : segment ∈ segments position n e) :
    segment ∈ members e ∨ ∃ k, position k = some segment := by
  induction e generalizing n with
  | nil => exact absurd h List.not_mem_nil
  | cons step rest ih =>
    cases step with
    | member first =>
      rcases List.mem_cons.1 h with rfl | hrest
      · exact Or.inl List.mem_cons_self
      · exact (ih hrest).imp_left (List.mem_cons_of_mem first)
    | index argument =>
      rcases List.mem_append.1 h with hposition | hrest
      · exact Or.inr ⟨n, Option.mem_toList.1 hposition⟩
      · exact ih hrest

theorem exists_getLast?_members (h : e.StartsWithMember) :
    ∃ last ∈ members e, (members e).getLast? = some last := by
  obtain ⟨name, rest, rfl⟩ := h
  have hne : members (.member name :: rest) ≠ [] := List.cons_ne_nil name (members rest)
  exact ⟨_, List.getLast_mem hne, List.getLast?_eq_some_getLast hne⟩

end Expr

open DocMapper.Path.Expr

/-! ## Renderings -/

/-- What stands for an index in the form with identifiers. -/
def filteredPosition (n : Nat) : Option String := some ("$[" ++ identifier n ++ "]")

/-- What stands for an index in the form for all elements. -/
def allPosition (_ : Nat) : Option String := some "$[]"

/-- What stands for an index in the form for the first element. -/
def firstPosition (n : Nat) : Option String := if n = 0 then some "$" else none

/-- The rendering of an expression, made up of its forms. -/
def Rendering.ofExpr (e : Expr) : Rendering where
  dotted := members e
  posFiltered := segments filteredPosition 0 e
  posFirst := segments firstPosition 0 e
  posAll := segments allPosition 0 e
  property := (members e).getLast?.getD ""
  placeholders := indexCount e

namespace Rendering

theorem addMember_ofExpr (e : Expr) (name : String) :
    (ofExpr e).addMember name = ofExpr (e ++ [.member name]) := by
  have hmembers : members (e ++ [.member name]) = members e ++ [name] := List.filterMap_append
  simp [addMember, ofExpr, segments_append, segments, hmembers, indexCount, Step.isMember]

/-- An index more is counted, and what stands for it goes to the end of the forms. -/
theorem addIndex_ofExpr (e : Expr) (argument : Index) :
    (ofExpr e).addIndex = ofExpr (e ++ [.index argument]) := by
  have hmembers : members (e ++ [.index argument]) = members e := by
    simp [members, Step.member?]
  -- only the first index has a `$` in the form for the first element
  have hfirst : segments firstPosition 0 (e ++ [.index argument]) =
      if indexCount e = 0 then segments firstPosition 0 e ++ ["$"]
      else segments firstPosition 0 e := by
    rw [segments_append]
    split <;> simp [segments, firstPosition, *]
  simp only [addIndex, ofExpr, hmembers, hfirst]
  simp [segments_append, segments, filteredPosition, allPosition, indexCount, Step.isMember]

theorem ofMember_eq (name : String) : ofMember name = ofExpr [.member name] := rfl

end Rendering

/-- A step after the first member is rendered if it passes its check. -/
theorem renderStep_some_eq_ok_iff {e : Expr} {step : Step} {state : Option Rendering} :
    renderStep (some (.ofExpr e)) step = .ok state ↔
      step.check = .ok () ∧ state = some (.ofExpr (e ++ [step])) := by
  cases step with
  | member name =>
    rw [renderStep, bind_eq_ok_iff, ← Rendering.addMember_ofExpr]
    constructor
    · rintro ⟨_, hcheck, hstate⟩
      exact ⟨hcheck, (Except.ok.inj hstate).symm⟩
    · rintro ⟨hcheck, rfl⟩
      exact ⟨(), hcheck, rfl⟩
  | index argument =>
    rw [renderStep, bind_eq_ok_iff, ← Rendering.addIndex_ofExpr]
    constructor
    · rintro ⟨_, hcheck, hstate⟩
      exact ⟨hcheck, (Except.ok.inj hstate).symm⟩
    · rintro ⟨hcheck, rfl⟩
      exact ⟨(), hcheck, rfl⟩

/-- The first step is rendered if it goes into a member and passes its check. -/
theorem renderStep_none_eq_ok_iff {step : Step} {state : Option Rendering} :
    renderStep none step = .ok state ↔
      (∃ name, step = .member name) ∧ step.check = .ok () ∧ state = some (.ofExpr [step]) := by
  cases step with
  | member name =>
    rw [renderStep, bind_eq_ok_iff, ← Rendering.ofMember_eq]
    constructor
    · rintro ⟨_, hcheck, hstate⟩
      exact ⟨⟨name, rfl⟩, hcheck, (Except.ok.inj hstate).symm⟩
    · rintro ⟨-, hcheck, rfl⟩
      exact ⟨(), hcheck, rfl⟩
  | index argument =>
    constructor
    · intro h
      cases h
    · rintro ⟨⟨name, hmember⟩, -⟩
      cases hmember

/-- The steps after the first member are rendered if they pass their checks. -/
theorem foldlM_renderStep_some_eq_ok_iff {e rest : Expr} {state : Option Rendering} :
    rest.foldlM renderStep (some (.ofExpr e)) = .ok state ↔
      (∀ step ∈ rest, step.check = .ok ()) ∧ state = some (.ofExpr (e ++ rest)) := by
  -- by induction on the steps that are left, for all steps that were rendered before
  induction rest generalizing e with
  | nil =>
    rw [List.append_nil]
    exact ⟨fun h => ⟨nofun, (Except.ok.inj h).symm⟩, fun h => congrArg Except.ok h.2.symm⟩
  | cons step rest ih =>
    have happend : e ++ step :: rest = e ++ [step] ++ rest := by simp
    rw [List.foldlM_cons, bind_eq_ok_iff, List.forall_mem_cons, happend]
    constructor
    · rintro ⟨next, hstep, hrest⟩
      obtain ⟨hcheck, rfl⟩ := renderStep_some_eq_ok_iff.1 hstep
      obtain ⟨hchecks, rfl⟩ := ih.1 hrest
      exact ⟨⟨hcheck, hchecks⟩, rfl⟩
    · rintro ⟨⟨hcheck, hchecks⟩, rfl⟩
      exact ⟨_, renderStep_some_eq_ok_iff.2 ⟨hcheck, rfl⟩, ih.2 ⟨hchecks, rfl⟩⟩

/-- The steps are rendered if there is none, or they begin with a member and all pass their checks.
-/
theorem foldlM_renderStep_none_eq_ok_iff {e : Expr} {state : Option Rendering} :
    e.foldlM renderStep none = .ok state ↔
      (e = [] ∧ state = none) ∨
        (e.StartsWithMember ∧ (∀ step ∈ e, step.check = .ok ()) ∧ state = some (.ofExpr e)) := by
  cases e with
  | nil =>
    have hnot : ¬ StartsWithMember [] := fun h => nomatch h.choose_spec.choose_spec
    simp [hnot, pure, Except.pure, eq_comm]
  | cons step rest =>
    rw [List.foldlM_cons, bind_eq_ok_iff, List.forall_mem_cons]
    constructor
    · rintro ⟨first, hstep, hrest⟩
      obtain ⟨⟨name, rfl⟩, hcheck, rfl⟩ := renderStep_none_eq_ok_iff.1 hstep
      obtain ⟨hchecks, rfl⟩ := foldlM_renderStep_some_eq_ok_iff.1 hrest
      exact Or.inr ⟨⟨name, rest, rfl⟩, ⟨hcheck, hchecks⟩, rfl⟩
    · rintro (⟨hnil, -⟩ | ⟨⟨name, rest', hmember⟩, ⟨hcheck, hchecks⟩, rfl⟩)
      · cases hnil
      · exact ⟨_, renderStep_none_eq_ok_iff.2 ⟨⟨name, (List.cons.inj hmember).1⟩, hcheck, rfl⟩,
          foldlM_renderStep_some_eq_ok_iff.2 ⟨hchecks, rfl⟩⟩

/-- An expression is accepted exactly if it begins with a member and all steps pass their checks,
and its rendering is made up of its forms. -/
theorem render_eq_ok_iff {e : Expr} {r : Rendering} :
    render e = .ok r ↔
      e.StartsWithMember ∧ (∀ step ∈ e, step.check = .ok ()) ∧ r = .ofExpr e := by
  rw [render, bind_eq_ok_iff]
  constructor
  · rintro ⟨state, hstate, h⟩
    rcases foldlM_renderStep_none_eq_ok_iff.1 hstate with ⟨-, rfl⟩ | ⟨hstarts, hchecks, rfl⟩
    · cases h
    · exact ⟨hstarts, hchecks, (Except.ok.inj h).symm⟩
  · rintro ⟨hstarts, hchecks, rfl⟩
    exact ⟨_, foldlM_renderStep_none_eq_ok_iff.2 (Or.inr ⟨hstarts, hchecks, rfl⟩), rfl⟩

/-- The members of an accepted expression pass their checks. -/
theorem checkMember_of_mem_members {e : Expr} {name : String}
    (hchecks : ∀ step ∈ e, step.check = .ok ()) (h : name ∈ members e) :
    checkMember name = .ok () := by
  obtain ⟨step, hstep, hname⟩ := List.mem_filterMap.1 h
  cases step with
  | member first =>
    obtain rfl := Option.some.inj hname
    exact hchecks _ hstep
  | index argument => cases hname

/-! ## Characters -/

/-- A member is accepted if it is not empty and has no character of paths. -/
theorem checkMember_eq_ok_iff {name : String} :
    checkMember name = .ok () ↔
      name.toList ≠ [] ∧ ∀ c ∈ name.toList, isPathCharacter c = false := by
  unfold checkMember
  cases hempty : name.isEmpty with
  | true =>
    rw [String.isEmpty_iff] at hempty
    subst hempty
    exact ⟨nofun, fun h => absurd rfl h.1⟩
  | false =>
    cases hany : name.toList.any isPathCharacter with
    | true =>
      refine ⟨nofun, fun h => ?_⟩
      obtain ⟨c, hc, hpath⟩ := List.any_eq_true.1 hany
      rw [h.2 c hc] at hpath
      cases hpath
    | false =>
      have hne : name.toList ≠ [] := by
        intro hnil
        rw [String.toList_eq_nil_iff.1 hnil] at hempty
        cases hempty
      exact ⟨fun _ => ⟨hne, by simpa using hany⟩, fun _ => rfl⟩

/-- The letters of an identifier are those with a number. -/
theorem exists_letter_of_mem_identifier {c : Char} {n : Nat} (h : c ∈ (identifier n).toList) :
    ∃ k < 26, c = letter k := by
  rw [identifier, String.toList_ofList, List.mem_reverse] at h
  induction n using reversedLetters.induct with
  | case1 n hlt =>
    rw [reversedLetters, if_pos hlt] at h
    exact ⟨n, hlt, List.mem_singleton.1 h⟩
  | case2 n hge ih =>
    rw [reversedLetters, if_neg hge] at h
    rcases List.mem_cons.1 h with rfl | hrest
    · exact ⟨n % 26, Nat.mod_lt n (by decide), rfl⟩
    · exact ih hrest

theorem toList_joinDots_cons_cons (segment next : String) (rest : List String) :
    (joinDots (segment :: next :: rest)).toList =
      segment.toList ++ '.' :: (joinDots (next :: rest)).toList := by
  simp [joinDots]

/-- The characters of joined segments are those of the segments and the points between them. -/
theorem forall_mem_joinDots_iff {p : Char → Prop} (hpoint : p '.') (segments : List String) :
    (∀ c ∈ (joinDots segments).toList, p c) ↔ ∀ s ∈ segments, ∀ c ∈ s.toList, p c := by
  induction segments with
  | nil => simp [joinDots]
  | cons segment rest ih =>
    cases rest with
    | nil => simp [joinDots]
    | cons next rest =>
      rw [toList_joinDots_cons_cons, List.forall_mem_append, List.forall_mem_cons, ih,
        and_iff_right hpoint]
      exact (List.forall_mem_cons (p := fun s : String => ∀ c ∈ s.toList, p c)).symm

theorem mem_joinDots {segments : List String} {segment : String} {c : Char}
    (h : segment ∈ segments) (hc : c ∈ segment.toList) (hpoint : c ≠ '.') :
    c ∈ (joinDots segments).toList := by
  by_contra hnot
  have hall := (forall_mem_joinDots_iff (p := fun d => d ≠ c) hpoint.symm segments).1
    fun d hd heq => hnot (heq ▸ hd)
  exact hall segment h c hc rfl

end DocMapper.Path
