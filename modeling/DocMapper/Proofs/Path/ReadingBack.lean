import DocMapper.Proofs.Filter.Membership
import DocMapper.Proofs.Path.Forms

set_option autoImplicit false

/-!
# Reading forms back

A form of an accepted expression is joined by points, and neither its members nor what stands for an
index has a point, so its segments are found again (`segments_joinDots`). No member begins with `$`
and everything that stands for an index does. So the members are what is left of any form without
such segments (`filter_segments`), and a form that has a segment for each index tells the places of
the indices as well (`segments_eq_iff_shape_eq`).

`Rendering.ReadsBack` gathers what the forms of an expression say of it, together with the filter
that its members are the path of.
-/

namespace DocMapper.Path

open DocMapper.Path.Expr

/-! ## Segments of joined forms -/

/-- The text of segments that are joined by points. -/
theorem toList_joinDots (segments : List String) :
    (joinDots segments).toList = Text.joinWith '.' (segments.map String.toList) := by
  induction segments with
  | nil => simp [joinDots, Text.joinWith]
  | cons segment rest ih =>
    cases rest with
    | nil => simp [joinDots, Text.joinWith]
    | cons next rest =>
      rw [toList_joinDots_cons_cons, ih]
      rfl

/-- Segments without points are found again. -/
theorem segments_joinDots {segments : List String} (hne : segments ≠ [])
    (hpoint : ∀ s ∈ segments, '.' ∉ s.toList) : Filter.segments (joinDots segments) = segments := by
  have hparts : ∀ part ∈ segments.map String.toList, '.' ∉ part := by
    intro part hpart
    obtain ⟨s, hs, rfl⟩ := List.mem_map.1 hpart
    exact hpoint s hs
  rw [Filter.segments, toList_joinDots, Text.splitAt_joinWith (by simpa using hne) hparts,
    List.map_map]
  simp

/-! ## Members and positions -/

variable {position : Nat → Option String} {e e' : Expr} {r r' : Rendering} {s : String} {n : Nat}

theorem not_mem_of_checkMember {c : Char} (hc : isPathCharacter c = true)
    (h : checkMember s = .ok ()) : c ∉ s.toList := by
  intro hmem
  rw [(checkMember_eq_ok_iff.1 h).2 c hmem] at hc
  cases hc

theorem isOperator_of_not_mem (h : '$' ∉ s.toList) : Filter.isOperator s = false := by
  rw [Filter.isOperator, decide_eq_false_iff_not]
  exact fun hhead => h (List.mem_of_head? hhead)

/-- What may stand for an index: a text that begins with `$` and has no points. -/
structure IsPositions (position : Nat → Option String) : Prop where
  isOperator : ∀ k s, position k = some s → Filter.isOperator s = true
  not_mem : ∀ k s, position k = some s → '.' ∉ s.toList

theorem not_mem_identifier (n : Nat) : '.' ∉ (identifier n).toList := by
  intro hmem
  obtain ⟨k, hk, hletter⟩ := exists_letter_of_mem_identifier hmem
  have hletters : ∀ k < 26, '.' ≠ letter k := by decide
  exact hletters k hk hletter

/-- Identifiers in brackets may stand for indices. -/
theorem isPositions_filteredPosition : IsPositions filteredPosition where
  isOperator := by
    rintro k s hs
    obtain rfl := Option.some.inj hs
    simp [Filter.isOperator]
  not_mem := by
    rintro k s hs
    obtain rfl := Option.some.inj hs
    simp [not_mem_identifier]

/-- The empty brackets may stand for indices. -/
theorem isPositions_allPosition : IsPositions allPosition where
  isOperator := by
    rintro k s hs
    obtain rfl := Option.some.inj hs
    rfl
  not_mem := by
    rintro k s hs
    obtain rfl := Option.some.inj hs
    decide

/-- A `$` may stand for the first index. -/
theorem isPositions_firstPosition : IsPositions firstPosition where
  isOperator := by
    rintro k s hs
    obtain ⟨-, rfl⟩ := Option.ite_some_none_eq_some.1 hs
    rfl
  not_mem := by
    rintro k s hs
    obtain ⟨-, rfl⟩ := Option.ite_some_none_eq_some.1 hs
    decide

/-- The members are the segments that do not begin with `$`. -/
theorem filter_segments (hposition : IsPositions position)
    (hmembers : ∀ name ∈ members e, Filter.isOperator name = false) (n : Nat) :
    (segments position n e).filter (fun s => !Filter.isOperator s) = members e := by
  induction e generalizing n with
  | nil => rfl
  | cons step rest ih =>
    cases step with
    | member name =>
      have hsplit : members (.member name :: rest) = name :: members rest := rfl
      rw [hsplit, List.forall_mem_cons] at hmembers
      rw [segments, List.filter_cons_of_pos (by simp [hmembers.1]), ih hmembers.2, hsplit]
    | index argument =>
      have hnone : (position n).toList.filter (fun s => !Filter.isOperator s) = [] := by
        rw [List.filter_eq_nil_iff]
        intro s hs
        simp [hposition.isOperator n s (Option.mem_toList.1 hs)]
      rw [segments, List.filter_append, hnone, List.nil_append]
      exact ih hmembers (n + 1)

/-! ## Shapes -/

/-- The members of an expression and the places of its indices. -/
def Expr.shape (e : Expr) : List (Option String) := e.map Step.member?

/-- Where every index has a position, a form has a segment for each step. -/
theorem shape_eq_map_segments (hposition : IsPositions position)
    (htotal : ∀ k, (position k).isSome = true)
    (hmembers : ∀ name ∈ members e, Filter.isOperator name = false) (n : Nat) :
    shape e =
      (segments position n e).map fun s => if Filter.isOperator s then none else some s := by
  -- the first character of a segment tells whether its step is an index
  induction e generalizing n with
  | nil => rfl
  | cons step rest ih =>
    cases step with
    | member name =>
      have hsplit : members (.member name :: rest) = name :: members rest := rfl
      rw [hsplit, List.forall_mem_cons] at hmembers
      rw [segments, List.map_cons, ← ih hmembers.2, hmembers.1]
      rfl
    | index argument =>
      obtain ⟨s, hs⟩ := Option.isSome_iff_exists.1 (htotal n)
      rw [segments, hs, Option.toList_some, List.singleton_append, List.map_cons,
        ← ih hmembers (n + 1), hposition.isOperator n s hs]
      rfl

/-- The segments depend on the shape only. -/
theorem segments_eq_of_shape_eq (h : shape e = shape e')
    (position : Nat → Option String) (n : Nat) :
    segments position n e = segments position n e' := by
  -- equal shapes have steps of the same kind, and the arguments of indices are not written
  induction e generalizing e' n with
  | nil =>
    obtain rfl : e' = [] := List.map_eq_nil_iff.1 h.symm
    rfl
  | cons step rest ih =>
    cases e' with
    | nil => cases h
    | cons step' rest' =>
      obtain ⟨hstep, hrest⟩ := List.cons.inj h
      cases step with
      | member name =>
        cases step' with
        | member name' =>
          obtain rfl := Option.some.inj hstep
          rw [segments, segments, ih hrest]
        | index argument => cases hstep
      | index argument =>
        cases step' with
        | member name' => cases hstep
        | index argument' => rw [segments, segments, ih hrest]

/-- Forms in which every index has a position are the same exactly if the shapes are. -/
theorem segments_eq_iff_shape_eq (hposition : IsPositions position)
    (htotal : ∀ k, (position k).isSome = true)
    (hmembers : ∀ name ∈ members e, Filter.isOperator name = false)
    (hmembers' : ∀ name ∈ members e', Filter.isOperator name = false) :
    segments position 0 e = segments position 0 e' ↔ shape e = shape e' := by
  refine ⟨fun h => ?_, fun h => segments_eq_of_shape_eq h position 0⟩
  rw [shape_eq_map_segments hposition htotal hmembers 0, h,
    ← shape_eq_map_segments hposition htotal hmembers' 0]

/-! ## Accepted expressions -/

theorem isOperator_of_mem_members (h : render e = .ok r) :
    ∀ name ∈ members e, Filter.isOperator name = false := by
  obtain ⟨-, hchecks, -⟩ := render_eq_ok_iff.1 h
  exact fun name hname => isOperator_of_not_mem
    (not_mem_of_checkMember rfl (checkMember_of_mem_members hchecks hname))

/-- The segments of a form of an accepted expression are found again. -/
theorem segments_joinDots_segments (h : render e = .ok r) (hposition : IsPositions position) :
    Filter.segments (joinDots (segments position 0 e)) = segments position 0 e := by
  obtain ⟨⟨name, rest, rfl⟩, hchecks, -⟩ := render_eq_ok_iff.1 h
  refine segments_joinDots (List.cons_ne_nil _ _) fun s hs => ?_
  rcases mem_members_or_of_mem_segments hs with hmember | ⟨k, hk⟩
  · exact not_mem_of_checkMember rfl (checkMember_of_mem_members hchecks hmember)
  · exact hposition.not_mem k s hk

/-- The members of an accepted expression are the segments of its dotted path. -/
theorem segments_joinDots_members (h : render e = .ok r) :
    Filter.segments (joinDots (members e)) = members e := by
  obtain ⟨⟨name, rest, rfl⟩, hchecks, -⟩ := render_eq_ok_iff.1 h
  exact segments_joinDots (List.cons_ne_nil _ _) fun s hs =>
    not_mem_of_checkMember rfl (checkMember_of_mem_members hchecks hs)

/-- The dotted path of an accepted expression is no operator. -/
theorem isOperator_joinDots_members (h : render e = .ok r) :
    Filter.isOperator (joinDots (members e)) = false := by
  obtain ⟨-, hchecks, -⟩ := render_eq_ok_iff.1 h
  refine isOperator_of_not_mem fun hmem => ?_
  have hall := (forall_mem_joinDots_iff (p := fun c => c ≠ '$') (by decide) (members e)).2
    fun name hname c hc heq =>
      not_mem_of_checkMember rfl (checkMember_of_mem_members hchecks hname) (heq ▸ hc)
  exact hall '$' hmem rfl

/-- Two accepted expressions have the same joined form with a segment for each step exactly if their
shapes are the same. -/
theorem joinDots_segments_eq_iff (h : render e = .ok r) (h' : render e' = .ok r')
    (hposition : IsPositions position) (htotal : ∀ k, (position k).isSome = true) :
    joinDots (segments position 0 e) = joinDots (segments position 0 e') ↔ shape e = shape e' := by
  rw [← segments_eq_iff_shape_eq hposition htotal (isOperator_of_mem_members h)
    (isOperator_of_mem_members h')]
  -- a joined form is split into its segments again
  refine ⟨fun hjoined => ?_, congrArg joinDots⟩
  rw [← segments_joinDots_segments h hposition, hjoined, segments_joinDots_segments h' hposition]

/-- What the forms of an expression say of it. -/
structure Rendering.ReadsBack (r : Rendering) (e : Expr) : Prop where
  /-- The form with identifiers has a member for a member and `$[…]` for an index. -/
  posFiltered : Filter.segments (joinDots r.posFiltered) = segments filteredPosition 0 e
  /-- The form for all elements has a member for a member and `$[]` for an index. -/
  posAll : Filter.segments (joinDots r.posAll) = segments allPosition 0 e
  /-- The form for the first element has a member for a member and `$` for the first index. -/
  posFirst : Filter.segments (joinDots r.posFirst) = segments firstPosition 0 e
  /-- Any of them is the dotted path without the segments that begin with `$`. -/
  dotted : ∀ form ∈ [r.posFiltered, r.posAll, r.posFirst],
    joinDots ((Filter.segments (joinDots form)).filter fun s => !Filter.isOperator s) =
      joinDots r.dotted
  /-- The property is the last member. -/
  property : (members e).getLast? = some r.property
  /-- There is a placeholder for each index. -/
  placeholders : r.placeholders = indexCount e
  /-- A filter on the dotted path is one clause for the members, if its value is read as
  conditions. -/
  filter : ∀ v, Filter.compile [(joinDots r.dotted, v)] =
    (Filter.compileConditions v).map fun conditions => .all [.field (members e) conditions]
  /-- A value that is no document of operators asks for itself. -/
  filterPlain : ∀ v, (∀ fields, v = .document fields → Filter.isOperatorDocument fields = false) →
    Filter.compile [(joinDots r.dotted, v)] = .ok (.all [.field (members e) [.equal v]])

/-- The forms of an accepted expression say what it is. -/
theorem readsBack_of_render (h : render e = .ok r) : r.ReadsBack e := by
  obtain ⟨hstarts, -, rfl⟩ := render_eq_ok_iff.1 h
  have hsegments {position : Nat → Option String} (hposition : IsPositions position) :=
    segments_joinDots_segments h hposition
  -- leaving out the operators from the segments of a form leaves the members
  have hdotted {position : Nat → Option String} (hposition : IsPositions position) :
      joinDots ((Filter.segments (joinDots (segments position 0 e))).filter
        fun s => !Filter.isOperator s) = joinDots (members e) := by
    rw [hsegments hposition, filter_segments hposition (isOperator_of_mem_members h)]
  have hfilter (v : Value) : Filter.compile [(joinDots (members e), v)] =
      (Filter.compileConditions v).map fun conditions => .all [.field (members e) conditions] := by
    rw [Filter.compile_singleton (isOperator_joinDots_members h), segments_joinDots_members h]
  obtain ⟨last, -, hlast⟩ := exists_getLast?_members hstarts
  exact {
    posFiltered := hsegments isPositions_filteredPosition
    posAll := hsegments isPositions_allPosition
    posFirst := hsegments isPositions_firstPosition
    dotted := by
      intro form hform
      simp only [List.mem_cons, List.not_mem_nil, or_false] at hform
      rcases hform with rfl | rfl | rfl
      · exact hdotted isPositions_filteredPosition
      · exact hdotted isPositions_allPosition
      · exact hdotted isPositions_firstPosition
    property := by
      rw [Rendering.ofExpr, hlast]
      rfl
    placeholders := rfl
    filter := hfilter
    filterPlain := fun v hv => by
      rw [Rendering.ofExpr, hfilter, Filter.compileConditions_of_not_isOperatorDocument hv]
      rfl }

/-- The forms of an expression determine its shape and agree with each other. Each form of an
accepted expression has the segments of its steps, and they are the dotted path but for the
positions; the two forms that have a position for each index are the same for two expressions
exactly if these have the same members and the same places of indices; and the dotted path is no
operator in a filter but the path of the members. -/
theorem render_determines_shape (h : render e = .ok r) (h' : render e' = .ok r') :
    r.ReadsBack e ∧ Filter.isOperator (joinDots r.dotted) = false ∧
      (posAll e = posAll e' ↔ shape e = shape e') ∧
      (posFiltered e = posFiltered e' ↔ shape e = shape e') := by
  refine ⟨readsBack_of_render h, ?_, ?_, ?_⟩
  · obtain ⟨-, -, rfl⟩ := render_eq_ok_iff.1 h
    exact isOperator_joinDots_members h
  · have hiff := joinDots_segments_eq_iff h h' isPositions_allPosition fun _ => rfl
    obtain ⟨-, -, rfl⟩ := render_eq_ok_iff.1 h
    obtain ⟨-, -, rfl⟩ := render_eq_ok_iff.1 h'
    rw [posAll, posAll, h, h', ← hiff]
    exact ⟨Except.ok.inj, congrArg Except.ok⟩
  · have hiff := joinDots_segments_eq_iff h h' isPositions_filteredPosition fun _ => rfl
    obtain ⟨-, -, rfl⟩ := render_eq_ok_iff.1 h
    obtain ⟨-, -, rfl⟩ := render_eq_ok_iff.1 h'
    rw [posFiltered, posFiltered, h, h', ← hiff]
    exact ⟨Except.ok.inj, congrArg Except.ok⟩

/-- The forms of two expressions that differ in their literal indices only. -/
theorem render_determines_shape_ratings :
    Filter.segments "Books.$[a].$[b].Rating" = ["Books", "$[a]", "$[b]", "Rating"] ∧
      posAll [.member "Books", .index (.literal 2), .index (.literal 0), .member "Rating"] =
        posAll [.member "Books", .index (.literal 1), .index (.literal 7), .member "Rating"] ∧
      Filter.compile [("Books.Rating", .null)] =
        .ok (.all [.field ["Books", "Rating"] [.equal .null]]) := by
  have haccepts : ∀ first second : Int64, 0 ≤ first.toInt → 0 ≤ second.toInt →
      render [.member "Books", .index (.literal first), .index (.literal second),
        .member "Rating"] = .ok (.ofExpr [.member "Books", .index (.literal first),
          .index (.literal second), .member "Rating"]) := by
    intro first second hfirst hsecond
    refine render_eq_ok_iff.2 ⟨⟨"Books", _, rfl⟩, ?_, rfl⟩
    simp only [List.forall_mem_cons, List.not_mem_nil, false_implies, implies_true, and_true]
    exact ⟨rfl, if_pos hfirst, if_pos hsecond, rfl⟩
  obtain ⟨hforms, -, hall, -⟩ := render_determines_shape (haccepts 2 0 (by decide) (by decide))
    (haccepts 1 7 (by decide) (by decide))
  refine ⟨?_, hall.2 rfl, hforms.filterPlain .null nofun⟩
  have ha : identifier 0 = "a" := by decide +kernel
  have hb : identifier 1 = "b" := by decide +kernel
  have hfiltered := hforms.posFiltered
  simp only [Rendering.ofExpr, segments, filteredPosition, ha, hb] at hfiltered
  exact hfiltered

end DocMapper.Path
