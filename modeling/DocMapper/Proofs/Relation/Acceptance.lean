import DocMapper.Proofs.Relation.Listing

set_option autoImplicit false

/-!
# Join patterns that a listing accepts

A listing refuses a pattern whose automata take too much space. The space of the pattern of a
collection is a constant and 64 bytes for each byte of the name, once for each side on which the
collection may stand (`space_joining`). So the pattern of every name of at most `maxNameSize` bytes
is accepted (`isSome_ofText?_joinPattern`), and that of every name for which those 64 bytes for each
byte are too many is refused (`ofText?_joinPattern_eq_none`).
-/

namespace DocMapper

namespace Plan

/-- Characters before a literal become a part of it. -/
theorem joinLiterals_append {plans more : List Plan} {s : List Char} (text : List Char)
    (h : joinLiterals plans = literal s :: more) :
    joinLiterals (text.map (fun c => literal [c]) ++ plans) = literal (text ++ s) :: more := by
  induction text with
  | nil => exact h
  | cons c rest ih =>
    rw [List.map_cons, List.cons_append, joinLiterals, ih]
    rfl

/-- Characters alone become one literal. -/
theorem joinLiterals_literals (c : Char) (text : List Char) :
    joinLiterals ((c :: text).map fun c => literal [c]) = [literal (c :: text)] := by
  induction text generalizing c with
  | nil => rfl
  | cons d rest ih =>
    rw [List.map_cons, joinLiterals, ih]
    rfl

/-- Characters are parts of a row as they are. -/
theorem flatMap_parts_literals (text : List Char) :
    (text.map fun c => literal [c]).flatMap parts = text.map fun c => literal [c] := by
  induction text with
  | nil => rfl
  | cons c rest ih =>
    rw [List.map_cons, List.flatMap_cons, ih]
    rfl

theorem row_eq_sequence {plans more : List Plan} {first second : Plan}
    (h : joinLiterals (plans.flatMap parts) = first :: second :: more) :
    row plans = sequence (first :: second :: more) := by
  rw [row, h]

end Plan

namespace Pattern

theorem plans_eq_map (patterns : List Pattern) : plans patterns = patterns.map plan := by
  induction patterns with
  | nil => rfl
  | cons first rest ih => rw [plans, ih, List.map_cons]

theorem map_plan_literal (text : List Char) :
    (literal text).map plan = text.map fun c => Plan.literal [c] := by
  rw [literal, List.map_map]
  rfl

theorem codes_partCharacters :
    partCharacters.codes = [(0, 39), (42, 125), (127, 0xD7FF), (0xE000, 0x10FFFF)] := by
  simp [partCharacters, CharSet.codes, Text.CodeRanges.complement, Text.CodeRanges.merged,
    Text.CodeRanges.mergedAfter, Text.CodeRanges.gaps, Text.surrogates, Text.lastCode,
    List.mergeSort]

theorem codes_propertyCharacters :
    propertyCharacters.codes = [(0, 39), (42, 0xD7FF), (0xE000, 0x10FFFF)] := by
  simp [propertyCharacters, CharSet.codes, Text.CodeRanges.complement, Text.CodeRanges.merged,
    Text.CodeRanges.mergedAfter, Text.CodeRanges.gaps, Text.surrogates, Text.lastCode,
    List.mergeSort]

/-- The plan of a part of a name that is not further known. -/
def partPlan : Plan := .repeated (.oneOf partCharacters.codes) 1 none false

/-- The plan of a property. -/
def propertyPlan : Plan := .repeated (.oneOf propertyCharacters.codes) 0 none false

theorem plan_somePart : somePart.plan = partPlan := by
  rw [somePart, plan, plan, partPlan, codes_partCharacters]
  rfl

theorem plan_property :
    (repeated (oneOf propertyCharacters) 0 none false).plan = propertyPlan := by
  rw [plan, plan, propertyPlan, codes_propertyCharacters]
  rfl

theorem ofParts_parentSide (collection : List Char) :
    ofParts (literal collection ++ [char '~', somePart]) =
      sequence (literal collection ++ [char '~', somePart]) := by
  rcases collection with _ | ⟨c, _ | ⟨d, rest⟩⟩ <;> rfl

/-- The plan of the names in which the collection is the parent. -/
theorem plan_parentSide (collection : List Char) :
    (ofParts (literal collection ++ [char '~', somePart])).plan =
      .sequence [.literal (collection ++ ['~']), partPlan] := by
  have hjoin : Plan.joinLiterals (collection.map (fun c => .literal [c]) ++
      [.literal ['~'], partPlan]) = [.literal (collection ++ ['~']), partPlan] :=
    Plan.joinLiterals_append collection rfl
  have hlast : ([char '~', somePart].map plan).flatMap Plan.parts =
      [.literal ['~'], partPlan] := by
    rw [List.map_cons, List.map_cons, plan_somePart]
    rfl
  rw [ofParts_parentSide, plan, plans_eq_map, List.map_append, map_plan_literal]
  refine Plan.row_eq_sequence ?_
  rw [List.flatMap_append, Plan.flatMap_parts_literals, hlast, hjoin]

/-- The plan of the names in which the collection is the child. -/
theorem plan_childSide (collection : List Char) :
    (ofParts (somePart :: char '~' :: literal collection)).plan =
      .sequence [partPlan, .literal ('~' :: collection)] := by
  have hjoin := Plan.joinLiterals_literals '~' collection
  have hparts : (partPlan :: (char '~').plan :: collection.map fun c => .literal [c]).flatMap
      Plan.parts = partPlan :: ('~' :: collection).map fun c => .literal [c] := by
    rw [List.flatMap_cons, List.flatMap_cons, Plan.flatMap_parts_literals]
    rfl
  rw [ofParts.eq_2 _ (by simp), plan, plans_eq_map, List.map_cons, List.map_cons,
    map_plan_literal, plan_somePart]
  refine Plan.row_eq_sequence ?_
  rw [hparts]
  simp only [partPlan, Plan.joinLiterals, hjoin]

/-- The two sides begin differently, so their choice is planned as it is written. -/
theorem plan_sides (collection : List Char) :
    (group false (choice [ofParts (literal collection ++ [char '~', somePart]),
        ofParts (somePart :: char '~' :: literal collection)])).plan =
      .choice [.sequence [.literal (collection ++ ['~']), partPlan],
        .sequence [partPlan, .literal ('~' :: collection)]] := by
  rw [plan, plan, plans_eq_map, List.map_cons, List.map_cons, List.map_nil, plan_parentSide,
    plan_childSide]
  rfl

theorem plan_joining (collection : List Char) :
    (joining collection).plan =
      .sequence [.startAnchor, .literal ['~'],
        .choice [.sequence [.literal (collection ++ ['~']), partPlan],
          .sequence [partPlan, .literal ('~' :: collection)]],
        .literal ['('], propertyPlan, .literal [')'], .endAnchor] := by
  rw [joining, plan, plans_eq_map]
  refine Plan.row_eq_sequence ?_
  simp only [List.map_cons, List.map_nil, plan_property, plan_sides]
  rfl

/-! ## Depth -/

/-- Characters that stand for themselves have no depth. -/
theorem depthOfAll_literal_append (text : List Char) (rest : List Pattern) :
    depthOfAll (literal text ++ rest) = depthOfAll rest := by
  induction text with
  | nil => rfl
  | cons c text ih =>
    rw [literal, List.map_cons, List.cons_append, depthOfAll, depth, Nat.zero_max]
    exact ih

/-- The depth does not depend on the name. -/
theorem depth_joining (collection : List Char) : (joining collection).depth = 7 := by
  have hparent := depthOfAll_literal_append collection [char '~', somePart]
  have hchild := depthOfAll_literal_append collection []
  rw [List.append_nil] at hchild
  have hnotEmpty : (literal collection ++ [char '~', somePart]).isEmpty = false := by simp
  rw [joining, ofParts_parentSide, ofParts.eq_2 _ (by simp)]
  simp only [depth, depthOfAll, hparent, hchild, hnotEmpty]
  rfl

/-! ## Space -/

theorem space_partPlan_le (d : Direction) : partPlan.space d ≤ 4096 := by
  rw [partPlan, codes_partCharacters]
  cases d <;> decide +kernel

theorem space_propertyPlan_le (d : Direction) : propertyPlan.space d ≤ 4096 := by
  rw [propertyPlan, codes_propertyCharacters]
  cases d <;> decide +kernel

/-- The number of bytes of a text. -/
def byteCount (text : List Char) : Nat := (text.map Char.utf8Size).sum

/-- Each side on which the collection may stand takes 32 bytes for each byte of its name. -/
theorem space_joining_le (d : Direction) (collection : List Char) :
    (joining collection).plan.space d ≤ 64 * byteCount collection + 16384 := by
  have hpart := space_partPlan_le d
  have hproperty := space_propertyPlan_le d
  rw [plan_joining]
  -- neither option is a literal, so the choice is not read as one between words
  simp only [Plan.space, Plan.totalSpace, Plan.word?, List.mapM_cons, Option.bind_eq_bind,
    Option.bind_none, List.map_append, List.map_cons, List.map_nil, List.sum_append,
    List.sum_cons, List.sum_nil, byteCount]
  have hdelimiters : '~'.utf8Size = 1 ∧ '('.utf8Size = 1 ∧ ')'.utf8Size = 1 := by decide
  simp only [hdelimiters, Plan.unionSpace, Plan.stateSpace, Plan.branchSpace, List.length_cons,
    List.length_nil]
  omega

theorem le_space_joining (d : Direction) (collection : List Char) :
    64 * byteCount collection ≤ (joining collection).plan.space d := by
  rw [plan_joining]
  simp only [Plan.space, Plan.totalSpace, Plan.word?, List.mapM_cons, Option.bind_eq_bind,
    Option.bind_none, List.map_append, List.map_cons, List.sum_append, List.sum_cons, byteCount,
    Plan.stateSpace]
  omega

theorem entrySpace_le (d : Direction) (p : Plan) : p.entrySpace d ≤ 112 := by
  unfold Plan.entrySpace
  split <;> decide

theorem exitSpace_le (d : Direction) : Plan.exitSpace d ≤ 96 := by
  cases d <;> decide

/-- The most bytes of a name whose pattern is sure to be accepted. -/
def maxNameSize : Nat := 160000

/-- The pattern of a name that is not too long takes little enough space. -/
theorem isAcceptable_joining {collection : List Char} (h : byteCount collection ≤ maxNameSize) :
    (joining collection).isAcceptable = true := by
  have hfits : ∀ d, (joining collection).plan.fitsIn d = true := by
    intro d
    have hspace := space_joining_le d collection
    have hentry := entrySpace_le d (joining collection).plan
    have hexit := exitSpace_le d
    rw [Plan.fitsIn, decide_eq_true_eq, Plan.maxSpace]
    rw [maxNameSize] at h
    omega
  have hdepth : (joining collection).depth ≤ maxDepth := by
    rw [depth_joining]
    decide
  rw [isAcceptable, Plan.fits, hfits, hfits, decide_eq_true hdepth]
  rfl

/-- The pattern of a name that is too long takes too much space. -/
theorem isAcceptable_joining_of_lt {collection : List Char}
    (h : Plan.maxSpace < 64 * byteCount collection) :
    (joining collection).isAcceptable = false := by
  have hspace := le_space_joining .forward collection
  have hfits : (joining collection).plan.fitsIn .forward = false := by
    rw [Plan.fitsIn, decide_eq_false_iff_not]
    omega
  rw [isAcceptable, Plan.fits, hfits, Bool.false_and, Bool.and_false]

end Pattern

namespace Regex

/-- A listing accepts the pattern of every name that is not too long. -/
theorem isSome_ofText?_joinPattern {collection : String}
    (h : Pattern.byteCount collection.toList ≤ Pattern.maxNameSize) :
    (ofText? (joinPattern collection)).isSome = true := by
  rw [ofText?, Pattern.ofText?_joinPattern, Option.isSome_map, Option.filter_some,
    Pattern.isAcceptable_joining h]
  rfl

/-- A listing refuses the pattern of a name that is too long. -/
theorem ofText?_joinPattern_eq_none {collection : String}
    (h : Plan.maxSpace < 64 * Pattern.byteCount collection.toList) :
    ofText? (joinPattern collection) = none := by
  rw [ofText?, Pattern.ofText?_joinPattern, Option.filter_some,
    Pattern.isAcceptable_joining_of_lt h]
  rfl

end Regex

end DocMapper
