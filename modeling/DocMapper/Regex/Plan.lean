import DocMapper.Regex.Pattern
import DocMapper.Text.CodeRange

set_option autoImplicit false

/-!
# Plans of automata

An automaton is not built from a pattern as it is written but from its `Plan`, in which what is
written in several ways has one form. Characters in a row are one literal. A set of characters is
given by the fewest ranges, and a set of one character is a literal. Sequences and choices are not
nested directly in themselves. A choice between sets is a set, and a choice between sequences that
begin alike shares their beginning. A repetition of a part without text is at most one copy.

The functions `row`, `oneOfAll` and `copies` keep these rules, and `Pattern.plan` uses only them.
-/

namespace DocMapper

open Text

/-- The codes of the characters in a set. -/
def CharSet.codes (set : CharSet) : CodeRanges :=
  let ranges := set.ranges.map fun (first, last) => (first.toNat, last.toNat)
  if set.negated then CodeRanges.complement ranges else CodeRanges.merged ranges

/-- What an automaton is built from. -/
inductive Plan where
  | empty
  | literal (text : List Char)
  | oneOf (codes : CodeRanges)
  | startAnchor
  | endAnchor
  | capture (body : Plan)
  | sequence (parts : List Plan)
  | choice (options : List Plan)
  | repeated (body : Plan) (least : Nat) (most : Option Nat) (isLazy : Bool)

namespace Plan

/-! ## Comparison -/

mutual
/-- Whether two plans are the same. No two groups that capture are, since they capture different
parts of a match. -/
def same : Plan → Plan → Bool
  | empty, empty => true
  | literal s, literal t => s == t
  | oneOf r, oneOf s => r == s
  | startAnchor, startAnchor => true
  | endAnchor, endAnchor => true
  | sequence ps, sequence qs => sameAll ps qs
  | choice ps, choice qs => sameAll ps qs
  | repeated p least most isLazy, repeated q least' most' isLazy' =>
      same p q && least == least' && most == most' && isLazy == isLazy'
  | _, _ => false
/-- Whether two lists hold the same plans. -/
def sameAll : List Plan → List Plan → Bool
  | [], [] => true
  | p :: ps, q :: qs => same p q && sameAll ps qs
  | _, _ => false
end

/-- The number of parts that two rows have in common at their beginnings. -/
def commonLength (ps qs : List Plan) : Nat :=
  ((ps.zip qs).takeWhile fun (p, q) => p.same q).length

/-! ## Forms -/

/-- The plan of a set of characters. -/
def ofCodes : CodeRanges → Plan
  | [(first, last)] => if first = last then literal [Char.ofNat first] else oneOf [(first, last)]
  | ranges => oneOf ranges

/-- The parts that a plan adds to a row. -/
def parts : Plan → List Plan
  | empty => []
  | sequence parts => parts
  | part => [part]

/-- The parts of a row with literals joined that stand side by side. -/
def joinLiterals : List Plan → List Plan
  | [] => []
  | literal s :: rest =>
      match joinLiterals rest with
      | literal t :: more => literal (s ++ t) :: more
      | more => literal s :: more
  | part :: rest => part :: joinLiterals rest

/-- The plan of some plans in a row. -/
def row (plans : List Plan) : Plan :=
  match joinLiterals (plans.flatMap parts) with
  | [] => empty
  | [part] => part
  | parts => sequence parts

/-- The alternatives that a plan adds to a choice. -/
def options : Plan → List Plan
  | choice options => options
  | option => [option]

/-- The code of a plan that is one character. -/
def code? : Plan → Option (Nat × Nat)
  | literal [c] => some (c.toNat, c.toNat)
  | _ => none

/-- The codes of a plan that is a set of several characters, or of none. -/
def codes? : Plan → Option CodeRanges
  | oneOf codes => some codes
  | _ => none

/-- The plan of a choice between plans that are all characters or all sets. -/
def oneOfSets? (options : List Plan) : Option Plan :=
  let ranges := (options.mapM code?).or ((options.mapM codes?).map List.flatten)
  ranges.map fun ranges => ofCodes (CodeRanges.merged ranges)

/-- The parts of a plan that is a sequence, and no parts of another one. -/
def sequenceParts : Plan → List Plan
  | sequence parts => parts
  | _ => []

/-- The number of parts at the beginning that sequences have in common. A plan that is no sequence
has none in common with others. -/
def sharedLength : List Plan → Nat
  | [] => 0
  | first :: rest =>
      rest.foldl (fun n option => min n (commonLength first.sequenceParts option.sequenceParts))
        first.sequenceParts.length

/-- The plan of a choice whose alternatives share no beginning. -/
def distinctChoice (plans : List Plan) : Plan :=
  let options := plans.flatMap options
  (oneOfSets? options).getD (choice options)

/-- The plan of a choice between at least two plans. -/
def oneOfAll (plans : List Plan) : Plan :=
  let options := plans.flatMap options
  let shared := sharedLength options
  match shared, options with
  | n + 1, first :: _ =>
      row (first.sequenceParts.take (n + 1) ++
        [distinctChoice (options.map fun option => row (option.sequenceParts.drop (n + 1)))])
  | _, _ => distinctChoice options

mutual
/-- Whether a plan matches the empty text and no other one. -/
def isTextless : Plan → Bool
  | empty | startAnchor | endAnchor => true
  | literal _ | oneOf _ => false
  | capture body => body.isTextless
  | sequence parts => allTextless parts
  | choice options => allTextless options
  | repeated body _ _ _ => body.isTextless
/-- Whether some plans match the empty text and no other one. -/
def allTextless : List Plan → Bool
  | [] => true
  | first :: rest => first.isTextless && allTextless rest
end

/-- The plan of a repetition. -/
def copies (body : Plan) (least : Nat) (most : Option Nat) (isLazy : Bool) : Plan :=
  let least := if body.isTextless then min least 1 else least
  let most := if body.isTextless then some (min (most.getD 1) 1) else most
  if most = some 0 then empty
  else if least = 1 ∧ most = some 1 then body
  else repeated body least most isLazy

end Plan

namespace Pattern

mutual
/-- The plan of the automaton of a pattern. -/
def plan : Pattern → Plan
  | char c => .literal [c]
  | anyChar => .ofCodes (CharSet.codes ⟨true, [('\n', '\n')]⟩)
  | oneOf set => .ofCodes set.codes
  | startAnchor => .startAnchor
  | endAnchor => .endAnchor
  | group captures body => if captures then .capture body.plan else body.plan
  | sequence parts => .row (plans parts)
  | choice options => .oneOfAll (plans options)
  | repeated body least most isLazy => body.plan.copies least most isLazy
/-- The plans of some patterns. -/
def plans : List Pattern → List Plan
  | [] => []
  | first :: rest => first.plan :: plans rest
end

end Pattern

end DocMapper
