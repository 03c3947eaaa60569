set_option autoImplicit false

/-!
# Regular expressions and patterns

A `Regex` describes texts together with the two positions that an anchor may ask for. Matching is by
derivatives: `derivative atStart c r` describes what may follow the character `c` in a match of `r`,
and `nullable atStart atEnd r` tells whether `r` matches the empty text at a position that may be
the start or the end of the whole text. `find` looks for a match anywhere.

A `Pattern` is the tree of a written regular expression, in which repetitions are still counts.
`Pattern.regex` unfolds it, and `Pattern.depth` measures how deep the written parts are nested.
Whether a repetition takes few or many copies first makes no difference to the texts that match, so
`regex` forgets it.
-/

namespace DocMapper

/-- A set of characters: those in some range, or those in none. -/
structure CharSet where
  negated : Bool
  ranges : List (Char × Char)
deriving DecidableEq

/-- Whether a character is in a set. -/
def CharSet.contains (set : CharSet) (c : Char) : Bool :=
  (set.ranges.any fun (first, last) => first ≤ c && c ≤ last) != set.negated

/-- A regular expression. -/
inductive Regex where
  | nothing
  | empty
  | one (set : CharSet)
  | startAnchor
  | endAnchor
  | seq (first second : Regex)
  | alt (first second : Regex)
  | star (body : Regex)
deriving DecidableEq

namespace Regex

/-- The expression for one character. -/
def char (c : Char) : Regex := one ⟨false, [(c, c)]⟩

/-- A sequence, simplified where one part is trivial. -/
def followedBy : Regex → Regex → Regex
  | nothing, _ => nothing
  | empty, second => second
  | first, empty => first
  | first, second => seq first second

/-- Whether an expression is one of the alternatives of another. -/
def isAlternative (r : Regex) : Regex → Bool
  | alt first second => isAlternative r first || isAlternative r second
  | other => r == other

/-- A choice, simplified where the second part adds nothing. -/
def orElse (first second : Regex) : Regex :=
  if first = nothing then second
  else if second = nothing ∨ isAlternative second first then first
  else alt first second

/-- Whether an expression matches the empty text at a position. -/
def nullable (atStart atEnd : Bool) : Regex → Bool
  | nothing => false
  | empty => true
  | one _ => false
  | startAnchor => atStart
  | endAnchor => atEnd
  | seq first second => nullable atStart atEnd first && nullable atStart atEnd second
  | alt first second => nullable atStart atEnd first || nullable atStart atEnd second
  | star _ => true

/-- What may follow a character in a match. -/
def derivative (atStart : Bool) (c : Char) : Regex → Regex
  | nothing => nothing
  | empty => nothing
  | one set => if set.contains c then empty else nothing
  | startAnchor => nothing
  | endAnchor => nothing
  | seq first second =>
      let through := (derivative atStart c first).followedBy second
      if nullable atStart false first then through.orElse (derivative atStart c second)
      else through
  | alt first second => (derivative atStart c first).orElse (derivative atStart c second)
  | star body => (derivative atStart c body).followedBy (star body)

/-- Whether a match that `current` describes, or a new one of `r`, ends somewhere in a text. -/
def findFrom (r current : Regex) (atStart : Bool) : List Char → Bool
  | [] => nullable atStart true current
  | c :: rest =>
      nullable atStart false current ||
        findFrom r ((derivative atStart c current).orElse r) false rest

/-- Whether an expression matches some part of a text. -/
def find (r : Regex) (text : String) : Bool := findFrom r r true text.toList

/-- The expression repeated a given number of times, and then another one. -/
def timesThen (r : Regex) (n : Nat) (last : Regex) : Regex := Nat.repeat r.followedBy n last

/-- The expression repeated at most a given number of times. -/
def atMost (r : Regex) (n : Nat) : Regex :=
  Nat.repeat (fun rest => (r.followedBy rest).orElse empty) n empty

end Regex

/-! ## Patterns -/

/-- A written regular expression. -/
inductive Pattern where
  | char (c : Char)
  | anyChar
  | oneOf (set : CharSet)
  | startAnchor
  | endAnchor
  | group (captures : Bool) (body : Pattern)
  | sequence (parts : List Pattern)
  | choice (options : List Pattern)
  | repeated (body : Pattern) (least : Nat) (most : Option Nat) (isLazy : Bool)

namespace Pattern

/-- The pattern of some parts in a row. A single part needs no sequence around it. -/
def ofParts : List Pattern → Pattern
  | [part] => part
  | parts => sequence parts

/-! ## Depth -/

mutual
/-- How deep the parts of a pattern are nested. Single characters and anchors have no depth, and
several items of a class are a part of their own. -/
def depth : Pattern → Nat
  | char _ | anyChar | startAnchor | endAnchor => 0
  | oneOf set => if set.ranges.length ≤ 1 then 1 else 2
  | group _ body => body.depth + 1
  | sequence parts => if parts.isEmpty then 0 else depthOfAll parts + 1
  | choice options => depthOfAll options + 1
  | repeated body _ _ _ => body.depth + 1
/-- The greatest depth of some patterns. -/
def depthOfAll : List Pattern → Nat
  | [] => 0
  | first :: rest => max first.depth (depthOfAll rest)
end

/-! ## Meaning -/

mutual
/-- The regular expression that a pattern writes. -/
def regex : Pattern → Regex
  | char c => .char c
  | anyChar => .one ⟨true, [('\n', '\n')]⟩
  | oneOf set => .one set
  | startAnchor => .startAnchor
  | endAnchor => .endAnchor
  | group _ body => body.regex
  | sequence parts => regexOfSequence parts
  | choice options => regexOfChoice options
  | repeated body least none _ => body.regex.timesThen least body.regex.star
  | repeated body least (some most) _ =>
      body.regex.timesThen least (body.regex.atMost (most - least))
/-- The regular expression of some patterns in a row. -/
def regexOfSequence : List Pattern → Regex
  | [] => .empty
  | first :: rest => first.regex.followedBy (regexOfSequence rest)
/-- The regular expression of a choice. -/
def regexOfChoice : List Pattern → Regex
  | [] => .nothing
  | first :: rest => first.regex.orElse (regexOfChoice rest)
end

end Pattern

end DocMapper
