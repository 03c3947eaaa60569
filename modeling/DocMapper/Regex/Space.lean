import DocMapper.Regex.Plan
import DocMapper.Text.Utf8

set_option autoImplicit false

/-!
# The space of automata

A pattern is refused when an automaton for it takes too much space. There are two of them, one that
reads a text forward to find where a match ends and one that reads backward from there, and both
read the bytes of the text. `Plan.space` is the number of bytes that an automaton takes, found
without building it: states of equal size, and on top of that transitions and branches.

`Pattern.isAcceptable` holds of the patterns that are neither nested too deep nor too large.
-/

namespace DocMapper

namespace Trie

/-! ## Words read symbol by symbol

Words that are read together are told apart symbol by symbol: they branch where their next symbols
differ. `heads` lists the symbols that come next, `after` what remains of the words behind one of
them, and `nodes` the different sets of remaining words on the way. -/

variable {α : Type}

/-- The symbols with which words begin. -/
def heads [BEq α] (words : List (List α)) : List α := (words.filterMap List.head?).eraseDups

/-- What remains of the words that begin with a symbol. -/
def after [BEq α] (symbol : α) (words : List (List α)) : List (List α) :=
  words.filterMap fun
    | first :: rest => if first == symbol then some rest else none
    | [] => none

/-- The sets of remaining words that are not finished, of words with at most `n` symbols. A set is
listed as often as it is reached. -/
def nodes [BEq α] : Nat → List (List α) → List (List (List α))
  | 0, _ => []
  | n + 1, words =>
      let firsts := heads words
      if firsts.isEmpty then []
      else words :: firsts.flatMap fun symbol => nodes n (after symbol words)

/-- The words between the finished ones. -/
def stretches : List (List α) → List (List (List α))
  | [] => [[]]
  | word :: rest =>
      if word.isEmpty then [] :: stretches rest
      else
        match stretches rest with
        | [] => [[word]]
        | stretch :: more => (word :: stretch) :: more

/-- Words of which only one is finished before the first that is not. -/
def singleFinish (words : List (List α)) : List (List α) :=
  match words with
  | [] :: rest => [] :: rest.dropWhile List.isEmpty
  | words => words

/-- The length of the longest word. -/
def height (words : List (List α)) : Nat := words.foldl (fun n word => max n word.length) 0

/-- Only the finished words are lost between the stretches. -/
theorem flatten_stretches (words : List (List α)) :
    (stretches words).flatten = words.filter fun word => !word.isEmpty := by
  induction words with
  | nil => rfl
  | cons word rest ih =>
      rw [stretches]
      split
      · rename_i h
        simp [h, ih]
      · rename_i h
        rw [List.filter_cons_of_pos (by simp [h]), ← ih]
        cases stretches rest <;> simp

/-- There is one stretch more than finished words. -/
theorem length_stretches (words : List (List α)) :
    (stretches words).length = words.countP List.isEmpty + 1 := by
  induction words with
  | nil => rfl
  | cons word rest ih =>
      rw [stretches]
      split
      · rename_i h
        simp [h, ih]
      · rename_i h
        rw [List.countP_cons_of_neg (by simpa using h), ← ih]
        cases hs : stretches rest with
        | nil => simp [hs] at ih
        | cons stretch more => simp

end Trie

/-! ## States -/

open Text

/-- The direction in which an automaton reads a text. -/
inductive Direction where
  | forward
  | backward
deriving DecidableEq

namespace Plan

/-- The bytes that a state takes. -/
def stateSpace : Nat := 32

/-- The bytes that a transition takes, in a state that has several of them. -/
def transitionSpace : Nat := 8

/-- The bytes that a branch takes, in a state from which several branches go out without a byte of
the text being read. -/
def branchSpace : Nat := 4

/-- The bytes of a state that leads to other states for different bytes of the text. -/
def switchSpace (transitions : Nat) : Nat := stateSpace + transitionSpace * transitions

/-- The bytes of a state from which branches go out. -/
def unionSpace (branches : Nat) : Nat := stateSpace + branchSpace * branches

/-- The bytes of a state from which two branches go out. -/
def forkSpace : Nat := unionSpace 2

/-! ## Sets -/

/-- The bytes of a set of characters. An ASCII set is one step. Other encodings share states: equal
ends where they are read forward, and equal beginnings, which come last, where they are read
backward. -/
def setSpace (d : Direction) (codes : CodeRanges) : Nat :=
  if codes.all fun (_, last) => last < 0x80 then switchSpace codes.length + stateSpace
  else
    let sequences := Utf8.sequences codes
    let nodes := Trie.nodes Utf8.maxLength sequences
    let steps (node : List ByteRanges) : Nat := (Trie.heads node).length
    match d with
    | .forward => stateSpace + (nodes.eraseDups.map fun node => switchSpace (steps node)).sum
    | .backward => stateSpace + unionSpace sequences.length + stateSpace * (nodes.map steps).sum

/-! ## Words -/

/-- The bytes of a choice between words of at most so many bytes, without the state after them.
Words are read together as long as they agree. Earlier words are preferred, so a finished word
divides those before it from those after it, and a union of all in order leads to them. -/
def branchingSpace : Nat → List (List UInt8) → Nat
  | 0, _ => 0
  | n + 1, words =>
      let stretches := Trie.stretches (Trie.singleFinish words)
      let read := stretches.filter fun stretch => !stretch.isEmpty
      let stretchSpace (stretch : List (List UInt8)) : Nat :=
        let firsts := Trie.heads stretch
        let step := if firsts.length = 1 then stateSpace else switchSpace firsts.length
        step + (firsts.map fun first =>
          let rest := Trie.after first stretch
          if rest.all List.isEmpty then 0 else branchingSpace n rest).sum
      unionSpace (read.length + (stretches.length - 1)) + (read.map stretchSpace).sum

/-- The bytes of a choice between words, with the state after them. -/
def wordsSpace (words : List (List UInt8)) : Nat :=
  stateSpace + branchingSpace (Trie.height words) words

/-- The word of a plan that is a literal, in the order in which its bytes are read. -/
def word? (d : Direction) : Plan → Option (List UInt8)
  | literal text =>
      let bytes := text.flatMap String.utf8EncodeChar
      some (if d = .forward then bytes else bytes.reverse)
  | _ => none

/-! ## Repetitions -/

mutual
/-- The least length of a match; `none` as soon as some part of the plan matches nothing. -/
def leastLength? : Plan → Option Nat
  | empty | startAnchor | endAnchor => some 0
  | literal text => some text.length
  | oneOf codes => if codes.isEmpty then none else some 1
  | capture body => body.leastLength?
  | sequence parts => totalLength? parts
  | choice options => shortestLength? options
  | repeated body least _ _ => body.leastLength?.map (least * ·)
/-- The least length of matches in a row. -/
def totalLength? : List Plan → Option Nat
  | [] => some 0
  | first :: rest => do return (← first.leastLength?) + (← totalLength? rest)
/-- The least length of a match of one of several plans. -/
def shortestLength? : List Plan → Option Nat
  | [] => none
  | [last] => last.leastLength?
  | first :: rest => do return min (← first.leastLength?) (← shortestLength? rest)
end

/-- Whether every match is known to have text. -/
def hasText (p : Plan) : Bool := p.leastLength?.any (0 < ·)

/-- The bytes of exactly so many copies of a part that takes the given bytes. -/
def exactSpace (body n : Nat) : Nat := if n = 0 then stateSpace else n * body

/-- The bytes of a repetition whose body takes the given bytes: the required copies, and either a
loop around the last one or the optional copies. A loop around a body that may match the empty text
has a second way past it. -/
def repeatedSpace (body : Nat) (bodyHasText : Bool) (least : Nat) : Option Nat → Nat
  | none =>
      if least = 0 then body + forkSpace + (if bodyHasText then 0 else forkSpace + stateSpace)
      else least * body + forkSpace
  | some most =>
      if most ≤ least then exactSpace body least
      else if least = 0 ∧ most = 1 then body + forkSpace + stateSpace
      else exactSpace body least + (most - least) * (body + forkSpace) + stateSpace

/-! ## The whole -/

mutual
/-- The bytes of the automaton of a plan. Only the one that reads forward keeps track of
captures. -/
def space (d : Direction) : Plan → Nat
  | empty | startAnchor | endAnchor => stateSpace
  | literal text => (text.map Char.utf8Size).sum * stateSpace
  | oneOf codes => setSpace d codes
  | capture body => body.space d + (if d = .forward then 2 * stateSpace else 0)
  | sequence parts => totalSpace d parts
  | choice options =>
      match options.mapM (word? d) with
      | some words => wordsSpace words
      | none => totalSpace d options + unionSpace options.length + stateSpace
  | repeated body least most _ => repeatedSpace (body.space d) body.hasText least most
/-- The bytes of the automata of some plans together. -/
def totalSpace (d : Direction) : List Plan → Nat
  | [] => 0
  | first :: rest => first.space d + totalSpace d rest
end

mutual
/-- Whether every match has to begin, in the direction of reading, at the end of the text where
reading begins. -/
def isAnchored (d : Direction) : Plan → Bool
  | startAnchor => d = .forward
  | endAnchor => d = .backward
  | empty | literal _ | oneOf _ => false
  | capture body => body.isAnchored d
  | sequence parts => rowIsAnchored d parts
  | choice options => allAnchored d options
  | repeated body least _ _ => 0 < least && body.isAnchored d
/-- Whether every match of some plans in a row is anchored: up to the first part with text, in the
direction of reading, one part is. -/
def rowIsAnchored (d : Direction) : List Plan → Bool
  | [] => false
  | first :: rest =>
      match d with
      | .forward => first.isAnchored d || (first.isTextless && rowIsAnchored d rest)
      | .backward => rowIsAnchored d rest || (allTextless rest && first.isAnchored d)
/-- Whether every match of each plan is anchored. -/
def allAnchored (d : Direction) : List Plan → Bool
  | [] => true
  | first :: rest => first.isAnchored d && allAnchored d rest
end

/-- The bytes of the states before a plan, which skip text up to a match unless it is anchored. -/
def entrySpace (d : Direction) (p : Plan) : Nat :=
  if p.isAnchored d then stateSpace else forkSpace + switchSpace 1 + stateSpace

/-- The bytes of the states that record a match, and forward also where it begins and ends. -/
def exitSpace : Direction → Nat
  | .forward => 3 * stateSpace
  | .backward => stateSpace

/-- The space of the greatest automaton of an accepted pattern: 10 MiB. -/
def maxSpace : Nat := 10 * 2 ^ 20

/-- Whether the automaton that reads in a direction is not too large. -/
def fitsIn (d : Direction) (p : Plan) : Bool :=
  p.entrySpace d + p.space d + exitSpace d ≤ maxSpace

/-- Whether neither automaton is too large. -/
def fits (p : Plan) : Bool := p.fitsIn .forward && p.fitsIn .backward

end Plan

namespace Pattern

/-- The greatest depth of an accepted pattern. -/
def maxDepth : Nat := 250

/-- Whether a pattern is neither too deep nor too large. -/
def isAcceptable (p : Pattern) : Bool := p.depth ≤ maxDepth && p.plan.fits

end Pattern

end DocMapper
