import DocMapper.Regex.Space

set_option autoImplicit false

/-!
# Regular expressions read from text

`Pattern.ofText?` reads characters, `.`, classes in brackets, escaped punctuation, groups,
alternatives, repetitions and the anchors `^` and `$`. It is a fold of `Parser.step?` over the
characters. A text is refused when a repetition has nothing to repeat, when a group, class or
count is not closed or a group is closed that is not open, when a range runs backwards, or when it
ends in a backslash. `Regex.ofText?` also refuses a pattern that is nested too deep or too large.
-/

namespace DocMapper

namespace Pattern

/-- A class in brackets that is being read: its ranges so far, the last single character, and
whether a hyphen follows that one. -/
structure ClassReader where
  negated : Bool
  ranges : List (Char × Char)
  pending : Option Char
  hyphen : Bool
  isFresh : Bool

namespace ClassReader

/-- The ranges with the pending character. -/
def settled (r : ClassReader) : List (Char × Char) :=
  match r.pending with
  | some c => (c, c) :: r.ranges
  | none => r.ranges

/-- The reader after a character that belongs to the class. -/
def push? (r : ClassReader) (c : Char) : Option ClassReader :=
  match r.pending, r.hyphen with
  | some first, true =>
      if first ≤ c then
        some { r with ranges := (first, c) :: r.ranges, pending := none, hyphen := false,
                      isFresh := false }
      else none
  | _, _ =>
      some { r with ranges := r.settled, pending := some c, hyphen := false, isFresh := false }

/-- The class that was read. -/
def finish (r : ClassReader) : Pattern :=
  .oneOf ⟨r.negated, if r.hyphen then ('-', '-') :: r.settled else r.settled⟩

end ClassReader

/-- What the next character is part of. -/
inductive ParserMode where
  | plain
  | repeated
  | escape
  | groupOpen
  | groupMark
  | classOpen
  | inClass (reader : ClassReader)
  | classEscape (reader : ClassReader)
  | low (digits : Option Nat)
  | high (least : Nat) (digits : Option Nat)

/-- A group that is being read: whether it captures, the alternatives before the current one and the
parts of the current one, both in reverse. -/
structure ParserGroup where
  captures : Bool
  options : List Pattern
  parts : List Pattern

namespace ParserGroup

/-- A group without parts. -/
def start : ParserGroup := ⟨true, [], []⟩

/-- The pattern of the current alternative. -/
def current (g : ParserGroup) : Pattern := .ofParts g.parts.reverse

/-- The pattern of the whole group. -/
def finish (g : ParserGroup) : Pattern :=
  if g.options.isEmpty then g.current else .choice (g.current :: g.options).reverse

/-- The group with a part more. -/
def push (g : ParserGroup) (part : Pattern) : ParserGroup := { g with parts := part :: g.parts }

/-- The group after the bar between two alternatives. -/
def bar (g : ParserGroup) : ParserGroup := { g with options := g.current :: g.options, parts := [] }

/-- The group with its last part repeated; `none` if it has no part. -/
def repeatLast? (g : ParserGroup) (least : Nat) (most : Option Nat) : Option ParserGroup :=
  match g.parts with
  | last :: rest => some { g with parts := .repeated last least most false :: rest }
  | [] => none

/-- The group whose last part, a repetition, takes as few copies as possible. -/
def lazyLast (g : ParserGroup) : ParserGroup :=
  match g.parts with
  | .repeated body least most _ :: rest =>
      { g with parts := .repeated body least most true :: rest }
  | _ => g

end ParserGroup

/-- The state of the parser: the mode, the innermost group and the groups around it. -/
structure Parser where
  mode : ParserMode
  group : ParserGroup
  outer : List ParserGroup

namespace Parser

/-- The parser before the first character. -/
def start : Parser := ⟨.plain, .start, []⟩

/-- Whether a character stands for itself after a backslash. -/
def isEscapable (c : Char) : Bool :=
  c.toNat < 0x80 && !c.isAlphanum && c != '<' && c != '>'

/-- The parser with a part more. -/
def push (p : Parser) (part : Pattern) : Parser := ⟨.plain, p.group.push part, p.outer⟩

/-- The parser with its last part repeated. -/
def repeatLast? (p : Parser) (least : Nat) (most : Option Nat) : Option Parser :=
  (p.group.repeatLast? least most).map fun group => ⟨.repeated, group, p.outer⟩

/-- The parser after a closing parenthesis. -/
def close? (p : Parser) : Option Parser :=
  match p.outer with
  | group :: outer =>
      some ⟨.plain, group.push (.group p.group.captures p.group.finish), outer⟩
  | [] => none

/-- One character outside classes, escapes and counts. -/
def stepPlain? (p : Parser) (c : Char) : Option Parser :=
  match c with
  | '\\' => some { p with mode := .escape }
  | '.' => some (p.push .anyChar)
  | '^' => some (p.push .startAnchor)
  | '$' => some (p.push .endAnchor)
  | '[' => some { p with mode := .classOpen }
  | '(' => some ⟨.groupOpen, .start, p.group :: p.outer⟩
  | ')' => p.close?
  | '|' => some ⟨.plain, p.group.bar, p.outer⟩
  | '*' => p.repeatLast? 0 none
  | '+' => p.repeatLast? 1 none
  | '?' => p.repeatLast? 0 (some 1)
  | '\x7b' => if p.group.parts.isEmpty then none else some { p with mode := .low none }
  | _ => some (p.push (.char c))

/-- The count with a decimal digit more, which has to fit into 32 bits. -/
def extendCount? (digits : Option Nat) (c : Char) : Option Nat :=
  if c.isDigit then some (digits.getD 0 * 10 + (c.toNat - 48)) |>.filter (· < 2 ^ 32) else none

/-- One character. -/
def step? (p : Parser) (c : Char) : Option Parser :=
  match p.mode with
  | .plain => p.stepPlain? c
  | .repeated =>
      if c = '?' then some ⟨.plain, p.group.lazyLast, p.outer⟩ else p.stepPlain? c
  | .escape => if isEscapable c then some (p.push (.char c)) else none
  | .groupOpen =>
      if c = '?' then some { p with mode := .groupMark }
      else { p with mode := .plain }.stepPlain? c
  | .groupMark =>
      if c = ':' then some { p with mode := .plain, group := { p.group with captures := false } }
      else none
  | .classOpen =>
      if c = '^' then some { p with mode := .inClass ⟨true, [], none, false, true⟩ }
      else if c = '\\' then some { p with mode := .classEscape ⟨false, [], none, false, true⟩ }
      else if c = '[' then none
      else some { p with mode := .inClass ⟨false, [], some c, false, false⟩ }
  | .inClass reader =>
      if c = '\\' then some { p with mode := .classEscape reader }
      else if c = '[' then none
      else if c = ']' ∧ !reader.isFresh then some (p.push reader.finish)
      else if c = '-' ∧ reader.pending.isSome ∧ !reader.hyphen then
        some { p with mode := .inClass { reader with hyphen := true } }
      else (reader.push? c).map fun next => { p with mode := .inClass next }
  | .classEscape reader =>
      if isEscapable c then (reader.push? c).map fun next => { p with mode := .inClass next }
      else none
  | .low digits =>
      match digits, c with
      | some n, '\x7d' => p.repeatLast? n (some n)
      | some n, ',' => some { p with mode := .high n none }
      | _, _ => (extendCount? digits c).map fun n => { p with mode := .low (some n) }
  | .high least digits =>
      match digits, c with
      | none, '\x7d' => p.repeatLast? least none
      | some most, '\x7d' => if least ≤ most then p.repeatLast? least (some most) else none
      | _, _ => (extendCount? digits c).map fun n => { p with mode := .high least (some n) }

/-- The pattern that was read, if nothing is open. -/
def finish? (p : Parser) : Option Pattern :=
  match p.mode, p.outer with
  | .plain, [] => some p.group.finish
  | .repeated, [] => some p.group.finish
  | _, _ => none

end Parser

/-- The pattern that a text writes. -/
def ofText? (text : String) : Option Pattern :=
  (text.toList.foldlM Parser.step? Parser.start).bind Parser.finish?

end Pattern

namespace Regex

/-- The expression that a text describes, if it is neither too deep nor too large. -/
def ofText? (text : String) : Option Regex :=
  ((Pattern.ofText? text).filter Pattern.isAcceptable).map Pattern.regex

/-- Whether a character has a meaning in a pattern. -/
def isMeta (c : Char) : Bool := "\\.+*?()|[]\x7b\x7d^$#&-~".toList.contains c

/-- The pattern that matches exactly a given text. -/
def escape (text : String) : String :=
  String.ofList (text.toList.flatMap fun c => if isMeta c then ['\\', c] else [c])

end Regex

end DocMapper
