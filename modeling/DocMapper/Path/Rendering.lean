set_option autoImplicit false

/-!
# Navigation expressions and their renderings

An expression is a chain of steps from a document into its members and the elements of its arrays.
An index is a literal or, only to be refused later, the text of a variable.

`render` writes an expression in every form that a document store understands. Each form is a list
of segments to be joined by points:

* `dotted` has the members only;
* `posFiltered` has `$[a]`, `$[b]`, … for the indices in order;
* `posAll` has `$[]` for every index;
* `posFirst` has `$` for the first index and nothing for the others.

`identifier n` is the text with number `n` among the texts over `a … z`, ordered by length and then
by the alphabet: `a, b, …, z, aa, ab, …, zz, aaa, …`. The letters are the digits of a numeral in
base 26 without a zero.

An expression is refused with the `Fault` of its first step that is not valid.
-/

namespace DocMapper.Path

/-! ## Expressions -/

/-- The argument of an indexing step. -/
inductive Index where
  | literal (value : Int64)
  | variable (source : String)
deriving DecidableEq

/-- One step of a chain. -/
inductive Step where
  | member (name : String)
  | index (argument : Index)
deriving DecidableEq

/-- A chain of steps; the empty chain is the document itself. -/
abbrev Expr := List Step

namespace Step

/-- Whether a step goes into a member. -/
def isMember : Step → Bool
  | member _ => true
  | index _ => false

/-- A step as it is written after the expression that it extends. -/
def text : Step → String
  | member name => "." ++ name
  | index (.literal value) => "[" ++ toString value.toInt ++ "]"
  | index (.variable source) => "[" ++ source ++ "]"

end Step

namespace Expr

/-- Whether an expression has no step. -/
def isRoot (e : Expr) : Bool := e.isEmpty

/-- The number of steps into members. -/
def memberCount (e : Expr) : Nat := e.countP Step.isMember

/-- The expression written as a function of its parameter. -/
def text (e : Expr) : String := "x => x" ++ String.join (e.map Step.text)

end Expr

/-! ## Identifiers of array filters -/

/-- The letter with a number below 26. -/
def letter (n : Nat) : Char := Char.ofNat (97 + n)

/-- The letters of an identifier, the last one first. -/
def reversedLetters (n : Nat) : List Char :=
  if n < 26 then [letter n] else letter (n % 26) :: reversedLetters (n / 26 - 1)
termination_by n
decreasing_by omega

/-- The identifier with a number. -/
def identifier (n : Nat) : String := String.ofList (reversedLetters n).reverse

theorem reversedLetters_ne_nil (n : Nat) : reversedLetters n ≠ [] := by
  rw [reversedLetters]
  split <;> simp

/-! ## Renderings -/

/-- Why an expression has no rendering. -/
inductive Fault where
  | bareParameter
  | leadingIndex
  | emptyMember
  | pathCharacter (name : String)
  | negativeIndex (value : Int64)
  | variableIndex (source : String)
deriving DecidableEq

/-- What a fault says. -/
def Fault.message : Fault → String
  | bareParameter => "a bare parameter does not navigate into any member"
  | leadingIndex => "an index must follow a member access"
  | emptyMember => "empty member name"
  | pathCharacter name => "member name '" ++ name ++ "' contains a path character"
  | negativeIndex value => "index " ++ toString value.toInt ++ " is negative"
  | variableIndex source => "index '" ++ source ++ "' is not a literal"

/-- Whether a character has a meaning in paths or tokens. -/
def isPathCharacter (c : Char) : Bool :=
  c = '.' || c = '$' || c = '<' || c = '>' || c = '[' || c = ']'

/-- Whether a member name can stand in a path. -/
def checkMember (name : String) : Except Fault Unit :=
  if name.isEmpty then .error .emptyMember
  else if name.toList.any isPathCharacter then .error (.pathCharacter name)
  else .ok ()

/-- Whether an index is a literal that is not negative. -/
def checkIndex : Index → Except Fault Unit
  | .literal value => if 0 ≤ value.toInt then .ok () else .error (.negativeIndex value)
  | .variable source => .error (.variableIndex source)

/-- All forms of an expression, as segments. -/
structure Rendering where
  dotted : List String
  posFiltered : List String
  posFirst : List String
  posAll : List String
  /-- The last member. -/
  property : String
  /-- The number of indices. -/
  placeholders : Nat
deriving DecidableEq

namespace Rendering

/-- The rendering of a single member. -/
def ofMember (name : String) : Rendering :=
  { dotted := [name], posFiltered := [name], posFirst := [name], posAll := [name]
    property := name, placeholders := 0 }

/-- The rendering with a member more. -/
def addMember (r : Rendering) (name : String) : Rendering :=
  { dotted := r.dotted ++ [name], posFiltered := r.posFiltered ++ [name]
    posFirst := r.posFirst ++ [name], posAll := r.posAll ++ [name]
    property := name, placeholders := r.placeholders }

/-- The rendering with an index more. Only one `$` may stand in a path. -/
def addIndex (r : Rendering) : Rendering :=
  { dotted := r.dotted
    posFiltered := r.posFiltered ++ ["$[" ++ identifier r.placeholders ++ "]"]
    posFirst := if r.placeholders = 0 then r.posFirst ++ ["$"] else r.posFirst
    posAll := r.posAll ++ ["$[]"]
    property := r.property, placeholders := r.placeholders + 1 }

end Rendering

/-- The rendering after one step more; there is none before the first member. -/
def renderStep : Option Rendering → Step → Except Fault (Option Rendering)
  | r, .member name => do
      checkMember name
      return some (match r with
        | none => .ofMember name
        | some r => r.addMember name)
  | none, .index _ => .error .leadingIndex
  | some r, .index argument => do
      checkIndex argument
      return some r.addIndex

/-- All forms of an expression. -/
def render (e : Expr) : Except Fault Rendering := do
  match ← e.foldlM renderStep none with
  | none => .error .bareParameter
  | some r => return r

/-- Segments joined by points. -/
def joinDots (segments : List String) : String := ".".intercalate segments

/-- The path of members. -/
def dotted (e : Expr) : Except Fault String := (render e).map fun r => joinDots r.dotted

/-- The path with an identifier for each index. -/
def posFiltered (e : Expr) : Except Fault String := (render e).map fun r => joinDots r.posFiltered

/-- The path with one `$`. -/
def posFirst (e : Expr) : Except Fault String := (render e).map fun r => joinDots r.posFirst

/-- The path with `$[]` for each index. -/
def posAll (e : Expr) : Except Fault String := (render e).map fun r => joinDots r.posAll

/-- The last member. -/
def property (e : Expr) : Except Fault String := (render e).map Rendering.property

/-- The path of a member of the array element that a numbered identifier stands for. -/
def elements (n : Nat) (e : Expr) : Except Fault String :=
  (dotted e).map fun path => identifier n ++ "." ++ path

/-- The path of a member of an array element, without the identifier. -/
def elementsPath (e : Expr) : Except Fault String := dotted e

end DocMapper.Path
