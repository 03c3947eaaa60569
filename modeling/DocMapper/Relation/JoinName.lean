import DocMapper.Regex.Parser

set_option autoImplicit false

/-!
# Names of join collections

The links between a parent collection and a child collection under a property are the rows of a
collection named `~parent~child(property)`. `JoinName.text` writes such a name and
`JoinName.ofText?` reads it. `joinPattern` is the regular expression that finds the join
collections of a collection in a listing.
-/

namespace DocMapper

/-- The parts of the name of a join collection. -/
structure JoinName where
  parent : String
  child : String
  property : String
deriving DecidableEq

/-- The text before and after the first occurrence of a character. -/
def splitOnce? (c : Char) : List Char → Option (List Char × List Char)
  | [] => none
  | d :: rest =>
      if d = c then some ([], rest)
      else (splitOnce? c rest).map fun (before, after) => (d :: before, after)

/-- A text is divided at a character that occurs in it, and what stands before it does not hold
it. -/
theorem splitOnce?_eq_some_iff {c : Char} {text before after : List Char} :
    splitOnce? c text = some (before, after) ↔ text = before ++ c :: after ∧ c ∉ before := by
  induction text generalizing before with
  | nil => simp [splitOnce?]
  | cons d rest ih =>
      by_cases h : d = c
      · subst h
        -- the separator comes first, so nothing may stand before it
        cases before with
        | nil => simp [splitOnce?]
        | cons b bs =>
            simp only [splitOnce?, if_true, Option.some.injEq, Prod.mk.injEq, List.cons_append,
              List.cons.injEq, List.mem_cons, not_or]
            constructor
            · intro hc
              exact absurd hc.1 (by simp)
            · intro hc
              exact absurd hc.1.1 hc.2.1
      · cases before with
        | nil => simp [splitOnce?, h]
        | cons b bs =>
            simp only [splitOnce?, if_neg h, Option.map_eq_some_iff, Prod.exists, Prod.mk.injEq,
              List.cons.injEq, List.cons_append, List.mem_cons, not_or]
            constructor
            · rintro ⟨x, y, hxy, ⟨rfl, rfl⟩, rfl⟩
              have hparts := ih.1 hxy
              exact ⟨⟨rfl, hparts.1⟩, fun he => h he.symm, hparts.2⟩
            · rintro ⟨⟨rfl, htext⟩, _, hnot⟩
              exact ⟨bs, after, ih.2 ⟨htext, hnot⟩, ⟨rfl, rfl⟩, rfl⟩

namespace JoinName

/-- The name as text. -/
def text (n : JoinName) : String :=
  "~" ++ n.parent ++ "~" ++ n.child ++ "(" ++ n.property ++ ")"

/-- Whether a character delimits a part of a name. -/
def isDelimiter (c : Char) : Bool := c = '(' || c = ')' || c = '~'

/-- The text before a final character. -/
def dropLast? (c : Char) (text : List Char) : Option (List Char) :=
  if text.getLast? = some c then some text.dropLast else none

/-- The parts of a name: the parent up to the second `~`, the child up to the first parenthesis,
and the property up to the closing parenthesis at the end. -/
def ofText? (name : String) : Option JoinName :=
  match name.toList with
  | '~' :: rest => do
      let (parent, rest) ← splitOnce? '~' rest
      let rest ← dropLast? ')' rest
      let (child, property) ← splitOnce? '(' rest
      if parent.isEmpty || child.isEmpty || property.any isDelimiter then none
      else return ⟨String.ofList parent, String.ofList child, String.ofList property⟩
  | _ => none

/-- Whether a collection is the parent. -/
def isParent (n : JoinName) (collection : String) : Bool := n.parent = collection

/-- Whether a collection is the child. -/
def isChild (n : JoinName) (collection : String) : Bool := n.child = collection

end JoinName

/-- The pattern of the names of join collections whose parent or child is a given collection. -/
def joinPattern (collection : String) : String :=
  let name := Regex.escape collection
  "^~(?:" ++ name ++ "~[^~()]+|[^~()]+~" ++ name ++ ")\\([^()]*\\)$"

end DocMapper
