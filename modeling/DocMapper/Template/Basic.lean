import DocMapper.Error
import DocMapper.Json.Extended
import DocMapper.Json.Reader
import DocMapper.Text.Segments

set_option autoImplicit false

/-!
# Query templates

A token is a name between angle brackets, where a name is one or more ASCII letters, digits and
characters of `_ . $ [ ]`. `scan` divides a text into its tokens and the characters between them.
Angle brackets are not characters of names, so tokens do not overlap and none is missed.

A template is a text with tokens and the values registered for names. It renders only when every
token of the text has a value and every registered name is a token of the text; then each token is
replaced by its value, once, and values are not scanned again. The rendered text can be read as a
document or as a pipeline of documents.
-/

namespace DocMapper

namespace Template

/-! ## Tokens -/

/-- Whether a character may stand in the name of a token. -/
def isNameChar (c : Char) : Bool :=
  c.isAlphanum || c = '_' || c = '.' || c = '$' || c = '[' || c = ']'

/-- A part of a text: one character or one token. -/
inductive Piece where
  | char (c : Char)
  | token (name : String)
deriving DecidableEq

namespace Piece

/-- The text that a piece was read from. -/
def source : Piece → List Char
  | char c => [c]
  | token name => '<' :: name.toList ++ ['>']

/-- The name of a piece that is a token. -/
def name? : Piece → Option String
  | char _ => none
  | token name => some name

end Piece

/-- The name of the token whose text follows an opening bracket, and the text after the token. -/
def tokenAfter? (text : List Char) : Option (List Char × List Char) :=
  match text.takeWhile isNameChar, text.dropWhile isNameChar with
  | c :: name, '>' :: rest => some (c :: name, rest)
  | _, _ => none

/-- The text after a token is shorter than the text at its name. -/
theorem length_lt_of_tokenAfter? {text name rest : List Char}
    (h : tokenAfter? text = some (name, rest)) : rest.length < text.length := by
  have hsplit := List.takeWhile_append_dropWhile (p := isNameChar) (l := text)
  unfold tokenAfter? at h
  split at h
  · rename_i c cs after htake hdrop
    rw [htake, hdrop] at hsplit
    simp only [Option.some.injEq, Prod.mk.injEq] at h
    rw [← hsplit, ← h.2]
    simp only [List.cons_append, List.length_cons, List.length_append]
    omega
  · simp at h

/-- The pieces of a text. -/
def scan : List Char → List Piece
  | [] => []
  | c :: text =>
      if c = '<' then
        match _h : tokenAfter? text with
        | some (name, rest) => .token (String.ofList name) :: scan rest
        | none => .char c :: scan text
      else .char c :: scan text
termination_by text => text.length
decreasing_by
  · have := length_lt_of_tokenAfter? _h
    simp only [List.length_cons]
    omega
  · simp
  · simp

/-- Names in order of their first occurrence. -/
def distinct (names : List String) : List String :=
  names.foldl (fun seen name => if seen.contains name then seen else seen ++ [name]) []

/-- The names of the tokens of a text, in order of their first occurrence. -/
def tokenNames (text : List Char) : List String := distinct ((scan text).filterMap Piece.name?)

end Template

/-! ## Templates -/

/-- A text with tokens, and the values of names. -/
structure Template where
  body : List Char
  values : Fields String

namespace Template

/-- A template without values; blanks around the text do not count. -/
def ofText (text : String) : Template := ⟨Text.trim text.toList, []⟩

/-- The template with a value for a name. -/
def tag (t : Template) (name value : String) : Template :=
  { t with values := Fields.insert name value t.values }

/-! ## Values from navigation expressions -/

/-- A result of rendering a path, as a result of this library. -/
def pathResult {α : Type} (result : Except Path.Fault α) : Except Error α :=
  result.mapError .invalidPath

/-- The last member stands for itself. -/
def property (t : Template) (e : Path.Expr) : Except Error Template :=
  pathResult ((Path.property e).map fun name => t.tag name name)

/-- The last member stands for the dotted path. -/
def path (t : Template) (e : Path.Expr) : Except Error Template :=
  pathResult ((Path.render e).map fun r => t.tag r.property (Path.joinDots r.dotted))

/-- The last member stands for the dotted path into the element of an array. -/
def elementsPath (t : Template) (e : Path.Expr) : Except Error Template :=
  pathResult ((Path.render e).map fun r => t.tag r.property (Path.joinDots r.dotted))

/-- The path of an identified array element stands for itself. -/
def elements (t : Template) (n : Nat) (e : Path.Expr) : Except Error Template :=
  pathResult ((Path.elements n e).map fun text => t.tag text text)

/-- The path with an identifier for each index stands for itself. -/
def posFiltered (t : Template) (e : Path.Expr) : Except Error Template :=
  pathResult ((Path.posFiltered e).map fun text => t.tag text text)

/-- The path with `$[]` for each index stands for itself. -/
def posAll (t : Template) (e : Path.Expr) : Except Error Template :=
  pathResult ((Path.posAll e).map fun text => t.tag text text)

/-- The path with one `$` stands for itself. -/
def posFirst (t : Template) (e : Path.Expr) : Except Error Template :=
  pathResult ((Path.posFirst e).map fun text => t.tag text text)

/-! ## Pipelines -/

/-- Whether a text begins and ends with the given characters, which differ. -/
def isEnclosed (first last : Char) (text : List Char) : Bool :=
  text.head? = some first && text.getLast? = some last

/-- The body of a pipeline with a stage at its end. -/
def bodyWithStage (body stage : List Char) : List Char :=
  let head := Text.trimEnd body.dropLast
  let isEmpty := (Text.trim body.tail.dropLast).isEmpty
  head ++ (if isEmpty then [] else [',']) ++ stage ++ [']']

/-- The template with one stage more in its pipeline. -/
def appendStage (t : Template) (stage : String) : Except Error Template :=
  let stage := Text.trim stage.toList
  if !isEnclosed '[' ']' t.body then .error .notAnArray
  else if !isEnclosed '\x7b' '\x7d' stage then .error (.notAnObject (String.ofList stage))
  else .ok { t with body := bodyWithStage t.body stage }

/-! ## Rendering -/

/-- The names of tokens without a value, then the names with a value that are no tokens. -/
def unresolvedNames (t : Template) : List String :=
  let tokens := tokenNames t.body
  tokens.filter (fun name => !t.values.contains name) ++
    t.values.keys.filter fun name => !tokens.contains name

/-- The unresolved names as tokens. -/
def unresolved (t : Template) : List String :=
  t.unresolvedNames.map fun name => "<" ++ name ++ ">"

/-- The text that a piece is replaced by. -/
def replacement (values : Fields String) : Piece → List Char
  | .char c => [c]
  | .token name => ((values.get? name).getD "").toList

/-- The body with each token replaced by its value. -/
def substitute (t : Template) : List Char := (scan t.body).flatMap (replacement t.values)

/-- The rendered text, if no name is unresolved. -/
def render (t : Template) : Except Error String :=
  if t.unresolvedNames.isEmpty then .ok (String.ofList t.substitute)
  else .error (.unresolvedTokens t.unresolved)

/-! ## Documents -/

/-- The value of an extended JSON text. -/
def parseValue (text : String) : Except Error Value :=
  match Json.ofText? text.toList >>= Value.ofJson? with
  | some v => .ok v
  | none => .error .malformedJson

/-- A value that must be a document. -/
def asDocument : Value → Except Error Document
  | .document fields => .ok fields
  | v => .error (.notAnObject v.text)

/-- The rendered text as one document. -/
def toDocument (t : Template) : Except Error Document := do
  let text ← t.render
  let v ← parseValue text
  asDocument v

/-- The rendered text as a list of documents. -/
def toPipeline (t : Template) : Except Error (List Document) := do
  let text ← t.render
  match ← parseValue text with
  | .array stages => stages.mapM asDocument
  | _ => throw .notAnArray

end Template

end DocMapper
