import DocMapper.Value.Basic

set_option autoImplicit false

/-!
# Values at a dotted path

`Document.valuesAt` lists the values that a path of field names reaches in a document. A path goes
through an array into each of its elements that is a document, and an array at the end of a path
yields itself and then its elements. Arrays inside arrays are not entered.
-/

namespace DocMapper

namespace Value

/-- What the end of a path yields. -/
def ends : Value → List Value
  | .array items => .array items :: items
  | v => [v]

mutual
/-- The values below a value at the rest of a path. -/
def reach : Value → List String → List Value
  | v, [] => v.ends
  | .document fields, name :: path => reachField fields name path
  | .array items, name :: path => reachElements items name path
  | _, _ :: _ => []
/-- The values below the field of a name. -/
def reachField : List (String × Value) → String → List String → List Value
  | [], _, _ => []
  | (key, v) :: rest, name, path =>
      if key = name then reach v path else reachField rest name path
/-- The values below the field of a name in each document among the elements. -/
def reachElements : List Value → String → List String → List Value
  | [], _, _ => []
  | .document fields :: rest, name, path =>
      reachField fields name path ++ reachElements rest name path
  | _ :: rest, name, path => reachElements rest name path
end

/-- The field of a name is the one that a look-up finds. -/
theorem reachField_eq (fields : Document) (name : String) (path : List String) :
    reachField fields name path =
      match fields.get? name with
      | some v => reach v path
      | none => [] := by
  induction fields with
  | nil => rfl
  | cons entry rest ih =>
      obtain ⟨key, v⟩ := entry
      by_cases h : key = name
      · simp [reachField, Fields.get?_cons, h]
      · simp [reachField, Fields.get?_cons, h, ih]

end Value

/-- The values at a path of a document, in document order; the empty path has none. -/
def Document.valuesAt (doc : Document) : List String → List Value
  | [] => []
  | name :: path => Value.reachField doc name path

end DocMapper
