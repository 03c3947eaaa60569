import DocMapper.Relation.Descriptor
import DocMapper.Store.Write
import DocMapper.Value.Tagged

set_option autoImplicit false

/-!
# Join collections

A join collection has a row with `ParentID` and `ChildID` for each link. With one parent per child
a link is added by deleting the child's row and inserting a new one; otherwise by an upsert of the
pair, so that a pair has one row. Removing a link that does not exist is no error.
-/

namespace DocMapper

/-- The field of a row that holds the parent. -/
def parentField : String := "ParentID"

/-- The field of a row that holds the child. -/
def childField : String := "ChildID"

/-- A row of a join collection. -/
structure JoinRow where
  id : ObjectId
  parent : Value
  child : Value

namespace JoinRow

/-- The row as a document. -/
def toDocument (row : JoinRow) : Document :=
  [("_id", .objectId row.id), (parentField, row.parent.settled),
    (childField, row.child.settled)]

/-- The row that a document is. -/
def ofDocument? (doc : Document) : Option JoinRow := do
  let id ← Document.required doc "_id" Value.asObjectId?
  let parent ← Document.required doc parentField Value.ofTagged?
  let child ← Document.required doc childField Value.ofTagged?
  return ⟨id, parent, child⟩

theorem ofDocument?_toDocument {row : JoinRow} (hparent : row.parent.key?.isSome)
    (hchild : row.child.key?.isSome) : ofDocument? row.toDocument = some row := by
  simp [ofDocument?, toDocument, Document.required, Fields.get?, parentField, childField,
    Value.asObjectId?, Value.settled_of_isSome_key? hparent, Value.settled_of_isSome_key? hchild,
    Value.ofTagged?_of_isSome_key? hparent, Value.ofTagged?_of_isSome_key? hchild]

end JoinRow

/-- A join collection as a session sees it. -/
structure JoinCollection where
  name : String
  cardinality : Cardinality
  session : Option Session

namespace JoinCollection

/-- The filter of one link. -/
def pair (parent child : Value) : Document := [(parentField, parent), (childField, child)]

/-- A filter that takes any of some values. -/
def anyOf (values : List Value) : Value := .document [("$in", .array values)]

/-- Adds a link. -/
def add (j : JoinCollection) (parent child : Value) : Action Unit := do
  match j.cardinality with
  | .oneToMany =>
      let _ ← Store.deleteMany j.name [(childField, child)] j.session
      let id ← Action.freshObjectId
      let _ ← Store.insertOne j.name (JoinRow.toDocument ⟨id, parent, child⟩)
  | .manyToMany =>
      let _ ← Store.replaceOne j.name (pair parent child) (pair parent child) true

/-- Removes a link. -/
def remove (j : JoinCollection) (parent child : Value) : Action DeleteResult :=
  Store.deleteMany j.name (pair parent child) j.session

/-- Removes the links of a parent with several children. -/
def removeMany (j : JoinCollection) (parent : Value) (children : List Value) :
    Action DeleteResult :=
  if children.isEmpty then return {}
  else Store.deleteMany j.name [(parentField, parent), (childField, anyOf children)] j.session

/-- The rows that match a filter. -/
def rows (j : JoinCollection) (filter : Document) : Action (List JoinRow) := do
  let found ← Store.find j.name filter {}
  (Store.collect found).mapM fun doc =>
    match JoinRow.ofDocument? doc with
    | some row => pure row
    | none => throw .undecodable

/-- The rows of a parent. -/
def childrenOf (j : JoinCollection) (parent : Value) : Action (List JoinRow) :=
  j.rows [(parentField, parent)]

/-- The rows of a child. -/
def parentsOf (j : JoinCollection) (child : Value) : Action (List JoinRow) :=
  j.rows [(childField, child)]

end JoinCollection

end DocMapper
