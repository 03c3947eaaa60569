import DocMapper.Filter.Compile
import DocMapper.Regex.Parser
import DocMapper.Store.Basic

set_option autoImplicit false

/-!
# Finding documents

`Store.find` answers a filter with a cursor over the matching documents in the order of the
collection, up to a limit, projected, and divided into pages of the batch size. Listing names the
collections whose name a regular expression matches. Neither changes a collection; a filter or
pattern that is malformed is refused before it is journaled.
-/

namespace DocMapper

/-- The batch size where none, or zero, is asked for. -/
def defaultBatchSize : Nat := 101

/-- What to return of the matching documents. -/
structure FindOptions where
  projection : Option Document := none
  batchSize : Option Nat := none
  limit : Option Nat := none

/-- The batch size that is used. -/
def FindOptions.effectiveBatchSize (options : FindOptions) : Nat :=
  match options.batchSize with
  | some (n + 1) => n + 1
  | _ => defaultBatchSize

/-- Whether a projection keeps `_id`; only a zero or false value drops it. -/
def keepsId (projection : Document) : Bool :=
  match projection.get? "_id" with
  | some (.int32 n) => n != 0
  | some (.int64 n) => n != 0
  | some (.boolean b) => b
  | _ => true

/-- The fields that a projection keeps; an empty projection keeps all. -/
def project (projection : Option Document) (doc : Document) : Document :=
  match projection with
  | none => doc
  | some [] => doc
  | some fields =>
      doc.filter fun (key, _) => if key = "_id" then keepsId fields else fields.contains key

/-- A list divided into pages of a positive size. -/
def pages {α : Type} (size : Nat) (docs : List α) : List (List α) :=
  if docs.isEmpty ∨ size = 0 then [] else docs.take size :: pages size (docs.drop size)
termination_by docs.length
decreasing_by
  rename_i h
  simp only [List.isEmpty_iff, not_or] at h
  have hpos := List.length_pos_iff.2 h.1
  simp only [List.length_drop]
  omega

/-- A cursor over what was found: the pages that are still to be read. -/
abbrev Cursor := List (List Document)

/-- The next page of a cursor, or none at its end, and the cursor after it. -/
def Cursor.nextBatch : Cursor → Option (List Document) × Cursor
  | [] => (none, [])
  | page :: rest => (some page, rest)

/-- The documents of a list that a find returns. -/
def selectDocuments (filter : Filter) (options : FindOptions) (docs : List Document) :
    List Document :=
  let found := docs.filter filter.holds
  let limited := match options.limit with
    | some n => found.take n
    | none => found
  limited.map (project options.projection)

namespace Store

/-- The meaning of a filter document. -/
def compileFilter (filter : Document) : Except Error Filter :=
  (Filter.compile filter).mapError .unsupportedFilter

/-- A cursor over the documents that match a filter. -/
def find (collection : String) (filter : Document) (options : FindOptions) : Action Cursor := do
  let compiled ← Action.ofExcept (compileFilter filter)
  let size := options.effectiveBatchSize
  modify (·.record (.find collection filter size))
  let s ← get
  return pages size (selectDocuments compiled options (s.catalog.documents collection))

/-- All documents that are still to be read. -/
def collect (found : Cursor) : List Document := found.flatten

/-- The names of the collections that a pattern matches. -/
def listCollections (pattern : String) : Action (List String) := do
  match Regex.ofText? pattern with
  | none => throw (.malformedPattern pattern)
  | some regex =>
      modify (·.record (.list pattern))
      let s ← get
      return s.catalog.names.filter regex.find

end Store

end DocMapper
