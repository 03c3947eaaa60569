import DocMapper.Error
import DocMapper.Value.Tagged

set_option autoImplicit false

/-!
# Results of writes

What a store reports about an insertion, a replacement and a deletion, and how each report is
written as a document. Counts are written as 64-bit integers; a larger count has no document.
Identifiers are settled as the values of any record are.
-/

namespace DocMapper

/-- The report of an insertion. -/
structure InsertResult where
  insertedId : Value

/-- The report of a replacement. -/
structure UpdateResult where
  matchedCount : Nat := 0
  modifiedCount : Nat := 0
  upsertedId : Option Value := none
  acknowledged : Bool := true

/-- The report of a deletion. -/
structure DeleteResult where
  deletedCount : Nat := 0
  acknowledged : Bool := true
deriving DecidableEq

/-- A count as a value. -/
def countValue (n : Nat) : Except Error Value :=
  if n < 2 ^ 63 then .ok (.int64 (Int64.ofNat n)) else .error .countOutOfRange

namespace InsertResult

/-- The report as a document. -/
def toDocument (r : InsertResult) : Document := [("insertedId", r.insertedId.settled)]

end InsertResult

namespace UpdateResult

/-- The report as a document. -/
def toDocument (r : UpdateResult) : Except Error Document := do
  let matched ← countValue r.matchedCount
  let modified ← countValue r.modifiedCount
  return [("matchedCount", matched), ("modifiedCount", modified),
    ("upsertedId", (r.upsertedId.getD .null).settled), ("acknowledged", .boolean r.acknowledged)]

end UpdateResult

namespace DeleteResult

/-- The report of a deletion that the store did not confirm. -/
def unacknowledged : DeleteResult := ⟨0, false⟩

/-- The report of two deletions together. It is confirmed only if both are. -/
def merge (r s : DeleteResult) : DeleteResult :=
  ⟨r.deletedCount + s.deletedCount, r.acknowledged && s.acknowledged⟩

/-- The report as a document. -/
def toDocument (r : DeleteResult) : Except Error Document := do
  let deleted ← countValue r.deletedCount
  return [("deletedCount", deleted), ("acknowledged", .boolean r.acknowledged)]

theorem merge_default (r : DeleteResult) : r.merge {} = r := by
  simp [merge]

theorem merge_assoc (r s t : DeleteResult) : (r.merge s).merge t = r.merge (s.merge t) := by
  simp [merge, Nat.add_assoc, Bool.and_assoc]

end DeleteResult

end DocMapper
