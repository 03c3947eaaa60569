import DocMapper.Store.Basic
import DocMapper.Value.Tagged

set_option autoImplicit false

/-!
# Chunks

The binary content of a file entity is kept in chunks, documents of a collection of their own that
hold the identifier of the file, a number and bytes.
-/

namespace DocMapper

/-- The field of a chunk that holds the identifier of its file. -/
def fileField : String := "FileID"

/-- A piece of the content of a file. -/
structure Chunk where
  id : ObjectId
  file : Value
  number : Int32
  data : List UInt8

namespace Chunk

/-- The subtype of binary values that hold plain bytes. -/
def plainBytes : UInt8 := 0

/-- A chunk with a fresh identifier. -/
def fresh (file : Value) (number : Int32) (data : List UInt8) : Action Chunk :=
  return ⟨← Action.freshObjectId, file, number, data⟩

/-- The chunk as a document. -/
def toDocument (c : Chunk) : Document :=
  [("_id", .objectId c.id), (fileField, c.file.settled), ("n", .int32 c.number),
    ("data", .binary plainBytes c.data)]

end Chunk

end DocMapper
