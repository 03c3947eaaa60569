import DocMapper.Uuid
import DocMapper.Value.Basic

set_option autoImplicit false

/-!
# Reading values as scalars

Entities are read from documents whose fields may hold any value. Each reader here takes the values
that stand for one scalar type: an integer may have either width as long as it is in range, a text
may be given by its bytes, and a unique identifier by its text, its bytes or their numbers.
`required` and `optional` read a field of a document.
-/

namespace DocMapper

namespace Value

/-- The bytes that a value is. Bytes with another subtype than 0 have a meaning of their own. -/
def asBytes? : Value → Option (List UInt8)
  | binary subtype bytes => if subtype = 0 then some bytes else none
  | _ => none

/-- The text that a value is, or is the encoding of. -/
def asString? : Value → Option String
  | string s => some s
  | value => value.asBytes?.bind fun bytes => String.fromUTF8? ⟨bytes.toArray⟩

/-- The truth value that a value is. -/
def asBoolean? : Value → Option Bool
  | boolean b => some b
  | _ => none

/-- The integer that a value is. -/
def asInteger? : Value → Option Int
  | int32 n => some n.toInt
  | int64 n => some n.toInt
  | _ => none

/-- The 64-bit integer that a value is. -/
def asInt64? : Value → Option Int64
  | int32 n => some n.toInt64
  | int64 n => some n
  | _ => none

/-- The 32-bit integer that a value is. -/
def asInt32? : Value → Option Int32
  | int32 n => some n
  | int64 n => if n.toInt32.toInt64 = n then some n.toInt32 else none
  | _ => none

/-- The 32-bit number without sign that a value is. -/
def asUInt32? (value : Value) : Option UInt32 :=
  value.asInteger?.bind fun n =>
    if 0 ≤ n ∧ n < 2 ^ 32 then some (UInt32.ofNat n.toNat) else none

/-- The byte that a value is. -/
def asByte? (value : Value) : Option UInt8 :=
  value.asInteger?.bind fun n =>
    if 0 ≤ n ∧ n < 2 ^ 8 then some (UInt8.ofNat n.toNat) else none

/-- The items that a value is the array of, each read on its own. -/
def asList? {α : Type} (read : Value → Option α) : Value → Option (List α)
  | array items => items.mapM read
  | _ => none

/-- The unique identifier that a value writes: its text, its bytes, or an array that begins with
their numbers. -/
def asUuid? : Value → Option Uuid
  | string s => Uuid.ofText? s
  | array items => (items.take 16).mapM asByte? >>= Uuid.ofBytes?
  | value => value.asBytes? >>= Uuid.ofBytes?

theorem asList?_array {α : Type} {read : Value → Option α} {write : α → Value}
    (h : ∀ a, read (write a) = some a) (as : List α) :
    asList? read (.array (as.map write)) = some as := by
  rw [asList?]
  induction as with
  | nil => rfl
  | cons a rest ih => simp [h, ih]

end Value

namespace Document

/-- Reads a field that has to be present. -/
def required {α : Type} (doc : Document) (key : String) (read : Value → Option α) : Option α :=
  doc.get? key >>= read

/-- Reads a field that has a default where it is missing. -/
def optional {α : Type} (doc : Document) (key : String) (read : Value → Option α) (default : α) :
    Option α :=
  match doc.get? key with
  | some value => read value
  | none => some default

end Document

end DocMapper
