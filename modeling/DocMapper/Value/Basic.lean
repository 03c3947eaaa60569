import DocMapper.Fields
import DocMapper.Number.Decimal128
import DocMapper.Text.Encoding

set_option autoImplicit false

/-!
# Document values

`Value` is the type of what a document field may hold, and a `Document` is ordered fields of values.
Every value has an `ElementType`, whose code orders values of different types.

An `ObjectId` is twelve bytes, held as one number of 96 bits so that the order of the bytes is the
order of the numbers. Its text is 24 hexadecimal digits, read in either case.
-/

namespace DocMapper

/-- A twelve-byte identifier. -/
structure ObjectId where
  bits : BitVec 96
deriving DecidableEq, Hashable

namespace ObjectId

/-- The identifier of an entity that has not been stored. -/
def zero : ObjectId := ⟨0⟩

/-- The 24 digits of the identifier. -/
def text (id : ObjectId) : String := String.ofList (Text.hexFixed 24 id.bits.toNat)

/-- The identifier written by 24 digits. -/
def ofText? (text : String) : Option ObjectId :=
  let digits := text.toList
  if digits.length = 24 then
    (Text.hexNumber? digits).map fun n => ⟨BitVec.ofNat 96 n⟩
  else none

/-- The bytes of the identifier, the highest first. -/
def bytes (id : ObjectId) : List UInt8 :=
  (List.range 12).map fun i => UInt8.ofNat (id.bits.toNat / 256 ^ (11 - i))

/-- The identifier of twelve bytes. -/
def ofBytes? (bytes : List UInt8) : Option ObjectId :=
  if bytes.length = 12 then some ⟨BitVec.ofNat 96 (Text.bytesNumber bytes)⟩ else none

theorem ofText?_text (id : ObjectId) : ofText? id.text = some id := by
  have hlt : id.bits.toNat < 16 ^ 24 := id.bits.isLt
  have hdigits : Text.hexNumber? (Text.hexFixed 24 id.bits.toNat) = some id.bits.toNat := by
    rw [Text.hexNumber?_hexFixed, Nat.mod_eq_of_lt hlt]
  simp [ofText?, text, Text.length_hexFixed, hdigits]

end ObjectId

/-- A value of a document field. Times are in milliseconds since 1970. -/
inductive Value where
  | double (x : Double)
  | string (s : String)
  | document (fields : List (String × Value))
  | array (items : List Value)
  | binary (subtype : UInt8) (bytes : List UInt8)
  | undefined
  | objectId (id : ObjectId)
  | boolean (b : Bool)
  | dateTime (millis : Int64)
  | null
  | regularExpression (pattern options : String)
  | databasePointer (collection : String) (id : ObjectId)
  | javaScript (code : String)
  | symbol (name : String)
  | javaScriptWithScope (code : String) (scope : List (String × Value))
  | int32 (n : Int32)
  | timestamp (time increment : UInt32)
  | int64 (n : Int64)
  | decimal128 (x : Decimal128)
  | minKey
  | maxKey
deriving Inhabited

/-- The fields of a record in order. -/
abbrev Document := Fields Value

/-- The type of a value. -/
inductive ElementType where
  | double | string | document | array | binary | undefined | objectId | boolean | dateTime | null
  | regularExpression | databasePointer | javaScript | symbol | javaScriptWithScope | int32
  | timestamp | int64 | decimal128 | minKey | maxKey
deriving DecidableEq

namespace ElementType

/-- The number of a type in the encoding of documents. -/
def code : ElementType → Nat
  | double => 1
  | string => 2
  | document => 3
  | array => 4
  | binary => 5
  | undefined => 6
  | objectId => 7
  | boolean => 8
  | dateTime => 9
  | null => 10
  | regularExpression => 11
  | databasePointer => 12
  | javaScript => 13
  | symbol => 14
  | javaScriptWithScope => 15
  | int32 => 16
  | timestamp => 17
  | int64 => 18
  | decimal128 => 19
  | minKey => 255
  | maxKey => 127

/-- The name of a type in messages. -/
def name : ElementType → String
  | double => "Double"
  | string => "String"
  | document => "EmbeddedDocument"
  | array => "Array"
  | binary => "Binary"
  | undefined => "Undefined"
  | objectId => "ObjectId"
  | boolean => "Boolean"
  | dateTime => "DateTime"
  | null => "Null"
  | regularExpression => "RegularExpression"
  | databasePointer => "DbPointer"
  | javaScript => "JavaScriptCode"
  | symbol => "Symbol"
  | javaScriptWithScope => "JavaScriptCodeWithScope"
  | int32 => "Int32"
  | timestamp => "Timestamp"
  | int64 => "Int64"
  | decimal128 => "Decimal128"
  | minKey => "MinKey"
  | maxKey => "MaxKey"

/-- The code determines the type. -/
theorem code_inj {s t : ElementType} : s.code = t.code ↔ s = t := by
  constructor
  · intro h
    cases s <;> cases t <;> first | rfl | (exact absurd h (by decide))
  · intro h
    rw [h]

end ElementType

/-- The type of a value. -/
def Value.elementType : Value → ElementType
  | .double _ => .double
  | .string _ => .string
  | .document _ => .document
  | .array _ => .array
  | .binary _ _ => .binary
  | .undefined => .undefined
  | .objectId _ => .objectId
  | .boolean _ => .boolean
  | .dateTime _ => .dateTime
  | .null => .null
  | .regularExpression _ _ => .regularExpression
  | .databasePointer _ _ => .databasePointer
  | .javaScript _ => .javaScript
  | .symbol _ => .symbol
  | .javaScriptWithScope _ _ => .javaScriptWithScope
  | .int32 _ => .int32
  | .timestamp _ _ => .timestamp
  | .int64 _ => .int64
  | .decimal128 _ => .decimal128
  | .minKey => .minKey
  | .maxKey => .maxKey

end DocMapper
