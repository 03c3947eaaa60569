import DocMapper.Value.Basic

set_option autoImplicit false

/-!
# Keys of scalar values

A `Key` stands for a scalar value in hashed sets and in the index of a collection. The integers and
the doubles that are integers below `9 * 10 ^ 15` share their keys; documents, arrays and the rarer
types have none. `Key.bytes` is a byte string that determines the key.
-/

namespace DocMapper

/-- What identifies a scalar value. -/
inductive Key where
  | integer (n : Int)
  | double (x : Double)
  | string (s : String)
  | objectId (id : ObjectId)
  | binary (subtype : UInt8) (bytes : List UInt8)
  | boolean (b : Bool)
  | null
  | dateTime (millis : Int)
deriving DecidableEq, Hashable

/-- The integer that a double shares its key with, if its magnitude is below `9 * 10 ^ 15`. -/
def Double.keyInteger? (x : Double) : Option Int :=
  x.integer?.filter fun n => n.natAbs < 9000000000000000

/-- The key of a scalar value. -/
def Value.key? : Value → Option Key
  | .int32 n => some (.integer n.toInt)
  | .int64 n => some (.integer n.toInt)
  | .double x =>
      match x.keyInteger? with
      | some n => some (.integer n)
      | none => some (.double x)
  | .string s => some (.string s)
  | .objectId id => some (.objectId id)
  | .binary subtype bytes => some (.binary subtype bytes)
  | .boolean b => some (.boolean b)
  | .null => some .null
  | .dateTime millis => some (.dateTime millis.toInt)
  | _ => none

namespace Key

/-- The eight bytes of a 64-bit number, the highest first. -/
def bytes64 (n : Nat) : List UInt8 :=
  (List.range 8).map fun i => UInt8.ofNat (n / 256 ^ (7 - i))

/-- The eight bytes of a signed number in two's complement. -/
def signedBytes64 (n : Int) : List UInt8 := bytes64 (n % 2 ^ 64).toNat

/-- The byte string of a key: the code of its type and then its content. -/
def bytes : Key → List UInt8
  | integer n => 18 :: signedBytes64 n
  | double x => 1 :: bytes64 x.bits.toNat
  | string s => 2 :: s.toUTF8.toList
  | objectId id => 7 :: id.bytes
  | binary subtype content => 5 :: subtype :: content
  | boolean b => [8, if b then 1 else 0]
  | null => [10]
  | dateTime millis => 9 :: signedBytes64 millis

end Key

end DocMapper
