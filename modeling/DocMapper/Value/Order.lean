import DocMapper.Value.Basic

set_option autoImplicit false

/-!
# Order and equality of values

Numbers compare across their three types: two integers exactly, and by the total order of doubles as
soon as a double takes part, an integer then standing for the double nearest to it. Other values
compare within their type where the type has an order, and values of different types by the codes of
their types; `compare?` is `none` for two values of one type without an order.

`equal` is the equality of queries: numbers are equal when they compare equal, and all other values
when they are `identical`, the same in structure with the fields of documents in any order.
-/

namespace DocMapper

/-- A number of any of the three numeric types. -/
inductive Number where
  | integer (n : Int)
  | double (x : Double)
deriving DecidableEq

namespace Number

/-- The double nearest to a number. -/
def toDouble : Number → Double
  | integer n => Double.ofInt n
  | double x => x

/-- The order of numbers. -/
def order : Number → Number → Ordering
  | integer m, integer n => compare m n
  | x, y => compare x.toDouble.rank y.toDouble.rank

end Number

namespace Value

/-- The number that a value is. -/
def number? : Value → Option Number
  | int32 n => some (.integer n.toInt)
  | int64 n => some (.integer n.toInt)
  | double x => some (.double x)
  | _ => none

/-- Whether a value is a number. -/
def isNumber (v : Value) : Bool := v.number?.isSome

/-- The order of two values of one type that is not numeric, where the type has one. -/
def orderWithinType? : Value → Value → Option Ordering
  | null, null => some .eq
  | dateTime s, dateTime t => some (compare s.toInt t.toInt)
  | boolean a, boolean b => some (compare a b)
  | binary _ a, binary _ b => some (compare a b)
  | string a, string b => some (compare a b)
  | objectId a, objectId b => some (compare a.bits.toNat b.bits.toNat)
  | _, _ => none

/-- The order of two values, where they have one. -/
def compare? (a b : Value) : Option Ordering :=
  match a.number?, b.number? with
  | some x, some y => some (x.order y)
  | _, _ =>
      if a.elementType = b.elementType then orderWithinType? a b
      else some (compare a.elementType.code b.elementType.code)

mutual
/-- Structural equality: types are strict, doubles compare as numbers, and a document is equal to
one with the same fields in another order. -/
def identical : Value → Value → Bool
  | double x, double y => x.numericEq y
  | string s, string t => s == t
  | document fs, document gs => fs.length == gs.length && fieldsIdentical fs gs
  | array xs, array ys => itemsIdentical xs ys
  | binary s a, binary t b => s == t && a == b
  | undefined, undefined => true
  | objectId a, objectId b => a == b
  | boolean a, boolean b => a == b
  | dateTime s, dateTime t => s == t
  | null, null => true
  | regularExpression p o, regularExpression q u => p == q && o == u
  | databasePointer s a, databasePointer t b => s == t && a == b
  | javaScript s, javaScript t => s == t
  | symbol s, symbol t => s == t
  | javaScriptWithScope s fs, javaScriptWithScope t gs =>
      s == t && fs.length == gs.length && fieldsIdentical fs gs
  | int32 m, int32 n => m == n
  | timestamp s i, timestamp t j => s == t && i == j
  | int64 m, int64 n => m == n
  | decimal128 x, decimal128 y => x == y
  | minKey, minKey => true
  | maxKey, maxKey => true
  | _, _ => false
/-- Whether each field has an identical value among the other fields. -/
def fieldsIdentical : List (String × Value) → List (String × Value) → Bool
  | [], _ => true
  | (key, v) :: rest, others =>
      (match Fields.get? others key with
        | some w => identical v w
        | none => false) && fieldsIdentical rest others
/-- Whether two lists have identical items at each position. -/
def itemsIdentical : List Value → List Value → Bool
  | [], [] => true
  | x :: xs, y :: ys => identical x y && itemsIdentical xs ys
  | _, _ => false
end

/-- Equality in queries. -/
def equal (a b : Value) : Bool :=
  match a.number?, b.number? with
  | some x, some y => x.order y == .eq
  | _, _ => identical a b

end Value

end DocMapper
