import DocMapper.Json.Reader
import DocMapper.Value.Tagged

set_option autoImplicit false

/-!
# Extended JSON

Objects with a key such as `$oid` stand for the values that plain JSON lacks. `Value.ofJson?`
reads a JSON value as a document value: the first key of `Extended.typeKeys` that an object has
decides its type, and the object must then have exactly the shape of that type. An object without
such a key is a document.
-/

namespace DocMapper

namespace Extended

/-- The keys that decide the type of an object, in the order in which they are looked for. -/
def typeKeys : List String :=
  ["$oid", "$symbol", "$regularExpression", "$numberInt", "$numberLong", "$numberDouble",
   "$numberDecimal", "$binary", "$uuid", "$code", "$timestamp", "$date", "$minKey", "$maxKey",
   "$dbPointer", "$undefined"]

/-- The only member of an object. -/
def onlyMember? : List (String × Json) → Option Json
  | [(_, v)] => some v
  | _ => none

/-- The text that a JSON string holds. -/
def string? : Json → Option String
  | .string s => some s
  | _ => none

/-- The integer that a JSON number is. -/
def integer? : Json → Option Int
  | .integer n => some n
  | _ => none

/-- The two parts of a body, given as an object with these names or as an array in this order. -/
def pair? (first second : String) : Json → Option (Json × Json)
  | .array [a, b] => some (a, b)
  | .object members =>
      if members.length = 2 then do
        let a ← Fields.get? members first
        let b ← Fields.get? members second
        return (a, b)
      else none
  | _ => none

/-- A 32-bit number without sign. -/
def uint32? (n : Int) : Option UInt32 :=
  if 0 ≤ n ∧ n < 2 ^ 32 then some (UInt32.ofNat n.toNat) else none

/-- A JSON integer as a value of the narrower type that holds it, or as a double. -/
def ofInteger (n : Int) : Value :=
  match TagText.int32? n with
  | some m => .int32 m
  | none =>
      match TagText.int64? n with
      | some m => .int64 m
      | none => .double (Double.ofInt n)

/-- The milliseconds of a body of `$date`. -/
def date? : Json → Option Value
  | .string text => TagText.date? text
  | .integer n => (TagText.int64? n).map .dateTime
  | .object [("$numberLong", .string text)] => (TagText.numberLong? text).map .dateTime
  | .array [.string text] => (TagText.numberLong? text).map .dateTime
  | _ => none

/-- The text of an object whose only member is `$oid`, or of an array that stands for one. -/
def oid? : Json → Option String
  | .object [("$oid", .string text)] => some text
  | .array [.string text] => some text
  | _ => none

/-- The value of a code object. Its scope may be missing or null; the variables of one that is an
object are given. -/
def code? (members : List (String × Json)) (scope : Option Document) : Option Value := do
  let code ← Fields.get? members "$code" >>= string?
  match members.length, Fields.get? members "$scope" with
  | 1, _ => return .javaScript code
  | 2, some .null => return .javaScript code
  | 2, some (.object _) => return .javaScriptWithScope code (← scope)
  | _, _ => none

/-- The value that the body of a type key stands for. -/
def ofBody? (key : String) (body : Json) : Option Value :=
  match key with
  | "$oid" => string? body >>= TagText.objectId?
  | "$symbol" => (string? body).map .symbol
  | "$regularExpression" => do
      let (pattern, options) ← pair? "pattern" "options" body
      return TagText.regularExpression (← string? pattern) (← string? options)
  | "$numberInt" => string? body >>= TagText.numberInt?
  | "$numberLong" => (string? body >>= TagText.numberLong?).map .int64
  | "$numberDouble" => string? body >>= TagText.numberDouble?
  | "$numberDecimal" => string? body >>= TagText.numberDecimal?
  | "$binary" => do
      let (bytes, subtype) ← pair? "base64" "subType" body
      TagText.binary? (← string? bytes) (← string? subtype)
  | "$uuid" => string? body >>= TagText.uuid?
  | "$timestamp" => do
      let (time, increment) ← pair? "t" "i" body
      let time ← integer? time >>= uint32?
      let increment ← integer? increment >>= uint32?
      return .timestamp time increment
  | "$date" => date? body
  | "$minKey" => integer? body >>= fun n => if n = 1 then some .minKey else none
  | "$maxKey" => integer? body >>= fun n => if n = 1 then some .maxKey else none
  | "$dbPointer" => do
      let (collection, id) ← pair? "$ref" "$id" body
      return .databasePointer (← string? collection) (← oid? id >>= ObjectId.ofText?)
  | "$undefined" =>
      match body with
      | .boolean true => some .undefined
      | _ => none
  | _ => none

/-- The value of an object that has the given type key, and a scope with the given variables where
it has one. -/
def ofTyped? (key : String) (members : List (String × Json)) (scope : Option Document) :
    Option Value :=
  if key = "$code" then code? members scope else onlyMember? members >>= ofBody? key

/-- The key that decides the type of an object. -/
def typeKey? (members : List (String × Json)) : Option String :=
  typeKeys.find? fun key => Fields.contains members key

end Extended

namespace Value

mutual
/-- The document value of a JSON value. -/
def ofJson? : Json → Option Value
  | .null => some .null
  | .boolean b => some (.boolean b)
  | .integer n => some (Extended.ofInteger n)
  | .double x => some (.double x)
  | .string s => some (.string s)
  | .array items => (ofItems? items).map .array
  | .object members =>
      match Extended.typeKey? members with
      | some key => Extended.ofTyped? key members (ofScope? members)
      | none => (ofMembers? members).map .document
/-- The values of the items of a JSON array. -/
def ofItems? : List Json → Option (List Value)
  | [] => some []
  | item :: rest =>
      match ofJson? item with
      | some v => (ofItems? rest).map (v :: ·)
      | none => none
/-- The fields of a JSON object. -/
def ofMembers? : List (String × Json) → Option (List (String × Value))
  | [] => some []
  | (key, item) :: rest =>
      match ofJson? item with
      | some v => (ofMembers? rest).map ((key, v) :: ·)
      | none => none
/-- The variables of the scope among the members of an object. -/
def ofScope? : List (String × Json) → Option (List (String × Value))
  | [] => none
  | ("$scope", .object members) :: _ => ofMembers? members
  | _ :: rest => ofScope? rest
end

end Value

end DocMapper
