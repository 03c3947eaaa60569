import DocMapper.Number.Text
import DocMapper.Text.Encoding
import DocMapper.Time.Timestamp
import DocMapper.Uuid
import DocMapper.Value.Basic
import DocMapper.Value.Key
import DocMapper.Value.Scalar

set_option autoImplicit false

/-!
# Tagged documents

A document whose field has the name of a tag, such as `$oid`, may stand for a value of another type.
Records that hold arbitrary values follow two rules. When a record is written its values are
`settled`: a document whose only field is a tag with a fitting body becomes the value it stands for,
and every other document stays. When a record is read its values are read by `ofTagged?`: the first
field with a tag decides the type of a document, whatever other fields there are, and its body has
to fit.

Both leave a value alone that can be the key of a document, so identifiers are not changed by being
written and read.
-/

namespace DocMapper

namespace TagText

/-! ## Texts under a tag

A tag such as `$numberLong` names the type of a value that is written as text. The readers here take
the text that stands under a tag; JSON objects and documents with tags share them. -/

/-- A 32-bit integer. -/
def int32? (n : Int) : Option Int32 :=
  if -2 ^ 31 ≤ n ∧ n < 2 ^ 31 then some (Int32.ofInt n) else none

/-- A 64-bit integer. -/
def int64? (n : Int) : Option Int64 :=
  if -2 ^ 63 ≤ n ∧ n < 2 ^ 63 then some (Int64.ofInt n) else none

/-- The text of `$oid`. -/
def objectId? (text : String) : Option Value := (ObjectId.ofText? text).map .objectId

/-- The text of `$numberInt`. -/
def numberInt? (text : String) : Option Value :=
  (integerOfText? text.toList).bind fun n => (int32? n).map .int32

/-- The text of `$numberLong`. -/
def numberLong? (text : String) : Option Int64 := (integerOfText? text.toList).bind int64?

/-- The text of `$numberDouble`, in which infinity and NaN have names. -/
def numberDouble? (text : String) : Option Value :=
  if text = "Infinity" then some (.double Double.infinity)
  else if text = "-Infinity" then some (.double Double.infinity.neg)
  else if text = "NaN" then some (.double Double.nan)
  else (Double.ofText? text.toList).map .double

/-- The text of `$numberDecimal`. -/
def numberDecimal? (text : String) : Option Value := (Decimal128.ofText? text).map .decimal128

/-- The texts of `$binary`: bytes in base 64 and the subtype as two hexadecimal digits. -/
def binary? (bytes subtype : String) : Option Value := do
  let content ← Text.bytesOfBase64? bytes.toList
  let codes ← Text.bytesOfHex? subtype.toList
  match codes with
  | [code] => return .binary code content
  | _ => none

/-- The text of `$uuid`. -/
def uuid? (text : String) : Option Value :=
  (Uuid.ofText? text).map fun id => .binary 4 id.bytes

/-- The text of `$date`, a point in time. -/
def date? (text : String) : Option Value :=
  (Time.millisOfText? text.toList).map fun millis => .dateTime (Int64.ofInt millis)

/-- The options of a regular expression are letters, which are kept in order. -/
def sortedOptions (options : String) : String :=
  String.ofList (options.toList.mergeSort fun a b => a.toNat ≤ b.toNat)

/-- The texts of `$regularExpression`. -/
def regularExpression (pattern options : String) : Value :=
  .regularExpression pattern (sortedOptions options)

end TagText

namespace Tagged

/-! ## Writing -/

/-- The value of a settled body of `$binary`: two texts, or bytes and the number of a subtype. -/
def settledBinary? (body : Document) : Option Value :=
  match body.get? "base64", body.get? "subType" with
  | some (.string bytes), some (.string subtype) => TagText.binary? bytes subtype
  | some (.string _), _ => none
  | _, some (.int32 subtype) => do
      let bytes ← body.get? "bytes" >>= Value.asBytes?
      let subtype ← (Value.int32 subtype).asByte?
      return .binary subtype bytes
  | _, _ => none

/-- The value of a settled body of `$timestamp`: two integers of one width. Those of 32 bits are
taken without regard to their sign. -/
def settledTimestamp? (body : Document) : Option Value :=
  match body.get? "t", body.get? "i" with
  | some (.int32 time), some (.int32 increment) =>
      some (.timestamp time.toUInt32 increment.toUInt32)
  | some (.int64 time), some (.int64 increment) => do
      let time ← (Value.int64 time).asUInt32?
      let increment ← (Value.int64 increment).asUInt32?
      return .timestamp time increment
  | _, _ => none

/-- The value that a document stands for whose only field is a tag with a settled body. -/
def settled? (tag : String) (body : Value) : Option Value :=
  match tag, body with
  | "$oid", .string text => TagText.objectId? text
  | "$symbol", .string name => some (.symbol name)
  | "$numberInt", .string text => TagText.numberInt? text
  | "$numberLong", .string text => (TagText.numberLong? text).map .int64
  | "$numberDouble", .string text => TagText.numberDouble? text
  | "$numberDecimal", .string text => TagText.numberDecimal? text
  | "$numberDecimalBytes", body =>
      (body.asBytes? >>= Decimal128.ofBytes?).map .decimal128
  | "$binary", .document body => settledBinary? body
  | "$code", .string code => some (.javaScript code)
  | "$timestamp", .document body => settledTimestamp? body
  | "$regularExpression", .document body =>
      match Fields.get? body "pattern", Fields.get? body "options" with
      | some (.string pattern), some (.string options) =>
          some (TagText.regularExpression pattern options)
      | _, _ => none
  | "$dbPointer", .document body =>
      match Fields.get? body "$ref", Fields.get? body "$id" with
      | some (.string collection), some (.objectId id) => some (.databasePointer collection id)
      | _, _ => none
  | "$date", .int64 millis => some (.dateTime millis)
  | "$date", .string text => TagText.date? text
  | "$minKey", body => if body.asInteger? = some 1 then some .minKey else none
  | "$maxKey", body => if body.asInteger? = some 1 then some .maxKey else none
  | "$undefined", .boolean true => some .undefined
  | _, _ => none

/-- The value that a document stands for whose fields, in any order, are code and its scope. -/
def settledCode? (fields : List (String × Value)) : Option Value :=
  match Fields.get? fields "$code", Fields.get? fields "$scope" with
  | some (.string code), some (.document scope) => some (.javaScriptWithScope code scope)
  | _, _ => none

/-- The value that a document with settled fields becomes. -/
def settledDocument (fields : List (String × Value)) : Value :=
  let value? :=
    match fields with
    | [(tag, body)] => settled? tag body
    | [_, _] => settledCode? fields
    | _ => none
  value?.getD (.document fields)

/-! ## Reading -/

/-- The tags that decide the type of a document when it is read. -/
def tags : List String :=
  ["$oid", "$symbol", "$numberInt", "$numberLong", "$numberDouble", "$numberDecimal",
   "$numberDecimalBytes", "$binary", "$uuid", "$code", "$scope", "$timestamp",
   "$regularExpression", "$dbPointer", "$date", "$minKey", "$maxKey", "$undefined"]

/-- The two parts of a body: the values of exactly these fields, or the first items of an array. -/
def pair? (first second : String) : Value → Option (Value × Value)
  | .document fields =>
      if fields.length = 2 then do
        let a ← Fields.get? fields first
        let b ← Fields.get? fields second
        return (a, b)
      else none
  | .array (a :: b :: _) => some (a, b)
  | _ => none

/-- The value of a body of `$date`: milliseconds, as a number or as the text of one, or a point in
time. -/
def date? : Value → Option Value
  | .document [("$numberLong", text)] =>
      (text.asString? >>= TagText.numberLong?).map .dateTime
  | .array [text] => (text.asString? >>= TagText.numberLong?).map .dateTime
  | body => (body.asInt64?.map .dateTime).or (body.asString? >>= TagText.date?)

/-- The bytes that a value is, is the text of, or lists as numbers. -/
def bytes? : Value → Option (List UInt8)
  | .string s => some s.toUTF8.toList
  | .array items => items.mapM Value.asByte?
  | body => body.asBytes?

/-- The object identifier that a value is, or that its only field or item writes. -/
def objectId? : Value → Option ObjectId
  | .objectId id => some id
  | .document [("$oid", text)] => text.asString? >>= ObjectId.ofText?
  | .array [text] => text.asString? >>= ObjectId.ofText?
  | _ => none

/-- Code and the value that was read as its scope. -/
def codeWithScope? (code : Value) : Option Value → Option Value
  | some (.document scope) => code.asString?.map fun code => .javaScriptWithScope code scope
  | _ => none

/-- The value that a document stands for whose first tag has the given body, and is followed by the
given fields. Code with its scope is read before. -/
def read? (tag : String) (body : Value) (rest : List (String × Value)) : Option Value :=
  match tag with
  | "$oid" =>
      match body with
      | .string text => TagText.objectId? text
      | _ => (body.asBytes? >>= ObjectId.ofBytes?).map .objectId
  | "$symbol" => body.asString?.map .symbol
  | "$numberInt" => body.asString? >>= TagText.numberInt?
  | "$numberLong" => (body.asString? >>= TagText.numberLong?).map .int64
  | "$numberDouble" => body.asString? >>= TagText.numberDouble?
  | "$numberDecimal" => body.asString? >>= TagText.numberDecimal?
  | "$numberDecimalBytes" => (bytes? body >>= Decimal128.ofBytes?).map .decimal128
  | "$binary" => do
      let (bytes, subtype) ← pair? "base64" "subType" body
      TagText.binary? (← bytes.asString?) (← subtype.asString?)
  | "$uuid" => body.asString? >>= TagText.uuid?
  | "$code" => if rest.isEmpty then body.asString?.map .javaScript else none
  | "$timestamp" => do
      let (time, increment) ← pair? "t" "i" body
      return .timestamp (← time.asUInt32?) (← increment.asUInt32?)
  | "$regularExpression" => do
      let (pattern, options) ← pair? "pattern" "options" body
      return TagText.regularExpression (← pattern.asString?) (← options.asString?)
  | "$dbPointer" => do
      let (collection, id) ← pair? "$ref" "$id" body
      return .databasePointer (← collection.asString?) (← objectId? id)
  | "$date" => date? body
  | "$minKey" => if body.asInteger? = some 1 then some .minKey else none
  | "$maxKey" => if body.asInteger? = some 1 then some .maxKey else none
  | "$undefined" => if body.asBoolean? = some true then some .undefined else none
  | _ => none

end Tagged

namespace Value

mutual
/-- The value as a record holds it that was written with it. -/
def settled : Value → Value
  | .document fields => Tagged.settledDocument (settledFields fields)
  | .array items => .array (settledItems items)
  | .javaScriptWithScope code scope =>
      Tagged.settledDocument
        [("$code", .string code), ("$scope", Tagged.settledDocument (settledFields scope))]
  | .regularExpression pattern options => TagText.regularExpression pattern options
  | value => value
/-- The items of an array as a record holds them. -/
def settledItems : List Value → List Value
  | [] => []
  | item :: rest => item.settled :: settledItems rest
/-- The fields of a document as a record holds them. -/
def settledFields : List (String × Value) → List (String × Value)
  | [] => []
  | (key, value) :: rest => (key, value.settled) :: settledFields rest
end

mutual
/-- The value that is read where a record holds the given one. -/
def ofTagged? : Value → Option Value
  | .document fields => ofTaggedFields? [] fields
  | .array items => (ofTaggedItems? items).map .array
  | .javaScriptWithScope code scope =>
      Tagged.codeWithScope? (.string code) (ofTaggedFields? [] scope)
  | .regularExpression pattern options => some (TagText.regularExpression pattern options)
  | value => some value
/-- The items that are read where a record holds the given ones. -/
def ofTaggedItems? : List Value → Option (List Value)
  | [] => some []
  | item :: rest =>
      match item.ofTagged? with
      | some value => (ofTaggedItems? rest).map (value :: ·)
      | none => none
/-- The value of a document, of which some fields were read already. -/
def ofTaggedFields? (done : List (String × Value)) : List (String × Value) → Option Value
  | [] => some (.document done.reverse)
  | ("$code", code) :: ("$scope", scope) :: _ => Tagged.codeWithScope? code scope.ofTagged?
  | ("$scope", scope) :: ("$code", code) :: _ => Tagged.codeWithScope? code scope.ofTagged?
  | (key, body) :: rest =>
      if Tagged.tags.contains key then Tagged.read? key body rest
      else
        match body.ofTagged? with
        | some value => ofTaggedFields? ((key, value) :: done) rest
        | none => none
end

/-- The object identifier that a value is, writes or stands for. -/
def asObjectId? : Value → Option ObjectId
  | objectId id => some id
  | string s => ObjectId.ofText? s
  | document fields =>
      match (Value.document fields).ofTagged? with
      | some (.objectId id) => some id
      | _ => none
  | value => value.asBytes? >>= ObjectId.ofBytes?

theorem settled_of_isSome_key? {value : Value} (h : value.key?.isSome) : value.settled = value := by
  cases value <;> first | rfl | (exact absurd h (by simp [key?]))

theorem ofTagged?_of_isSome_key? {value : Value} (h : value.key?.isSome) :
    value.ofTagged? = some value := by
  cases value <;> first | rfl | (exact absurd h (by simp [key?]))

end Value

end DocMapper
