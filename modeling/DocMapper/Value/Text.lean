import DocMapper.Number.Text
import DocMapper.Text.Encoding
import DocMapper.Time.Timestamp
import DocMapper.Value.Basic

set_option autoImplicit false

/-!
# Values as text in messages

`Value.text` shows a value on one line. Strings stand in quotes but nothing in them is escaped, so
the text is for readers and not for reading back.
-/

namespace DocMapper

/-- Parts with a comma between two of them. -/
def commaSeparated (parts : List String) : String := ", ".intercalate parts

namespace Value

mutual
/-- A value on one line. -/
def text : Value → String
  | .double x => x.text
  | .string s => "\"" ++ s ++ "\""
  | .document [] => "\x7b\x7d"
  | .document (field :: rest) =>
      "\x7b " ++ commaSeparated (fieldTexts (field :: rest)) ++ " \x7d"
  | .array items => "[" ++ commaSeparated (itemTexts items) ++ "]"
  | .binary subtype bytes =>
      "Binary(0x" ++ String.ofList (Text.hex subtype.toNat) ++ ", " ++
        String.ofList (Text.base64 bytes) ++ ")"
  | .undefined => "undefined"
  | .objectId id => "ObjectId(\"" ++ id.text ++ "\")"
  | .boolean b => if b then "true" else "false"
  | .dateTime millis => "DateTime(\"" ++ Time.text millis.toInt ++ "\")"
  | .null => "null"
  | .regularExpression pattern options => "/" ++ pattern ++ "/" ++ options
  | .databasePointer collection id => "DbPointer(" ++ collection ++ ", " ++ id.text ++ ")"
  | .javaScript code => code
  | .symbol name => "Symbol(\"" ++ name ++ "\")"
  | .javaScriptWithScope code _ => code
  | .int32 n => toString n.toInt
  | .timestamp time increment =>
      "Timestamp(" ++ toString time.toNat ++ ", " ++ toString increment.toNat ++ ")"
  | .int64 n => toString n.toInt
  | .decimal128 x => x.text
  | .minKey => "MinKey"
  | .maxKey => "MaxKey"
/-- The fields of a document, each with its name in quotes. -/
def fieldTexts : List (String × Value) → List String
  | [] => []
  | (key, v) :: rest => ("\"" ++ key ++ "\": " ++ text v) :: fieldTexts rest
/-- The items of an array. -/
def itemTexts : List Value → List String
  | [] => []
  | v :: rest => text v :: itemTexts rest
end

end Value

end DocMapper
