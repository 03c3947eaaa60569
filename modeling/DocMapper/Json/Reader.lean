import DocMapper.Fields
import DocMapper.Number.Double
import DocMapper.Text.Encoding

set_option autoImplicit false

/-!
# JSON values and reading them from text

A `Json` is what a JSON text denotes. Numbers are integers from `-2 ^ 63` to `2 ^ 64 - 1` where
the text has neither fraction nor exponent and fits, and doubles otherwise. The members of an
object keep the order in which their names first occur.

`Reader` is a pushdown machine that takes a JSON text character by character: a `Mode` for what may
come next and a stack of the arrays and objects that are still open. Within a string or a number the
mode holds a machine for it, a `StringReader` or a `NumberReader`. Reading a text is a fold of
`Reader.step?` over its characters, so a text that is put together from two parts is read by reading
the parts one after the other (`run?_append`). No more than 127 arrays and objects may be open at
the same time.
-/

namespace DocMapper

/-- The value of a JSON text. -/
inductive Json where
  | null
  | boolean (b : Bool)
  | integer (n : Int)
  | double (x : Double)
  | string (s : String)
  | array (items : List Json)
  | object (members : List (String × Json))
deriving Inhabited

namespace Json

/-! ## Strings

A string is read character by character between its quotes. Control characters are refused, and so
is a numbered escape that is one half of a surrogate pair without the other half. -/

/-- Where the reader is with respect to escapes. A numbered escape has `digits` digits left to come;
`high` is the first half of a pair whose second half is being read. -/
inductive StringPhase where
  | plain
  | escape
  | number (high : Option Nat) (digits value : Nat)
  | pairSlash (high : Nat)
  | pairLetter (high : Nat)
deriving DecidableEq

/-- The reader of one string; the characters are kept in reverse. -/
structure StringReader where
  reversed : List Char
  phase : StringPhase
deriving DecidableEq

namespace StringReader

/-- The reader after the opening quote. -/
def start : StringReader := ⟨[], .plain⟩

/-- The string that was read. -/
def text (r : StringReader) : String := String.ofList r.reversed.reverse

/-- The reader with a character more. -/
def push (r : StringReader) (c : Char) : StringReader := ⟨c :: r.reversed, .plain⟩

/-- Whether a code unit is the first half of a pair. -/
def isHigh (n : Nat) : Bool := 0xd800 ≤ n && n ≤ 0xdbff

/-- Whether a code unit is the second half of a pair. -/
def isLow (n : Nat) : Bool := 0xdc00 ≤ n && n ≤ 0xdfff

/-- The reader after all digits of a numbered escape. -/
def pushUnit? (r : StringReader) (high : Option Nat) (value : Nat) : Option StringReader :=
  match high with
  | some h =>
      if isLow value then
        some (r.push (Char.ofNat (0x10000 + (h - 0xd800) * 0x400 + (value - 0xdc00))))
      else none
  | none =>
      if isHigh value then some ⟨r.reversed, .pairSlash value⟩
      else if isLow value then none
      else some (r.push (Char.ofNat value))

/-- The character that a letter after a backslash stands for. -/
def escapeChar? (c : Char) : Option Char :=
  if c = '"' ∨ c = '\\' ∨ c = '/' then some c
  else if c = 'b' then some '\x08'
  else if c = 'f' then some '\x0c'
  else if c = 'n' then some '\n'
  else if c = 'r' then some '\r'
  else if c = 't' then some '\t'
  else none

/-- Whether a character closes the string. -/
def isEnd (r : StringReader) (c : Char) : Bool := r.phase = .plain && c = '"'

/-- The reader after one character that does not close the string. -/
def step? (r : StringReader) (c : Char) : Option StringReader :=
  match r.phase with
  | .plain =>
      if c = '\\' then some ⟨r.reversed, .escape⟩
      else if c.toNat < 0x20 then none
      else some (r.push c)
  | .escape =>
      if c = 'u' then some ⟨r.reversed, .number none 4 0⟩ else (escapeChar? c).map r.push
  | .number high digits value =>
      match Text.hexValue? c with
      | none => none
      | some d =>
          if digits ≤ 1 then r.pushUnit? high (16 * value + d)
          else some ⟨r.reversed, .number high (digits - 1) (16 * value + d)⟩
  | .pairSlash high => if c = '\\' then some ⟨r.reversed, .pairLetter high⟩ else none
  | .pairLetter high => if c = 'u' then some ⟨r.reversed, .number (some high) 4 0⟩ else none

end StringReader

/-! ## Numbers

A number is read character by character. Its digits are kept as one significand below `2 ^ 64`; a
digit that does not fit is dropped, and counts only as a place when it stands before the point. A
number with a fraction, an exponent or dropped digits is the significand as a double, scaled by the
power of ten as a double: two roundings and, for very small numbers, one for every 308 places. A
number too large for a double is refused. -/

/-- How far the reader is in a number. `places` is the power of ten that the significand is to be
scaled by. -/
inductive NumberPhase where
  | sign
  | zero
  | digits (significand : Nat)
  | longDigits (significand places : Nat)
  | point (significand : Nat) (places : Int)
  | fraction (significand : Nat) (places : Int) (full : Bool)
  | exponentMark (significand : Nat) (places : Int)
  | exponentSign (significand : Nat) (places : Int) (negative : Bool)
  | exponent (significand : Nat) (places : Int) (negative : Bool) (value : Nat)
deriving DecidableEq

/-- The reader of one number. -/
structure NumberReader where
  negative : Bool
  phase : NumberPhase
deriving DecidableEq

namespace NumberReader

/-- The value of a decimal digit. -/
def digit? (c : Char) : Option Nat := if c.isDigit then some (c.toNat - 48) else none

/-- The reader after the first character of a number. -/
def start? (c : Char) : Option NumberReader :=
  if c = '-' then some ⟨true, .sign⟩
  else if c = '0' then some ⟨false, .zero⟩
  else (digit? c).map fun d => ⟨false, .digits d⟩

/-- The significand with a digit more, if it still fits. -/
def extend? (significand digit : Nat) : Option Nat :=
  let n := significand * 10 + digit
  if n < 2 ^ 64 then some n else none

/-- The phase after a point or an exponent letter, where one may follow. -/
def markPhase? (significand : Nat) (places : Int) (pointAllowed : Bool) (c : Char) :
    Option NumberPhase :=
  if c = '.' ∧ pointAllowed then some (.point significand places)
  else if c = 'e' ∨ c = 'E' then some (.exponentMark significand places)
  else none

/-- The phase after a digit of the fraction. -/
def fractionPhase (significand : Nat) (places : Int) (digit : Nat) : NumberPhase :=
  match extend? significand digit with
  | some n => .fraction n (places - 1) false
  | none => .fraction significand places true

/-- The phase after one character more; `none` if the character does not continue the number. -/
def nextPhase? : NumberPhase → Char → Option NumberPhase
  | .sign, c => if c = '0' then some .zero else (digit? c).map .digits
  | .zero, c => markPhase? 0 0 true c
  | .digits n, c =>
      match digit? c with
      | some d =>
          match extend? n d with
          | some m => some (.digits m)
          | none => some (.longDigits n 1)
      | none => markPhase? n 0 true c
  | .longDigits n places, c =>
      if c.isDigit then some (.longDigits n (places + 1)) else markPhase? n places true c
  | .point n places, c => (digit? c).map (fractionPhase n places)
  | .fraction n places full, c =>
      match digit? c with
      | some d => some (if full then .fraction n places true else fractionPhase n places d)
      | none => markPhase? n places false c
  | .exponentMark n places, c =>
      if c = '+' then some (.exponentSign n places false)
      else if c = '-' then some (.exponentSign n places true)
      else (digit? c).map (.exponent n places false)
  | .exponentSign n places negative, c => (digit? c).map (.exponent n places negative)
  | .exponent n places negative value, c =>
      (digit? c).map fun d => .exponent n places negative (value * 10 + d)

/-- The reader after one character more. -/
def step? (r : NumberReader) (c : Char) : Option NumberReader :=
  (nextPhase? r.phase c).map fun phase => ⟨r.negative, phase⟩

/-- The largest power of ten that is a double. -/
def largestPower : Nat := 308

/-- A power of ten as a double. -/
def powerOfTen (n : Nat) : Double := Double.ofDecimal false 1 n

/-- A double divided by a power of ten, one largest power after another. -/
def scaleDown (x : Double) (places : Nat) : Double :=
  if places ≤ largestPower then x.div (powerOfTen places)
  else if x.isZero then x
  else scaleDown (x.div (powerOfTen largestPower)) (places - largestPower)
termination_by places
decreasing_by
  simp only [largestPower] at *
  omega

/-- A significand scaled by a power of ten; `none` beyond the largest double. -/
def scale? (significand : Nat) (places : Int) : Option Double :=
  let x := Double.ofInt significand
  if places < 0 then some (scaleDown x places.natAbs)
  else if places ≤ largestPower then
    let y := x.mul (powerOfTen places.toNat)
    if y.isInfinite then none else some y
  else if x.isZero then some x
  else none

/-- The largest exponent that is scaled by; a larger one gives zero or no number. -/
def largestExponent : Nat := 2 ^ 31 - 1

/-- The double of a significand, a place and a written exponent. -/
def withExponent? (significand : Nat) (places : Int) (negative : Bool) (value : Nat) :
    Option Double :=
  if largestExponent < value then
    if significand = 0 ∨ negative then some (Double.ofInt 0) else none
  else scale? significand (if negative then places - value else places + value)

/-- A double with the sign of the number. -/
def signed (r : NumberReader) (x : Double) : Json :=
  .double (if r.negative then x.neg else x)

/-- An integer with the sign of the number, as an integer where it fits. -/
def integer (r : NumberReader) (n : Nat) : Json :=
  if r.negative then
    if n = 0 ∨ 2 ^ 63 < n then .double (Double.ofInt n).neg else .integer (-n)
  else .integer n

/-- The number that was read, if it is complete and not too large. -/
def finish? (r : NumberReader) : Option Json :=
  match r.phase with
  | .zero => some (r.integer 0)
  | .digits n => some (r.integer n)
  | .longDigits n places => (scale? n places).map r.signed
  | .fraction n places _ => (scale? n places).map r.signed
  | .exponent n places negative value => (withExponent? n places negative value).map r.signed
  | _ => none

end NumberReader

/-! ## Texts -/

/-- An array or object that is still open: its items in reverse, its members, or its members and the
name of the one that is being read. -/
inductive Frame where
  | array (reversed : List Json)
  | object (members : Fields Json)
  | member (members : Fields Json) (name : String)

/-- What may come next. `closable` says that nothing was read since the opening bracket. -/
inductive Mode where
  | value (closable : Bool)
  | name (closable : Bool)
  | colon
  | after
  | finished (v : Json)
  | string (isName : Bool) (reader : StringReader)
  | number (reader : NumberReader)
  | word (first : Char) (rest : List Char) (v : Json)

/-- The state of the machine. -/
structure Reader where
  mode : Mode
  stack : List Frame

namespace Reader

/-- The largest number of arrays and objects that may be open. -/
def maxDepth : Nat := 127

/-- The machine before the first character. -/
def start : Reader := ⟨.value false, []⟩

/-- Whether a character may stand between tokens. -/
def isSpace (c : Char) : Bool := c = ' ' || c = '\n' || c = '\t' || c = '\r'

/-- The state after a whole value. -/
def complete (v : Json) : List Frame → Option Reader
  | [] => some ⟨.finished v, []⟩
  | .array items :: rest => some ⟨.after, .array (v :: items) :: rest⟩
  | .member members name :: rest => some ⟨.after, .object (Fields.insert name v members) :: rest⟩
  | .object _ :: _ => none

/-- The state after an opening bracket. -/
def openFrame (stack : List Frame) (frame : Frame) (mode : Mode) : Option Reader :=
  if stack.length < maxDepth then some ⟨mode, frame :: stack⟩ else none

/-- The state after `]`. -/
def closeArray : List Frame → Option Reader
  | .array items :: rest => complete (.array items.reverse) rest
  | _ => none

/-- The state after `}`. -/
def closeObject : List Frame → Option Reader
  | .object members :: rest => complete (.object members) rest
  | _ => none

/-- One character where a value begins. -/
def stepValue (closable : Bool) (stack : List Frame) (c : Char) : Option Reader :=
  if isSpace c then some ⟨.value closable, stack⟩
  else if c = '[' then openFrame stack (.array []) (.value true)
  else if c = '\x7b' then openFrame stack (.object []) (.name true)
  else if c = '"' then some ⟨.string false .start, stack⟩
  else if c = 't' then some ⟨.word 'r' ['u', 'e'] (.boolean true), stack⟩
  else if c = 'f' then some ⟨.word 'a' ['l', 's', 'e'] (.boolean false), stack⟩
  else if c = 'n' then some ⟨.word 'u' ['l', 'l'] .null, stack⟩
  else if c = ']' ∧ closable then closeArray stack
  else (NumberReader.start? c).map fun reader => ⟨.number reader, stack⟩

/-- One character where the name of a member begins. -/
def stepName (closable : Bool) (stack : List Frame) (c : Char) : Option Reader :=
  if isSpace c then some ⟨.name closable, stack⟩
  else if c = '"' then some ⟨.string true .start, stack⟩
  else if c = '\x7d' ∧ closable then closeObject stack
  else none

/-- One character after a value inside an array or object. -/
def stepAfter (stack : List Frame) (c : Char) : Option Reader :=
  if isSpace c then some ⟨.after, stack⟩
  else if c = ',' then
    match stack with
    | .array _ :: _ => some ⟨.value false, stack⟩
    | .object _ :: _ => some ⟨.name false, stack⟩
    | _ => none
  else if c = ']' then closeArray stack
  else if c = '\x7d' then closeObject stack
  else none

/-- One character after a whole value, inside or outside. -/
def stepOutside (r : Reader) (c : Char) : Option Reader :=
  match r.mode with
  | .after => stepAfter r.stack c
  | .finished v => if isSpace c then some ⟨.finished v, r.stack⟩ else none
  | _ => none

/-- The state after the closing quote of a string. -/
def completeString (isName : Bool) (text : String) (stack : List Frame) : Option Reader :=
  if isName then
    match stack with
    | .object members :: rest => some ⟨.colon, .member members text :: rest⟩
    | _ => none
  else complete (.string text) stack

/-- One character. A number ends where a character does not continue it, and that character then
counts as the one after the value. -/
def step? (r : Reader) (c : Char) : Option Reader :=
  match r.mode with
  | .value closable => stepValue closable r.stack c
  | .name closable => stepName closable r.stack c
  | .colon =>
      if isSpace c then some r
      else if c = ':' then some ⟨.value false, r.stack⟩
      else none
  | .after => stepAfter r.stack c
  | .finished _ => stepOutside r c
  | .string isName reader =>
      if reader.isEnd c then completeString isName reader.text r.stack
      else (reader.step? c).map fun next => ⟨.string isName next, r.stack⟩
  | .number reader =>
      match reader.step? c with
      | some next => some ⟨.number next, r.stack⟩
      | none => do
          let v ← reader.finish?
          let done ← complete v r.stack
          stepOutside done c
  | .word first rest v =>
      if c = first then
        match rest with
        | [] => complete v r.stack
        | next :: others => some ⟨.word next others v, r.stack⟩
      else none

/-- The machine after some characters. -/
def run? (r : Reader) (text : List Char) : Option Reader := text.foldlM step? r

/-- The value of a text that ends here. -/
def result? (r : Reader) : Option Json :=
  match r.mode with
  | .finished v => some v
  | .number reader => if r.stack.isEmpty then reader.finish? else none
  | _ => none

/-- A text in two parts is read part by part. -/
theorem run?_append (r : Reader) (first second : List Char) :
    r.run? (first ++ second) = (r.run? first).bind fun next => next.run? second := by
  simp only [run?, List.foldlM_append]
  rfl

end Reader

/-- The value of a JSON text. -/
def ofText? (text : List Char) : Option Json := (Reader.start.run? text).bind Reader.result?

end Json

end DocMapper
