import DocMapper.Text.Encoding

set_option autoImplicit false

/-!
# Universally unique identifiers

A `Uuid` is 128 bits. Its text has five groups of digits joined by hyphens. `ofText?` also reads
the 32 digits without hyphens, and the hyphenated text in braces or with the URN name in front.
-/

namespace DocMapper

/-- A 128-bit identifier. -/
structure Uuid where
  bits : BitVec 128
deriving DecidableEq, Hashable

namespace Uuid

/-- The identifier whose bits are all zero. -/
def zero : Uuid := ⟨0⟩

/-- The lengths of the groups of digits. -/
def groupLengths : List Nat := [8, 4, 4, 4, 12]

/-- The digits cut into groups of the given lengths with hyphens between them. -/
def hyphenate : List Nat → List Char → List Char
  | [], digits => digits
  | [_], digits => digits
  | n :: ns, digits => digits.take n ++ '-' :: hyphenate ns (digits.drop n)

/-- The digits of a hyphenated text; `none` if a hyphen is missing or the length is wrong. -/
def unhyphenate? : List Nat → List Char → Option (List Char)
  | [], _ => none
  | [n], text => if text.length = n then some text else none
  | n :: ns, text =>
      if text.length < n then none
      else
        match text.drop n with
        | '-' :: rest => (unhyphenate? ns rest).map (text.take n ++ ·)
        | _ => none

/-- The hyphenated text in small letters. -/
def text (id : Uuid) : String :=
  String.ofList (hyphenate groupLengths (Text.hexFixed 32 id.bits.toNat))

/-- The bytes of the identifier, the highest first. -/
def bytes (id : Uuid) : List UInt8 :=
  (List.range 16).map fun i => UInt8.ofNat (id.bits.toNat / 256 ^ (15 - i))

/-- The identifier written by 32 digits. -/
def ofDigits? (digits : List Char) : Option Uuid :=
  if digits.length = 32 then (Text.hexNumber? digits).map fun n => ⟨BitVec.ofNat 128 n⟩ else none

/-- The identifier of a text with hyphens. -/
def ofHyphenated? (text : List Char) : Option Uuid :=
  (unhyphenate? groupLengths text).bind ofDigits?

/-- The identifier of a text in braces, or with the URN name in front in either case. -/
def ofWrapped? (text : List Char) : Option Uuid :=
  let urn := ['u', 'r', 'n', ':', 'u', 'u', 'i', 'd', ':']
  match text with
  | '\x7b' :: rest =>
      if rest.getLast? = some '\x7d' then ofHyphenated? rest.dropLast else none
  | chars =>
      if (chars.take 9).map Char.toLower = urn then ofHyphenated? (chars.drop 9) else none

/-- The identifier of a text in any of the four usual forms. -/
def ofText? (text : String) : Option Uuid :=
  ((ofDigits? text.toList).or (ofHyphenated? text.toList)).or (ofWrapped? text.toList)

/-- The identifier of sixteen bytes. -/
def ofBytes? (bytes : List UInt8) : Option Uuid :=
  if bytes.length = 16 then some ⟨BitVec.ofNat 128 (Text.bytesNumber bytes)⟩ else none

/-- The bits of a number as a random identifier: version 4 of the standard variant. -/
def ofRandom (n : Nat) : Uuid :=
  let low := n % 2 ^ 62
  let middle := n / 2 ^ 62 % 2 ^ 12
  let high := n / 2 ^ 74 % 2 ^ 48
  ⟨BitVec.ofNat 128 (((high * 2 ^ 4 + 4) * 2 ^ 12 + middle) * 2 ^ 64 + (2 ^ 63 + low))⟩

/-- Hyphens that were put in are taken out again. -/
theorem unhyphenate?_hyphenate {lengths : List Nat} {digits : List Char}
    (hne : lengths ≠ []) (hsum : digits.length = lengths.sum) :
    unhyphenate? lengths (hyphenate lengths digits) = some digits := by
  induction lengths generalizing digits with
  | nil => exact absurd rfl hne
  | cons n rest ih =>
      cases rest with
      | nil =>
          have hlen : digits.length = n := by simpa using hsum
          simp [hyphenate, unhyphenate?, hlen]
      | cons m rest =>
          have htake : (digits.take n).length = n := by
            rw [List.length_take, hsum]
            simp
          have hrest : (digits.drop n).length = (m :: rest).sum := by
            rw [List.length_drop, hsum]
            simp
          have hback := ih (by simp) hrest
          simp [hyphenate, unhyphenate?, List.take_left' htake, List.drop_left' htake, hback,
            htake, List.take_append_drop]

/-- The text has a hyphen between two groups. -/
theorem length_hyphenate (lengths : List Nat) (digits : List Char)
    (h : digits.length = lengths.sum) :
    (hyphenate lengths digits).length = digits.length + (lengths.length - 1) := by
  induction lengths generalizing digits with
  | nil => rfl
  | cons n rest ih =>
      cases rest with
      | nil => rfl
      | cons m rest =>
          have hrest : (digits.drop n).length = (m :: rest).sum := by
            rw [List.length_drop, h]
            simp
          have hn : n ≤ digits.length := by
            rw [h]
            simp
          simp only [hyphenate, List.length_append, List.length_cons, ih _ hrest,
            List.length_take, List.length_drop]
          omega

/-- The text of an identifier is read as the identifier. -/
theorem ofText?_text (id : Uuid) : ofText? id.text = some id := by
  have hlt : id.bits.toNat < 16 ^ 32 := id.bits.isLt
  have hnumber : Text.hexNumber? (Text.hexFixed 32 id.bits.toNat) = some id.bits.toNat := by
    rw [Text.hexNumber?_hexFixed, Nat.mod_eq_of_lt hlt]
  have hlen : (Text.hexFixed 32 id.bits.toNat).length = groupLengths.sum :=
    Text.length_hexFixed 32 _
  have hdigits : ofDigits? (Text.hexFixed 32 id.bits.toNat) = some id := by
    simp [ofDigits?, Text.length_hexFixed, hnumber]
  have hplain : ofDigits? (hyphenate groupLengths (Text.hexFixed 32 id.bits.toNat)) = none := by
    rw [ofDigits?, length_hyphenate _ _ hlen, Text.length_hexFixed, if_neg (by decide)]
  have hhyphenated :
      ofHyphenated? (hyphenate groupLengths (Text.hexFixed 32 id.bits.toNat)) = some id := by
    rw [ofHyphenated?, unhyphenate?_hyphenate (by decide) hlen, Option.bind_some, hdigits]
  rw [ofText?, text, String.toList_ofList, hplain, hhyphenated, Option.none_or, Option.some_or]

end Uuid

end DocMapper
