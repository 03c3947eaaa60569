import DocMapper.Value.Key

set_option autoImplicit false

/-!
# The byte strings of keys

A collection is indexed by the bytes of keys. The number of some bytes, highest first, reads back
from them (`bytesNumber_bigEndian`), so the bytes of a key determine it as long as its integer has
64 bits (`Key.bytes_inj`); the keys of values are such keys (`Key.fits_of_key?`).
-/

namespace DocMapper

/-! ## Bytes of numbers -/

namespace Text

theorem bytesNumber_append (bytes : List UInt8) (b : UInt8) :
    bytesNumber (bytes ++ [b]) = 256 * bytesNumber bytes + b.toNat := by
  simp [bytesNumber, List.foldl_append]

/-- A number in bytes, the highest first, reads back as its remainder. -/
theorem bytesNumber_bigEndian (width n : Nat) :
    bytesNumber ((List.range width).map fun i => UInt8.ofNat (n / 256 ^ (width - 1 - i))) =
      n % 256 ^ width := by
  induction width generalizing n with
  | zero => simp [bytesNumber, Nat.mod_one]
  | succ width ih =>
    -- without its last byte the number is that of its quotient
    have hfirst : (List.range width).map (fun i => UInt8.ofNat (n / 256 ^ (width + 1 - 1 - i))) =
        (List.range width).map fun i => UInt8.ofNat (n / 256 / 256 ^ (width - 1 - i)) := by
      refine List.map_congr_left fun i hi => ?_
      have hpos : width + 1 - 1 - i = width - 1 - i + 1 := by
        have := List.mem_range.1 hi
        omega
      rw [hpos, Nat.pow_succ', Nat.div_div_eq_div_mul]
    rw [List.range_succ, List.map_append, hfirst, List.map_singleton, bytesNumber_append, ih,
      Nat.pow_succ', Nat.mod_mul]
    simp [Nat.add_comm]

/-- A byte array is read from a position on, after the bytes that were read. -/
theorem toList_loop_eq (bytes : ByteArray) (i : Nat) (read : List UInt8) :
    ByteArray.toList.loop bytes i read = read.reverse ++ bytes.data.toList.drop i := by
  induction i, read using ByteArray.toList.loop.induct bytes with
  | case1 i read hlt ih =>
    have hlen : i < bytes.data.toList.length := hlt
    have hget : bytes.get! i = bytes.data.toList[i] := by
      obtain ⟨data⟩ := bytes
      exact getElem!_pos data i hlt
    rw [ByteArray.toList.loop.eq_def, if_pos hlt, ih, List.drop_eq_getElem_cons hlen, hget]
    simp
  | case2 i read hlt =>
    have hlen : bytes.data.toList.length ≤ i := Nat.le_of_not_lt hlt
    rw [ByteArray.toList.loop.eq_def, if_neg hlt, List.drop_eq_nil_of_le hlen, List.append_nil]

theorem toList_toUTF8_inj {s t : String} (h : s.toUTF8.toList = t.toUTF8.toList) : s = t := by
  rw [ByteArray.toList, ByteArray.toList, toList_loop_eq, toList_loop_eq] at h
  exact String.toByteArray_inj.1 (ByteArray.ext (Array.toList_inj.1 (by simpa using h)))

end Text

namespace Key

theorem bytes64_inj {m n : Nat} (hm : m < 2 ^ 64) (hn : n < 2 ^ 64) (h : bytes64 m = bytes64 n) :
    m = n := by
  have hread : ∀ k, Text.bytesNumber (bytes64 k) = k % 256 ^ 8 := Text.bytesNumber_bigEndian 8
  have heq : m % 256 ^ 8 = n % 256 ^ 8 := by
    rw [← hread, ← hread, h]
  omega

theorem signedBytes64_inj {m n : Int} (hm : -2 ^ 63 ≤ m ∧ m < 2 ^ 63)
    (hn : -2 ^ 63 ≤ n ∧ n < 2 ^ 63) (h : signedBytes64 m = signedBytes64 n) : m = n := by
  have heq := bytes64_inj (by omega) (by omega) h
  omega

/-- Twelve bytes determine an object identifier. -/
theorem bytes_objectId_inj {a b : ObjectId} (h : a.bytes = b.bytes) : a = b := by
  have hread : ∀ id : ObjectId, Text.bytesNumber id.bytes = id.bits.toNat % 256 ^ 12 :=
    fun id => Text.bytesNumber_bigEndian 12 id.bits.toNat
  have heq : a.bits.toNat % 256 ^ 12 = b.bits.toNat % 256 ^ 12 := by
    rw [← hread, ← hread, h]
  have ha : a.bits.toNat < 2 ^ 96 := a.bits.isLt
  have hb : b.bits.toNat < 2 ^ 96 := b.bits.isLt
  obtain ⟨a⟩ := a
  obtain ⟨b⟩ := b
  refine congrArg ObjectId.mk (BitVec.eq_of_toNat_eq ?_)
  dsimp only at heq ha hb
  omega

/-! ## Bytes of keys -/

/-- A key whose number has 64 bits. -/
def Fits : Key → Prop
  | integer n => -2 ^ 63 ≤ n ∧ n < 2 ^ 63
  | dateTime millis => -2 ^ 63 ≤ millis ∧ millis < 2 ^ 63
  | _ => True

/-- The number in the key of a value has 64 bits. -/
theorem fits_of_key? {v : Value} {key : Key} (h : v.key? = some key) : key.Fits := by
  have h64 : ∀ n : Int64, -2 ^ 63 ≤ n.toInt ∧ n.toInt < 2 ^ 63 :=
    fun n => ⟨n.le_toInt, n.toInt_lt⟩
  cases v with
  | int32 n =>
    obtain rfl := Option.some.inj h
    have hle := n.le_toInt
    have hlt := n.toInt_lt
    exact ⟨by omega, by omega⟩
  | int64 n =>
    obtain rfl := Option.some.inj h
    exact h64 n
  | dateTime millis =>
    obtain rfl := Option.some.inj h
    exact h64 millis
  | double x =>
    rw [Value.key?] at h
    split at h
    · -- a double shares the key of an integer only below a bound
      rename_i n hn
      obtain rfl := Option.some.inj h
      obtain ⟨-, hsmall⟩ := Option.filter_eq_some_iff.1 hn
      simp only [decide_eq_true_eq] at hsmall
      exact ⟨by omega, by omega⟩
    · obtain rfl := Option.some.inj h
      trivial
  | _ => first
    | (obtain rfl := Option.some.inj h; trivial)
    | cases h

/-- A key of a value is determined by its bytes: the first one tells the constructor. -/
theorem bytes_inj {k l : Key} (hk : k.Fits) (hl : l.Fits) (h : k.bytes = l.bytes) : k = l := by
  -- different constructors have different first bytes, so only equal ones are left
  cases k with
  | integer m =>
    cases l with
    | integer n => rw [signedBytes64_inj hk hl (List.cons.inj h).2]
    | _ => exact absurd (List.cons.inj h).1 (by decide)
  | double x =>
    cases l with
    | double y =>
      have hbits := bytes64_inj x.bits.isLt y.bits.isLt (List.cons.inj h).2
      exact congrArg (double ⟨·⟩) (BitVec.eq_of_toNat_eq hbits)
    | _ => exact absurd (List.cons.inj h).1 (by decide)
  | string s =>
    cases l with
    | string t =>
      rw [Text.toList_toUTF8_inj (List.cons.inj h).2]
    | _ => exact absurd (List.cons.inj h).1 (by decide)
  | objectId a =>
    cases l with
    | objectId b => rw [bytes_objectId_inj (List.cons.inj h).2]
    | _ => exact absurd (List.cons.inj h).1 (by decide)
  | binary subtype content =>
    cases l with
    | binary subtype' content' =>
      obtain ⟨rfl, rfl⟩ := List.cons.inj (List.cons.inj h).2
      rfl
    | _ => exact absurd (List.cons.inj h).1 (by decide)
  | boolean a =>
    cases l with
    | boolean b => cases a <;> cases b <;> first | rfl | exact absurd h (by decide)
    | _ => exact absurd (List.cons.inj h).1 (by decide)
  | null =>
    cases l with
    | null => rfl
    | _ => exact absurd (List.cons.inj h).1 (by decide)
  | dateTime m =>
    cases l with
    | dateTime n => rw [signedBytes64_inj hk hl (List.cons.inj h).2]
    | _ => exact absurd (List.cons.inj h).1 (by decide)

end Key

end DocMapper
