import DocMapper.Proofs.Path.Forms
import Mathlib.Data.List.Shortlex
import Mathlib.Data.Set.Card

set_option autoImplicit false

/-!
# The numbering of identifiers

A word is a text of one or more letters `a … z`. Words are ordered by their length and then by the
alphabet (`Precedes`), and the identifier with a number is the word that has this number of words
before it. So identifiers with different numbers differ, they are in the order of their numbers, and
each word is an identifier (`identifier_enumerates`).

The letters of an identifier are found from the last one on. Two words with the same number of
letters before their last ones compare as these do, or by the last letters if these are the same
(`shortlex_concat_iff`), which is how numbers compare by quotient and remainder. A quotient that is
diminished by one is never zero, so the computation in 64 bits gives the same letters
(`reversedLetters64?_eq`).
-/

namespace DocMapper.Path

variable {m n : Nat} {c : Char} {letters : List Char}

/-! ## Letters -/

/-- Whether a character is a letter of identifiers. -/
def IsLetter (c : Char) : Prop := 'a' ≤ c ∧ c ≤ 'z'

theorem letter_lt_letter : ∀ m < 26, ∀ n < 26, m < n → letter m < letter n := by decide

/-- The letters with numbers below 26 are those from `a` to `z`. -/
theorem isLetter_iff : IsLetter c ↔ ∃ n < 26, letter n = c := by
  constructor
  · rintro ⟨hfirst, hlast⟩
    rw [Char.le_def, UInt32.le_iff_toNat_le] at hfirst hlast
    change 97 ≤ c.toNat at hfirst
    change c.toNat ≤ 122 at hlast
    refine ⟨c.toNat - 97, by omega, ?_⟩
    rw [letter, Nat.add_sub_cancel' hfirst, Char.ofNat_toNat]
  · rintro ⟨n, hn, rfl⟩
    have hletters : ∀ n < 26, 'a' ≤ letter n ∧ letter n ≤ 'z' := by decide
    exact hletters n hn

theorem reversedLetters_of_lt (h : n < 26) : reversedLetters n = [letter n] := by
  rw [reversedLetters, if_pos h]

/-- The letters of any other identifier: those of the quotient before that of the remainder. -/
theorem reverse_reversedLetters_of_le (h : 26 ≤ n) :
    (reversedLetters n).reverse = (reversedLetters (n / 26 - 1)).reverse ++ [letter (n % 26)] := by
  rw [reversedLetters, if_neg (Nat.not_lt.2 h), List.reverse_cons]

/-! ## The order of words -/

/-- Whether a text is made of letters, at least one. -/
def IsWord (text : String) : Prop := text.toList ≠ [] ∧ ∀ c ∈ text.toList, IsLetter c

/-- Whether a text comes before another one: it is shorter, or as long and before it by the
alphabet. -/
def Precedes (text other : String) : Prop :=
  List.Shortlex (· < ·) text.toList other.toList

/-- Texts of the same length, with one character more each, compare by the alphabet as they do
without these, or by these if they are the same. -/
theorem lex_concat_iff {first second : List Char} (hlength : first.length = second.length)
    (c d : Char) :
    List.Lex (· < ·) (first ++ [c]) (second ++ [d]) ↔
      List.Lex (· < ·) first second ∨ first = second ∧ c < d := by
  induction first generalizing second with
  | nil =>
    obtain rfl : second = [] := List.eq_nil_of_length_eq_zero hlength.symm
    simp
  | cons x first ih =>
    obtain ⟨y, second, rfl⟩ := List.exists_cons_of_length_eq_add_one hlength.symm
    have hrest := ih (Nat.succ.inj hlength)
    simp only [List.cons_append, List.cons_lex_cons_iff, hrest, List.cons.injEq]
    tauto

/-- Texts with one character more each compare as they do without these, or by these if they are the
same. -/
theorem shortlex_concat_iff (first second : List Char) (c d : Char) :
    List.Shortlex (· < ·) (first ++ [c]) (second ++ [d]) ↔
      List.Shortlex (· < ·) first second ∨ first = second ∧ c < d := by
  simp only [List.shortlex_def, List.length_append, List.length_singleton, Nat.add_lt_add_iff_right,
    Nat.add_right_cancel_iff]
  by_cases hlength : first.length = second.length
  · rw [lex_concat_iff hlength]
    tauto
  · have hne : first ≠ second := fun h => hlength (congrArg List.length h)
    simp [hlength, hne]

/-- The letters of identifiers are in the order of their numbers. -/
theorem shortlex_reversedLetters (h : m < n) :
    List.Shortlex (· < ·) (reversedLetters m).reverse (reversedLetters n).reverse := by
  -- along the quotients of the second number; the first one may come to its end before
  induction n using reversedLetters.induct generalizing m with
  | case1 n hn =>
    rw [reversedLetters_of_lt hn, reversedLetters_of_lt (h.trans hn)]
    exact (List.shortlex_singleton_iff _ _).2 (letter_lt_letter m (h.trans hn) n hn h)
  | case2 n hn ih =>
    rw [reverse_reversedLetters_of_le (Nat.not_lt.1 hn)]
    by_cases hm : m < 26
    · refine List.Shortlex.of_length_lt ?_
      have hpos := List.length_pos_iff.2 (reversedLetters_ne_nil (n / 26 - 1))
      rw [reversedLetters_of_lt hm]
      simpa using hpos
    · rw [reverse_reversedLetters_of_le (Nat.not_lt.1 hm), shortlex_concat_iff]
      -- a smaller number has a smaller quotient, or the same one and a smaller remainder
      by_cases hquotient : m / 26 - 1 < n / 26 - 1
      · exact Or.inl (ih hquotient)
      · have hsame : m / 26 - 1 = n / 26 - 1 := by omega
        have hremainder : m % 26 < n % 26 := by omega
        refine Or.inr ⟨by rw [hsame], ?_⟩
        exact letter_lt_letter _ (Nat.mod_lt _ (by decide)) _ (Nat.mod_lt _ (by decide)) hremainder

/-- An identifier precedes those with greater numbers. -/
theorem precedes_identifier (h : m < n) : Precedes (identifier m) (identifier n) := by
  rw [Precedes, identifier, identifier, String.toList_ofList, String.toList_ofList]
  exact shortlex_reversedLetters h

theorem not_precedes_of_precedes {text other : String} (h : Precedes text other) :
    ¬ Precedes other text :=
  Std.Asymm.asymm (r := List.Shortlex (· < ·)) _ _ h

/-- Identifiers are in the order of their numbers. -/
theorem precedes_identifier_iff : Precedes (identifier m) (identifier n) ↔ m < n := by
  refine ⟨fun h => ?_, precedes_identifier⟩
  rcases Nat.lt_trichotomy m n with hlt | rfl | hgt
  · exact hlt
  · exact absurd h (not_precedes_of_precedes h)
  · exact absurd h (not_precedes_of_precedes (precedes_identifier hgt))

/-- Identifiers with different numbers differ. -/
theorem identifier_injective : Function.Injective identifier := by
  intro m n h
  -- if one number were smaller, its identifier would precede itself
  have hnot : ∀ k, ¬ Precedes (identifier k) (identifier k) := fun k =>
    precedes_identifier_iff.not.2 (Nat.lt_irrefl k)
  rcases Nat.lt_trichotomy m n with hlt | heq | hgt
  · have hprecedes := precedes_identifier hlt
    rw [h] at hprecedes
    exact absurd hprecedes (hnot n)
  · exact heq
  · have hprecedes := precedes_identifier hgt
    rw [h] at hprecedes
    exact absurd hprecedes (hnot n)

/-! ## All words -/

/-- An identifier is a word. -/
theorem isWord_identifier (n : Nat) : IsWord (identifier n) := by
  refine ⟨?_, fun c hc => ?_⟩
  · rw [identifier, String.toList_ofList]
    exact List.reverse_ne_nil_iff.2 (reversedLetters_ne_nil n)
  · obtain ⟨k, hk, rfl⟩ := exists_letter_of_mem_identifier hc
    exact isLetter_iff.2 ⟨k, hk, rfl⟩

/-- Any letters, at least one, are those of a number. -/
theorem exists_reversedLetters_eq (hne : letters ≠ []) (hletters : ∀ c ∈ letters, IsLetter c) :
    ∃ n, reversedLetters n = letters := by
  induction letters with
  | nil => exact absurd rfl hne
  | cons c rest ih =>
    obtain ⟨k, hk, rfl⟩ := isLetter_iff.1 (hletters c List.mem_cons_self)
    by_cases hrest : rest = []
    · exact ⟨k, by rw [hrest, reversedLetters_of_lt hk]⟩
    · obtain ⟨q, rfl⟩ := ih hrest fun d hd => hletters d (List.mem_cons_of_mem _ hd)
      -- the number of which `q` is the diminished quotient and `k` the remainder
      have hge : ¬ 26 * (q + 1) + k < 26 := by omega
      have hquotient : (26 * (q + 1) + k) / 26 - 1 = q := by omega
      have hremainder : (26 * (q + 1) + k) % 26 = k := by omega
      exact ⟨26 * (q + 1) + k, by rw [reversedLetters, if_neg hge, hquotient, hremainder]⟩

/-- Each word is an identifier. -/
theorem exists_identifier_eq {text : String} (h : IsWord text) : ∃ n, identifier n = text := by
  obtain ⟨n, hn⟩ := exists_reversedLetters_eq (List.reverse_ne_nil_iff.2 h.1)
    fun c hc => h.2 c (List.mem_reverse.1 hc)
  exact ⟨n, by rw [identifier, hn, List.reverse_reverse, String.ofList_toList]⟩

/-- The words before a text. -/
def wordsBefore (text : String) : Set String := {word | IsWord word ∧ Precedes word text}

/-- The words before an identifier are the identifiers with smaller numbers. -/
theorem wordsBefore_identifier (n : Nat) :
    wordsBefore (identifier n) = identifier '' Set.Iio n := by
  ext word
  constructor
  · rintro ⟨hword, hprecedes⟩
    obtain ⟨m, rfl⟩ := exists_identifier_eq hword
    exact ⟨m, precedes_identifier_iff.1 hprecedes, rfl⟩
  · rintro ⟨m, hm, rfl⟩
    exact ⟨isWord_identifier m, precedes_identifier hm⟩

/-- There are as many words before an identifier as its number says. -/
theorem encard_wordsBefore_identifier (n : Nat) : (wordsBefore (identifier n)).encard = n := by
  rw [wordsBefore_identifier, identifier_injective.encard_image]
  exact Set.Nat.encard_range n

/-! ## Numbers of 64 bits -/

/-- The number before one of 64 bits; there is none before zero. -/
def predecessor64? (n : UInt64) : Option UInt64 := if n = 0 then none else some (n - 1)

/-- A quotient by 26 is one more than the number before it. -/
theorem toNat_of_predecessor64?_div {n p : UInt64} (h : predecessor64? (n / 26) = some p) :
    n.toNat / 26 = p.toNat + 1 := by
  have hdiv : (n / 26).toNat = n.toNat / 26 := UInt64.toNat_div n 26
  unfold predecessor64? at h
  split at h
  · cases h
  · rename_i hne
    obtain rfl := Option.some.inj h
    have hpos : 1 ≤ (n / 26).toNat :=
      Nat.one_le_iff_ne_zero.2 fun hzero => hne (UInt64.toNat_inj.1 hzero)
    rw [UInt64.toNat_sub_of_le (n / 26) 1 (UInt64.le_iff_toNat_le.2 hpos), ← hdiv]
    exact (Nat.sub_add_cancel hpos).symm

/-- The quotient by 26 of a number that is not below 26 has a number before it. -/
theorem predecessor64?_div_ne_none {n : UInt64} (h : ¬ n < 26) :
    predecessor64? (n / 26) ≠ none := by
  have hge : ¬ n.toNat < 26 := fun hlt => h (UInt64.lt_iff_toNat_lt.2 hlt)
  have hne : n / 26 ≠ 0 := by
    intro hzero
    have hquotient : n.toNat / 26 = 0 :=
      (UInt64.toNat_div n 26).symm.trans (congrArg UInt64.toNat hzero)
    omega
  rw [predecessor64?, if_neg hne]
  exact Option.some_ne_none _

/-- The letters of an identifier, the last one first, computed in 64 bits; there are none if the
computation takes one from zero. -/
def reversedLetters64? (n : UInt64) : Option (List Char) :=
  if n < 26 then some [letter n.toNat]
  else
    match _h : predecessor64? (n / 26) with
    | none => none
    | some quotient => (reversedLetters64? quotient).map (letter (n % 26).toNat :: ·)
termination_by n.toNat
decreasing_by
  have hquotient := toNat_of_predecessor64?_div _h
  omega

/-- Computing in 64 bits gives the letters of each number of 64 bits. -/
theorem reversedLetters64?_eq (n : UInt64) :
    reversedLetters64? n = some (reversedLetters n.toNat) := by
  induction n using reversedLetters64?.induct with
  | case1 n hlt =>
    rw [reversedLetters64?, if_pos hlt, reversedLetters_of_lt (UInt64.lt_iff_toNat_lt.1 hlt)]
  | case2 n hge hnone => exact absurd hnone (predecessor64?_div_ne_none hge)
  | case3 n hge quotient hquotient ih =>
    have hge' : ¬ n.toNat < 26 := fun hlt => hge (UInt64.lt_iff_toNat_lt.2 hlt)
    rw [reversedLetters64?, if_neg hge, reversedLetters, if_neg hge',
      toNat_of_predecessor64?_div hquotient, Nat.add_sub_cancel]
    split
    · rename_i hnone
      exact absurd hnone (predecessor64?_div_ne_none hge)
    · rename_i other hother
      obtain rfl := Option.some.inj (hquotient.symm.trans hother)
      rw [ih, UInt64.toNat_mod]
      rfl

/-! ## The enumeration -/

/-- Identifiers enumerate the words. For numbers of 64 bits their letters are computed without a
difference below zero; the identifier with a number is the word with this number of words before it;
identifiers differ and are in the order of their numbers; and each word with fewer words before it
than there are numbers of 64 bits is the identifier of one of these. -/
theorem identifier_enumerates :
    (∀ n : UInt64, reversedLetters64? n = some (reversedLetters n.toNat)) ∧
    (∀ n, IsWord (identifier n) ∧ (wordsBefore (identifier n)).encard = n) ∧
    Function.Injective identifier ∧
    (∀ m n, Precedes (identifier m) (identifier n) ↔ m < n) ∧
    ∀ text, IsWord text → (wordsBefore text).encard < 2 ^ 64 →
      ∃ n : UInt64, identifier n.toNat = text := by
  refine ⟨reversedLetters64?_eq, fun n => ⟨isWord_identifier n, encard_wordsBefore_identifier n⟩,
    identifier_injective, fun m n => precedes_identifier_iff, fun text hword hbefore => ?_⟩
  obtain ⟨n, rfl⟩ := exists_identifier_eq hword
  rw [encard_wordsBefore_identifier] at hbefore
  have hlt : n < 2 ^ 64 := by exact_mod_cast hbefore
  exact ⟨UInt64.ofNat n, by rw [UInt64.toNat_ofNat_of_lt' hlt]⟩

end DocMapper.Path
