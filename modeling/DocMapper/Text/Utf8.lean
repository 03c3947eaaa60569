import DocMapper.Number.Double
import DocMapper.Text.CodeRange

set_option autoImplicit false

/-!
# Encodings of ranges of characters

A character is encoded by one to four bytes: a leading byte that tells how many there are, and
continuation bytes of six bits each. `Utf8.sequences` describes the encodings of the characters of
some intervals by the fewest sequences of byte ranges: the encodings are the ways to take a byte of
each range of a sequence.
-/

namespace DocMapper.Text

/-- A closed range of bytes for each byte of an encoding. -/
abbrev ByteRanges := List (Nat × Nat)

namespace Utf8

/-- The characters whose encodings have some number of continuation bytes, and the leading byte to
which their highest bits are added. -/
structure Block where
  first : Nat
  last : Nat
  continuations : Nat
  lead : Nat

/-- The blocks of all characters. Surrogates lie between the blocks of three bytes. -/
def blocks : List Block :=
  [⟨0, 0x7F, 0, 0⟩, ⟨0x80, 0x7FF, 1, 0xC0⟩, ⟨0x800, 0xD7FF, 2, 0xE0⟩, ⟨0xE000, 0xFFFF, 2, 0xE0⟩,
   ⟨0x10000, lastCode, 3, 0xF0⟩]

/-- The byte to which the bits of a continuation are added. -/
def continuation : Nat := 0x80

/-- The greatest length of an encoding. -/
def maxLength : Nat := 4

/-- The sequence for the numbers with a leading part from `start` to before `stop` and any `n`
continuations. -/
def whole (lead n start stop : Nat) : List ByteRanges :=
  if start < stop then
    [(lead + start, lead + (stop - 1)) :: List.replicate n (continuation, continuation + 63)]
  else []

/-- The sequences for the numbers from `first` to `last`, which are written by a leading part and
`n` continuations. Two numbers with one leading part differ after it; otherwise the numbers divide
into those with the first leading part, those with the last one, and those between that take all
continuations. The two ends belong to the middle where they take all continuations too. -/
def split (lead : Nat) : Nat → Nat → Nat → List ByteRanges
  | 0, first, last => [[(lead + first, lead + last)]]
  | n + 1, first, last =>
      let unit := 64 ^ (n + 1)
      let low := first / unit
      let high := last / unit
      let under (part first last : Nat) : List ByteRanges :=
        (split continuation n first last).map ((lead + part, lead + part) :: ·)
      if low = high then under low (first % unit) (last % unit)
      else
        let below := if first % unit = 0 then [] else under low (first % unit) (unit - 1)
        let above := if last % unit = unit - 1 then [] else under high 0 (last % unit)
        let start := if first % unit = 0 then low else low + 1
        let stop := if last % unit = unit - 1 then high + 1 else high
        below ++ whole lead (n + 1) start stop ++ above

/-- The sequences for the characters of a block that lie in an interval. -/
def Block.sequences (block : Block) (first last : Nat) : List ByteRanges :=
  let first := max first block.first
  let last := min last block.last
  if first ≤ last then split block.lead block.continuations first last else []

/-- The sequences for the characters of some intervals. -/
def sequences (ranges : CodeRanges) : List ByteRanges :=
  ranges.flatMap fun (first, last) => blocks.flatMap fun block => block.sequences first last

/-- A sequence has a range for the leading part and one for each continuation. -/
theorem length_of_mem_split {lead n first last : Nat} {seq : ByteRanges}
    (h : seq ∈ split lead n first last) : seq.length = n + 1 := by
  induction n generalizing lead first last seq with
  | zero =>
      simp only [split, List.mem_singleton] at h
      simp [h]
  | succ n ih =>
      -- under one lead byte
      have hunder {part a b : Nat}
          (h : seq ∈ (split continuation n a b).map ((lead + part, lead + part) :: ·)) :
          seq.length = n + 1 + 1 := by
        obtain ⟨tail, htail, rfl⟩ := List.mem_map.1 h
        simp [ih htail]
      -- under several lead bytes with all that may follow
      have hwhole {start stop : Nat} (h : seq ∈ whole lead (n + 1) start stop) :
          seq.length = n + 1 + 1 := by
        rw [whole] at h
        split at h
        · simp [List.mem_singleton.1 h]
        · simp at h
      simp only [split] at h
      split at h
      · exact hunder h
      · simp only [List.mem_append] at h
        rcases h with (h | h) | h
        · split at h
          · simp at h
          · exact hunder h
        · exact hwhole h
        · split at h
          · simp at h
          · exact hunder h

/-- No sequence is longer than an encoding can be. -/
theorem length_le_of_mem_sequences {ranges : CodeRanges} {seq : ByteRanges}
    (h : seq ∈ sequences ranges) : seq.length ≤ maxLength := by
  simp only [sequences, List.mem_flatMap] at h
  obtain ⟨_, _, block, hblock, hseq⟩ := h
  have hlen : seq.length = block.continuations + 1 := by
    rw [Block.sequences] at hseq
    split at hseq
    · exact length_of_mem_split hseq
    · simp at hseq
  have hmax : ∀ block ∈ blocks, block.continuations + 1 ≤ maxLength := by decide
  rw [hlen]
  exact hmax block hblock

end Utf8

end DocMapper.Text
