import DocMapper.Regex.Pattern

set_option autoImplicit false

/-!
# The language of a regular expression

`Matches r atStart word atEnd` says that `r` describes a word that stands in a longer text, where
the two flags tell whether the word begins at the start of the text and whether it ends at its end.
Only anchors look at the flags.

Matching by derivatives decides this relation: `nullable_iff` for the empty word,
`matches_derivative` for the first character, and `find_iff` for a match anywhere in a text. The
simplifying constructors keep the language (`matches_followedBy`, `matches_orElse`).
-/

namespace DocMapper.Regex

/-- Words that are a row of nonempty words of a language. The row takes the start of the text only
with its first word, and its end only with its last one. -/
inductive Iterated (language : Bool → List Char → Bool → Prop) :
    Bool → List Char → Bool → Prop where
  | nil {atStart atEnd : Bool} : Iterated language atStart [] atEnd
  | cons {atStart atEnd : Bool} {c : Char} {first rest : List Char} :
      language atStart (c :: first) (atEnd && rest.isEmpty) →
      Iterated language false rest atEnd →
      Iterated language atStart (c :: (first ++ rest)) atEnd

/-- Whether an expression describes a word at a place of a text. -/
def Matches : Regex → Bool → List Char → Bool → Prop
  | nothing, _, _, _ => False
  | empty, _, word, _ => word = []
  | one set, _, word, _ => ∃ c, word = [c] ∧ set.contains c = true
  | startAnchor, atStart, word, _ => word = [] ∧ atStart = true
  | endAnchor, _, word, atEnd => word = [] ∧ atEnd = true
  | seq first second, atStart, word, atEnd =>
      ∃ u v, word = u ++ v ∧ first.Matches atStart u (atEnd && v.isEmpty) ∧
        second.Matches (atStart && u.isEmpty) v atEnd
  | alt first second, atStart, word, atEnd =>
      first.Matches atStart word atEnd ∨ second.Matches atStart word atEnd
  | star body, atStart, word, atEnd => Iterated body.Matches atStart word atEnd

variable {r s : Regex} {atStart atEnd : Bool} {word : List Char}

/-- The empty text is divided in one way. -/
theorem exists_split_nil_iff {p : List Char → List Char → Prop} :
    (∃ u v, [] = u ++ v ∧ p u v) ↔ p [] [] := by
  constructor
  · rintro ⟨u, v, huv, h⟩
    obtain ⟨rfl, rfl⟩ := List.append_eq_nil_iff.1 huv.symm
    exact h
  · intro h
    exact ⟨[], [], rfl, h⟩

/-- A text is divided before its first character or after it. -/
theorem exists_split_cons_iff {p : List Char → List Char → Prop} {c : Char} {text : List Char} :
    (∃ u v, c :: text = u ++ v ∧ p u v) ↔
      p [] (c :: text) ∨ ∃ u v, text = u ++ v ∧ p (c :: u) v := by
  constructor
  · rintro ⟨u, v, huv, h⟩
    cases u with
    | nil =>
        obtain rfl : c :: text = v := huv
        exact Or.inl h
    | cons d u =>
        obtain ⟨rfl, rfl⟩ : c = d ∧ text = u ++ v := by simpa using huv
        exact Or.inr ⟨u, v, rfl, h⟩
  · rintro (h | ⟨u, v, rfl, h⟩)
    · exact ⟨[], c :: text, rfl, h⟩
    · exact ⟨c :: u, v, rfl, h⟩

theorem matches_star_nil : r.star.Matches atStart [] atEnd := Iterated.nil

/-- A row that begins with a character begins with a word that begins with it. -/
theorem matches_star_cons_iff {c : Char} :
    r.star.Matches atStart (c :: word) atEnd ↔
      ∃ u v, word = u ++ v ∧ r.Matches atStart (c :: u) (atEnd && v.isEmpty) ∧
        r.star.Matches false v atEnd := by
  constructor
  · intro h
    cases h with
    | cons hfirst hrest => exact ⟨_, _, rfl, hfirst, hrest⟩
  · rintro ⟨u, v, rfl, hfirst, hrest⟩
    exact Iterated.cons hfirst hrest

/-! ## Simplifying constructors -/

/-- A sequence that begins with nothing else matches what its second part does. -/
theorem matches_empty_seq :
    (seq empty s).Matches atStart word atEnd ↔ s.Matches atStart word atEnd := by
  constructor
  · rintro ⟨u, v, rfl, hu, hv⟩
    cases (show u = [] from hu)
    simpa using hv
  · intro h
    exact ⟨[], word, rfl, rfl, by simpa using h⟩

/-- A sequence that ends with nothing else matches what its first part does. -/
theorem matches_seq_empty :
    (seq r empty).Matches atStart word atEnd ↔ r.Matches atStart word atEnd := by
  constructor
  · rintro ⟨u, v, rfl, hu, hv⟩
    cases (show v = [] from hv)
    simpa using hu
  · intro h
    exact ⟨word, [], by simp, by simpa using h, rfl⟩

/-- The simplified sequence describes the same words as the plain one. -/
theorem matches_followedBy :
    (r.followedBy s).Matches atStart word atEnd ↔ (seq r s).Matches atStart word atEnd := by
  unfold followedBy
  split
  · -- the first part is `nothing`, which no split can match
    simp [Matches]
  · exact matches_empty_seq.symm
  · exact matches_seq_empty.symm
  · rfl

/-- An alternative of an expression matches nothing that the expression does not. -/
theorem Matches.of_isAlternative (halt : r.isAlternative s = true)
    (h : r.Matches atStart word atEnd) : s.Matches atStart word atEnd := by
  induction s with
  | alt first second ihfirst ihsecond =>
      simp only [isAlternative, Bool.or_eq_true] at halt
      rcases halt with halt | halt
      · exact Or.inl (ihfirst halt)
      · exact Or.inr (ihsecond halt)
  | nothing | empty | one _ | startAnchor | endAnchor | seq _ _ _ _ | star _ _ =>
      simp only [isAlternative, beq_iff_eq] at halt
      exact halt ▸ h

/-- The simplified choice describes the same words as the plain one. -/
theorem matches_orElse :
    (r.orElse s).Matches atStart word atEnd ↔
      r.Matches atStart word atEnd ∨ s.Matches atStart word atEnd := by
  unfold orElse
  split
  · rename_i hr
    subst hr
    simp [Matches]
  · split
    · rename_i hs
      constructor
      · exact Or.inl
      · rintro (h | h)
        · exact h
        · rcases hs with rfl | halt
          · exact absurd h (by simp [Matches])
          · exact h.of_isAlternative halt
    · rfl

/-! ## Derivatives -/

/-- Nullable expressions are those that describe the empty word. -/
theorem nullable_iff : r.nullable atStart atEnd = true ↔ r.Matches atStart [] atEnd := by
  induction r with
  | nothing => simp [nullable, Matches]
  | empty => simp [nullable, Matches]
  | one set => simp [nullable, Matches]
  | startAnchor => simp [nullable, Matches]
  | endAnchor => simp [nullable, Matches]
  | seq first second ihfirst ihsecond =>
      rw [nullable, Bool.and_eq_true, ihfirst, ihsecond, Matches, exists_split_nil_iff]
      simp
  | alt first second ihfirst ihsecond => simp [nullable, Matches, ihfirst, ihsecond]
  | star body _ => simp [nullable, matches_star_nil]

/-- A sequence that begins with a character takes it with its first part, or with its second part
if the first one takes nothing. -/
theorem matches_seq_cons_iff {c : Char} :
    (seq r s).Matches atStart (c :: word) atEnd ↔
      (r.Matches atStart [] false ∧ s.Matches atStart (c :: word) atEnd) ∨
      ∃ u v, word = u ++ v ∧ r.Matches atStart (c :: u) (atEnd && v.isEmpty) ∧
        s.Matches false v atEnd := by
  rw [Matches, exists_split_cons_iff]
  simp

/-- The derivative describes what may follow the character. -/
theorem matches_derivative {c : Char} :
    (r.derivative atStart c).Matches false word atEnd ↔ r.Matches atStart (c :: word) atEnd := by
  -- the induction is on the expression; the word and what is around it change in a sequence
  induction r generalizing word atStart atEnd with
  | nothing => simp [derivative, Matches]
  | empty => simp [derivative, Matches]
  | one set =>
      rw [derivative]
      split
      · rename_i hc
        constructor
        · rintro rfl
          exact ⟨c, rfl, hc⟩
        · rintro ⟨d, hword, -⟩
          exact (List.cons.inj hword).2
      · rename_i hc
        constructor
        · exact False.elim
        · rintro ⟨d, hword, hd⟩
          obtain rfl := (List.cons.inj hword).1
          exact hc hd
  | startAnchor => simp [derivative, Matches]
  | endAnchor => simp [derivative, Matches]
  | seq first second ihfirst ihsecond =>
      -- the words whose first character is taken by the first part
      have hthrough : ((first.derivative atStart c).followedBy second).Matches false word atEnd ↔
          ∃ u v, word = u ++ v ∧ first.Matches atStart (c :: u) (atEnd && v.isEmpty) ∧
            second.Matches false v atEnd := by
        rw [matches_followedBy]
        simp only [Matches, ihfirst, Bool.false_and]
      rw [matches_seq_cons_iff, derivative]
      split
      · rename_i hnull
        rw [matches_orElse, hthrough, ihsecond, or_comm]
        simp [nullable_iff.1 hnull]
      · rename_i hnull
        rw [nullable_iff] at hnull
        rw [hthrough]
        simp [hnull]
  | alt first second ihfirst ihsecond =>
      rw [derivative, matches_orElse, ihfirst, ihsecond]
      rfl
  | star body ih =>
      rw [derivative, matches_followedBy, matches_star_cons_iff]
      simp only [Matches, ih, Bool.false_and]

/-! ## Search -/

/-- The search finds a match of the current expression here, or one of the whole expression that
begins later. -/
theorem findFrom_iff {current : Regex} {text : List Char} :
    findFrom r current atStart text = true ↔
      (∃ u v, text = u ++ v ∧ current.Matches atStart u v.isEmpty) ∨
      ∃ c x u v, text = c :: (x ++ (u ++ v)) ∧ r.Matches false u v.isEmpty := by
  induction text generalizing current atStart with
  | nil =>
      rw [findFrom, nullable_iff, exists_split_nil_iff]
      simp
  | cons c rest ih =>
      -- a match that begins later begins right after the character or further on
      have hlater : (∃ d x u v, c :: rest = d :: (x ++ (u ++ v)) ∧ r.Matches false u v.isEmpty) ↔
          (∃ u v, rest = u ++ v ∧ r.Matches false u v.isEmpty) ∨
            ∃ d x u v, rest = d :: (x ++ (u ++ v)) ∧ r.Matches false u v.isEmpty := by
        constructor
        · rintro ⟨d, x, u, v, hx, h⟩
          obtain ⟨rfl, rfl⟩ : c = d ∧ rest = x ++ (u ++ v) := by simpa using hx
          cases x with
          | nil => exact Or.inl ⟨u, v, rfl, h⟩
          | cons d x => exact Or.inr ⟨d, x, u, v, rfl, h⟩
        · rintro (⟨u, v, rfl, h⟩ | ⟨d, x, u, v, rfl, h⟩)
          · exact ⟨c, [], u, v, rfl, h⟩
          · exact ⟨c, d :: x, u, v, rfl, h⟩
      rw [findFrom, Bool.or_eq_true, nullable_iff, ih, exists_split_cons_iff, hlater]
      simp only [matches_orElse, matches_derivative, and_or_left, exists_or, or_assoc,
        List.isEmpty_cons]

/-- An expression is found in a text exactly when it describes some part of it. -/
theorem find_iff {text : String} :
    r.find text = true ↔
      ∃ x u v, text.toList = x ++ (u ++ v) ∧ r.Matches x.isEmpty u v.isEmpty := by
  rw [find, findFrom_iff]
  constructor
  · rintro (⟨u, v, htext, h⟩ | ⟨c, x, u, v, htext, h⟩)
    · exact ⟨[], u, v, htext, h⟩
    · exact ⟨c :: x, u, v, htext, h⟩
  · rintro ⟨x, u, v, htext, h⟩
    cases x with
    | nil => exact Or.inl ⟨u, v, htext, h⟩
    | cons c x => exact Or.inr ⟨c, x, u, v, htext, h⟩

end DocMapper.Regex
