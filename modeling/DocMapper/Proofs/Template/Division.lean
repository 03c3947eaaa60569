import DocMapper.Template.Basic
import Mathlib.Data.List.Basic

set_option autoImplicit false

/-!
# The division of a text at its tokens

A `Division` is a row of literal parts and the names between them. It divides a text if it makes up
the text and every place of the text where a token stands is one of its cuts (`Division.Divides`).
Each text has exactly one such division: the names are read between brackets that are no characters
of names, so two tokens of a text are the same or apart (`Divides.unique`), and reading from the
left misses none (`divides_divisionOf`).

Reading `scan` off as a division keeps the names in their order (`names_ofPieces`) and what each
part is replaced by (`fill_ofPieces`).
-/

namespace DocMapper.Template

variable {c : Char} {t left right name more : List Char} {k : String}

/-! ## Names -/

/-- Whether a text can be the name of a token. -/
structure IsName (k : String) : Prop where
  ne_nil : k.toList ≠ []
  isNameChar : ∀ c ∈ k.toList, isNameChar c = true

theorem isNameChar_close : isNameChar '>' = false := by decide

/-- A name has no brackets. -/
theorem IsName.not_mem (h : IsName k) : '<' ∉ k.toList ∧ '>' ∉ k.toList := by
  constructor
  · intro hmem
    exact absurd (h.isNameChar '<' hmem) (by decide)
  · intro hmem
    exact absurd (h.isNameChar '>' hmem) (by decide)

/-- A name ends at the first closing bracket. -/
theorem name_append_inj {other more' : List Char} (hname : '>' ∉ name) (hother : '>' ∉ other)
    (h : name ++ '>' :: more = other ++ '>' :: more') : name = other ∧ more = more' := by
  rcases List.append_eq_append_iff.1 h with ⟨rest, rfl, hrest⟩ | ⟨rest, rfl, hrest⟩
  · -- a name that goes on where the other one ends has the bracket in it
    cases rest with
    | nil => exact ⟨(List.append_nil name).symm, (List.cons.inj hrest).2⟩
    | cons c rest =>
      obtain rfl := (List.cons.inj hrest).1
      exact absurd (List.mem_append_right name List.mem_cons_self) hother
  · cases rest with
    | nil => exact ⟨List.append_nil other, (List.cons.inj hrest).2.symm⟩
    | cons c rest =>
      obtain rfl := (List.cons.inj hrest).1
      exact absurd (List.mem_append_right other List.mem_cons_self) hname

/-- A token that opens after a name begins after its closing bracket. -/
theorem exists_of_name_append (hname : '<' ∉ name)
    (h : left ++ '<' :: right = name ++ '>' :: more) :
    ∃ left', left = name ++ '>' :: left' ∧ left' ++ '<' :: right = more := by
  rcases List.append_eq_append_iff.1 h with ⟨rest, rfl, hrest⟩ | ⟨rest, rfl, hrest⟩
  · -- the token would open in the name, or where the closing bracket is
    cases rest with
    | nil => exact absurd (List.cons.inj hrest).1 (by decide)
    | cons c rest =>
      obtain rfl := (List.cons.inj hrest).1
      exact absurd (List.mem_append_right left List.mem_cons_self) hname
  · cases rest with
    | nil => exact absurd (List.cons.inj hrest).1 (by decide)
    | cons c left' =>
      obtain ⟨rfl, hmore⟩ := List.cons.inj hrest
      exact ⟨left', rfl, hmore.symm⟩

/-- A token is read after its opening bracket exactly if one stands there. -/
theorem tokenAfter?_eq_some_iff :
    tokenAfter? t = some (name, more) ↔
      name ≠ [] ∧ (∀ c ∈ name, isNameChar c = true) ∧ t = name ++ '>' :: more := by
  constructor
  · intro h
    have hsplit : t.takeWhile isNameChar ++ t.dropWhile isNameChar = t :=
      List.takeWhile_append_dropWhile
    -- the name is as long as its characters allow, and the bracket must come next
    have hchars : ∀ c ∈ t.takeWhile isNameChar, isNameChar c = true :=
      List.all_eq_true.1 List.all_takeWhile
    unfold tokenAfter? at h
    split at h
    · rename_i first rest after htake hdrop
      obtain ⟨rfl, rfl⟩ := Prod.mk.inj (Option.some.inj h)
      rw [htake] at hchars
      rw [htake, hdrop] at hsplit
      exact ⟨List.cons_ne_nil _ _, hchars, hsplit.symm⟩
    · cases h
  · rintro ⟨hne, hchars, rfl⟩
    have htake : (name ++ '>' :: more).takeWhile isNameChar = name := by
      rw [List.takeWhile_append_of_pos hchars, List.takeWhile_cons, isNameChar_close]
      simp
    have hdrop : (name ++ '>' :: more).dropWhile isNameChar = '>' :: more := by
      rw [List.dropWhile_append_of_pos hchars, List.dropWhile_cons, isNameChar_close]
      rfl
    cases name with
    | nil => exact absurd rfl hne
    | cons first rest =>
      unfold tokenAfter?
      rw [htake, hdrop]
      rfl

/-! ## Divisions -/

/-- Literal parts with a name after each, and the literal part that comes last. -/
structure Division where
  cuts : List (List Char × String)
  rest : List Char

namespace Division

/-- A token as it stands in a text. -/
def bracketed (k : String) : List Char := '<' :: k.toList ++ ['>']

/-- The text that is made up of the parts, with a text for each name. -/
def fill (value : String → List Char) (d : Division) : List Char :=
  d.cuts.flatMap (fun cut => cut.1 ++ value cut.2) ++ d.rest

/-- The text that is divided. -/
def text (d : Division) : List Char := d.fill bracketed

/-- The names in order. -/
def names (d : Division) : List String := d.cuts.map Prod.snd

/-- The division with a character more at the beginning. -/
def cons (c : Char) : Division → Division
  | ⟨[], rest⟩ => ⟨[], c :: rest⟩
  | ⟨(literal, k) :: cuts, rest⟩ => ⟨(c :: literal, k) :: cuts, rest⟩

/-- The division with a token more at the beginning. -/
def consToken (k : String) (d : Division) : Division := ⟨([], k) :: d.cuts, d.rest⟩

variable {d e : Division} {value : String → List Char} {literal : List Char}
variable {cuts : List (List Char × String)} {rest : List Char}

theorem fill_cons_cut :
    fill value ⟨(literal, k) :: cuts, rest⟩ = literal ++ value k ++ fill value ⟨cuts, rest⟩ := by
  simp [fill]

theorem fill_cons (c : Char) (d : Division) : (d.cons c).fill value = c :: d.fill value := by
  obtain ⟨_ | ⟨⟨literal, k⟩, cuts⟩, rest⟩ := d <;> simp [cons, fill]

theorem fill_consToken (k : String) (d : Division) :
    (d.consToken k).fill value = value k ++ d.fill value := by
  simp [consToken, fill]

theorem fill_congr {value' : String → List Char} (h : ∀ name ∈ d.names, value name = value' name) :
    d.fill value = d.fill value' := by
  unfold fill
  refine congrArg (· ++ d.rest) (List.flatMap_congr ?_)
  intro cut hcut
  rw [h cut.2 (List.mem_map_of_mem hcut)]

theorem names_cons (c : Char) (d : Division) : (d.cons c).names = d.names := by
  obtain ⟨_ | ⟨⟨literal, k⟩, cuts⟩, rest⟩ := d <;> rfl

theorem names_consToken (k : String) (d : Division) : (d.consToken k).names = k :: d.names := rfl

/-- A cut of a division: what is before the token, its name, and what is after it. -/
def IsCut (d : Division) (left : List Char) (k : String) (right : List Char) : Prop :=
  ∃ before literal after, d.cuts = before ++ (literal, k) :: after ∧
    left = text ⟨before, literal⟩ ∧ right = text ⟨after, d.rest⟩

/-- A division makes up a text, all of its names are such, and each place of the text where a token
stands is a cut. -/
structure Divides (d : Division) (t : List Char) : Prop where
  text_eq : d.text = t
  isName : ∀ k ∈ d.names, IsName k
  isCut : ∀ left k right, IsName k → left ++ bracketed k ++ right = t → d.IsCut left k right

/-! ### Cuts -/

theorem IsCut.text_eq (h : d.IsCut left k right) : left ++ bracketed k ++ right = d.text := by
  obtain ⟨before, literal, after, hcuts, rfl, rfl⟩ := h
  obtain ⟨cuts, rest⟩ := d
  obtain rfl : cuts = before ++ (literal, k) :: after := hcuts
  simp [text, fill]

theorem isCut_first : IsCut ⟨(literal, k) :: cuts, rest⟩ literal k (text ⟨cuts, rest⟩) :=
  ⟨[], literal, cuts, rfl, rfl, rfl⟩

/-- A cut is the first one, or it is a cut of what comes after the first one. -/
theorem isCut_cons_iff {k' : String} :
    IsCut ⟨(literal, k) :: cuts, rest⟩ left k' right ↔
      (left = literal ∧ k' = k ∧ right = text ⟨cuts, rest⟩) ∨
        ∃ left', left = literal ++ bracketed k ++ left' ∧ IsCut ⟨cuts, rest⟩ left' k' right := by
  constructor
  · rintro ⟨before, literal', after, hcuts, rfl, rfl⟩
    cases before with
    | nil =>
      obtain ⟨hcut, rfl⟩ := List.cons.inj hcuts
      obtain ⟨rfl, rfl⟩ := Prod.mk.inj hcut
      exact Or.inl ⟨rfl, rfl, rfl⟩
    | cons cut before =>
      obtain ⟨rfl, hrest⟩ := List.cons.inj hcuts
      exact Or.inr ⟨text ⟨before, literal'⟩, fill_cons_cut, before, literal', after,
        hrest, rfl, rfl⟩
  · rintro (⟨rfl, rfl, rfl⟩ | ⟨left', rfl, before, literal', after, hcuts, rfl, rfl⟩)
    · exact isCut_first
    · refine ⟨(literal, k) :: before, literal', after, ?_, fill_cons_cut.symm, rfl⟩
      exact congrArg ((literal, k) :: ·) hcuts

theorem not_isCut_nil : ¬ IsCut ⟨[], rest⟩ left k right := by
  rintro ⟨before, literal, after, hcuts, -, -⟩
  cases before <;> cases hcuts

/-! ### A text has one division at most -/

namespace Divides

/-- The first cut of another division of the text is not before the first cut. -/
theorem length_le_of_divides {literal' : List Char} {k' : String}
    {cuts' : List (List Char × String)} {rest' : List Char}
    (h : Divides ⟨(literal, k) :: cuts, rest⟩ t) (h' : Divides ⟨(literal', k') :: cuts', rest'⟩ t) :
    literal.length ≤ literal'.length := by
  have hcut : IsCut ⟨(literal', k') :: cuts', rest'⟩ literal' k' (text ⟨cuts', rest'⟩) :=
    isCut_first
  have hplace := h.isCut _ _ _ (h'.isName k' List.mem_cons_self) (hcut.text_eq.trans h'.text_eq)
  rcases isCut_cons_iff.1 hplace with ⟨rfl, -, -⟩ | ⟨left', rfl, -⟩
  · exact Nat.le_refl _
  · simp

/-- What comes after the first cut is divided as well. -/
theorem tail (h : Divides ⟨(literal, k) :: cuts, rest⟩ t) :
    Divides ⟨cuts, rest⟩ (text ⟨cuts, rest⟩) where
  text_eq := rfl
  isName k' hk' := h.isName k' (List.mem_cons_of_mem k hk')
  isCut := by
    intro left k' right hname hplace
    have hwhole : (literal ++ bracketed k ++ left) ++ bracketed k' ++ right = t := by
      rw [← h.text_eq, text, fill_cons_cut, ← text, ← hplace]
      simp
    rcases isCut_cons_iff.1 (h.isCut _ _ _ hname hwhole) with ⟨hleft, -, -⟩ | ⟨left', hleft, hcut⟩
    · -- the place is after the first cut, so it is not the first cut
      have hlength := congrArg List.length hleft
      simp [bracketed] at hlength
    · rwa [List.append_cancel_left hleft]

/-- Two divisions of a text are the same. -/
theorem unique (hd : d.Divides t) (he : e.Divides t) : d = e := by
  obtain ⟨cuts, rest⟩ := d
  obtain ⟨cuts', rest'⟩ := e
  -- by induction on the cuts of the first one: the first cuts are the same, and so are the rests
  induction cuts generalizing cuts' t with
  | nil =>
    cases cuts' with
    | nil =>
      obtain rfl : rest = rest' := hd.text_eq.trans he.text_eq.symm
      rfl
    | cons cut cuts' =>
      obtain ⟨literal, k⟩ := cut
      have hcut : IsCut ⟨(literal, k) :: cuts', rest'⟩ literal k (text ⟨cuts', rest'⟩) :=
        isCut_first
      exact absurd (hd.isCut _ _ _ (he.isName k List.mem_cons_self)
        (hcut.text_eq.trans he.text_eq)) not_isCut_nil
  | cons cut cuts ih =>
    obtain ⟨literal, k⟩ := cut
    have hcut : IsCut ⟨(literal, k) :: cuts, rest⟩ literal k (text ⟨cuts, rest⟩) := isCut_first
    have hplace := he.isCut _ _ _ (hd.isName k List.mem_cons_self) (hcut.text_eq.trans hd.text_eq)
    cases cuts' with
    | nil => exact absurd hplace not_isCut_nil
    | cons cut' cuts' =>
      obtain ⟨literal', k'⟩ := cut'
      rcases isCut_cons_iff.1 hplace with ⟨rfl, rfl, hright⟩ | ⟨left', hleft, -⟩
      · -- the first cuts are at the same place, so the same text is left to be divided
        have hrest := he.tail
        rw [← hright] at hrest
        rw [Division.mk.injEq]
        obtain ⟨rfl, rfl⟩ := Division.mk.inj (ih hd.tail cuts' hrest)
        exact ⟨rfl, rfl⟩
      · -- the first cuts are equally far from the beginning
        have hlength := hd.length_le_of_divides he
        rw [hleft, List.length_append, List.length_append, bracketed, List.length_append,
          List.length_cons] at hlength
        omega

end Divides

/-! ### Reading a division from the left -/

/-- A character may come first where no token opens with it. -/
theorem Divides.cons (h : d.Divides t)
    (hopen : ∀ k right, IsName k → bracketed k ++ right ≠ c :: t) :
    (d.cons c).Divides (c :: t) where
  text_eq := by
    rw [text, fill_cons, ← text, h.text_eq]
  isName := by
    rw [names_cons]
    exact h.isName
  isCut := by
    intro left k right hname hplace
    cases left with
    | nil => exact absurd hplace (hopen k right hname)
    | cons c' left =>
      obtain ⟨rfl, htail⟩ := List.cons.inj hplace
      obtain ⟨before, literal, after, hcuts, rfl, rfl⟩ := h.isCut left k right hname htail
      obtain ⟨cuts, rest⟩ := d
      obtain rfl : cuts = before ++ (literal, k) :: after := hcuts
      -- the character goes to the literal part before the first name
      cases before with
      | nil => exact ⟨[], c' :: literal, after, rfl, rfl, rfl⟩
      | cons cut before =>
        exact ⟨(c' :: cut.1, cut.2) :: before, literal, after, rfl, by simp [text, fill], rfl⟩

/-- A token may come first. -/
theorem Divides.consToken (h : d.Divides t) (hk : IsName k) :
    (d.consToken k).Divides (bracketed k ++ t) where
  text_eq := by
    rw [text, fill_consToken, ← text, h.text_eq]
  isName := by
    intro k' hk'
    rcases List.mem_cons.1 hk' with rfl | hk'
    · exact hk
    · exact h.isName k' hk'
  isCut := by
    intro left k' right hname hplace
    rw [Division.consToken, isCut_cons_iff]
    have hparts : left ++ '<' :: (k'.toList ++ '>' :: right) = '<' :: (k.toList ++ '>' :: t) := by
      simpa [bracketed] using hplace
    -- a token that stands at the beginning is the first one, and any other is behind its bracket
    cases left with
    | nil =>
      obtain ⟨-, hnames⟩ := List.cons.inj hparts
      obtain ⟨hsame, rfl⟩ := name_append_inj hname.not_mem.2 hk.not_mem.2 hnames
      exact Or.inl ⟨rfl, String.toList_inj.1 hsame, h.text_eq.symm⟩
    | cons c left =>
      obtain ⟨rfl, htail⟩ := List.cons.inj hparts
      obtain ⟨left', rfl, hrest⟩ := exists_of_name_append hk.not_mem.1 htail
      refine Or.inr ⟨left', by simp [bracketed], h.isCut left' k' right hname ?_⟩
      simpa [bracketed] using hrest

/-- The division that a row of pieces is. -/
def ofPieces : List Piece → Division
  | [] => ⟨[], []⟩
  | .char c :: rest => (ofPieces rest).cons c
  | .token k :: rest => (ofPieces rest).consToken k

/-- The names of the pieces are those of the division. -/
theorem names_ofPieces (pieces : List Piece) :
    (ofPieces pieces).names = pieces.filterMap Piece.name? := by
  induction pieces with
  | nil => rfl
  | cons piece rest ih =>
    cases piece with
    | char c =>
      rw [ofPieces, names_cons, ih]
      rfl
    | token k =>
      rw [ofPieces, names_consToken, ih]
      rfl

/-- Pieces are replaced by what the division is filled with. -/
theorem fill_ofPieces {replace : Piece → List Char} (pieces : List Piece)
    (hchar : ∀ c, replace (.char c) = [c]) :
    (ofPieces pieces).fill (fun k => replace (.token k)) = pieces.flatMap replace := by
  induction pieces with
  | nil => rfl
  | cons piece rest ih =>
    cases piece with
    | char c => rw [ofPieces, fill_cons, ih, List.flatMap_cons, hchar, List.singleton_append]
    | token k => rw [ofPieces, fill_consToken, ih, List.flatMap_cons]

end Division

open Division

/-- The division of a text. -/
def divisionOf (t : List Char) : Division := ofPieces (scan t)

/-- A token that stands at the beginning is read whole. -/
theorem scan_token (h : tokenAfter? t = some (name, more)) :
    scan ('<' :: t) = .token (String.ofList name) :: scan more := by
  rw [scan, if_pos rfl]
  split
  · rename_i htoken
    rw [h] at htoken
    obtain ⟨rfl, rfl⟩ := Prod.mk.inj (Option.some.inj htoken)
    rfl
  · rename_i hnone
    rw [h] at hnone
    cases hnone

/-- Where no token stands at the beginning, one character is read. -/
theorem scan_char (h : c = '<' → tokenAfter? t = none) : scan (c :: t) = .char c :: scan t := by
  rw [scan]
  split
  · rename_i hopen
    split
    · rename_i htoken
      rw [h hopen] at htoken
      cases htoken
    · rfl
  · rfl

/-- Where no token is read, none stands. -/
theorem bracketed_append_ne (h : c = '<' → tokenAfter? t = none) (hk : IsName k)
    (right : List Char) : bracketed k ++ right ≠ c :: t := by
  intro hplace
  obtain ⟨rfl, htail⟩ := List.cons.inj hplace
  have htoken : tokenAfter? t = some (k.toList, right) := by
    refine tokenAfter?_eq_some_iff.2 ⟨hk.ne_nil, hk.isNameChar, ?_⟩
    rw [← htail]
    simp
  rw [h rfl] at htoken
  cases htoken

/-- Reading from the left divides a text. -/
theorem divides_divisionOf (t : List Char) : (divisionOf t).Divides t := by
  unfold divisionOf
  -- by induction along the reading: a token is read whole, and then the text after it
  induction t using scan.induct with
  | case1 =>
    rw [scan, ofPieces]
    refine ⟨rfl, ?_, ?_⟩
    · intro k hk
      cases hk
    · intro left k right _ hplace
      cases left <;> cases hplace
  | case2 t name more htoken ih =>
    obtain ⟨hne, hchars, rfl⟩ := tokenAfter?_eq_some_iff.1 htoken
    have hname : IsName (String.ofList name) := by
      constructor <;> rw [String.toList_ofList] <;> assumption
    have hcons := ih.consToken hname
    rw [bracketed, String.toList_ofList] at hcons
    rw [scan_token htoken, ofPieces]
    simpa using hcons
  | case3 t hnone ih =>
    have hopen : '<' = '<' → tokenAfter? t = none := fun _ => hnone
    rw [scan_char hopen, ofPieces]
    exact ih.cons fun k right hk => bracketed_append_ne hopen hk right
  | case4 c t hne ih =>
    have hopen : c = '<' → tokenAfter? t = none := fun h => absurd h hne
    rw [scan_char hopen, ofPieces]
    exact ih.cons fun k right hk => bracketed_append_ne hopen hk right

-- stray and nested brackets, and a blank that is no character of names
example : (divisionOf "<<a>b> <a b> <a>".toList).names = ["a", "a"] := by cbv

end DocMapper.Template
