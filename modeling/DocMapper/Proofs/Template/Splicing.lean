import DocMapper.Proofs.Template.Rendering
import DocMapper.Text.Segments
import Mathlib.Data.List.TakeWhile

set_option autoImplicit false

/-!
# Texts that are put together

A text is what trimming keeps of it between blanks (`Text.exists_eq_append_trim_append`), and
nothing is kept exactly if the text is blank (`Text.trim_eq_nil_iff`).

A token that begins in one text could end in the text behind it (`ClosesToken`). Where this is not
so, the pieces of a text in two parts are those of the parts (`scan_append`). The places at which a
stage is put into a pipeline are such: before a comma or an opening brace, and before a text without
closing brackets. So the pieces of the pipeline with the stage are those of the pipeline, without
the blanks at its end, and those of the stage (`scan_contents_object`).
-/

namespace DocMapper.Text

/-! ## Trimming -/

variable {c : Char} {text blanks : List Char}

theorem not_mem_of_isBlank (hblanks : ∀ c ∈ blanks, isBlank c = true) (hc : isBlank c = false) :
    c ∉ blanks := by
  intro hmem
  rw [hblanks c hmem] at hc
  cases hc

theorem exists_eq_trimEnd_append (text : List Char) :
    ∃ blanks, text = trimEnd text ++ blanks ∧ ∀ c ∈ blanks, isBlank c = true := by
  refine ⟨(text.reverse.takeWhile isBlank).reverse, ?_, ?_⟩
  · rw [trimEnd, ← List.reverse_append, List.takeWhile_append_dropWhile, List.reverse_reverse]
  · intro c hc
    exact List.all_eq_true.1 List.all_takeWhile c (List.mem_reverse.1 hc)

/-- A text stands between the blanks that are trimmed from its ends. -/
theorem exists_eq_append_trim_append (text : List Char) :
    ∃ before after, text = before ++ (trim text ++ after) ∧
      (∀ c ∈ before, isBlank c = true) ∧ ∀ c ∈ after, isBlank c = true := by
  obtain ⟨after, htext, hafter⟩ := exists_eq_trimEnd_append (trimStart text)
  refine ⟨text.takeWhile isBlank, after, ?_, List.all_eq_true.1 List.all_takeWhile, hafter⟩
  rw [trim, ← htext, trimStart, List.takeWhile_append_dropWhile]

theorem trimEnd_eq_nil_iff : trimEnd text = [] ↔ ∀ c ∈ text, isBlank c = true := by
  rw [trimEnd, List.reverse_eq_nil_iff, List.dropWhile_eq_nil_iff]
  simp only [List.mem_reverse]

/-- Nothing is left of a text exactly if it is blank. -/
theorem trim_eq_nil_iff : trim text = [] ↔ ∀ c ∈ text, isBlank c = true := by
  constructor
  · intro h
    obtain ⟨before, after, htext, hbefore, hafter⟩ := exists_eq_append_trim_append text
    rw [h, List.nil_append] at htext
    intro c hc
    rw [htext, List.mem_append] at hc
    exact hc.elim (hbefore c) (hafter c)
  · intro h
    rw [trim, trimStart, List.dropWhile_eq_nil_iff.2 h]
    rfl

/-- A character that is no blank stays at the beginning. -/
theorem trimEnd_cons (hc : isBlank c = false) (text : List Char) :
    trimEnd (c :: text) = c :: trimEnd text := by
  rw [trimEnd, trimEnd, List.reverse_cons, List.dropWhile_append,
    List.dropWhile_cons_of_neg (by simp [hc])]
  split
  · rename_i hempty
    rw [List.isEmpty_iff.1 hempty]
    rfl
  · rw [List.reverse_append]
    rfl

end DocMapper.Text

namespace DocMapper.Template

variable {c first last : Char} {left right text before after blanks : List Char} {name : String}
variable {values : Fields String}

/-! ## Tokens in two parts -/

/-- Whether a token that begins before a text could end in it. -/
def ClosesToken (text : List Char) : Prop :=
  ∃ name more, (∀ c ∈ name, isNameChar c = true) ∧ text = name ++ '>' :: more

theorem not_closesToken_of_not_mem (h : '>' ∉ text) : ¬ ClosesToken text := by
  rintro ⟨name, more, -, rfl⟩
  exact h (List.mem_append_right name List.mem_cons_self)

/-- A token does not go on with a character that is neither a character of names nor its end. -/
theorem not_closesToken_cons (hc : isNameChar c = false) (hclose : c ≠ '>') :
    ¬ ClosesToken (c :: text) := by
  rintro ⟨name, more, hname, htext⟩
  cases name with
  | nil => exact hclose (List.cons.inj htext).1
  | cons c' name =>
    obtain rfl := (List.cons.inj htext).1
    rw [hname c List.mem_cons_self] at hc
    cases hc

/-- Where no token ends in the second part, none is read after a bracket in the first. -/
theorem tokenAfter?_append_eq_none (h : tokenAfter? left = none) (hright : ¬ ClosesToken right) :
    tokenAfter? (left ++ right) = none := by
  rw [Option.eq_none_iff_forall_not_mem]
  rintro ⟨name, more⟩ htoken
  obtain ⟨hne, hchars, hsplit⟩ := tokenAfter?_eq_some_iff.1 htoken
  rcases List.append_eq_append_iff.1 hsplit with ⟨rest, rfl, hrest⟩ | ⟨rest, rfl, hrest⟩
  · -- the name goes on in the second part
    exact hright ⟨rest, more, fun c hc => hchars c (List.mem_append_right left hc), hrest⟩
  · cases rest with
    | nil => exact hright ⟨[], more, nofun, hrest.symm⟩
    | cons c rest =>
      obtain rfl := (List.cons.inj hrest).1
      rw [tokenAfter?_eq_some_iff.2 ⟨hne, hchars, rfl⟩] at h
      cases h

/-- A text in two parts has the pieces of the parts if no token of the first ends in the second. -/
theorem scan_append (left : List Char) (hright : ¬ ClosesToken right) :
    scan (left ++ right) = scan left ++ scan right := by
  -- along the reading of the first part: what is read there is read in the whole text as well
  induction left using scan.induct with
  | case1 => rw [scan, List.nil_append, List.nil_append]
  | case2 text name more htoken ih =>
    obtain ⟨hne, hchars, rfl⟩ := tokenAfter?_eq_some_iff.1 htoken
    have hwhole : tokenAfter? (name ++ '>' :: more ++ right) = some (name, more ++ right) :=
      tokenAfter?_eq_some_iff.2 ⟨hne, hchars, by simp⟩
    rw [List.cons_append, scan_token hwhole, scan_token htoken, ih, List.cons_append]
  | case3 text hnone ih =>
    have hwhole := tokenAfter?_append_eq_none hnone hright
    rw [List.cons_append, scan_char fun _ => hwhole, scan_char fun _ => hnone, ih, List.cons_append]
  | case4 c text hne ih =>
    rw [List.cons_append, scan_char fun h => absurd h hne, scan_char fun h => absurd h hne, ih,
      List.cons_append]

/-- A text without opening brackets has no tokens. -/
theorem scan_of_not_mem (h : '<' ∉ text) : scan text = text.map .char := by
  induction text with
  | nil => rw [scan, List.map_nil]
  | cons c text ih =>
    rw [List.mem_cons, not_or] at h
    rw [scan_char fun hc => absurd hc.symm h.1, ih h.2, List.map_cons]

theorem flatMap_replacement_char (values : Fields String) (text : List Char) :
    (text.map Piece.char).flatMap (replacement values) = text := by
  rw [List.flatMap_map]
  exact List.flatMap_singleton' text

/-- The names of a body are those of its tokens. -/
theorem mem_tokenNames_iff : name ∈ tokenNames text ↔ Piece.token name ∈ scan text := by
  rw [tokenNames, distinct_eq, List.mem_eraseDups, List.mem_filterMap]
  constructor
  · rintro ⟨piece, hpiece, hname⟩
    cases piece with
    | char c => cases hname
    | token k =>
      obtain rfl := Option.some.inj hname
      exact hpiece
  · exact fun h => ⟨_, h, rfl⟩

/-! ## The pieces of pipelines and stages -/

variable {front object : List Char}

/-- A pipeline has the pieces of what stands before the blanks at its end. -/
theorem scan_contents (front : List Char) (hblanks : ∀ c ∈ blanks, Text.isBlank c = true) :
    scan ('[' :: (front ++ (blanks ++ [']']))) =
      .char '[' :: (scan front ++ (blanks ++ [']']).map .char) := by
  have hmem {c : Char} (hc : Text.isBlank c = false) (hne : c ≠ ']') : c ∉ blanks ++ [']'] := by
    rw [List.mem_append, List.mem_singleton, not_or]
    exact ⟨Text.not_mem_of_isBlank hblanks hc, hne⟩
  rw [scan_char fun h => absurd h (by decide),
    scan_append front (not_closesToken_of_not_mem (hmem rfl (by decide))),
    scan_of_not_mem (hmem rfl (by decide))]

theorem scan_object (object : List Char) (hright : ¬ ClosesToken right) :
    scan ('\x7b' :: object ++ right) = .char '\x7b' :: scan object ++ scan right := by
  rw [scan_append _ hright, scan_char fun h => absurd h (by decide)]

/-- The blanks around an object have no tokens. -/
theorem scan_blanks_object (object : List Char) (hbefore : ∀ c ∈ before, Text.isBlank c = true)
    (hafter : ∀ c ∈ after, Text.isBlank c = true) :
    scan (before ++ ('\x7b' :: object ++ after)) =
      before.map .char ++ (.char '\x7b' :: scan object ++ after.map .char) := by
  have hopen : ¬ ClosesToken ('\x7b' :: object ++ after) :=
    not_closesToken_cons (by decide) (by decide)
  rw [scan_append before hopen,
    scan_of_not_mem (Text.not_mem_of_isBlank hbefore rfl),
    scan_object object (not_closesToken_of_not_mem (Text.not_mem_of_isBlank hafter rfl)),
    scan_of_not_mem (Text.not_mem_of_isBlank hafter rfl)]

/-- A pipeline with an object at its end has the pieces of both. -/
theorem scan_contents_object (front object : List Char) (isEmpty : Bool) :
    scan ('[' :: (front ++ ((if isEmpty then [] else [',']) ++ ('\x7b' :: object ++ [']'])))) =
      .char '[' :: (scan front ++ ((if isEmpty then [] else [',']).map .char ++
        (.char '\x7b' :: scan object ++ [.char ']']))) := by
  have hclose : ¬ ClosesToken [']'] := not_closesToken_of_not_mem (by decide)
  have hbracket : scan [']'] = [.char ']'] := scan_of_not_mem (by decide)
  have hobject := scan_object object hclose
  rw [hbracket] at hobject
  -- both a comma and an opening brace stand outside tokens
  cases isEmpty with
  | true =>
    have hopen : ¬ ClosesToken ('\x7b' :: object ++ [']']) :=
      not_closesToken_cons (by decide) (by decide)
    show scan ('[' :: (front ++ ('\x7b' :: object ++ [']']))) = _
    rw [scan_char fun h => absurd h (by decide), scan_append front hopen, hobject]
    rfl
  | false =>
    have hcomma : ¬ ClosesToken (',' :: ('\x7b' :: object ++ [']'])) :=
      not_closesToken_cons (by decide) (by decide)
    show scan ('[' :: (front ++ ',' :: ('\x7b' :: object ++ [']']))) = _
    rw [scan_char fun h => absurd h (by decide), scan_append front hcomma,
      scan_char fun h => absurd h (by decide), hobject]
    rfl

/-- The tokens of a pipeline with an object at its end are those of both. -/
theorem mem_tokenNames_contents_object (front object : List Char) (isEmpty : Bool)
    (hblanks : ∀ c ∈ blanks, Text.isBlank c = true)
    (hbefore : ∀ c ∈ before, Text.isBlank c = true)
    (hafter : ∀ c ∈ after, Text.isBlank c = true) :
    name ∈ tokenNames
        ('[' :: (front ++ ((if isEmpty then [] else [',']) ++ ('\x7b' :: object ++ [']'])))) ↔
      name ∈ tokenNames ('[' :: (front ++ (blanks ++ [']']))) ∨
        name ∈ tokenNames (before ++ ('\x7b' :: object ++ after)) := by
  simp only [mem_tokenNames_iff, scan_contents_object, scan_contents front hblanks,
    scan_blanks_object object hbefore hafter, List.mem_cons, List.mem_append, List.mem_map,
    reduceCtorEq, and_false, exists_false, List.not_mem_nil, false_or, or_false]

/-! ## What they render to -/

/-- A text in two parts renders to what the parts render to, if no token of the first ends in the
second. -/
theorem substitute_append (left : List Char) (hright : ¬ ClosesToken right)
    (values : Fields String) :
    substitute ⟨left ++ right, values⟩ =
      substitute ⟨left, values⟩ ++ substitute ⟨right, values⟩ := by
  unfold substitute
  rw [scan_append left hright, List.flatMap_append]

theorem substitute_cons (hc : c ≠ '<') (text : List Char) (values : Fields String) :
    substitute ⟨c :: text, values⟩ = c :: substitute ⟨text, values⟩ := by
  unfold substitute
  rw [scan_char fun h => absurd h hc]
  rfl

theorem substitute_of_not_mem (h : '<' ∉ text) (values : Fields String) :
    substitute ⟨text, values⟩ = text := by
  rw [substitute, scan_of_not_mem h, flatMap_replacement_char]

theorem substitute_contents (front : List Char) (hblanks : ∀ c ∈ blanks, Text.isBlank c = true)
    (values : Fields String) :
    substitute ⟨'[' :: (front ++ (blanks ++ [']'])), values⟩ =
      '[' :: (substitute ⟨front, values⟩ ++ (blanks ++ [']'])) := by
  simp only [substitute, scan_contents front hblanks, List.flatMap_cons, List.flatMap_append,
    flatMap_replacement_char, replacement, List.singleton_append]

theorem substitute_blanks_object (object : List Char)
    (hbefore : ∀ c ∈ before, Text.isBlank c = true) (hafter : ∀ c ∈ after, Text.isBlank c = true)
    (values : Fields String) :
    substitute ⟨before ++ ('\x7b' :: object ++ after), values⟩ =
      before ++ ('\x7b' :: substitute ⟨object, values⟩ ++ after) := by
  simp only [substitute, scan_blanks_object object hbefore hafter, List.flatMap_cons,
    List.flatMap_append, flatMap_replacement_char, replacement, List.singleton_append]

/-- A pipeline with an object at its end renders to what both render to. -/
theorem substitute_contents_object (front object : List Char) (isEmpty : Bool)
    (values : Fields String) :
    substitute ⟨'[' :: (front ++ ((if isEmpty then [] else [',']) ++ ('\x7b' :: object ++ [']']))),
        values⟩ =
      '[' :: (substitute ⟨front, values⟩ ++ ((if isEmpty then [] else [',']) ++
        ('\x7b' :: substitute ⟨object, values⟩ ++ [']']))) := by
  simp only [substitute, scan_contents_object, List.flatMap_cons, List.flatMap_append,
    List.flatMap_nil, flatMap_replacement_char, replacement, List.singleton_append]

/-! ## The body with a stage -/

/-- A text in brackets is its interior between them. -/
theorem isEnclosed_iff (hne : first ≠ last) :
    isEnclosed first last text = true ↔ ∃ interior, text = first :: (interior ++ [last]) := by
  rw [isEnclosed, Bool.and_eq_true, decide_eq_true_iff, decide_eq_true_iff,
    List.getLast?_eq_some_iff]
  constructor
  · rintro ⟨hfirst, interior, rfl⟩
    -- one character alone would have to be both brackets
    cases interior with
    | nil => exact absurd (Option.some.inj hfirst).symm hne
    | cons c interior =>
      obtain rfl := Option.some.inj hfirst
      exact ⟨interior, rfl⟩
  · rintro ⟨interior, rfl⟩
    exact ⟨rfl, first :: interior, rfl⟩

/-- A stage comes behind what the pipeline has before the blanks at its end, and behind a comma
unless there is nothing. -/
theorem bodyWithStage_eq (interior stage : List Char) :
    bodyWithStage ('[' :: (interior ++ [']'])) stage =
      '[' :: (Text.trimEnd interior ++
        ((if (Text.trimEnd interior).isEmpty then [] else [',']) ++ (stage ++ [']']))) := by
  have hdrop : ('[' :: (interior ++ [']'])).dropLast = '[' :: interior := by
    rw [← List.cons_append, List.dropLast_concat]
  have htail : ('[' :: (interior ++ [']'])).tail.dropLast = interior := List.dropLast_concat
  -- the comma depends on the whole interior, which is blank exactly if its beginning is
  have hempty : (Text.trim interior).isEmpty = (Text.trimEnd interior).isEmpty := by
    rw [Bool.eq_iff_iff, List.isEmpty_iff, List.isEmpty_iff, Text.trim_eq_nil_iff,
      Text.trimEnd_eq_nil_iff]
  unfold bodyWithStage
  rw [hdrop, htail, hempty, Text.trimEnd_cons rfl]
  simp only [List.cons_append, List.append_assoc]

end DocMapper.Template
