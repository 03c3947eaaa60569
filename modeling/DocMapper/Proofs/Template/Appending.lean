import DocMapper.Proofs.Template.Stages
import Mathlib.Data.String.Basic

set_option autoImplicit false

/-!
# What a stage does to a pipeline

A stage at the end of a pipeline keeps what the pipeline has before the blanks at its end
(`keptBefore`), with a comma behind it unless there is nothing between its brackets. Brackets may
be in names, but blanks, commas and braces may not, so no token goes over the seam: the tokens are
those of the pipeline and of the stage, in this order, and the text with the values is put
together as the body is (`Splices`). The body is cut at byte offsets, which are always those of
characters (`bodyWithStage?_eq`).

A stage of the right shape is always put in, and the body has its shape again, so this goes on with
any number of stages (`appendStage_splices`).
-/

namespace DocMapper.Template

variable {t : Template} {stage : String} {front blanks before object after : List Char}

/-! ## Slices -/

/-- The part of a text between two byte offsets. There is none if they are out of order or one of
them is in a character. -/
def slice? (text : List Char) (start stop : Nat) : Option (List Char) :=
  let s := String.ofList text
  if start ≤ stop ∧ String.Pos.Raw.IsValid s ⟨start⟩ ∧ String.Pos.Raw.IsValid s ⟨stop⟩ then
    some (String.Pos.Raw.extract s ⟨start⟩ ⟨stop⟩).toList
  else none

theorem isValid_append (left right : List Char) :
    String.Pos.Raw.IsValid (String.ofList (left ++ right)) ⟨String.utf8Len left⟩ := by
  rw [String.Pos.Raw.isValid_iff_exists_append]
  exact ⟨String.ofList left, String.ofList right, String.ofList_append,
    (String.rawEndPos_ofList left).symm⟩

/-- A part of a text is the slice from where it begins to where it ends. -/
theorem slice?_append (left part right : List Char) :
    slice? (left ++ part ++ right) (String.utf8Len left)
      (String.utf8Len left + String.utf8Len part) = some part := by
  have hstart : String.Pos.Raw.IsValid (String.ofList (left ++ part ++ right))
      ⟨String.utf8Len left⟩ := by
    rw [List.append_assoc]
    exact isValid_append left (part ++ right)
  have hstop : String.Pos.Raw.IsValid (String.ofList (left ++ part ++ right))
      ⟨String.utf8Len left + String.utf8Len part⟩ := by
    rw [← String.utf8Len_append]
    exact isValid_append (left ++ part) right
  rw [slice?, if_pos ⟨Nat.le_add_right _ _, hstart, hstop⟩, String.extract_of_valid,
    String.toList_ofList]

/-- The body with a stage, put together of the slices of the body up to its last byte, as far as
there are these slices. -/
def bodyWithStage? (body stage : List Char) : Option (List Char) := do
  let stop := String.utf8Len body - 1
  let interior ← slice? body 1 stop
  let head ← slice? body 0 stop
  return Text.trimEnd head ++ (if (Text.trim interior).isEmpty then [] else [',']) ++ stage ++ [']']

/-- A body in brackets has these slices. -/
theorem bodyWithStage?_eq {body : List Char} (hbody : isEnclosed '[' ']' body = true)
    (stage : List Char) : bodyWithStage? body stage = some (bodyWithStage body stage) := by
  obtain ⟨interior, rfl⟩ := (isEnclosed_iff (by decide)).1 hbody
  -- both brackets are encoded by one byte
  have hopen : String.utf8Len ['['] = 1 := rfl
  have hclose : String.utf8Len [']'] = 1 := rfl
  have hstop : String.utf8Len ('[' :: (interior ++ [']'])) - 1 = 1 + String.utf8Len interior := by
    rw [← List.singleton_append, String.utf8Len_append, String.utf8Len_append, hopen, hclose]
    omega
  have hinterior := slice?_append ['['] interior [']']
  have hhead := slice?_append [] ('[' :: interior) [']']
  rw [← List.singleton_append, String.utf8Len_append, hopen, String.utf8Len_nil,
    Nat.zero_add] at hhead
  rw [hopen] at hinterior
  have hdrop : ('[' :: (interior ++ [']'])).dropLast = '[' :: interior := by
    rw [← List.cons_append, List.dropLast_concat]
  have htail : ('[' :: (interior ++ [']'])).tail.dropLast = interior := List.dropLast_concat
  unfold bodyWithStage? bodyWithStage
  rw [hstop, hdrop, htail]
  exact Option.bind_eq_some_iff.2 ⟨_, hinterior, Option.bind_eq_some_iff.2 ⟨_, hhead, rfl⟩⟩

/-! ## Tokens of the body -/

/-- The names of the tokens of a text, each as often as it stands there. -/
def occurrences (text : List Char) : List String := (scan text).filterMap Piece.name?

theorem filterMap_name?_char (text : List Char) :
    (text.map Piece.char).filterMap Piece.name? = [] := by
  rw [List.filterMap_eq_nil_iff]
  intro piece hpiece
  obtain ⟨c, -, rfl⟩ := List.mem_map.1 hpiece
  rfl

/-- The names in a pipeline are those before the blanks at its end. -/
theorem occurrences_contents (front : List Char) (hblanks : ∀ c ∈ blanks, Text.isBlank c = true) :
    occurrences ('[' :: (front ++ (blanks ++ [']']))) = occurrences front := by
  rw [occurrences, scan_contents front hblanks, List.filterMap_cons_none rfl, List.filterMap_append,
    filterMap_name?_char, List.append_nil, occurrences]

theorem occurrences_blanks_object (object : List Char)
    (hbefore : ∀ c ∈ before, Text.isBlank c = true) (hafter : ∀ c ∈ after, Text.isBlank c = true) :
    occurrences (before ++ ('\x7b' :: object ++ after)) = occurrences object := by
  rw [occurrences, scan_blanks_object object hbefore hafter, List.filterMap_append,
    filterMap_name?_char, List.nil_append, List.cons_append, List.filterMap_cons_none rfl,
    List.filterMap_append, filterMap_name?_char, List.append_nil, occurrences]

/-- The names in a pipeline with an object at its end are those of both, the object's last. -/
theorem occurrences_contents_object (front object : List Char) (isEmpty : Bool) :
    occurrences ('[' :: (front ++ ((if isEmpty then [] else [',']) ++
      ('\x7b' :: object ++ [']'])))) = occurrences front ++ occurrences object := by
  rw [occurrences, scan_contents_object, List.filterMap_cons_none rfl, List.filterMap_append,
    List.filterMap_append, filterMap_name?_char, List.nil_append, List.cons_append,
    List.filterMap_cons_none rfl, List.filterMap_append, List.filterMap_cons_none rfl,
    List.filterMap_nil, List.append_nil, occurrences, occurrences]

/-- What is left of some names keeps the order of their first occurrences. -/
theorem eraseDups_filter (p : String → Bool) (names : List String) :
    (names.filter p).eraseDups = names.eraseDups.filter p := by
  -- from the right, as a name at the end is a new one or stands in its place already
  induction names using List.reverseRecOn with
  | nil => rfl
  | append_singleton names name ih =>
    rw [List.filter_append, Fields.eraseDups_append_singleton]
    cases hp : p name with
    | true =>
      rw [List.filter_cons_of_pos hp, List.filter_nil, Fields.eraseDups_append_singleton, ih]
      by_cases hmem : name ∈ names
      · rw [if_pos hmem, if_pos (List.mem_filter.2 ⟨hmem, hp⟩)]
      · rw [if_neg hmem, if_neg fun h => hmem (List.mem_filter.1 h).1, List.filter_append,
          List.filter_cons_of_pos hp, List.filter_nil]
    | false =>
      have hnot : ¬ p name = true := by rw [hp]; exact Bool.false_ne_true
      rw [List.filter_cons_of_neg hnot, List.filter_nil, List.append_nil, ih]
      split
      · rfl
      · rw [List.filter_append, List.filter_cons_of_neg hnot, List.filter_nil, List.append_nil]

/-- The names of a text whose tokens are those of two others: first those of the one, then the new
ones of the other. -/
theorem tokenNames_eq_append {text left right : List Char}
    (h : occurrences text = occurrences left ++ occurrences right) :
    tokenNames text = tokenNames left ++
      (tokenNames right).filter fun name => name ∉ tokenNames left := by
  have hnames (text : List Char) : tokenNames text = (occurrences text).eraseDups :=
    distinct_eq (occurrences text)
  rw [hnames, hnames, hnames, h, List.eraseDups_append, ← eraseDups_filter]
  refine congrArg (fun names => _ ++ List.eraseDups names) (List.filter_congr fun name _ => ?_)
  rw [decide_not, Bool.eq_iff_iff]
  simp [List.mem_eraseDups]

/-! ## The body with a stage -/

/-- What a pipeline keeps before a stage: all before the last bracket, without blanks at the end. -/
def keptBefore (body : List Char) : List Char := Text.trimEnd body.dropLast

/-- What a pipeline with a stage renders to: what is kept of the pipeline, a comma unless its
interior is blank, the stage and the last bracket. -/
def splicedText (body stage : List Char) (values : Fields String) : List Char :=
  let isEmpty := (Text.trim body.tail.dropLast).isEmpty
  substitute ⟨keptBefore body, values⟩ ++ ((if isEmpty then [] else [',']) ++
    (substitute ⟨Text.trim stage, values⟩ ++ [']']))

/-- What a stage that is put at the end of a pipeline does to it. -/
structure Splices (t : Template) (stage : String) (t' : Template) : Prop where
  /-- The body is cut between characters. -/
  sliced : bodyWithStage? t.body (Text.trim stage.toList) = some t'.body
  /-- The body is in brackets again. -/
  enclosed : isEnclosed '[' ']' t'.body = true
  /-- There are no blanks around the body. -/
  trimmed : Text.trim t'.body = t'.body
  /-- The registrations are kept. -/
  values_eq : t'.values = t.values
  /-- Each token of the pipeline and of the stage is a token of the body, and no others are. -/
  occurrences_eq : occurrences t'.body = occurrences t.body ++ occurrences stage.toList
  /-- In order of their first occurrence the new names of the stage come last. -/
  tokenNames_eq : tokenNames t'.body = tokenNames t.body ++
    (tokenNames stage.toList).filter fun name => name ∉ tokenNames t.body
  /-- Only blanks and the last bracket are cut off, and with the values as well. -/
  cut : ∃ blanks, (∀ c ∈ blanks, Text.isBlank c = true) ∧
    t.body = keptBefore t.body ++ (blanks ++ [']']) ∧
    ∀ values, substitute ⟨t.body, values⟩ =
      substitute ⟨keptBefore t.body, values⟩ ++ (blanks ++ [']'])
  /-- The tokens stand for their values wherever they come from. -/
  substitute_eq : ∀ values,
    substitute ⟨t'.body, values⟩ = splicedText t.body stage.toList values
  /-- The body renders if exactly the names of the pipeline and of the stage are registered. -/
  render_iff : ∀ text, t'.render = .ok text ↔
    (∀ name, name ∈ t.values.keys ↔ name ∈ tokenNames t.body ∨ name ∈ tokenNames stage.toList) ∧
      String.ofList (splicedText t.body stage.toList t.values) = text

/-- A text in square brackets has no blanks around it. -/
theorem trim_eq_self {body : List Char} (h : isEnclosed '[' ']' body = true) :
    Text.trim body = body := by
  obtain ⟨interior, rfl⟩ := (isEnclosed_iff (by decide)).1 h
  have hreverse : ('[' :: (interior ++ [']'])).reverse = ']' :: ('[' :: interior).reverse := by
    rw [← List.cons_append, List.reverse_append]
    rfl
  rw [Text.trim, Text.trimStart, List.dropWhile_cons_of_neg (by decide), Text.trimEnd, hreverse,
    List.dropWhile_cons_of_neg (by decide), ← hreverse, List.reverse_reverse]

/-- A template renders if exactly the names of its tokens are registered. -/
theorem render_eq_ok_iff {text : String} :
    t.render = .ok text ↔
      (∀ name, name ∈ t.values.keys ↔ name ∈ tokenNames t.body) ∧
        String.ofList t.substitute = text := by
  rw [← unresolvedNames_eq_nil_iff, render, ← List.isEmpty_iff]
  split
  · rename_i hempty
    rw [Except.ok.injEq]
    exact (and_iff_right hempty).symm
  · rename_i hsome
    refine iff_of_false (fun herror => ?_) fun h => hsome h.1
    cases herror

/-! ## The parts of a pipeline and of a stage -/

/-- The parts of a pipeline and of a stage that is put at its end. -/
structure AreParts (body stage front blanks before object after : List Char) : Prop where
  /-- The pipeline is what is kept, blanks and the last bracket. -/
  body_eq : body = '[' :: (front ++ (blanks ++ [']']))
  isBlank_blanks : ∀ c ∈ blanks, Text.isBlank c = true
  trimEnd_eq : Text.trimEnd (front ++ blanks) = front
  /-- The stage is an object between blanks. -/
  stage_eq : stage = before ++ ('\x7b' :: object ++ after)
  isBlank_before : ∀ c ∈ before, Text.isBlank c = true
  isBlank_after : ∀ c ∈ after, Text.isBlank c = true
  trim_eq : Text.trim stage = '\x7b' :: object

/-- A body in square brackets and a stage in braces have such parts. -/
theorem exists_parts {body stage : List Char} (hbody : isEnclosed '[' ']' body = true)
    (hstage : isEnclosed '\x7b' '\x7d' (Text.trim stage) = true) :
    ∃ front blanks before object after, AreParts body stage front blanks before object after := by
  obtain ⟨interior, rfl⟩ := (isEnclosed_iff (by decide)).1 hbody
  obtain ⟨blanks, hinterior, hblanks⟩ := Text.exists_eq_trimEnd_append interior
  obtain ⟨before, after, htext, hbefore, hafter⟩ := Text.exists_eq_append_trim_append stage
  obtain ⟨members, htrim⟩ := (isEnclosed_iff (by decide)).1 hstage
  refine ⟨Text.trimEnd interior, blanks, before, members ++ ['\x7d'], after, ?_⟩
  exact
    { body_eq := by rw [← List.append_assoc, ← hinterior]
      isBlank_blanks := hblanks
      trimEnd_eq := congrArg Text.trimEnd hinterior.symm
      stage_eq := by rw [← htrim]; exact htext
      isBlank_before := hbefore
      isBlank_after := hafter
      trim_eq := htrim }

namespace AreParts

variable {body stage : List Char}

/-- What is kept of the pipeline. -/
theorem keptBefore_eq (h : AreParts body stage front blanks before object after) :
    keptBefore body = '[' :: front := by
  rw [keptBefore, h.body_eq, ← List.append_assoc, ← List.cons_append, List.dropLast_concat,
    Text.trimEnd_cons rfl, h.trimEnd_eq]

/-- The interior of the pipeline is blank if nothing is kept of it. -/
theorem isEmpty_eq (h : AreParts body stage front blanks before object after) :
    (Text.trim body.tail.dropLast).isEmpty = front.isEmpty := by
  have hinterior : body.tail.dropLast = front ++ blanks := by
    rw [h.body_eq, ← List.append_assoc]
    exact List.dropLast_concat
  rw [hinterior, Bool.eq_iff_iff, List.isEmpty_iff, List.isEmpty_iff, Text.trim_eq_nil_iff,
    ← Text.trimEnd_eq_nil_iff, h.trimEnd_eq]

/-- The body with the stage. -/
theorem bodyWithStage_eq (h : AreParts body stage front blanks before object after) :
    bodyWithStage body (Text.trim stage) =
      '[' :: (front ++ ((if front.isEmpty then [] else [',']) ++ ('\x7b' :: object ++ [']']))) := by
  rw [h.body_eq, ← List.append_assoc, Template.bodyWithStage_eq, h.trimEnd_eq, h.trim_eq]

theorem isEnclosed_bodyWithStage (h : AreParts body stage front blanks before object after) :
    isEnclosed '[' ']' (bodyWithStage body (Text.trim stage)) = true := by
  rw [h.bodyWithStage_eq, isEnclosed_iff (by decide), ← List.append_assoc, ← List.append_assoc]
  exact ⟨_, rfl⟩

/-- The tokens of the body with the stage are those of the pipeline and those of the stage. -/
theorem occurrences_bodyWithStage (h : AreParts body stage front blanks before object after) :
    occurrences (bodyWithStage body (Text.trim stage)) = occurrences body ++ occurrences stage := by
  rw [h.bodyWithStage_eq, occurrences_contents_object, h.body_eq,
    occurrences_contents front h.isBlank_blanks, h.stage_eq,
    occurrences_blanks_object object h.isBlank_before h.isBlank_after]

/-- With the values, the blanks and the last bracket are cut off from the pipeline too. -/
theorem substitute_body (h : AreParts body stage front blanks before object after)
    (values : Fields String) :
    substitute ⟨body, values⟩ = substitute ⟨keptBefore body, values⟩ ++ (blanks ++ [']']) := by
  rw [h.keptBefore_eq, h.body_eq, substitute_contents front h.isBlank_blanks,
    substitute_cons (by decide), List.cons_append]

/-- With the values, the body with the stage is put together of the same parts. -/
theorem substitute_bodyWithStage (h : AreParts body stage front blanks before object after)
    (values : Fields String) :
    substitute ⟨bodyWithStage body (Text.trim stage), values⟩ = splicedText body stage values := by
  rw [h.bodyWithStage_eq, substitute_contents_object, splicedText, h.keptBefore_eq, h.isEmpty_eq,
    h.trim_eq, substitute_cons (by decide), substitute_cons (by decide)]
  simp only [List.cons_append]

end AreParts

/-! ## Appending -/

theorem appendStage_eq_ok (hbody : isEnclosed '[' ']' t.body = true)
    (hstage : isEnclosed '\x7b' '\x7d' (Text.trim stage.toList) = true) :
    t.appendStage stage =
      .ok { t with body := bodyWithStage t.body (Text.trim stage.toList) } := by
  simp only [appendStage, hbody, hstage, Bool.not_true, Bool.false_eq_true, if_false]

/-- The template with a stage of the right shape has the stage at its end. -/
theorem splices_bodyWithStage (hbody : isEnclosed '[' ']' t.body = true)
    (hstage : isEnclosed '\x7b' '\x7d' (Text.trim stage.toList) = true) :
    t.Splices stage { t with body := bodyWithStage t.body (Text.trim stage.toList) } := by
  obtain ⟨front, blanks, before, object, after, hparts⟩ := exists_parts hbody hstage
  have hnames := tokenNames_eq_append hparts.occurrences_bodyWithStage
  exact
    { sliced := bodyWithStage?_eq hbody _
      enclosed := hparts.isEnclosed_bodyWithStage
      trimmed := trim_eq_self hparts.isEnclosed_bodyWithStage
      values_eq := rfl
      occurrences_eq := hparts.occurrences_bodyWithStage
      tokenNames_eq := hnames
      cut := by
        refine ⟨blanks, hparts.isBlank_blanks, ?_, hparts.substitute_body⟩
        rw [hparts.keptBefore_eq]
        exact hparts.body_eq
      substitute_eq := hparts.substitute_bodyWithStage
      render_iff := by
        intro text
        have hmem (name : String) : name ∈ tokenNames t.body ++
            (tokenNames stage.toList).filter (fun name => name ∉ tokenNames t.body) ↔
              name ∈ tokenNames t.body ∨ name ∈ tokenNames stage.toList := by
          rw [List.mem_append, List.mem_filter, decide_eq_true_iff]
          tauto
        rw [render_eq_ok_iff, hnames, ← hparts.substitute_bodyWithStage]
        simp only [hmem] }

/-- Stages of the right shape are put at the end of a pipeline one after another: its body stays in
brackets, its registrations are kept, and the tokens of the stages come behind its own. -/
theorem exists_appendStages (stages : List String) (hbody : isEnclosed '[' ']' t.body = true)
    (hstages : ∀ stage ∈ stages, isEnclosed '\x7b' '\x7d' (Text.trim stage.toList) = true) :
    ∃ t', stages.foldlM appendStage t = .ok t' ∧ isEnclosed '[' ']' t'.body = true ∧
      t'.values = t.values ∧ occurrences t'.body =
        occurrences t.body ++ stages.flatMap fun stage => occurrences stage.toList := by
  -- by induction on the stages: each of them leaves a body in brackets
  induction stages generalizing t with
  | nil => exact ⟨t, rfl, hbody, rfl, (List.append_nil _).symm⟩
  | cons stage stages ih =>
    have hstage := hstages stage List.mem_cons_self
    have hsplices := splices_bodyWithStage hbody hstage
    obtain ⟨t', hrun, henclosed, hvalues, hoccurrences⟩ :=
      ih hsplices.enclosed fun other hother => hstages other (List.mem_cons_of_mem _ hother)
    refine ⟨t', ?_, henclosed, hvalues.trans hsplices.values_eq, ?_⟩
    · rw [List.foldlM_cons, appendStage_eq_ok hbody hstage]
      exact hrun
    · rw [hoccurrences, hsplices.occurrences_eq, List.append_assoc, List.flatMap_cons]

/-- Appending keeps the tokens and the shape of a pipeline. A stage in braces, which may be
between blanks, is put at the end of a body in square brackets (`Splices`); for any other stage
the fault tells its text without these blanks, and for any other body that it is no array. Any
number of stages in braces is put at the end of such a body. -/
theorem appendStage_splices (t : Template) :
    (∀ stage : String,
      if isEnclosed '[' ']' t.body then
        if isEnclosed '\x7b' '\x7d' (Text.trim stage.toList) then
          ∃ t', t.appendStage stage = .ok t' ∧ t.Splices stage t'
        else t.appendStage stage = .error (.notAnObject (String.ofList (Text.trim stage.toList)))
      else t.appendStage stage = .error .notAnArray) ∧
    ∀ stages : List String, isEnclosed '[' ']' t.body = true →
      (∀ stage ∈ stages, isEnclosed '\x7b' '\x7d' (Text.trim stage.toList) = true) →
      ∃ t', stages.foldlM appendStage t = .ok t' ∧ isEnclosed '[' ']' t'.body = true ∧
        t'.values = t.values ∧ occurrences t'.body =
          occurrences t.body ++ stages.flatMap fun stage => occurrences stage.toList := by
  refine ⟨fun stage => ?_, fun stages => exists_appendStages stages⟩
  split
  · rename_i hbody
    split
    · rename_i hstage
      exact ⟨_, appendStage_eq_ok hbody hstage, splices_bodyWithStage hbody hstage⟩
    · rename_i hstage
      simp only [appendStage, hbody, hstage, Bool.not_true, Bool.not_false, Bool.false_eq_true,
        if_false, if_true]
  · rename_i hbody
    simp only [appendStage, hbody, Bool.not_false, if_true]

end DocMapper.Template
