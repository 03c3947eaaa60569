import DocMapper.Proofs.Json.Items
import DocMapper.Proofs.Template.Splicing
import DocMapper.Proofs.Traversal

set_option autoImplicit false

/-!
# Stages of pipelines

A body that renders to an array of documents is a pipeline (`IsPipeline`), and a text that renders
to one document is a stage if it is written in braces and leaves a place for the array among the
arrays and objects that may be open (`IsStage`). A stage at the end of a pipeline makes a pipeline
of it that has one document more (`IsPipeline.append`), whatever blanks, brackets in strings or
tokens the texts have.

By induction this holds for any number of stages (`IsPipeline.toPipeline_appendStages`). Both
conditions on a stage are about its text (`toPipeline_appendStage_fails`): braces that come from the
value of a token are not seen, and what a repeated name hides is read all the same.
-/

namespace DocMapper

/-! ## Values of items -/

namespace Value

/-- An item more is a value more. -/
theorem ofItems?_append_singleton {items : List Json} {values : List Value}
    {item : Json} {v : Value} (hitems : ofItems? items = some values)
    (hitem : ofJson? item = some v) :
    ofItems? (items ++ [item]) = some (values ++ [v]) := by
  induction items generalizing values with
  | nil =>
    obtain rfl := Option.some.inj hitems
    rw [List.nil_append, ofItems?, hitem]
    rfl
  | cons first items ih =>
    rw [ofItems?] at hitems
    rw [List.cons_append, ofItems?]
    cases hfirst : ofJson? first with
    | none =>
      rw [hfirst] at hitems
      cases hitems
    | some w =>
      rw [hfirst] at hitems
      obtain ⟨rest, hrest, rfl⟩ := Option.map_eq_some_iff.1 hitems
      exact Option.map_eq_some_iff.2 ⟨rest ++ [v], ih hrest, rfl⟩

end Value

namespace Template

variable {t : Template} {docs added : List Document} {d : Document} {stage : String}
variable {stages : List String} {values : Fields String}

/-! ## Reading texts -/

/-- A text has a value if it is read as JSON that has it. -/
theorem parseValue_eq_ok_iff {text : List Char} {v : Value} :
    parseValue (String.ofList text) = .ok v ↔
      ∃ json, Json.ofText? text = some json ∧ Value.ofJson? json = some v := by
  rw [← Option.bind_eq_some_iff]
  constructor
  · intro h
    unfold parseValue at h
    split at h
    · rename_i w hw
      obtain rfl := Except.ok.inj h
      rw [String.toList_ofList] at hw
      exact hw
    · cases h
  · intro h
    have hread : Json.ofText? (String.ofList text).toList >>= Value.ofJson? = some v := by
      rw [String.toList_ofList]
      exact h
    rw [parseValue, hread]

/-- An object that is written at the end of an array is its last value. -/
theorem parseValue_array_append {before after object front blanks : List Char} {vs : List Value}
    {v : Value} (hfront : front = [] ∨ ∃ c ∈ front, ¬ Text.isBlank c = true)
    (hblanks : ∀ c ∈ blanks, Text.isBlank c = true)
    (hbefore : ∀ c ∈ before, Text.isBlank c = true) (hafter : ∀ c ∈ after, Text.isBlank c = true)
    (harray : parseValue (String.ofList ('[' :: (front ++ (blanks ++ [']'])))) = .ok (.array vs))
    (hobject : parseValue (String.ofList (before ++ ('\x7b' :: object ++ after))) = .ok v)
    (hnesting : Json.Reader.start.peak (before ++ ('\x7b' :: object ++ after)) ≤ 126) :
    parseValue (String.ofList ('[' :: (front ++ ((if front.isEmpty then [] else [',']) ++
      ('\x7b' :: object ++ [']']))))) = .ok (.array (vs ++ [v])) := by
  -- the JSON texts are put together first, and then the values of their items
  obtain ⟨json, hjson, hvalues⟩ := parseValue_eq_ok_iff.1 harray
  obtain ⟨item, hitem, hvalue⟩ := parseValue_eq_ok_iff.1 hobject
  obtain ⟨items, rfl, happended⟩ := Json.ofText?_array_append hfront hblanks hbefore hafter hjson
    hitem (Nat.lt_succ_of_le hnesting)
  obtain ⟨vs', hvs, hsame⟩ := Option.map_eq_some_iff.1 hvalues
  obtain rfl := Value.array.inj hsame
  exact parseValue_eq_ok_iff.2 ⟨_, happended,
    Option.map_eq_some_iff.2 ⟨_, Value.ofItems?_append_singleton hvs hvalue, rfl⟩⟩

/-! ## Pipelines and their stages -/

/-- The template of a pipeline with these documents, as far as values are given. -/
structure IsPipeline (t : Template) (docs : List Document) : Prop where
  /-- The body is in square brackets. -/
  enclosed : isEnclosed '[' ']' t.body = true
  /-- With the values for the tokens it is the text of an array of the documents. -/
  reads : parseValue (String.ofList t.substitute) = .ok (.array (docs.map .document))
  /-- What stands between the brackets is blank, or it is not with the values. -/
  interior : Text.trim t.body.tail.dropLast = [] ∨
    Text.trim (substitute ⟨t.body.tail.dropLast, t.values⟩) ≠ []

/-- The text of a stage that is a document with the given values. -/
structure IsStage (values : Fields String) (stage : String) (d : Document) : Prop where
  /-- The text is in braces, but for blanks around them. -/
  enclosed : isEnclosed '\x7b' '\x7d' (Text.trim stage.toList) = true
  /-- With the values for the tokens it is the text of the document. -/
  reads : parseValue (String.ofList (substitute ⟨stage.toList, values⟩)) = .ok (.document d)
  /-- No more than 126 arrays and objects are open in it at a time. -/
  nesting : Json.Reader.start.peak (substitute ⟨stage.toList, values⟩) ≤ 126

/-- The parts of a pipeline: what stands before the blanks at its end renders to something exactly
if it is something. -/
theorem IsPipeline.exists_front (h : t.IsPipeline docs) :
    ∃ front blanks, t.body = '[' :: (front ++ (blanks ++ [']'])) ∧
      (∀ c ∈ blanks, Text.isBlank c = true) ∧ Text.trimEnd (front ++ blanks) = front ∧
      (front = [] ∨ ∃ c ∈ substitute ⟨front, t.values⟩, ¬ Text.isBlank c = true) := by
  obtain ⟨interior, hbody⟩ := (isEnclosed_iff (by decide)).1 h.enclosed
  obtain ⟨blanks, hinterior, hblanks⟩ := Text.exists_eq_trimEnd_append interior
  have hbody' : t.body.tail.dropLast = interior := by
    rw [hbody]
    exact List.dropLast_concat
  refine ⟨Text.trimEnd interior, blanks, ?_, hblanks, congrArg Text.trimEnd hinterior.symm, ?_⟩
  · rw [hbody, ← List.append_assoc, ← hinterior]
  · rcases h.interior with hblank | hrendered
    · rw [hbody', Text.trim_eq_nil_iff] at hblank
      exact Or.inl (Text.trimEnd_eq_nil_iff.2 hblank)
    · -- what is not blank in the text with the values is not at the end
      have hclose : ¬ ClosesToken blanks :=
        not_closesToken_of_not_mem (Text.not_mem_of_isBlank hblanks rfl)
      have hopen : '<' ∉ blanks := Text.not_mem_of_isBlank hblanks rfl
      rw [hbody', hinterior, substitute_append _ hclose, substitute_of_not_mem hopen, Ne,
        Text.trim_eq_nil_iff] at hrendered
      push Not at hrendered
      obtain ⟨c, hc, hnot⟩ := hrendered
      rcases List.mem_append.1 hc with hc | hc
      · exact Or.inr ⟨c, hc, hnot⟩
      · exact absurd (hblanks c hc) hnot

/-- The parts of a stage: an object between blanks. -/
theorem IsStage.exists_object (h : IsStage values stage d) :
    ∃ before object after, stage.toList = before ++ ('\x7b' :: object ++ after) ∧
      Text.trim stage.toList = '\x7b' :: object ∧ (∀ c ∈ before, Text.isBlank c = true) ∧
      ∀ c ∈ after, Text.isBlank c = true := by
  obtain ⟨before, after, hstage, hbefore, hafter⟩ := Text.exists_eq_append_trim_append stage.toList
  obtain ⟨interior, htrim⟩ := (isEnclosed_iff (by decide)).1 h.enclosed
  refine ⟨before, interior ++ ['\x7d'], after, ?_, htrim, hbefore, hafter⟩
  rw [← htrim]
  exact hstage

/-- A stage is put at the end of a pipeline, behind a comma unless there is nothing before it. -/
theorem appendStage_eq {front blanks object : List Char}
    (hbody : t.body = '[' :: (front ++ (blanks ++ [']'])))
    (hfront : Text.trimEnd (front ++ blanks) = front)
    (htrim : Text.trim stage.toList = '\x7b' :: object)
    (hstage : isEnclosed '\x7b' '\x7d' (Text.trim stage.toList) = true) :
    t.appendStage stage = .ok { t with
      body := '[' :: (front ++ ((if front.isEmpty then [] else [',']) ++
        ('\x7b' :: object ++ [']']))) } := by
  have henclosed : isEnclosed '[' ']' t.body = true := by
    rw [isEnclosed_iff (by decide), hbody, ← List.append_assoc]
    exact ⟨_, rfl⟩
  have hwith : bodyWithStage t.body (Text.trim stage.toList) =
      '[' :: (front ++ ((if front.isEmpty then [] else [',']) ++ ('\x7b' :: object ++ [']']))) := by
    rw [hbody, ← List.append_assoc, bodyWithStage_eq, hfront, htrim]
  simp only [appendStage, henclosed, hstage, hwith, Bool.not_true, Bool.false_eq_true, if_false]

/-- What renders to nothing but blanks is nothing, so there is a comma before an object exactly if
there is one with the values. -/
theorem isEmpty_substitute {front : List Char}
    (hfront : front = [] ∨ ∃ c ∈ substitute ⟨front, values⟩, ¬ Text.isBlank c = true) :
    (substitute ⟨front, values⟩).isEmpty = front.isEmpty := by
  rcases hfront with rfl | ⟨c, hc, -⟩
  · rw [substitute_of_not_mem List.not_mem_nil]
  · have hne : front ≠ [] := by
      rintro rfl
      rw [substitute_of_not_mem List.not_mem_nil] at hc
      cases hc
    rw [List.isEmpty_eq_false_iff.2 (List.ne_nil_of_mem hc), List.isEmpty_eq_false_iff.2 hne]

/-- With values for its tokens an object is not blank, whatever stands before it. -/
theorem trim_substitute_ne_nil (left object : List Char) (values : Fields String) :
    Text.trim (substitute ⟨left ++ '\x7b' :: object, values⟩) ≠ [] := by
  have hopen : ¬ ClosesToken ('\x7b' :: object) := not_closesToken_cons (by decide) (by decide)
  have hmem : '\x7b' ∈ substitute ⟨left ++ '\x7b' :: object, values⟩ := by
    rw [substitute_append left hopen, substitute_cons (by decide)]
    exact List.mem_append_right _ List.mem_cons_self
  intro hblank
  have hbrace := Text.trim_eq_nil_iff.1 hblank _ hmem
  cases hbrace

/-- A body with an object at its end that renders to an array is a pipeline. -/
theorem isPipeline_of_object {front comma object : List Char}
    (hbody : t.body = '[' :: (front ++ (comma ++ ('\x7b' :: object ++ [']']))))
    (hreads : parseValue (String.ofList t.substitute) = .ok (.array (docs.map .document))) :
    t.IsPipeline docs := by
  have hsplit : t.body = '[' :: ((front ++ comma) ++ '\x7b' :: object ++ [']']) := by
    rw [hbody]
    simp only [List.append_assoc, List.cons_append]
  have hinterior : t.body.tail.dropLast = (front ++ comma) ++ '\x7b' :: object := by
    rw [hsplit]
    exact List.dropLast_concat
  refine ⟨(isEnclosed_iff (by decide)).2 ⟨_, hsplit⟩, hreads, Or.inr ?_⟩
  rw [hinterior]
  exact trim_substitute_ne_nil _ object t.values

/-- A stage at the end of a pipeline makes a pipeline with one document more, and the tokens of both
are in it. -/
theorem IsPipeline.append (h : t.IsPipeline docs) (hstage : IsStage t.values stage d) :
    ∃ t', t.appendStage stage = .ok t' ∧ t'.values = t.values ∧ t'.IsPipeline (docs ++ [d]) ∧
      ∀ name, name ∈ tokenNames t'.body ↔
        name ∈ tokenNames t.body ∨ name ∈ tokenNames stage.toList := by
  obtain ⟨front, blanks, hbody, hblanks, htrimEnd, hfront⟩ := h.exists_front
  obtain ⟨before, object, after, htext, htrim, hbefore, hafter⟩ := hstage.exists_object
  -- the texts that are read are those of the parts with the values
  have harray : parseValue (String.ofList (substitute ⟨t.body, t.values⟩)) = _ := h.reads
  have hobject := hstage.reads
  have hnesting := hstage.nesting
  rw [hbody, substitute_contents front hblanks] at harray
  rw [htext, substitute_blanks_object object hbefore hafter] at hobject hnesting
  -- a comma is written for the body, and it is the right one for the text with the values
  have hfront' : substitute ⟨front, t.values⟩ = [] ∨
      ∃ c ∈ substitute ⟨front, t.values⟩, ¬ Text.isBlank c = true :=
    hfront.imp_left fun hnil => List.isEmpty_iff.1
      ((isEmpty_substitute hfront).trans (List.isEmpty_iff.2 hnil))
  have happended := parseValue_array_append hfront' hblanks hbefore hafter harray hobject hnesting
  rw [isEmpty_substitute hfront, ← substitute_contents_object] at happended
  refine ⟨_, appendStage_eq hbody htrimEnd htrim hstage.enclosed, rfl, ?_, fun name => ?_⟩
  · refine isPipeline_of_object rfl (happended.trans ?_)
    rw [List.map_append]
    rfl
  · rw [hbody, htext]
    exact mem_tokenNames_contents_object front object _ hblanks hbefore hafter

/-! ## Reading a pipeline with its stages -/

/-- No name is unresolved exactly if the names with a value are those of the tokens. -/
theorem unresolvedNames_eq_nil_iff :
    t.unresolvedNames = [] ↔ ∀ name, name ∈ t.values.keys ↔ name ∈ tokenNames t.body := by
  have hvalue (name : String) : t.values.contains name = true ↔ name ∈ t.values.keys := by
    rw [Fields.contains, Option.isSome_iff_ne_none, Ne, Fields.get?_eq_none_iff, not_not]
  rw [unresolvedNames, List.append_eq_nil_iff, List.filter_eq_nil_iff, List.filter_eq_nil_iff]
  simp only [Bool.not_eq_true', Bool.not_eq_false, hvalue, List.contains_iff_mem]
  constructor
  · rintro ⟨htokens, hvalues⟩ name
    exact ⟨hvalues name, htokens name⟩
  · intro h
    exact ⟨fun name => (h name).2, fun name => (h name).1⟩

/-- A text without tokens renders to itself. -/
theorem render_of_not_mem {body : List Char} (h : '<' ∉ body) :
    render ⟨body, []⟩ = .ok (String.ofList body) := by
  have hnames (name : String) :
      name ∈ Fields.keys ([] : Fields String) ↔ name ∈ tokenNames body := by
    rw [mem_tokenNames_iff, scan_of_not_mem h]
    simp [Fields.keys]
  rw [render, unresolvedNames_eq_nil_iff.2 hnames, substitute_of_not_mem h]
  rfl

/-- A text without tokens that is not read as JSON is no pipeline. -/
theorem toPipeline_of_not_mem {body : List Char} (h : '<' ∉ body)
    (hread : Json.ofText? body = none) : toPipeline ⟨body, []⟩ = .error .malformedJson := by
  have hparse : parseValue (String.ofList body) = .error .malformedJson := by
    rw [parseValue, String.toList_ofList, hread]
    rfl
  exact bind_eq_error_iff.2
    (Or.inr ⟨_, render_of_not_mem h, bind_eq_error_iff.2 (Or.inl hparse)⟩)

theorem mapM_asDocument (docs : List Document) :
    (docs.map Value.document).mapM asDocument = .ok docs := by
  rw [mapM_eq_ok_iff, List.forall₂_map_left_iff]
  exact List.forall₂_same.2 fun _ _ => rfl

/-- A pipeline whose tokens are those with a value is read as its documents. -/
theorem IsPipeline.toPipeline_eq (h : t.IsPipeline docs)
    (hnames : ∀ name, name ∈ t.values.keys ↔ name ∈ tokenNames t.body) :
    t.toPipeline = .ok docs := by
  have hrender : t.render = .ok (String.ofList t.substitute) := by
    rw [render, unresolvedNames_eq_nil_iff.2 hnames]
    rfl
  rw [toPipeline, hrender]
  show (parseValue (String.ofList t.substitute) >>= _) = _
  rw [h.reads]
  exact mapM_asDocument docs

/-- Stages at the end of a pipeline are documents at the end of it, in their order. -/
theorem IsPipeline.toPipeline_appendStages (h : t.IsPipeline docs)
    (hstages : List.Forall₂ (IsStage t.values) stages added)
    (hnames : ∀ name, name ∈ t.values.keys ↔
      name ∈ tokenNames t.body ∨ ∃ stage ∈ stages, name ∈ tokenNames stage.toList) :
    (stages.foldlM appendStage t >>= toPipeline) = .ok (docs ++ added) := by
  generalize hvalues : t.values = values at hstages hnames
  -- by induction on the stages: each of them makes a pipeline of the one before it
  induction hstages generalizing t docs with
  | nil =>
    subst hvalues
    rw [List.append_nil]
    refine h.toPipeline_eq fun name => (hnames name).trans ?_
    simp
  | @cons stage d stages added hstage hstages ih =>
    subst hvalues
    obtain ⟨t', happend, hvalues, hpipeline, htokens⟩ := h.append hstage
    rw [List.foldlM_cons, happend]
    have hrest := ih hpipeline hvalues ?_
    · rw [List.append_assoc] at hrest
      exact hrest
    · intro name
      rw [hnames, htokens]
      simp only [List.exists_mem_cons_iff, or_assoc]

/-- Values for a token that is a document and one that is a number. -/
def pairValues : Fields String := [("first", "\x7b\"a\":1\x7d"), ("n", "2")]

/-- A pipeline with a token and blanks behind it, and two stages, one with a token and a bracket in
a string. -/
theorem toPipeline_appendStages_pair :
    (["\x7b\"c\":[3]\x7d", " \x7b\"b\":<n>,\"]\":\"]\"\x7d\n"].foldlM appendStage
        ⟨"[<first> ]".toList, pairValues⟩ >>= toPipeline) =
      .ok [[("a", .int32 1)], [("c", .array [.int32 3])],
        [("b", .int32 2), ("]", .string "]")]] := by
  have hbody : substitute ⟨"[<first> ]".toList, pairValues⟩ = "[\x7b\"a\":1\x7d ]".toList := by
    decide +kernel
  have hfirst : substitute ⟨"\x7b\"c\":[3]\x7d".toList, pairValues⟩ =
      "\x7b\"c\":[3]\x7d".toList := by decide +kernel
  have hsecond : substitute ⟨" \x7b\"b\":<n>,\"]\":\"]\"\x7d\n".toList, pairValues⟩ =
      " \x7b\"b\":2,\"]\":\"]\"\x7d\n".toList := by decide +kernel
  have hpipeline : IsPipeline ⟨"[<first> ]".toList, pairValues⟩ [[("a", .int32 1)]] := by
    refine ⟨by decide, parseValue_eq_ok_iff.2 ⟨.array [.object [("a", .integer 1)]], ?_, rfl⟩,
      Or.inr (by decide +kernel)⟩
    rw [hbody]
    rfl
  have hstage : IsStage pairValues "\x7b\"c\":[3]\x7d" [("c", .array [.int32 3])] := by
    refine ⟨by decide, parseValue_eq_ok_iff.2 ⟨.object [("c", .array [.integer 3])], ?_, rfl⟩,
      by decide +kernel⟩
    rw [hfirst]
    rfl
  have hstage' : IsStage pairValues " \x7b\"b\":<n>,\"]\":\"]\"\x7d\n"
      [("b", .int32 2), ("]", .string "]")] := by
    refine ⟨by decide, parseValue_eq_ok_iff.2
      ⟨.object [("b", .integer 2), ("]", .string "]")], ?_, rfl⟩, by decide +kernel⟩
    rw [hsecond]
    rfl
  have hnames : tokenNames "[<first> ]".toList = ["first"] ∧
      tokenNames "\x7b\"c\":[3]\x7d".toList = [] ∧
      tokenNames " \x7b\"b\":<n>,\"]\":\"]\"\x7d\n".toList = ["n"] := by decide +kernel
  refine hpipeline.toPipeline_appendStages (.cons hstage (.cons hstage' .nil)) fun name => ?_
  rw [List.exists_mem_cons_iff, List.exists_mem_cons_iff, hnames.1, hnames.2.1, hnames.2.2]
  simp [pairValues, Fields.keys]

/-- The text of a document in which more is open at a time than in the document: of the two members
with one name the last one counts. -/
def deepText : List Char :=
  "\x7b\"a\":".toList ++ List.replicate 126 '[' ++ List.replicate 126 ']' ++ ",\"a\":1\x7d".toList

set_option maxRecDepth 8000 in
/-- The text is read alone, but not in an array. -/
theorem read_deepText :
    Json.ofText? deepText = some (.object [("a", .integer 1)]) ∧
      Json.ofText? ('[' :: deepText ++ [']']) = none := ⟨rfl, rfl⟩

/-- It does not suffice that a text is that of a flat document when the values stand for its tokens.
Braces that come from a value are not seen, and what a repeated name hides is read. -/
theorem toPipeline_appendStage_fails :
    (parseValue (String.ofList (substitute ⟨"<stage>".toList, [("stage", "\x7b\"a\":1\x7d")]⟩)) =
        .ok (.document [("a", .int32 1)]) ∧ tokenNames "<stage>".toList = ["stage"] ∧
      (appendStage ⟨"[]".toList, [("stage", "\x7b\"a\":1\x7d")]⟩ "<stage>" >>= toPipeline) =
        .error (.notAnObject "<stage>")) ∧
    (parseValue (String.ofList (substitute ⟨deepText, []⟩)) = .ok (.document [("a", .int32 1)]) ∧
      (∀ name, name ∉ tokenNames deepText) ∧
      (appendStage ⟨"[]".toList, []⟩ (String.ofList deepText) >>= toPipeline) =
        .error .malformedJson) := by
  have hopen : '<' ∉ deepText := by decide +kernel
  have hopen' : '<' ∉ '[' :: deepText ++ [']'] := by decide +kernel
  have htrim : Text.trim (String.ofList deepText).toList = '\x7b' :: deepText.tail := by
    rw [String.toList_ofList]
    decide +kernel
  have henclosed : isEnclosed '\x7b' '\x7d' (Text.trim (String.ofList deepText).toList) = true := by
    rw [String.toList_ofList]
    decide +kernel
  have hbody : (⟨"[]".toList, []⟩ : Template).body = '[' :: ([] ++ ([] ++ [']'])) := rfl
  have happend : appendStage ⟨"[]".toList, []⟩ (String.ofList deepText) =
      .ok ⟨'[' :: deepText ++ [']'], []⟩ := appendStage_eq hbody rfl htrim henclosed
  -- the first stage is an object only after its token is replaced
  have hstage : substitute ⟨"<stage>".toList, [("stage", "\x7b\"a\":1\x7d")]⟩ =
      "\x7b\"a\":1\x7d".toList := by decide +kernel
  refine ⟨⟨?_, by decide +kernel, rfl⟩, ⟨?_, ?_, ?_⟩⟩
  · rw [hstage, parseValue_eq_ok_iff]
    exact ⟨.object [("a", .integer 1)], rfl, rfl⟩
  · rw [substitute_of_not_mem hopen, parseValue_eq_ok_iff]
    exact ⟨_, read_deepText.1, rfl⟩
  · intro name hname
    rw [mem_tokenNames_iff, scan_of_not_mem hopen] at hname
    simp only [List.mem_map, reduceCtorEq, and_false, exists_false] at hname
  · exact bind_eq_error_iff.2 (Or.inr ⟨_, happend, toPipeline_of_not_mem hopen' read_deepText.2⟩)

end Template

end DocMapper
