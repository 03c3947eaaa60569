import DocMapper.Proofs.Template.Division
import DocMapper.Proofs.Template.Registrations

set_option autoImplicit false

/-!
# Rendering is one substitution

A body has one division at its tokens. What a template renders to is said by this division and by
the entries that were registered, and by nothing else (`Template.Renders`): if the names of the
tokens are the registered ones, the literal parts stay and each token is replaced by the last value
for its name, all at once; otherwise the names that are wanting on one of the two sides are
reported.

`substitutes` says this of every body and every row of registrations.
-/

namespace DocMapper

namespace Template

open Fields

variable {body : List Char} {entries entries' : Fields String} {d : Division} {t : Template}

/-! ## Names that are wanting -/

/-- The names of tokens that are not registered in order of their first occurrence, and then the
registered names that are no tokens in order of their first registration. -/
def wanting (tokens registered : List String) : List String :=
  tokens.eraseDups.filter (fun name => name ∉ registered) ++
    registered.eraseDups.filter fun name => name ∉ tokens

/-- Nothing is wanting exactly if the names are the same. -/
theorem wanting_eq_nil_iff {tokens registered : List String} :
    wanting tokens registered = [] ↔ ∀ name, name ∈ tokens ↔ name ∈ registered := by
  unfold wanting
  rw [List.append_eq_nil_iff, List.filter_eq_nil_iff, List.filter_eq_nil_iff]
  simp only [List.mem_eraseDups, decide_eq_true_eq, not_not]
  constructor
  · rintro ⟨htokens, hregistered⟩ name
    exact ⟨htokens name, hregistered name⟩
  · intro h
    exact ⟨fun name => (h name).1, fun name => (h name).2⟩

/-- Names in order of their first occurrence. -/
theorem distinct_eq (names : List String) : distinct names = names.eraseDups := by
  -- from the right, as the fold appends
  induction names using List.reverseRecOn with
  | nil => rfl
  | append_singleton names name ih =>
    have hsnoc : distinct (names ++ [name]) =
        if (distinct names).contains name then distinct names else distinct names ++ [name] := by
      rw [distinct, List.foldl_append]
      rfl
    rw [hsnoc, ih, eraseDups_append_singleton]
    refine if_congr ?_ rfl rfl
    rw [List.contains_iff_mem, List.mem_eraseDups]

theorem tokenNames_eq (body : List Char) : tokenNames body = (divisionOf body).names.eraseDups := by
  rw [tokenNames, distinct_eq, divisionOf, Division.names_ofPieces]

/-- The unresolved names of a template are those that are wanting. -/
theorem unresolvedNames_eq (body : List Char) (entries : Fields String) :
    unresolvedNames ⟨body, ofList entries⟩ = wanting (divisionOf body).names (keys entries) := by
  unfold unresolvedNames wanting
  rw [tokenNames_eq, keys_ofList]
  -- both look-ups go to the names themselves, whatever their order is
  refine congrArg₂ (· ++ ·) (List.filter_congr ?_) (List.filter_congr ?_)
  · intro name _
    rw [decide_not]
    refine congrArg Bool.not (Bool.eq_iff_iff.2 ?_)
    rw [contains_ofList_iff, decide_eq_true_iff]
  · intro name _
    rw [decide_not]
    refine congrArg Bool.not (Bool.eq_iff_iff.2 ?_)
    rw [List.contains_iff_mem, List.mem_eraseDups, decide_eq_true_iff]

/-! ## What a template renders to -/

/-- What a template with a division and some entries renders to. -/
structure Renders (t : Template) (d : Division) (entries : Fields String) : Prop where
  /-- If the names of the tokens are the registered ones, each token is replaced by the last value
  for its name, and nothing else is changed. -/
  text : (∀ name, name ∈ d.names ↔ name ∈ keys entries) →
    ∃ value : String → String, (∀ name ∈ d.names, lastValue? entries name = some (value name)) ∧
      t.render = .ok (String.ofList (d.fill fun name => (value name).toList))
  /-- Otherwise the wanting names are reported as tokens. -/
  report : (¬ ∀ name, name ∈ d.names ↔ name ∈ keys entries) →
    t.render = .error (.unresolvedTokens
      ((wanting d.names (keys entries)).map fun name => String.ofList (Division.bracketed name)))

theorem ofList_bracketed (name : String) :
    String.ofList (Division.bracketed name) = "<" ++ name ++ ">" := by
  apply String.toList_inj.1
  simp [Division.bracketed]

theorem substitute_eq (body : List Char) (values : Fields String) :
    substitute ⟨body, values⟩ =
      (divisionOf body).fill fun name => ((values.get? name).getD "").toList := by
  unfold substitute divisionOf
  exact (Division.fill_ofPieces (scan body) fun _ => rfl).symm

/-- A template renders by the division of its body and the entries that were registered. -/
theorem renders_divisionOf (body : List Char) (entries : Fields String) :
    Renders ⟨body, ofList entries⟩ (divisionOf body) entries where
  text := by
    intro hsame
    refine ⟨fun name => ((ofList entries).get? name).getD "", ?_, ?_⟩
    · intro name hname
      obtain ⟨value, hvalue⟩ := exists_lastValue? ((hsame name).1 hname)
      have hget : (ofList entries).get? name = some value := (get?_ofList entries name).trans hvalue
      simp only [hvalue, hget, Option.getD_some]
    · have hnone : unresolvedNames ⟨body, ofList entries⟩ = [] := by
        rw [unresolvedNames_eq]
        exact wanting_eq_nil_iff.2 hsame
      rw [render, hnone, substitute_eq]
      rfl
  report := by
    intro hdiffers
    have hsome : (unresolvedNames ⟨body, ofList entries⟩).isEmpty = false := by
      rw [List.isEmpty_eq_false_iff, unresolvedNames_eq]
      exact fun hnil => hdiffers (wanting_eq_nil_iff.1 hnil)
    rw [render, hsome, unresolved, unresolvedNames_eq]
    simp only [ofList_bracketed]
    rfl

namespace Renders

/-- A template renders exactly if the names of its tokens are the registered ones. -/
theorem exists_text_iff (h : t.Renders d entries) :
    (∃ text, t.render = .ok text) ↔ ∀ name, name ∈ d.names ↔ name ∈ keys entries := by
  constructor
  · rintro ⟨text, htext⟩
    by_contra hdiffers
    rw [h.report hdiffers] at htext
    cases htext
  · intro hsame
    obtain ⟨value, -, htext⟩ := h.text hsame
    exact ⟨_, htext⟩

end Renders

/-- Where the entries for each name are the same, so is the text. -/
theorem Renders.of_sameByName {t' : Template} (h : t.Renders d entries) (h' : t'.Renders d entries')
    (hsame : SameByName entries entries') {text : String} (htext : t.render = .ok text) :
    t'.render = .ok text := by
  have hnames := h.exists_text_iff.1 ⟨text, htext⟩
  have hnames' (name : String) : name ∈ d.names ↔ name ∈ keys entries' := by
    rw [hnames, hsame.mem_keys_iff]
  obtain ⟨value, hvalue, hrender⟩ := h.text hnames
  obtain ⟨value', hvalue', hrender'⟩ := h'.text hnames'
  -- the last values are the same for all names of the division
  have hvalues : ∀ name ∈ d.names, (value name).toList = (value' name).toList := by
    intro name hname
    have hlast := hsame.lastValue?_eq name
    rw [hvalue name hname, hvalue' name hname] at hlast
    rw [Option.some.inj hlast]
  rw [htext] at hrender
  rw [hrender', ← Division.fill_congr hvalues, hrender]

/-- Rendering is one substitution. A body is divided at its tokens in one way. A row of
registrations that succeed makes a template of it that renders by this division and the entries of
the row; it renders to the same text if the entries are registered in any other order that keeps
those for each name in their order. -/
theorem substitutes (body : List Char) (registrations : List Registration) :
    ∃ d : Division, d.Divides body ∧ (∀ e : Division, e.Divides body → e = d) ∧
      match registrations.mapM Registration.entry with
      | .error e => registerAll ⟨body, []⟩ registrations = .error e
      | .ok entries =>
        ∃ t, registerAll ⟨body, []⟩ registrations = .ok t ∧ t.Renders d entries ∧
          ((∃ text, t.render = .ok text) ↔ ∀ name, name ∈ d.names ↔ name ∈ keys entries) ∧
          ∀ reordered entries', reordered.mapM Registration.entry = .ok entries' →
            SameByName entries entries' →
            ∃ t', registerAll ⟨body, []⟩ reordered = .ok t' ∧
              ∀ text, t.render = .ok text → t'.render = .ok text := by
  refine ⟨divisionOf body, divides_divisionOf body,
    fun e he => he.unique (divides_divisionOf body), ?_⟩
  cases hentries : registrations.mapM Registration.entry with
  | error e =>
    show registerAll ⟨body, []⟩ registrations = .error e
    rw [registerAll_empty, hentries]
    rfl
  | ok entries =>
    have hrenders := renders_divisionOf body entries
    refine ⟨⟨body, ofList entries⟩, ?_, hrenders, hrenders.exists_text_iff, ?_⟩
    · rw [registerAll_empty, hentries]
      rfl
    · intro reordered entries' hentries' hsame
      refine ⟨⟨body, ofList entries'⟩, ?_, fun text htext => ?_⟩
      · rw [registerAll_empty, hentries']
        rfl
      · exact hrenders.of_sameByName (renders_divisionOf body entries') hsame htext

-- a value that looks like a token is not scanned again
example : render ⟨"<<a>b>".toList, [("a", "<a>")]⟩ = .ok "<<a>b>" := by cbv

end Template

end DocMapper
