import DocMapper.Proofs.Path.Forms
import DocMapper.Proofs.Template.Rendering

set_option autoImplicit false

/-!
# Names that paths register

A path in some form is registered under a name that is made up of its members (`PathForm.key`). The
token with this name stands for the path if the name is read as one. The positions and the points of
a path are characters of names (`isNameChar_of_mem_position`), and an accepted member has no
brackets, so this depends on the other characters of the members alone: they may be any, but only
ASCII letters and digits and `_` are read in a token.

`PathForm.resolves` says for every form and every accepted expression when its token is replaced by
the path; `PathForm.misses_blank` is an accepted member for which it is not.
-/

namespace DocMapper.Template

open Division Fields DocMapper.Path DocMapper.Path.Expr

variable {k v : String} {e : Path.Expr} {r : Rendering}

/-! ## A body that is one token -/

/-- The division of a name in brackets. -/
theorem divisionOf_bracketed (hk : IsName k) : divisionOf (bracketed k) = ⟨[([], k)], []⟩ := by
  have hempty : Division.Divides ⟨[], []⟩ [] :=
    ⟨rfl, nofun, fun left _ _ _ hplace => by cases left <;> cases hplace⟩
  have htoken := hempty.consToken hk
  rw [List.append_nil] at htoken
  exact (divides_divisionOf _).unique htoken

/-- There is no token in brackets around a text that is no name and has no brackets. -/
theorem divisionOf_bracketed_of_not_isName (hopen : '<' ∉ k.toList) (hclose : '>' ∉ k.toList)
    (hk : ¬ IsName k) : divisionOf (bracketed k) = ⟨[], bracketed k⟩ := by
  refine (divides_divisionOf _).unique ⟨rfl, nofun, ?_⟩
  intro left name right hname hplace
  have hparts : left ++ '<' :: (name.toList ++ '>' :: right) = '<' :: (k.toList ++ ['>']) := by
    simpa [bracketed] using hplace
  cases left with
  | nil =>
    obtain ⟨hsame, -⟩ := name_append_inj hname.not_mem.2 hclose (List.cons.inj hparts).2
    obtain rfl := String.toList_inj.1 hsame
    exact absurd hname hk
  | cons c left =>
    -- another opening bracket would stand in the text or be the closing one
    have hmem : '<' ∈ k.toList ++ ['>'] := by
      rw [← (List.cons.inj hparts).2]
      exact List.mem_append_right left List.mem_cons_self
    rcases List.mem_append.1 hmem with h | h
    · exact absurd h hopen
    · exact absurd (List.mem_singleton.1 h) (by decide)

/-- A token is replaced by the value that is registered for its name. -/
theorem render_bracketed (hk : IsName k) (v : String) : render ⟨bracketed k, [(k, v)]⟩ = .ok v := by
  have hrenders := renders_divisionOf (bracketed k) [(k, v)]
  rw [divisionOf_bracketed hk] at hrenders
  obtain ⟨value, hvalue, hrender⟩ := hrenders.text fun name => Iff.rfl
  have hlast : lastValue? [(k, v)] k = some v := by simp [lastValue?]
  obtain rfl : v = value k := Option.some.inj (hlast.symm.trans (hvalue k List.mem_cons_self))
  refine hrender.trans (congrArg Except.ok ?_)
  simp [fill]

/-- Where there is no token, the name that is registered is wanting. -/
theorem render_bracketed_of_not_isName (hopen : '<' ∉ k.toList) (hclose : '>' ∉ k.toList)
    (hk : ¬ IsName k) (v : String) :
    render ⟨bracketed k, [(k, v)]⟩ = .error (.unresolvedTokens ["<" ++ k ++ ">"]) := by
  have hrenders := renders_divisionOf (bracketed k) [(k, v)]
  rw [divisionOf_bracketed_of_not_isName hopen hclose hk] at hrenders
  refine (hrenders.report fun h => ?_).trans ?_
  · exact absurd ((h k).2 List.mem_cons_self) List.not_mem_nil
  · rw [← ofList_bracketed]
    rfl

/-- Blanks are no brackets, so nothing is trimmed from a text in brackets. -/
theorem ofText_bracketed (k : String) : ofText ("<" ++ k ++ ">") = ⟨bracketed k, []⟩ := by
  have hstart : Text.trimStart (bracketed k) = bracketed k :=
    List.dropWhile_cons_of_neg (by decide)
  have hend : Text.trimEnd (bracketed k) = bracketed k := by
    have hreverse : (bracketed k).reverse = '>' :: ('<' :: k.toList).reverse := by
      simp [bracketed]
    rw [Text.trimEnd, hreverse, List.dropWhile_cons_of_neg (by decide), ← hreverse,
      List.reverse_reverse]
  rw [← ofList_bracketed, ofText, String.toList_ofList, Text.trim, hstart, hend]

/-! ## The characters of a name that is registered -/

theorem isNameChar_of_mem_identifier {n : Nat} {c : Char} (h : c ∈ (identifier n).toList) :
    isNameChar c = true := by
  obtain ⟨number, hnumber, rfl⟩ := exists_letter_of_mem_identifier h
  have hletters : ∀ number < 26, isNameChar (letter number) = true := by decide
  exact hletters number hnumber

/-- What stands for an index consists of characters of names. -/
theorem isNameChar_of_mem_position {n : Nat} {s : String}
    (h : filteredPosition n = some s ∨ allPosition n = some s ∨ firstPosition n = some s) :
    ∀ c ∈ s.toList, isNameChar c = true := by
  rcases h with h | h | h
  · obtain rfl := Option.some.inj h
    intro c hc
    rw [String.toList_append, String.toList_append] at hc
    rcases List.mem_append.1 hc with hc | hc
    · rcases List.mem_append.1 hc with hc | hc
      · have hopen : "$[".toList.all isNameChar = true := by decide
        exact List.all_eq_true.1 hopen c hc
      · exact isNameChar_of_mem_identifier hc
    · have hclose : "]".toList.all isNameChar = true := by decide
      exact List.all_eq_true.1 hclose c hc
  · obtain rfl := Option.some.inj h
    have hall : "$[]".toList.all isNameChar = true := by decide
    exact List.all_eq_true.1 hall
  · unfold firstPosition at h
    split at h
    · obtain rfl := Option.some.inj h
      have hfirst : "$".toList.all isNameChar = true := by decide
      exact List.all_eq_true.1 hfirst
    · cases h

/-- Whether a key consists of segments with points between them, which are some members and other
texts of characters of names. -/
structure Spells (key : String) (members segments : List String) : Prop where
  key_eq : key = joinDots segments
  member : ∀ name ∈ members, name ∈ segments
  segment : ∀ s ∈ segments, s ∈ members ∨ ∀ c ∈ s.toList, isNameChar c = true

theorem Spells.single (name : String) : Spells name [name] [name] where
  key_eq := by simp [joinDots]
  member _ h := h
  segment _ h := Or.inl h

/-- An identifier may come before the members. -/
theorem Spells.identified (n : Nat) {members : List String} (hne : members ≠ []) :
    Spells (identifier n ++ "." ++ joinDots members) members (identifier n :: members) where
  key_eq := (String.intercalate_cons_of_ne_nil hne).symm
  member _ h := List.mem_cons_of_mem _ h
  segment s hs := by
    rcases List.mem_cons.1 hs with rfl | hmember
    · exact Or.inr fun _ => isNameChar_of_mem_identifier
    · exact Or.inl hmember

/-- Positions of characters of names may stand between the members. -/
theorem Spells.positions {position : Nat → Option String}
    (hposition : ∀ n s, position n = some s → ∀ c ∈ s.toList, isNameChar c = true) (e : Path.Expr) :
    Spells (joinDots (segments position 0 e)) (members e) (segments position 0 e) where
  key_eq := rfl
  member _ h := mem_segments_of_mem_members h
  segment s hs := by
    rcases mem_members_or_of_mem_segments hs with hmember | ⟨n, hn⟩
    · exact Or.inl hmember
    · exact Or.inr (hposition n s hn)

namespace PathForm

/-- The members that make up the name: the last one or all of them. -/
def keyMembers : PathForm → Path.Expr → List String
  | property, e | path, e | elementsPath, e => (members e).getLast?.toList
  | elements _, e | posFiltered, e | posAll, e | posFirst, e => members e

variable {name : String}

/-- The members that make up the name are members. -/
theorem mem_members_of_mem_keyMembers {form : PathForm} (h : name ∈ form.keyMembers e) :
    name ∈ members e := by
  have hlast (h : name ∈ (members e).getLast?.toList) : name ∈ members e :=
    List.mem_of_getLast? (Option.mem_toList.1 h)
  cases form with
  | property => exact hlast h
  | path => exact hlast h
  | elementsPath => exact hlast h
  | elements n => exact h
  | posFiltered => exact h
  | posAll => exact h
  | posFirst => exact h

/-- The last member is one of those that make up the name. -/
theorem exists_mem_keyMembers (form : PathForm) (h : e.StartsWithMember) :
    ∃ name, name ∈ form.keyMembers e := by
  obtain ⟨last, hmem, hlast⟩ := exists_getLast?_members h
  refine ⟨last, ?_⟩
  have hmem' : last ∈ (members e).getLast?.toList := Option.mem_toList.2 hlast
  cases form <;> assumption

/-- The members that make up the name spell it. -/
theorem exists_spells (form : PathForm) (hr : Path.render e = .ok r) :
    ∃ segments, Spells (form.key r) (form.keyMembers e) segments := by
  obtain ⟨hstarts, -, rfl⟩ := render_eq_ok_iff.1 hr
  obtain ⟨last, hmem, hlast⟩ := exists_getLast?_members hstarts
  have hproperty : Spells (Rendering.ofExpr e).property (members e).getLast?.toList [last] := by
    have hname : (Rendering.ofExpr e).property = last := by simp [Rendering.ofExpr, hlast]
    rw [hname, hlast]
    exact .single last
  cases form with
  | property => exact ⟨_, hproperty⟩
  | path => exact ⟨_, hproperty⟩
  | elementsPath => exact ⟨_, hproperty⟩
  | elements n => exact ⟨_, .identified n (List.ne_nil_of_mem hmem)⟩
  | posFiltered => exact ⟨_, .positions (fun _ _ h => isNameChar_of_mem_position (Or.inl h)) e⟩
  | posAll => exact ⟨_, .positions (fun _ _ h => isNameChar_of_mem_position (Or.inr (Or.inl h))) e⟩
  | posFirst =>
    exact ⟨_, .positions (fun _ _ h => isNameChar_of_mem_position (Or.inr (Or.inr h))) e⟩

/-- If the characters of names have a property, those of the registered name have it exactly if
those of its members do. -/
theorem forall_mem_key_iff {p : Char → Prop} (hp : ∀ c, isNameChar c = true → p c)
    (form : PathForm) (hr : Path.render e = .ok r) :
    (∀ c ∈ (form.key r).toList, p c) ↔ ∀ name ∈ form.keyMembers e, ∀ c ∈ name.toList, p c := by
  obtain ⟨segments, hspells⟩ := form.exists_spells hr
  rw [hspells.key_eq, forall_mem_joinDots_iff (hp '.' (by decide))]
  constructor
  · intro h name hname
    exact h name (hspells.member name hname)
  · intro h s hs
    rcases hspells.segment s hs with hmember | hchars
    · exact h s hmember
    · exact fun c hc => hp c (hchars c hc)

/-- A registered name is not empty. -/
theorem key_ne_nil (form : PathForm) (hr : Path.render e = .ok r) : (form.key r).toList ≠ [] := by
  obtain ⟨segments, hspells⟩ := form.exists_spells hr
  obtain ⟨hstarts, hchecks, -⟩ := render_eq_ok_iff.1 hr
  obtain ⟨name, hname⟩ := form.exists_mem_keyMembers hstarts
  -- a member has a character, and no point is one
  have hcheck := checkMember_of_mem_members hchecks (mem_members_of_mem_keyMembers hname)
  obtain ⟨hne, hpath⟩ := checkMember_eq_ok_iff.1 hcheck
  obtain ⟨c, hc⟩ := List.exists_mem_of_ne_nil _ hne
  have hpoint : c ≠ '.' := by
    rintro rfl
    exact absurd (hpath '.' hc) (by decide)
  rw [hspells.key_eq]
  exact List.ne_nil_of_mem (mem_joinDots (hspells.member name hname) hc hpoint)

/-- A registered name is that of a token if its members have no other characters. -/
theorem isName_key_iff (form : PathForm) (hr : Path.render e = .ok r) :
    IsName (form.key r) ↔
      ∀ name ∈ form.keyMembers e, ∀ c ∈ name.toList, isNameChar c = true := by
  rw [← form.forall_mem_key_iff (fun _ hc => hc) hr]
  constructor
  · intro hname
    exact hname.isNameChar
  · intro hchars
    exact ⟨form.key_ne_nil hr, hchars⟩

/-- A registered name has no brackets. -/
theorem not_mem_key (form : PathForm) (hr : Path.render e = .ok r) :
    '<' ∉ (form.key r).toList ∧ '>' ∉ (form.key r).toList := by
  have hnot : ∀ c ∈ (form.key r).toList, c ≠ '<' ∧ c ≠ '>' := by
    refine (form.forall_mem_key_iff ?_ hr).2 ?_
    · intro c hc
      constructor <;> rintro rfl <;> cases hc
    · intro name hname c hc
      have hchecks := (render_eq_ok_iff.1 hr).2.1
      have hmember := checkMember_of_mem_members hchecks (mem_members_of_mem_keyMembers hname)
      have hpath := (checkMember_eq_ok_iff.1 hmember).2 c hc
      constructor <;> rintro rfl <;> cases hpath
  exact ⟨fun h => (hnot '<' h).1 rfl, fun h => (hnot '>' h).2 rfl⟩

/-! ## The token of a path -/

/-- A path that is registered in some form takes the place of the token with its name if the members
in this name consist of ASCII letters and digits and other characters of tokens. Otherwise the name
is registered, but it is no token, and the template does not render. -/
theorem resolves (form : PathForm) (hr : Path.render e = .ok r) :
    ∃ t, form.register (ofText ("<" ++ form.key r ++ ">")) e = .ok t ∧
      t.values = [(form.key r, form.value r)] ∧
      ((∀ name ∈ form.keyMembers e, ∀ c ∈ name.toList, isNameChar c = true) →
        t.render = .ok (form.value r)) ∧
      ((¬ ∀ name ∈ form.keyMembers e, ∀ c ∈ name.toList, isNameChar c = true) →
        t.render = .error (.unresolvedTokens ["<" ++ form.key r ++ ">"])) := by
  refine ⟨⟨bracketed (form.key r), [(form.key r, form.value r)]⟩, ?_, rfl, ?_, ?_⟩
  · rw [register_eq, hr, ofText_bracketed]
    rfl
  · intro hchars
    exact render_bracketed ((form.isName_key_iff hr).2 hchars) (form.value r)
  · intro hother
    obtain ⟨hopen, hclose⟩ := form.not_mem_key hr
    refine render_bracketed_of_not_isName hopen hclose ?_ (form.value r)
    exact fun hname => hother ((form.isName_key_iff hr).1 hname)

/-- The path of the ratings of all books stands for itself. -/
theorem resolves_ratings :
    ∃ t, posAll.register (ofText "<Books.$[].Rating>")
        [.member "Books", .index (.literal 0), .member "Rating"] = .ok t ∧
      t.render = .ok "Books.$[].Rating" := by
  obtain ⟨t, hregister, -, hrender, -⟩ :=
    resolves posAll (e := [.member "Books", .index (.literal 0), .member "Rating"]) rfl
  refine ⟨t, hregister, hrender ?_⟩
  have hchars : ["Books", "Rating"].all (fun name => name.toList.all isNameChar) = true := by decide
  intro name hname
  exact List.all_eq_true.1 (List.all_eq_true.1 hchars name hname)

/-- A member with a blank is accepted, but its token is not read. -/
theorem misses_blank :
    ∃ t, property.register (ofText "<a b>") [.member "a b"] = .ok t ∧
      t.values = [("a b", "a b")] ∧ t.render = .error (.unresolvedTokens ["<a b>"]) := by
  have hname : ¬ IsName "a b" := fun h => absurd (h.isNameChar ' ' (by decide)) (by decide)
  refine ⟨⟨bracketed "a b", [("a b", "a b")]⟩, ?_, rfl, ?_⟩
  · rw [register_eq]
    exact congrArg Except.ok (congrArg (·.tag "a b" "a b") (ofText_bracketed "a b"))
  · exact render_bracketed_of_not_isName (by decide) (by decide) hname "a b"

end PathForm

end DocMapper.Template
