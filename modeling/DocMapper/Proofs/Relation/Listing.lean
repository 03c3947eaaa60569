import DocMapper.Proofs.Regex.Language
import DocMapper.Proofs.Relation.JoinNames

set_option autoImplicit false

/-!
# Which names a listing of join collections finds

`ofText?_joinPattern` reads the pattern of a collection, with every character of its name standing
for itself, and `find_joining_iff` says which names it matches: those whose parent or whose child is
the collection, whose other collection is not empty and has no delimiter, and whose property has no
parenthesis. Of the names of legal parts these are the ones that join the collection
(`find_joining_text_iff`).
-/

namespace DocMapper

namespace Pattern

/-! ## Reading the pattern -/

/-- The characters of a text, each standing for itself. -/
def literal (text : List Char) : List Pattern := text.map char

/-- The characters that do not delimit the parts of a name. -/
def partCharacters : CharSet := ⟨true, [(')', ')'), ('(', '('), ('~', '~')]⟩

/-- The characters that are no parentheses. -/
def propertyCharacters : CharSet := ⟨true, [(')', ')'), ('(', '(')]⟩

/-- A part of a name that is not further known. -/
def somePart : Pattern := repeated (oneOf partCharacters) 1 none false

/-- The pattern of the names of join collections that join a collection. -/
def joining (collection : List Char) : Pattern :=
  sequence
    [startAnchor, char '~',
      group false (choice
        [ofParts (literal collection ++ [char '~', somePart]),
          ofParts (somePart :: char '~' :: literal collection)]),
      char '(', repeated (oneOf propertyCharacters) 0 none false, char ')', endAnchor]

namespace Parser

theorem foldlM_append_of_eq {text rest : List Char} {p q : Parser}
    (h : text.foldlM step? p = some q) : (text ++ rest).foldlM step? p = rest.foldlM step? q := by
  rw [List.foldlM_append, h]
  rfl

theorem isEscapable_of_isMeta {c : Char} (h : Regex.isMeta c = true) : isEscapable c = true := by
  have hmem : c ∈ "\\.+*?()|[]\x7b\x7d^$#&-~".toList := by simpa [Regex.isMeta] using h
  have hall : "\\.+*?()|[]\x7b\x7d^$#&-~".toList.all isEscapable = true := by decide
  exact List.all_eq_true.1 hall c hmem

theorem stepPlain?_of_not_isMeta (p : Parser) {c : Char} (h : Regex.isMeta c = false) :
    p.stepPlain? c = some (p.push (.char c)) := by
  unfold stepPlain?
  split <;> first | rfl | exact absurd h (by decide)

/-- An escaped text is read as its characters. -/
theorem foldlM_escape (text : List Char) (group : ParserGroup) (outer : List ParserGroup) :
    (text.flatMap fun c => if Regex.isMeta c then ['\\', c] else [c]).foldlM step?
        ⟨.plain, group, outer⟩ =
      some ⟨.plain, { group with parts := (literal text).reverse ++ group.parts }, outer⟩ := by
  induction text generalizing group with
  | nil => rfl
  | cons c rest ih =>
      have hread : (if Regex.isMeta c then ['\\', c] else [c]).foldlM step?
          ⟨.plain, group, outer⟩ = some ⟨.plain, group.push (.char c), outer⟩ := by
        split
        · rename_i h
          simp [step?, stepPlain?, push, isEscapable_of_isMeta h]
        · rename_i h
          simp [step?, stepPlain?_of_not_isMeta _ (Bool.not_eq_true _ ▸ h), push]
      rw [List.flatMap_cons, List.foldlM_append, hread]
      simp [ih, ParserGroup.push, literal]

end Parser

/-- The pattern of a listing is read with the collection's name standing for itself. -/
theorem ofText?_joinPattern (collection : String) :
    ofText? (joinPattern collection) = some (joining collection.toList) := by
  -- the fixed parts are read at once, and the name between them character by character
  have hopen : "^~(?:".toList.foldlM Parser.step? Parser.start =
      some ⟨.plain, ⟨false, [], []⟩, [⟨true, [], [.char '~', .startAnchor]⟩]⟩ := rfl
  have hbar (parts : List Pattern) (outer : List ParserGroup) :
      "~[^~()]+|[^~()]+~".toList.foldlM Parser.step? ⟨.plain, ⟨false, [], parts⟩, outer⟩ =
        some ⟨.plain, ⟨false, [ofParts (somePart :: .char '~' :: parts).reverse],
          [.char '~', somePart]⟩, outer⟩ := rfl
  have hclose (first : Pattern) (parts outer : List Pattern) :
      ")\\([^()]*\\)$".toList.foldlM Parser.step?
          ⟨.plain, ⟨false, [first], parts⟩, [⟨true, [], outer⟩]⟩ =
        some ⟨.plain, ⟨true, [], .endAnchor :: .char ')' ::
          .repeated (.oneOf propertyCharacters) 0 none false :: .char '(' ::
          .group false (.choice [first, ofParts parts.reverse]) :: outer⟩, []⟩ := rfl
  have htext : (joinPattern collection).toList =
      "^~(?:".toList ++ ((Regex.escape collection).toList ++ ("~[^~()]+|[^~()]+~".toList ++
        ((Regex.escape collection).toList ++ ")\\([^()]*\\)$".toList))) := by
    rw [joinPattern]
    simp only [String.toList_append, List.append_assoc]
  rw [ofText?, htext, Parser.foldlM_append_of_eq hopen, Regex.escape, String.toList_ofList,
    Parser.foldlM_append_of_eq (Parser.foldlM_escape _ _ _),
    Parser.foldlM_append_of_eq (hbar _ _),
    Parser.foldlM_append_of_eq (Parser.foldlM_escape _ _ _), hclose]
  simp [Parser.finish?, ParserGroup.finish, ParserGroup.current, joining, ofParts]

/-! ## The language of the pattern -/

section Language

variable {parts : List Pattern} {set : CharSet} {atStart atEnd : Bool} {word : List Char}

theorem matches_sequence_cons_iff (first : Pattern) :
    (regexOfSequence (first :: parts)).Matches atStart word atEnd ↔
      ∃ u v, word = u ++ v ∧ first.regex.Matches atStart u (atEnd && v.isEmpty) ∧
        (regexOfSequence parts).Matches (atStart && u.isEmpty) v atEnd :=
  Regex.matches_followedBy

theorem matches_ofParts :
    (ofParts parts).regex.Matches atStart word atEnd ↔
      (regexOfSequence parts).Matches atStart word atEnd := by
  unfold ofParts
  split
  · exact (Regex.matches_followedBy.trans Regex.matches_seq_empty).symm
  · rfl

/-- A set given by its characters one by one holds just these, or just the others. -/
theorem contains_singletons (negated : Bool) (chars : List Char) (c : Char) :
    CharSet.contains ⟨negated, chars.map fun d => (d, d)⟩ c = (decide (c ∈ chars) != negated) := by
  have hrange (d : Char) : (decide (d ≤ c) && decide (c ≤ d)) = decide (c = d) := by
    rw [← Bool.decide_and]
    exact decide_eq_decide.2 ⟨fun h => Char.le_antisymm h.2 h.1, fun h => by simp [h]⟩
  rw [CharSet.contains, List.any_map]
  congr 1
  induction chars with
  | nil => rfl
  | cons d chars ih => simp [ih, hrange]

/-- A character describes itself. -/
theorem matches_char_iff {c : Char} :
    (char c).regex.Matches atStart word atEnd ↔ word = [c] := by
  have hcontains (d : Char) : CharSet.contains ⟨false, [(c, c)]⟩ d = true ↔ d = c := by
    rw [show CharSet.mk false [(c, c)] = ⟨false, [c].map fun d => (d, d)⟩ from rfl,
      contains_singletons]
    simp
  simp only [regex, Regex.char, Regex.Matches, hcontains]
  constructor
  · rintro ⟨d, rfl, rfl⟩
    rfl
  · rintro rfl
    exact ⟨c, rfl, rfl⟩

/-- A row that begins with a character describes words that begin with it. -/
theorem matches_char_cons_iff {c : Char} :
    (regexOfSequence (char c :: parts)).Matches atStart word atEnd ↔
      ∃ rest, word = c :: rest ∧ (regexOfSequence parts).Matches false rest atEnd := by
  simp only [matches_sequence_cons_iff, matches_char_iff]
  constructor
  · rintro ⟨_, v, rfl, rfl, h⟩
    exact ⟨v, rfl, by simpa using h⟩
  · rintro ⟨rest, rfl, h⟩
    exact ⟨[c], rest, rfl, rfl, by simpa using h⟩

/-- A row that begins with a text describes words that begin with it. -/
theorem matches_literal_append_iff {text : List Char} :
    (regexOfSequence (literal text ++ parts)).Matches atStart word atEnd ↔
      ∃ rest, word = text ++ rest ∧
        (regexOfSequence parts).Matches (atStart && text.isEmpty) rest atEnd := by
  induction text generalizing atStart word with
  | nil => simp [literal]
  | cons c text ih =>
      change (regexOfSequence (char c :: (literal text ++ parts))).Matches _ _ _ ↔ _
      rw [matches_char_cons_iff]
      simp only [ih, List.isEmpty_cons, Bool.and_false, Bool.false_and, List.cons_append]
      constructor
      · rintro ⟨_, rfl, rest, rfl, h⟩
        exact ⟨rest, rfl, h⟩
      · rintro ⟨rest, rfl, h⟩
        exact ⟨text ++ rest, rfl, rest, rfl, h⟩

/-- Repeated characters of a set describe the words over the set. -/
theorem matches_star_one_iff :
    (Regex.one set).star.Matches atStart word atEnd ↔ ∀ c ∈ word, set.contains c = true := by
  induction word generalizing atStart with
  | nil => simp [Regex.matches_star_nil]
  | cons c word ih =>
      rw [Regex.matches_star_cons_iff, List.forall_mem_cons]
      constructor
      · rintro ⟨u, v, rfl, ⟨d, hd, hset⟩, hrest⟩
        obtain ⟨rfl, rfl⟩ := List.cons.inj hd
        exact ⟨hset, ih.1 hrest⟩
      · rintro ⟨hset, hrest⟩
        exact ⟨[], word, rfl, ⟨c, rfl, hset⟩, ih.2 hrest⟩

/-- At least one character of a set describes the words over the set that are not empty. -/
theorem matches_someOf_iff :
    (repeated (oneOf set) 1 none false).regex.Matches atStart word atEnd ↔
      word ≠ [] ∧ ∀ c ∈ word, set.contains c = true := by
  change ((Regex.one set).followedBy (Regex.one set).star).Matches _ _ _ ↔ _
  rw [Regex.matches_followedBy]
  simp only [Regex.Matches]
  constructor
  · rintro ⟨_, v, rfl, ⟨c, rfl, hset⟩, hrest⟩
    refine ⟨by simp, ?_⟩
    rw [List.singleton_append, List.forall_mem_cons]
    exact ⟨hset, matches_star_one_iff.1 hrest⟩
  · rintro ⟨hne, hset⟩
    cases word with
    | nil => exact absurd rfl hne
    | cons c word =>
        rw [List.forall_mem_cons] at hset
        exact ⟨[c], word, rfl, ⟨c, rfl, hset.1⟩, matches_star_one_iff.2 hset.2⟩

theorem contains_partCharacters (c : Char) :
    partCharacters.contains c = !JoinName.isDelimiter c := by
  rw [show partCharacters = ⟨true, [')', '(', '~'].map fun d => (d, d)⟩ from rfl,
    contains_singletons]
  simp [JoinName.isDelimiter, Bool.and_assoc, Bool.and_left_comm]

theorem contains_propertyCharacters_iff (c : Char) :
    propertyCharacters.contains c = true ↔ c ≠ '(' ∧ c ≠ ')' := by
  rw [show propertyCharacters = ⟨true, [')', '('].map fun d => (d, d)⟩ from rfl,
    contains_singletons]
  simp [and_comm]

theorem matches_somePart_iff :
    somePart.regex.Matches atStart word atEnd ↔
      word ≠ [] ∧ ∀ c ∈ word, JoinName.isDelimiter c = false := by
  rw [somePart, matches_someOf_iff]
  simp only [contains_partCharacters, Bool.not_eq_true']

theorem matches_property_iff :
    (repeated (oneOf propertyCharacters) 0 none false).regex.Matches atStart word atEnd ↔
      ∀ c ∈ word, c ≠ '(' ∧ c ≠ ')' := by
  change (Regex.one propertyCharacters).star.Matches _ _ _ ↔ _
  simp only [matches_star_one_iff, contains_propertyCharacters_iff]

theorem matches_singleton_iff {last : Pattern} :
    (regexOfSequence [last]).Matches atStart word atEnd ↔ last.regex.Matches atStart word atEnd :=
  Regex.matches_followedBy.trans Regex.matches_seq_empty

/-- The two collections of a name, of which the first or the second one is given. -/
theorem matches_collections_iff {collection : List Char} :
    (choice
        [ofParts (literal collection ++ [char '~', somePart]),
          ofParts (somePart :: char '~' :: literal collection)]).regex.Matches atStart word atEnd ↔
      ∃ parent child, word = parent ++ '~' :: child ∧
        ((parent = collection ∧ child ≠ [] ∧ ∀ c ∈ child, JoinName.isDelimiter c = false) ∨
          (child = collection ∧ parent ≠ [] ∧ ∀ c ∈ parent, JoinName.isDelimiter c = false)) := by
  -- the collection comes first
  have hfirst : (ofParts (literal collection ++ [char '~', somePart])).regex.Matches
      atStart word atEnd ↔ ∃ child, word = collection ++ '~' :: child ∧ child ≠ [] ∧
        ∀ c ∈ child, JoinName.isDelimiter c = false := by
    simp only [matches_ofParts, matches_literal_append_iff, matches_char_cons_iff,
      matches_singleton_iff, matches_somePart_iff]
    constructor
    · rintro ⟨_, rfl, child, rfl, hchild⟩
      exact ⟨child, rfl, hchild⟩
    · rintro ⟨child, rfl, hchild⟩
      exact ⟨_, rfl, child, rfl, hchild⟩
  -- the collection comes second
  have hsecond : (ofParts (somePart :: char '~' :: literal collection)).regex.Matches
      atStart word atEnd ↔ ∃ parent, word = parent ++ '~' :: collection ∧ parent ≠ [] ∧
        ∀ c ∈ parent, JoinName.isDelimiter c = false := by
    rw [← List.append_nil (literal collection)]
    simp only [matches_ofParts, matches_sequence_cons_iff somePart,
      matches_somePart_iff, matches_char_cons_iff, matches_literal_append_iff]
    constructor
    · rintro ⟨parent, _, rfl, hparent, _, rfl, _, rfl, hnil⟩
      obtain rfl : _ = [] := hnil
      exact ⟨parent, by simp, hparent⟩
    · rintro ⟨parent, rfl, hparent⟩
      exact ⟨parent, _, rfl, hparent, _, rfl, [], by simp, rfl⟩
  change (((ofParts _).regex.orElse ((ofParts _).regex.orElse .nothing))).Matches _ _ _ ↔ _
  rw [Regex.matches_orElse, Regex.matches_orElse, hfirst, hsecond]
  constructor
  · rintro (⟨child, rfl, hchild⟩ | ⟨parent, rfl, hparent⟩ | hnothing)
    · exact ⟨collection, child, rfl, Or.inl ⟨rfl, hchild⟩⟩
    · exact ⟨parent, collection, rfl, Or.inr ⟨rfl, hparent⟩⟩
    · exact hnothing.elim
  · rintro ⟨parent, child, rfl, ⟨rfl, hchild⟩ | ⟨rfl, hparent⟩⟩
    · exact Or.inl ⟨child, rfl, hchild⟩
    · exact Or.inr (Or.inl ⟨parent, rfl, hparent⟩)

/-- The pattern of a collection describes whole texts only: the two collections of a name and then
a property in parentheses. -/
theorem matches_joining_iff {collection : List Char} :
    (joining collection).regex.Matches atStart word atEnd ↔
      atStart = true ∧ atEnd = true ∧ ∃ parent child property,
        word = '~' :: (parent ++ '~' :: (child ++ '(' :: (property ++ [')']))) ∧
        ((parent = collection ∧ child ≠ [] ∧ ∀ c ∈ child, JoinName.isDelimiter c = false) ∨
          (child = collection ∧ parent ≠ [] ∧ ∀ c ∈ parent, JoinName.isDelimiter c = false)) ∧
        ∀ c ∈ property, c ≠ '(' ∧ c ≠ ')' := by
  change (regexOfSequence _).Matches _ _ _ ↔ _
  simp only [matches_sequence_cons_iff startAnchor,
    matches_sequence_cons_iff (group false _),
    matches_sequence_cons_iff (repeated _ _ _ _), matches_char_cons_iff,
    matches_singleton_iff, matches_property_iff]
  constructor
  · rintro ⟨_, _, rfl, ⟨hnil, hstart⟩, _, rfl, _, _, rfl, hnames, _, rfl, property, _, rfl,
      hproperty, _, rfl, hnil', hend⟩
    subst hnil hnil'
    obtain ⟨parent, child, rfl, hside⟩ := matches_collections_iff.1 hnames
    exact ⟨hstart, hend, parent, child, property, by simp, hside, hproperty⟩
  · rintro ⟨hstart, hend, parent, child, property, rfl, hside, hproperty⟩
    refine ⟨[], _, rfl, ⟨rfl, hstart⟩, _, rfl, parent ++ '~' :: child, _, by simp, ?_, _, rfl,
      property, _, rfl, hproperty, _, rfl, rfl, hend⟩
    exact matches_collections_iff.2 ⟨parent, child, rfl, hside⟩

end Language

end Pattern

/-! ## Listings -/

section Listing

variable {collection name : String} {r : Regex}

/-- The names that the pattern of a collection finds. -/
theorem find_joining_iff :
    (Pattern.joining collection.toList).regex.find name = true ↔
      ∃ n : JoinName, n.text = name ∧
        ((n.parent = collection ∧ n.child ≠ "" ∧
            ∀ c ∈ n.child.toList, JoinName.isDelimiter c = false) ∨
          (n.child = collection ∧ n.parent ≠ "" ∧
            ∀ c ∈ n.parent.toList, JoinName.isDelimiter c = false)) ∧
        ∀ c ∈ n.property.toList, c ≠ '(' ∧ c ≠ ')' := by
  simp only [Regex.find_iff, Pattern.matches_joining_iff, List.isEmpty_iff]
  constructor
  · rintro ⟨_, _, _, htext, rfl, rfl, parent, child, property, rfl, hside, hproperty⟩
    refine ⟨⟨.ofList parent, .ofList child, .ofList property⟩, ?_, ?_, by simpa using hproperty⟩
    · rw [← String.toList_inj, JoinName.toList_text, htext]
      simp
    · rcases hside with ⟨rfl, hne, hchild⟩ | ⟨rfl, hne, hparent⟩
      · exact Or.inl ⟨by simp, by simpa using hne, by simpa using hchild⟩
      · exact Or.inr ⟨by simp, by simpa using hne, by simpa using hparent⟩
  · rintro ⟨n, rfl, hside, hproperty⟩
    refine ⟨[], n.text.toList, [], by simp, rfl, rfl, n.parent.toList, n.child.toList,
      n.property.toList, n.toList_text, ?_, hproperty⟩
    rcases hside with ⟨rfl, hne, hchild⟩ | ⟨rfl, hne, hparent⟩
    · exact Or.inl ⟨rfl, by simpa using hne, hchild⟩
    · exact Or.inr ⟨rfl, by simpa using hne, hparent⟩

theorem eq_of_ofText?_joinPattern (hr : Regex.ofText? (joinPattern collection) = some r) :
    r = (Pattern.joining collection.toList).regex := by
  rw [Regex.ofText?, Pattern.ofText?_joinPattern, Option.map_eq_some_iff] at hr
  obtain ⟨pattern, hpattern, rfl⟩ := hr
  obtain rfl := Option.some.inj (Option.filter_eq_some_iff.1 hpattern).1
  rfl

/-- The names that a listing for a collection finds. -/
theorem find_joinPattern_iff (hr : Regex.ofText? (joinPattern collection) = some r) :
    r.find name = true ↔
      ∃ n : JoinName, n.text = name ∧
        ((n.parent = collection ∧ n.child ≠ "" ∧
            ∀ c ∈ n.child.toList, JoinName.isDelimiter c = false) ∨
          (n.child = collection ∧ n.parent ≠ "" ∧
            ∀ c ∈ n.parent.toList, JoinName.isDelimiter c = false)) ∧
        ∀ c ∈ n.property.toList, c ≠ '(' ∧ c ≠ ')' := by
  rw [eq_of_ofText?_joinPattern hr]
  exact find_joining_iff

/-- A listing for a collection does not find the collection itself. -/
theorem ne_of_find_joinPattern (hr : Regex.ofText? (joinPattern collection) = some r)
    (h : r.find name = true) : name ≠ collection := by
  obtain ⟨n, rfl, hside, -⟩ := (find_joinPattern_iff hr).1 h
  intro heq
  -- the name of a join collection is longer than its parts
  have hlength := congrArg List.length (congrArg String.toList heq)
  rw [JoinName.toList_text] at hlength
  rcases hside with ⟨rfl, -⟩ | ⟨rfl, -⟩ <;> simp at hlength <;> omega

/-- Of the names of legal parts the pattern of an entity's collection finds those that join the
collection. -/
theorem find_joining_text_iff (hcollection : isCollectionName collection = true) {n : JoinName}
    (hn : n.IsLegal) :
    (Pattern.joining collection.toList).regex.find n.text = true ↔
      n.parent = collection ∨ n.child = collection := by
  have hproperty : ∀ c ∈ n.property.toList, c ≠ '(' ∧ c ≠ ')' := by
    intro c hc
    have hdelim := JoinName.isDelimiter_of_mem_property hn.property hc
    simp only [JoinName.isDelimiter, Bool.or_eq_false_iff, decide_eq_false_iff_not] at hdelim
    exact hdelim.1
  constructor
  · intro hfind
    obtain ⟨m, htext, hside, -⟩ := find_joining_iff.1 hfind
    -- one part is the collection and the other one has no delimiter, so the name has no other parts
    have hparts : ∀ c, JoinName.isDelimiter c = true →
        c ∉ m.parent.toList ∧ c ∉ m.child.toList := by
      intro c hc
      have hlegal := JoinName.not_mem_collectionName hc hcollection
      rcases hside with ⟨rfl, -, hplain⟩ | ⟨rfl, -, hplain⟩
      · exact ⟨hlegal, fun hmem => by simp [hplain c hmem] at hc⟩
      · exact ⟨fun hmem => by simp [hplain c hmem] at hc, hlegal⟩
    obtain rfl := JoinName.text_inj htext (hparts '~' rfl).1 hn.isReadable.not_mem_parent
      (hparts '(' rfl).2 hn.isReadable.not_mem_child
    exact hside.imp And.left And.left
  · intro hjoins
    refine find_joining_iff.2 ⟨n, rfl, ?_, hproperty⟩
    rcases hjoins with h | h
    · exact Or.inl ⟨h, JoinName.ne_empty_of_isCollectionName hn.child,
        fun _ hc => JoinName.isDelimiter_of_mem_collectionName hn.child hc⟩
    · exact Or.inr ⟨h, JoinName.ne_empty_of_isCollectionName hn.parent,
        fun _ hc => JoinName.isDelimiter_of_mem_collectionName hn.parent hc⟩

/-- The pattern of a collection finds no collection of an entity. -/
theorem find_joining_of_isCollectionName (hname : isCollectionName name = true) :
    (Pattern.joining collection.toList).regex.find name = false := by
  rw [Bool.eq_false_iff]
  intro hfind
  obtain ⟨n, htext, -⟩ := find_joining_iff.1 hfind
  exact JoinName.text_ne_of_isCollectionName hname htext

end Listing

end DocMapper
