import DocMapper.Relation.Descriptor

set_option autoImplicit false

/-!
# Reading the names of join collections

`JoinName.ofText?` reads exactly the names that `JoinName.text` writes of readable parts
(`ofText?_eq_some_iff`). The parts of a relationship that can be declared are legal, legal parts are
readable, and no collection of an entity has the name of a join collection.
-/

namespace DocMapper.JoinName

variable {n : JoinName} {name : String}

theorem toList_text (n : JoinName) :
    n.text.toList =
      '~' :: (n.parent.toList ++
        '~' :: (n.child.toList ++ '(' :: (n.property.toList ++ [')']))) := by
  simp [text]

/-- Names whose parts end where they are read to end have the same parts if they have the same
text. -/
theorem text_inj {m : JoinName} (htext : m.text = n.text) (hm : '~' ∉ m.parent.toList)
    (hn : '~' ∉ n.parent.toList) (hm' : '(' ∉ m.child.toList) (hn' : '(' ∉ n.child.toList) :
    m = n := by
  have hsplit : ∀ {c : Char} {a b rest rest' : List Char}, a ++ c :: rest = b ++ c :: rest' →
      c ∉ a → c ∉ b → a = b ∧ rest = rest' := by
    intro c a b rest rest' heq ha hb
    have hread : splitOnce? c (a ++ c :: rest) = some (b, rest') :=
      splitOnce?_eq_some_iff.2 ⟨heq, hb⟩
    rw [splitOnce?_eq_some_iff.2 ⟨rfl, ha⟩] at hread
    exact Prod.mk.inj (Option.some.inj hread)
  have hlist := congrArg String.toList htext
  rw [toList_text, toList_text, List.cons.injEq] at hlist
  obtain ⟨hparent, hrest⟩ := hsplit hlist.2 hm hn
  obtain ⟨hchild, hrest⟩ := hsplit hrest hm' hn'
  have hproperty := List.append_cancel_right hrest
  cases m
  cases n
  simp only [String.toList_inj] at hparent hchild hproperty
  rw [hparent, hchild, hproperty]

/-! ## Readable names -/

/-- Parts that are found again in the name that they form. -/
structure IsReadable (n : JoinName) : Prop where
  parent_ne_empty : n.parent ≠ ""
  not_mem_parent : '~' ∉ n.parent.toList
  child_ne_empty : n.child ≠ ""
  not_mem_child : '(' ∉ n.child.toList
  property : ∀ c ∈ n.property.toList, isDelimiter c = false

/-- A text without its final character. -/
theorem dropLast?_eq_some_iff {c : Char} {text front : List Char} :
    dropLast? c text = some front ↔ text = front ++ [c] := by
  unfold dropLast?
  split
  · rename_i hlast
    obtain ⟨ys, rfl⟩ := List.getLast?_eq_some_iff.1 hlast
    simp
  · rename_i hlast
    constructor
    · intro h
      cases h
    · rintro rfl
      exact absurd (by simp) hlast

/-- A name is read as the readable parts that it is written from. -/
theorem ofText?_eq_some_iff : ofText? name = some n ↔ n.text = name ∧ n.IsReadable := by
  constructor
  · intro h
    unfold ofText? at h
    split at h
    · rename_i rest hname
      simp only [Option.bind_eq_bind, Option.bind_eq_some_iff, Prod.exists] at h
      obtain ⟨parent, tail, hparent, front, hfront, child, property, hchild, h⟩ := h
      obtain ⟨rfl, hnotParent⟩ := splitOnce?_eq_some_iff.1 hparent
      obtain rfl := dropLast?_eq_some_iff.1 hfront
      obtain ⟨rfl, hnotChild⟩ := splitOnce?_eq_some_iff.1 hchild
      split at h
      · cases h
      · rename_i hparts
        simp only [Bool.or_eq_true, not_or, List.isEmpty_iff, List.any_eq_true, not_exists,
          not_and, Bool.not_eq_true] at hparts
        obtain rfl := Option.some.inj h
        refine ⟨String.toList_inj.1 ?_, ?_⟩
        · simp [toList_text, hname]
        · exact ⟨by simpa using hparts.1.1, by simpa using hnotParent,
            by simpa using hparts.1.2, by simpa using hnotChild, by simpa using hparts.2⟩
    · cases h
  · -- each cut is made where the part before it ends, since no part holds its delimiter
    rintro ⟨rfl, hn⟩
    have hparent : splitOnce? '~'
        (n.parent.toList ++ '~' :: (n.child.toList ++ '(' :: (n.property.toList ++ [')']))) =
        some (n.parent.toList, n.child.toList ++ '(' :: (n.property.toList ++ [')'])) :=
      splitOnce?_eq_some_iff.2 ⟨rfl, hn.not_mem_parent⟩
    have hlast : dropLast? ')' (n.child.toList ++ '(' :: (n.property.toList ++ [')'])) =
        some (n.child.toList ++ '(' :: n.property.toList) :=
      dropLast?_eq_some_iff.2 (by simp)
    have hchild : splitOnce? '(' (n.child.toList ++ '(' :: n.property.toList) =
        some (n.child.toList, n.property.toList) :=
      splitOnce?_eq_some_iff.2 ⟨rfl, hn.not_mem_child⟩
    unfold ofText?
    rw [toList_text]
    simp only [Option.bind_eq_bind, hparent, Option.bind_some, hlast, hchild]
    simpa [hn.parent_ne_empty, hn.child_ne_empty] using hn.property

theorem IsReadable.ofText?_text (hn : n.IsReadable) : ofText? n.text = some n :=
  ofText?_eq_some_iff.2 ⟨rfl, hn⟩

theorem IsReadable.text_eq_iff {m : JoinName} (hm : m.IsReadable) (hn : n.IsReadable) :
    m.text = n.text ↔ m.parent = n.parent ∧ m.child = n.child ∧ m.property = n.property := by
  rw [← JoinName.mk.injEq]
  refine ⟨fun htext => ?_, congrArg JoinName.text⟩
  exact text_inj htext hm.not_mem_parent hn.not_mem_parent hm.not_mem_child hn.not_mem_child

/-! ## Legal names -/

/-- Two collections that entities can have and a property that can be declared. -/
structure IsLegal (n : JoinName) : Prop where
  parent : isCollectionName n.parent = true
  child : isCollectionName n.child = true
  property : isProperty n.property = true

theorem ne_empty_of_isCollectionName (h : isCollectionName name = true) : name ≠ "" := by
  rintro rfl
  exact absurd h (by decide)

theorem isDelimiter_of_mem_collectionName (h : isCollectionName name = true) {c : Char}
    (hc : c ∈ name.toList) : isDelimiter c = false := by
  simp only [isCollectionName, Bool.and_eq_true, Bool.not_eq_true', List.any_eq_false] at h
  have hreserved := h.2 c hc
  simp only [isReservedInCollection, Bool.or_eq_true, decide_eq_true_eq, not_or] at hreserved
  simp [isDelimiter, hreserved]

/-- A property holds no character that delimits the parts of a name. -/
theorem isDelimiter_of_mem_property (h : isProperty name = true) {c : Char}
    (hc : c ∈ name.toList) : isDelimiter c = false := by
  simp only [isProperty, Bool.and_eq_true, List.all_eq_true] at h
  have hlegal := h.2 c hc
  cases hdelim : isDelimiter c with
  | false => rfl
  | true =>
      simp only [isDelimiter, Bool.or_eq_true, decide_eq_true_eq] at hdelim
      rcases hdelim with (rfl | rfl) | rfl <;> exact absurd hlegal (by decide)

theorem not_mem_collectionName {c : Char} (hc : isDelimiter c = true)
    (h : isCollectionName name = true) : c ∉ name.toList := fun hmem => by
  simp [isDelimiter_of_mem_collectionName h hmem] at hc

theorem IsLegal.isReadable (hn : n.IsLegal) : n.IsReadable where
  parent_ne_empty := ne_empty_of_isCollectionName hn.parent
  not_mem_parent := not_mem_collectionName rfl hn.parent
  child_ne_empty := ne_empty_of_isCollectionName hn.child
  not_mem_child := not_mem_collectionName rfl hn.child
  property := fun _ hc => isDelimiter_of_mem_property hn.property hc

/-- The name of a collection of an entity is not that of a join collection. -/
theorem text_ne_of_isCollectionName (h : isCollectionName name = true) : n.text ≠ name := by
  rintro rfl
  have hmem : '~' ∈ n.text.toList := by simp [toList_text]
  exact not_mem_collectionName rfl h hmem

/-- The name of a collection of an entity is not read as that of a join collection. -/
theorem ofText?_of_isCollectionName (h : isCollectionName name = true) : ofText? name = none := by
  cases hread : ofText? name with
  | none => rfl
  | some n => exact absurd (ofText?_eq_some_iff.1 hread).1 (text_ne_of_isCollectionName h)

end DocMapper.JoinName
