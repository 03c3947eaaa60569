import DocMapper.Cascade
import DocMapper.Proofs.Relation.Acceptance
import DocMapper.Proofs.Store.Deletion

set_option autoImplicit false

/-!
# What a deletion of entities takes along

`JoinName.joins` is the test of the names whose rows are deleted along with the entities of a
collection: those that a listing finds and that are read with the collection in them
(`listed_iff_joins`). Of their rows the filter takes those that link one of the identifiers, on
either side (`means_joinDeleteFilter?`).

A batch is written with the recursion `Cascade.deleteEach` (`deleteBatch_eq`), and what a row of
deletions removes follows by induction on it.
-/

namespace DocMapper

open Store

/-! ## The join collections of a collection -/

namespace JoinName

variable {collection name : String} {n : JoinName} {r : Regex}

/-- Whether a part of a name holds no delimiter. -/
def isPlainPart (part : String) : Bool := !part.toList.any isDelimiter

/-- Whether a name is that of a join collection of a given collection. -/
def joins (collection name : String) : Bool :=
  match ofText? name with
  | some n =>
      (n.isParent collection || n.isChild collection) && isPlainPart n.parent && isPlainPart n.child
  | none => false

theorem isPlainPart_of_isCollectionName (h : isCollectionName name = true) :
    isPlainPart name = true := by
  rw [isPlainPart, Bool.not_eq_true', List.any_eq_false]
  intro c hc
  rw [isDelimiter_of_mem_collectionName h hc]
  exact Bool.false_ne_true

theorem isPlainPart_iff {part : String} :
    isPlainPart part = true ↔ ∀ c ∈ part.toList, isDelimiter c = false := by
  simp [isPlainPart]

theorem not_mem_of_isPlainPart {part : String} {c : Char} (hc : isDelimiter c = true)
    (h : isPlainPart part = true) : c ∉ part.toList := by
  intro hmem
  rw [isPlainPart_iff.1 h c hmem] at hc
  cases hc

theorem joins_text_iff (hn : n.IsLegal) :
    joins collection n.text = true ↔ n.parent = collection ∨ n.child = collection := by
  rw [joins, hn.isReadable.ofText?_text]
  simp [isParent, isChild, isPlainPart_of_isCollectionName hn.parent,
    isPlainPart_of_isCollectionName hn.child]

theorem joins_of_isCollectionName (h : isCollectionName name = true) :
    joins collection name = false := by
  rw [joins, ofText?_of_isCollectionName h]

/-- A name of two plain parts is read as its own parts, if it is read at all. -/
theorem eq_of_ofText?_text {m : JoinName} (hparent : isPlainPart n.parent = true)
    (hchild : isPlainPart n.child = true) (hread : ofText? n.text = some m) : m = n := by
  obtain ⟨htext, hm⟩ := ofText?_eq_some_iff.1 hread
  exact text_inj htext hm.not_mem_parent (not_mem_of_isPlainPart rfl hparent) hm.not_mem_child
    (not_mem_of_isPlainPart rfl hchild)

/-- A name that a listing for an entity's collection finds is that of two plain parts, of which one
is the collection, and of a property without parentheses. -/
theorem exists_text_of_find (hE : isCollectionName collection = true)
    (hfind : (Pattern.joining collection.toList).regex.find name = true) :
    ∃ n : JoinName, n.text = name ∧ (n.parent = collection ∨ n.child = collection) ∧
      (n.parent ≠ "" ∧ isPlainPart n.parent = true) ∧ (n.child ≠ "" ∧ isPlainPart n.child = true) ∧
      ∀ c ∈ n.property.toList, c ≠ '(' ∧ c ≠ ')' := by
  have hcollection := And.intro (ne_empty_of_isCollectionName hE)
    (isPlainPart_of_isCollectionName hE)
  obtain ⟨n, htext, hside, hproperty⟩ := find_joining_iff.1 hfind
  refine ⟨n, htext, hside.imp And.left And.left, ?_⟩
  rcases hside with ⟨rfl, hchild⟩ | ⟨rfl, hparent⟩
  · exact ⟨hcollection, ⟨hchild.1, isPlainPart_iff.2 hchild.2⟩, hproperty⟩
  · exact ⟨⟨hparent.1, isPlainPart_iff.2 hparent.2⟩, hcollection, hproperty⟩

/-- Whether rows of a collection are deleted along with entities: the name is listed, and it is read
as one with the entities' collection in it. -/
theorem listed_iff_joins (hE : isCollectionName collection = true)
    (hr : Regex.ofText? (joinPattern collection) = some r) (name : String) :
    (r.find name = true ∧
        ∃ n, ofText? name = some n ∧ (n.parent = collection ∨ n.child = collection)) ↔
      joins collection name = true := by
  obtain rfl := eq_of_ofText?_joinPattern hr
  constructor
  · rintro ⟨hfind, n, hread, hside⟩
    -- the parts that the pattern finds are plain, so the name is read as these
    obtain ⟨m, rfl, -, ⟨-, hparent⟩, ⟨-, hchild⟩, -⟩ := exists_text_of_find hE hfind
    obtain rfl := eq_of_ofText?_text hparent hchild hread
    rw [joins, hread]
    simp [isParent, isChild, hside, hparent, hchild]
  · intro h
    unfold joins at h
    cases hread : ofText? name with
    | none =>
      rw [hread] at h
      cases h
    | some n =>
      rw [hread] at h
      simp only [isParent, isChild, Bool.and_eq_true, Bool.or_eq_true, decide_eq_true_eq] at h
      obtain ⟨⟨hside, hparent⟩, hchild⟩ := h
      obtain ⟨rfl, hn⟩ := ofText?_eq_some_iff.1 hread
      refine ⟨find_joining_iff.2 ⟨n, rfl, ?_, fun c hc => ?_⟩, n, rfl, hside⟩
      · rcases hside with h | h
        · exact Or.inl ⟨h, hn.child_ne_empty, isPlainPart_iff.1 hchild⟩
        · exact Or.inr ⟨h, hn.parent_ne_empty, isPlainPart_iff.1 hparent⟩
      · have hdelimiter := hn.property c hc
        simp only [isDelimiter, Bool.or_eq_false_iff, decide_eq_false_iff_not] at hdelimiter
        exact hdelimiter.1

end JoinName

/-! ## The rows of a batch -/

/-- Whether a row links one of some values, on either side. -/
def Document.links (doc : Document) (values : List Value) : Bool :=
  doc.refersTo parentField values || doc.refersTo childField values

@[simp] theorem Document.links_nil (doc : Document) : doc.links [] = false := by
  simp [links]

theorem Document.links_append (doc : Document) (xs ys : List Value) :
    doc.links (xs ++ ys) = (doc.links xs || doc.links ys) := by
  rw [links, links, links, refersTo_append, refersTo_append]
  ac_rfl

section Filters

variable {join collection : String} {ids : List Value} {filter : Document}

/-- There is a filter for the rows of a name that is read with the collection in it. -/
theorem joinDeleteFilter?_isSome_iff (ids : Value) :
    (joinDeleteFilter? join collection ids).isSome = true ↔
      ∃ n, JoinName.ofText? join = some n ∧ (n.parent = collection ∨ n.child = collection) := by
  unfold joinDeleteFilter?
  cases JoinName.ofText? join with
  | none => simp
  | some n =>
    by_cases hparent : n.parent = collection <;> by_cases hchild : n.child = collection <;>
      simp [JoinName.isParent, JoinName.isChild, hparent, hchild]

/-- The names that are listed for a collection are those that its rows are deleted under. Of the
names of join collections with legal parts the pattern of the collection matches exactly those in
which the collection is the parent or the child, whatever characters the names have, and exactly for
these there is a filter of rows; it matches no name of an entity's collection. The pattern of a name
that is not too long is accepted, and one that is accepted is the one that is read. -/
theorem JoinName.listed_iff (n : JoinName) (collection : String) (hn : n.IsLegal)
    (hcollection : isCollectionName collection = true) :
    ∃ pattern, Pattern.ofText? (joinPattern collection) = some pattern ∧
      (pattern.regex.find n.text = true ↔ n.parent = collection ∨ n.child = collection) ∧
      (∀ ids, pattern.regex.find n.text = true ↔
        (joinDeleteFilter? n.text collection ids).isSome = true) ∧
      (∀ name, isCollectionName name = true → pattern.regex.find name = false) ∧
      (∀ r, Regex.ofText? (joinPattern collection) = some r → r = pattern.regex) ∧
      (Pattern.byteCount collection.toList ≤ Pattern.maxNameSize →
        Regex.ofText? (joinPattern collection) = some pattern.regex) := by
  have hfind := find_joining_text_iff hcollection hn
  refine ⟨_, Pattern.ofText?_joinPattern collection, hfind, fun ids => ?_,
    fun name hname => find_joining_of_isCollectionName hname,
    fun r hr => eq_of_ofText?_joinPattern hr, fun hsize => ?_⟩
  · -- the name is read as its own parts, so both tests look at the same two collections
    rw [hfind, joinDeleteFilter?_isSome_iff, hn.isReadable.ofText?_text]
    simp only [Option.some.injEq, exists_eq_left']
  · obtain ⟨r, hr⟩ := Option.isSome_iff_exists.1 (Regex.isSome_ofText?_joinPattern hsize)
    rw [hr, eq_of_ofText?_joinPattern hr]

/-- The name of the one collection is a part of that of the other one, and both have characters with
a meaning in patterns. -/
theorem JoinName.listed_iff_metacharacters :
    ∃ r, Regex.ofText? (joinPattern "a.+") = some r ∧
      r.find (JoinName.text ⟨"a.+", "a.+\n[b]", "q"⟩) = true ∧
      r.find (JoinName.text ⟨"a.+\n[b]", "a", "q"⟩) = false := by
  obtain ⟨pattern, -, hfind, -, -, -, haccepted⟩ :=
    JoinName.listed_iff ⟨"a.+", "a.+\n[b]", "q"⟩ "a.+" ⟨by decide, by decide, by decide⟩ (by decide)
  obtain ⟨pattern', -, hfind', -, -, hread, -⟩ :=
    JoinName.listed_iff ⟨"a.+\n[b]", "a", "q"⟩ "a.+" ⟨by decide, by decide, by decide⟩ (by decide)
  have haccepted := haccepted (by decide)
  rw [← hread pattern.regex haccepted, ← not_iff_not, Bool.not_eq_true] at hfind'
  exact ⟨pattern.regex, haccepted, hfind.2 (Or.inl rfl), hfind'.2 (by decide)⟩

/-- The filter for the rows takes those that link one of the identifiers. -/
theorem means_joinDeleteFilter? (h : joinDeleteFilter? join collection (.array ids) = some filter) :
    Means filter fun doc => doc.links ids := by
  unfold joinDeleteFilter? at h
  split at h
  · cases h
  · split at h
    · obtain rfl := Option.some.inj h
      exact means_either Filter.isPlainField_parent Filter.isPlainField_child ids
    · cases h

theorem Filter.isPlainField_file : Filter.IsPlainField fileField := ⟨by decide, by decide⟩

end Filters

namespace Cascade

variable {c : Cascade} {info : EntityInfo} {ids : List Value} {s t : Store} {name : String}
variable {doc : Document} {r : DeleteResult}

/-! ## Deletions in a row -/

/-- Deletions one after another, without their reports. -/
def deleteEach (session : Option Session) : List (String × Document) → Action Unit
  | [] => return ()
  | (collection, filter) :: rest => do
      let _ ← Store.deleteMany collection filter session
      deleteEach session rest

/-- A batch deletes the entities and then, one after another, what goes along with them. -/
theorem deleteBatch_eq (c : Cascade) (info : EntityInfo) (ids : List Value) :
    c.deleteBatch info ids = (do
      let joins ← Store.listCollections (joinPattern info.collection)
      let result ←
        Store.deleteMany info.collection [("_id", JoinCollection.anyOf ids)] c.session
      deleteEach c.session (c.sideDeletes info joins (.array ids))
      return result) := by
  have hloop : ∀ deletes : List (String × Document),
      (forIn deletes PUnit.unit fun delete _ => do
        let _ ← Store.deleteMany delete.1 delete.2 c.session
        pure (ForInStep.yield PUnit.unit)) = deleteEach c.session deletes := by
    intro deletes
    induction deletes with
    | nil => rfl
    | cons delete rest ih =>
      rw [List.forIn_cons, bind_assoc]
      simp only [pure_bind, ih]
      rfl
  unfold deleteBatch
  simp only [← hloop]

/-- Deletions in a row remove what any of them takes. -/
theorem removes_of_deleteEach {session : Option Session} {deletes : List (String × Document)}
    (h : (deleteEach session deletes).runOn s = (.ok (), t)) :
    Removes (fun name doc => deletes.any fun delete =>
      name = delete.1 && takes delete.2 doc) s t := by
  induction deletes generalizing s with
  | nil =>
    obtain ⟨-, rfl⟩ := Prod.mk.inj h
    exact Removes.refl s
  | cons delete rest ih =>
    obtain ⟨_, u, hfirst, hrest⟩ := Action.runOn_bind_eq_ok_iff.1 h
    exact (removes_of_deleteMany hfirst).trans (ih hrest)

/-- Deletions in a row remove, whether they succeed or fail, at most what some of them takes. -/
theorem keeps_shrinks_deleteEach {removable : String → Document → Bool}
    (session : Option Session) (deletes : List (String × Document))
    (hremovable : ∀ delete ∈ deletes, ∀ doc,
      takes delete.2 doc = true → removable delete.1 doc = true) :
    (deleteEach session deletes).Keeps (Shrinks removable) := by
  induction deletes with
  | nil => exact Action.Keeps.pure ()
  | cons delete rest ih =>
    refine Action.Keeps.bind ?_ fun _ => ih ?_
    · exact keeps_shrinks_deleteMany session (hremovable delete List.mem_cons_self)
    · intro other hother
      exact hremovable other (List.mem_cons_of_mem _ hother)

/-- Deletions in a row succeed if their filters can be read and none is set to fail. -/
theorem exists_runOn_deleteEach (session : Option Session) {deletes : List (String × Document)}
    (hmeans : ∀ delete ∈ deletes, ∃ test, Means delete.2 test) (hfails : s.failingDeletes = []) :
    ∃ t, (deleteEach session deletes).runOn s = (.ok (), t) := by
  induction deletes generalizing s with
  | nil => exact ⟨s, rfl⟩
  | cons delete rest ih =>
    obtain ⟨test, htest⟩ := hmeans delete List.mem_cons_self
    obtain ⟨_, u, hfirst⟩ := exists_runOn_deleteMany s delete.1 session htest
      (by simp [hfails])
    have hu : u.failingDeletes = [] :=
      (removes_of_deleteMany hfirst).failingDeletes_eq.trans hfails
    obtain ⟨t, hrest⟩ := ih (fun other hother => hmeans other (List.mem_cons_of_mem _ hother)) hu
    exact ⟨t, Action.runOn_bind_eq_ok_iff.2 ⟨_, u, hfirst, hrest⟩⟩

end Cascade

end DocMapper
