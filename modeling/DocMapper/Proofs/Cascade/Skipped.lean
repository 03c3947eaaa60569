import DocMapper.Proofs.Cascade.IdDelete

set_option autoImplicit false

/-!
# Listed join collections that a deletion skips

The pattern of a listing leaves parentheses out of a property, while a name is read only if its
property holds no `~` either. So a name with a third `~` is listed and then skipped without a word,
and the rows under it stay. Of the listed names these are the only ones that are skipped, and there
are such names for every collection (`skips_iff_hasThirdTilde`).

`Sample.marked` is a small store with the links of a counter under such a name
(`marked_link_stays`).
-/

namespace DocMapper

open Store

namespace JoinName

variable {collection name : String} {n : JoinName}

/-- Whether a name holds more than the two `~` that stand before its collections. -/
def hasThirdTilde (name : String) : Bool := 2 < name.toList.count '~'

/-- Between plain parts a third `~` can only be in the property. -/
theorem hasThirdTilde_text (hparent : isPlainPart n.parent = true)
    (hchild : isPlainPart n.child = true) :
    hasThirdTilde n.text = true ↔ '~' ∈ n.property.toList := by
  have hparent := List.count_eq_zero.2 (not_mem_of_isPlainPart (c := '~') rfl hparent)
  have hchild := List.count_eq_zero.2 (not_mem_of_isPlainPart (c := '~') rfl hchild)
  have hcount : n.text.toList.count '~' = 2 + n.property.toList.count '~' := by
    rw [toList_text]
    simp only [List.count_cons_self, List.count_append, hparent, hchild, Nat.zero_add,
      List.count_cons_of_ne (show ('(' : Char) ≠ '~' by decide),
      List.count_cons_of_ne (show (')' : Char) ≠ '~' by decide), List.count_nil, Nat.add_zero]
    omega
  rw [hasThirdTilde, decide_eq_true_eq, hcount, ← List.count_pos_iff]
  omega

/-- A listed name without a third `~` is read as one of two plain parts, one of them the
collection. -/
theorem exists_ofText?_of_find (hE : isCollectionName collection = true)
    (hfind : (Pattern.joining collection.toList).regex.find name = true)
    (hname : hasThirdTilde name = false) :
    ∃ n, ofText? name = some n ∧ (n.parent = collection ∨ n.child = collection) ∧
      isPlainPart n.parent = true ∧ isPlainPart n.child = true := by
  obtain ⟨n, rfl, hside, hparent, hchild, hproperty⟩ := exists_text_of_find hE hfind
  have htilde : '~' ∉ n.property.toList := by
    intro hmem
    rw [(hasThirdTilde_text hparent.2 hchild.2).2 hmem] at hname
    cases hname
  refine ⟨n, ofText?_eq_some_iff.2 ⟨rfl, ?_⟩, hside, hparent.2, hchild.2⟩
  exact {
    parent_ne_empty := hparent.1
    not_mem_parent := not_mem_of_isPlainPart rfl hparent.2
    child_ne_empty := hchild.1
    not_mem_child := not_mem_of_isPlainPart rfl hchild.2
    property := fun c hc => by
      have hne : c ≠ '~' := fun h => htilde (h ▸ hc)
      simp [isDelimiter, hproperty c hc, hne] }

/-- A listed name with a third `~` is not read. -/
theorem ofText?_eq_none_of_find (hE : isCollectionName collection = true)
    (hfind : (Pattern.joining collection.toList).regex.find name = true)
    (hname : hasThirdTilde name = true) : ofText? name = none := by
  obtain ⟨n, rfl, -, ⟨-, hparent⟩, ⟨-, hchild⟩, -⟩ := exists_text_of_find hE hfind
  have htilde := (hasThirdTilde_text hparent hchild).1 hname
  cases hread : ofText? n.text with
  | none => rfl
  | some m =>
    -- it would be read as its own parts, and the property of a readable name holds no `~`
    obtain rfl := eq_of_ofText?_text hparent hchild hread
    obtain ⟨-, hn⟩ := ofText?_eq_some_iff.1 hread
    exact absurd (hn.property '~' htilde) (by decide)

/-- For every collection a listing finds names with a third `~`. -/
theorem find_text_third (hE : isCollectionName collection = true) :
    (Pattern.joining collection.toList).regex.find (text ⟨collection, collection, "~"⟩) = true ∧
      hasThirdTilde (text ⟨collection, collection, "~"⟩) = true := by
  have hplain := isPlainPart_of_isCollectionName hE
  constructor
  · refine find_joining_iff.2 ⟨_, rfl, Or.inl ⟨rfl, ?_, isPlainPart_iff.1 hplain⟩, ?_⟩
    · exact ne_empty_of_isCollectionName hE
    · intro c hc
      obtain rfl : c = '~' := by simpa using hc
      decide
  · have hthird := hasThirdTilde_text (n := ⟨collection, collection, "~"⟩) hplain hplain
    exact hthird.2 (by simp)

/-- Of the listed names those without a third `~` have their rows deleted. -/
theorem joins_of_find (hE : isCollectionName collection = true)
    (hfind : (Pattern.joining collection.toList).regex.find name = true) :
    joins collection name = !hasThirdTilde name := by
  cases hname : hasThirdTilde name with
  | true => rw [joins, ofText?_eq_none_of_find hE hfind hname, Bool.not_true]
  | false =>
    obtain ⟨n, hread, hside, hparent, hchild⟩ := exists_ofText?_of_find hE hfind hname
    rw [joins, hread]
    simp [isParent, isChild, hside, hparent, hchild]

end JoinName

namespace Cascade

open JoinName

variable {collection name : String}

/-- The filter of the rows that link one of some identifiers. -/
def linkFilter (ids : Value) : Document :=
  [("$or", .array [
    .document [(parentField, .document [("$in", ids)])],
    .document [(childField, .document [("$in", ids)])]])]

/-- A name is taken up for a collection: it is read with the collection in it, and there is a filter
of its rows. -/
def TakesUp (collection name : String) : Prop :=
  (∃ n, ofText? name = some n ∧ (n.parent = collection ∨ n.child = collection)) ∧
    ∀ ids, joinDeleteFilter? name collection ids = some (linkFilter ids)

/-- A name is skipped for a collection: it is not read, and there is no filter of its rows. -/
def Skips (collection name : String) : Prop :=
  ofText? name = none ∧ ∀ ids, joinDeleteFilter? name collection ids = none

/-- There is one filter for the rows of a name, if there is one at all. -/
theorem joinDeleteFilter?_eq_some_iff {ids : Value} {filter : Document} :
    joinDeleteFilter? name collection ids = some filter ↔
      (∃ n, ofText? name = some n ∧ (n.parent = collection ∨ n.child = collection)) ∧
        linkFilter ids = filter := by
  rw [← joinDeleteFilter?_isSome_iff ids, joinDeleteFilter?]
  cases ofText? name with
  | none => simp
  | some n => by_cases hside : (n.isParent collection || n.isChild collection) = true <;>
      simp [hside, linkFilter]

theorem takesUp_of_find (hE : isCollectionName collection = true)
    (hfind : (Pattern.joining collection.toList).regex.find name = true)
    (hname : hasThirdTilde name = false) : TakesUp collection name := by
  obtain ⟨n, hread, hside, -⟩ := exists_ofText?_of_find hE hfind hname
  exact ⟨⟨n, hread, hside⟩, fun ids => joinDeleteFilter?_eq_some_iff.2 ⟨⟨n, hread, hside⟩, rfl⟩⟩

theorem skips_of_find (hE : isCollectionName collection = true)
    (hfind : (Pattern.joining collection.toList).regex.find name = true)
    (hname : hasThirdTilde name = true) : Skips collection name := by
  have hread := ofText?_eq_none_of_find hE hfind hname
  refine ⟨hread, fun ids => ?_⟩
  rw [joinDeleteFilter?, hread]

/-- The deletions besides the entities go to the listed names without a third `~`, in their order,
and to the chunks. -/
theorem sideDeletes_of_find (c : Cascade) {info : EntityInfo}
    (hE : isCollectionName info.collection = true) {listed : List String}
    (hlisted : ∀ name ∈ listed,
      (Pattern.joining info.collection.toList).regex.find name = true) (ids : Value) :
    c.sideDeletes info listed ids =
      ((listed.filter fun name => !hasThirdTilde name).map fun name => (name, linkFilter ids)) ++
        if info.isFile then [(c.chunkCollection, [(fileField, .document [("$in", ids)])])]
        else [] := by
  rw [sideDeletes, ← List.filterMap_eq_map, List.filterMap_filter]
  refine congrArg (· ++ _) (List.filterMap_congr fun name hmem => ?_)
  cases hname : hasThirdTilde name with
  | true =>
    rw [(skips_of_find hE (hlisted name hmem) hname).2 ids]
    rfl
  | false =>
    rw [(takesUp_of_find hE (hlisted name hmem) hname).2 ids]
    rfl

/-- Under a listed name a deletion that succeeds removes the links of what is deleted, unless the
name has a third `~`; then it removes nothing. -/
theorem loses_of_find {c : Cascade} {info : EntityInfo} {ids : List Value} {s t : Store}
    {result : DeleteResult} (hE : isCollectionName info.collection = true)
    (h : (c.deleteIds info ids).runOn s = (.ok result, t))
    (hfind : (Pattern.joining info.collection.toList).regex.find name = true)
    (hchunks : info.isFile = true → name ≠ c.chunkCollection) :
    s.catalog.Loses t.catalog name fun row => !hasThirdTilde name && row.links ids := by
  refine ((removes_of_deleteIds hE h).catalog name).congr fun row _ => ?_
  -- the pattern matches no collection of an entity, so the name is not that of the entities
  have hentities : name ≠ info.collection := by
    rintro rfl
    rw [find_joining_of_isCollectionName hE] at hfind
    cases hfind
  have hfile := holdsChunks_eq_false hchunks
  simp [reaches, hentities, hfile, joins_of_find hE hfind]

/-- Of the names that the pattern of an entity's collection matches, a deletion skips exactly those
with a third `~`: all others are read with the collection in them and have a filter. So the side
deletions of a batch are those of the listed names without a third `~`, and under these alone the
rows of what is deleted are removed. For every collection there is a name that is matched and
skipped. -/
theorem skips_iff_hasThirdTilde (c : Cascade) (info : EntityInfo)
    (hE : isCollectionName info.collection = true) :
    ∃ pattern, Pattern.ofText? (joinPattern info.collection) = some pattern ∧
      (∀ name, pattern.regex.find name = true →
        if hasThirdTilde name then Skips info.collection name
        else TakesUp info.collection name) ∧
      (∀ s t listed,
        (Store.listCollections (joinPattern info.collection)).runOn s = (.ok listed, t) →
        listed = s.catalog.names.filter pattern.regex.find ∧
          ∀ ids, c.sideDeletes info listed ids =
            ((listed.filter fun name => !hasThirdTilde name).map fun name =>
              (name, linkFilter ids)) ++
            if info.isFile then [(c.chunkCollection, [(fileField, .document [("$in", ids)])])]
            else []) ∧
      (∀ ids s t result, (c.deleteIds info ids).runOn s = (.ok result, t) →
        ∀ name, pattern.regex.find name = true →
          (info.isFile = true → name ≠ c.chunkCollection) →
          s.catalog.Loses t.catalog name fun row => !hasThirdTilde name && row.links ids) ∧
      ∃ name, pattern.regex.find name = true ∧ hasThirdTilde name = true := by
  refine ⟨_, Pattern.ofText?_joinPattern info.collection, ?names, ?listing, ?rows, ?some⟩
  case names =>
    intro name hfind
    split
    · next hname => exact skips_of_find hE hfind hname
    · next hname => exact takesUp_of_find hE hfind (Bool.eq_false_iff.2 hname)
  case listing =>
    intro s t listed hlist
    obtain ⟨r, hr, rfl, -⟩ := exists_of_listCollections hlist
    obtain rfl := eq_of_ofText?_joinPattern hr
    exact ⟨rfl, sideDeletes_of_find c hE fun name hmem => (List.mem_filter.1 hmem).2⟩
  case rows =>
    intro ids s t result hrun name hfind hchunks
    exact loses_of_find hE hrun hfind hchunks
  case some => exact ⟨_, find_text_third hE⟩

end Cascade

/-! ## A name that is skipped -/

namespace Sample

/-- A name of links of counters with a third `~`. -/
def markedName : String := "~shop.items~Counter(a~b)"

/-- A counter and a link of it under the name with a third `~`. -/
def marked : Store :=
  { Store.empty ⟨10⟩ with
    catalog := (Catalog.empty.insert "Counter"
        (Collection.empty.push (.integer 7) [("_id", .int64 7)])).insert markedName
        (Collection.empty.push (.objectId ⟨1⟩) itemRow) }

/-- A listing for counters finds the name. -/
theorem find_markedName : (Pattern.joining "Counter".toList).regex.find markedName = true := by
  have hparent : isCollectionName "shop.items" = true := by decide
  have hplain : ∀ c ∈ "shop.items".toList, JoinName.isDelimiter c = false :=
    fun _ => JoinName.isDelimiter_of_mem_collectionName hparent
  refine find_joining_iff.2 ⟨⟨"shop.items", "Counter", "a~b"⟩, rfl, Or.inr ⟨rfl, ?_, hplain⟩, ?_⟩
  · exact JoinName.ne_empty_of_isCollectionName hparent
  · simp

end Sample

open Sample JoinName in
/-- Of two names of links of counters the one is taken up and the one with a third `~` is skipped.
-/
theorem Cascade.skips_iff_hasThirdTilde_counter :
    isCollectionName "Counter" = true ∧ TakesUp "Counter" itemCounters.text ∧
      Skips "Counter" markedName := by
  have hE : isCollectionName counterInfo.collection = true := by decide
  obtain ⟨pattern, hpattern, hnames, -⟩ := skips_iff_hasThirdTilde shopCascade counterInfo hE
  rw [Pattern.ofText?_joinPattern] at hpattern
  obtain rfl := Option.some.inj hpattern
  have hitems := hnames itemCounters.text
    ((find_joining_text_iff hE isLegal_itemCounters).2 (Or.inr rfl))
  have hmarked := hnames markedName find_markedName
  rw [if_neg (by decide)] at hitems
  rw [if_pos (by decide)] at hmarked
  exact ⟨hE, hitems, hmarked⟩

open Sample JoinName in
/-- A listing for counters finds the name with a third `~`, but the name is not read and there is no
filter of its rows. Deleting the counter that is linked under it leaves the link. -/
theorem Cascade.marked_link_stays :
    isCollectionName counterInfo.collection = true ∧
      (∃ r, Regex.ofText? (joinPattern counterInfo.collection) = some r ∧
        r.find markedName = true) ∧
      ofText? markedName = none ∧
      (∀ ids, joinDeleteFilter? markedName counterInfo.collection ids = none) ∧
      ∃ result t, (shopCascade.deleteIds counterInfo [.int64 7]).runOn marked = (.ok result, t) ∧
        itemRow.refersTo childField [.int64 7] = true ∧
        itemRow ∈ t.catalog.documents markedName := by
  have hE : isCollectionName counterInfo.collection = true := by decide
  have haccepted : (Regex.ofText? (joinPattern counterInfo.collection)).isSome = true :=
    Regex.isSome_ofText?_joinPattern (by decide)
  obtain ⟨r, hr⟩ := Option.isSome_iff_exists.1 haccepted
  obtain ⟨hread, hfilter⟩ := skips_of_find hE find_markedName (by decide)
  obtain ⟨result, t, hrun⟩ :=
    exists_runOn_deleteIds shopCascade marked hE haccepted rfl rfl [.int64 7]
  refine ⟨hE, ⟨r, hr, ?_⟩, hread, hfilter, result, t, hrun, ?link, ?stays⟩
  · rw [eq_of_ofText?_joinPattern hr]
    exact find_markedName
  case link =>
    rw [refersTo_child_itemRow]
    decide
  case stays =>
    have hloses := loses_of_find hE hrun find_markedName fun _ => by decide
    refine hloses.mem_documents_iff.2 ⟨List.mem_singleton_self _, ?_⟩
    rw [show hasThirdTilde markedName = true by decide, Bool.not_true, Bool.false_and]

end DocMapper
