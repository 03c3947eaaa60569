import DocMapper.Proofs.Relation.HandleRuns
import DocMapper.Sample.Shop

set_option autoImplicit false

/-!
# Removing links at once and one by one

Links of a parent are removed at once by a filter that looks the child of a row up among the given
ones, and one by one by the filters of the pairs. On the rows of links both take the same
(`takes_pairs`), so the same rows are left. One by one, each call counts the rows that those
before it have left (`countP_or`), so a child that is given twice is counted once and the counts
add up to that of the single call (`HandleRun.removes_each`).
-/

namespace DocMapper

open Store

/-- What is counted by one of two tests: what the first one counts, and what the second one counts
of the rest. -/
theorem countP_or {α : Type} (items : List α) (p q : α → Bool) :
    (items.countP fun x => p x || q x) =
      items.countP p + (items.filter fun x => !p x).countP q := by
  induction items with
  | nil => rfl
  | cons x rest ih =>
    cases hp : p x with
    | true => simp [hp, ih, Nat.add_right_comm]
    | false => simp [hp, List.countP_cons, ih, Nat.add_assoc]

namespace JoinCollection

variable {j : JoinCollection} {s t : Store} {links : List Link} {p c : LinkId}
variable {children : List LinkId}

/-! ## What is taken -/

/-- Whether a document is taken by the pair of a parent and one of its given children. -/
def takesAny (p : LinkId) (children : List LinkId) (doc : Document) : Bool :=
  children.any fun c => takes (pair p.toValue c.toValue) doc

/-- The pairs take the rows of the links of the parent with the given children. -/
theorem takesAny_of_isRow {link : Link} {doc : Document} (hrow : IsRow link doc) :
    takesAny p children doc = decide (link.1 = p ∧ link.2 ∈ children) := by
  have hpair (c : LinkId) :
      takes (pair p.toValue c.toValue) doc = true ↔ link.1 = p ∧ link.2 = c := by
    have hmeans := means_pair (LinkId.isSome_key?_toValue p) (LinkId.isSome_key?_toValue c)
    rw [hmeans.takes_eq, hrow.holdsAt_parent, hrow.holdsAt_child, Bool.and_eq_true,
      decide_eq_true_eq, decide_eq_true_eq]
  rw [Bool.eq_iff_iff, takesAny, List.any_eq_true, decide_eq_true_eq]
  simp only [hpair]
  constructor
  · rintro ⟨c, hc, hparent, rfl⟩
    exact ⟨hparent, hc⟩
  · rintro ⟨hparent, hchild⟩
    exact ⟨link.2, hchild, hparent, rfl⟩

theorem takes_pairs {link : Link} {doc : Document} (hrow : IsRow link doc) :
    takes [(parentField, p.toValue), (childField, anyOf (children.map LinkId.toValue))] doc =
      takesAny p children doc := by
  have hmeans := means_pairs (LinkId.isSome_key?_toValue p) (children.map LinkId.toValue)
  rw [hmeans.takes_eq, hrow.holdsAt_parent, hrow.refersTo_child, takesAny_of_isRow hrow,
    Bool.decide_and]

theorem countP_takesAny (hholds : Holds s.catalog j.name links) :
    (s.catalog.documents j.name).countP (takesAny p children) =
      links.countP fun link => link.1 = p ∧ link.2 ∈ children := by
  unfold Holds at hholds
  generalize s.catalog.documents j.name = docs at hholds
  induction hholds with
  | nil => rfl
  | cons hrow _ ih => rw [List.countP_cons, List.countP_cons, takesAny_of_isRow hrow, ih]

/-! ## What is removed -/

/-- Links that are removed one by one: the pairs take the rows, and the counts add up. -/
theorem exists_runOn_removeEach (hfails : j.name ∉ s.failingDeletes) (p : LinkId)
    (children : List LinkId) :
    ∃ results t, (children.mapM fun c => j.remove p.toValue c.toValue).runOn s = (.ok results, t) ∧
      Removes (fun name doc => name = j.name && takesAny p children doc) s t ∧
      (results.map DeleteResult.deletedCount).sum =
        (s.catalog.documents j.name).countP (takesAny p children) := by
  -- by induction on the children: the rest is removed from what the first removal leaves
  induction children generalizing s with
  | nil =>
    refine ⟨[], s, rfl, (Removes.refl s).congr fun name doc _ => ?_, ?_⟩
    · rw [takesAny, List.any_nil, Bool.and_false]
    · exact (List.countP_eq_zero.2 fun _ _ => Bool.false_ne_true).symm
  | cons c rest ih =>
    obtain ⟨r, u, hfirst⟩ := j.exists_runOn_remove hfails p c
    have hremoves := removes_of_deleteMany hfirst
    have hreport := report_of_deleteMany hfirst
    obtain ⟨results, t, hrest, hremoves', hsum⟩ := ih (s := u) (by rwa [hremoves.failingDeletes_eq])
    refine ⟨r :: results, t, ?_, ?_, ?_⟩
    · rw [List.mapM_cons, Action.runOn_bind_of_ok hfirst, Action.runOn_bind_of_ok hrest]
      rfl
    · refine (hremoves.trans hremoves').congr fun name doc _ => ?_
      rw [takesAny, takesAny, List.any_cons, Bool.and_or_distrib_left]
    · have hleft : u.catalog.documents j.name = (s.catalog.documents j.name).filter fun doc =>
          !takes (pair p.toValue c.toValue) doc := by
        simpa using (hremoves.catalog j.name).documents
      have hboth : takesAny p (c :: rest) = fun doc =>
          takes (pair p.toValue c.toValue) doc || takesAny p rest doc := by
        funext doc
        exact List.any_cons
      rw [List.map_cons, List.sum_cons, hsum, hreport, hleft, hboth, countP_or]

/-- Links that are removed at once: on the rows of links the same are taken and counted. -/
theorem exists_runOn_removeAll (hholds : Holds s.catalog j.name links)
    (hfails : j.name ∉ s.failingDeletes) (p : LinkId) (children : List LinkId) :
    ∃ r t, (j.removeMany p.toValue (children.map LinkId.toValue)).runOn s = (.ok r, t) ∧
      Removes (fun name doc => name = j.name && takesAny p children doc) s t ∧
      r.deletedCount = (s.catalog.documents j.name).countP (takesAny p children) := by
  have htakes : ∀ doc ∈ s.catalog.documents j.name,
      takes [(parentField, p.toValue), (childField, anyOf (children.map LinkId.toValue))] doc =
        takesAny p children doc := by
    intro doc hdoc
    obtain ⟨link, -, hrow⟩ := hholds.exists_link hdoc
    exact takes_pairs hrow
  obtain ⟨r, t, hrun⟩ := j.exists_runOn_removeMany hfails p children
  refine ⟨r, t, hrun, ?_⟩
  unfold removeMany at hrun
  split at hrun
  · -- without children nothing is asked of the store
    rename_i hempty
    obtain rfl : children = [] := by simpa using hempty
    obtain ⟨hresult, rfl⟩ := Prod.mk.inj hrun
    obtain rfl := Except.ok.inj hresult
    refine ⟨(Removes.refl s).congr fun name doc _ => ?_, ?_⟩
    · rw [takesAny, List.any_nil, Bool.and_false]
    · exact (List.countP_eq_zero.2 fun _ _ => Bool.false_ne_true).symm
  · refine ⟨(removes_of_deleteMany hrun).congr fun name doc hdoc => ?_, ?_⟩
    · by_cases hname : name = j.name
      · subst hname
        rw [htakes doc hdoc]
      · simp [hname]
    · rw [report_of_deleteMany hrun]
      exact List.countP_congr fun doc hdoc => by rw [htakes doc hdoc]

/-- What the removal of the links of a parent with some children leaves under a name: all other
rows, in their order. The report counts the rows that are gone. -/
structure Unlinks (s t : Store) (name : String) (parent : Value) (children : List Value)
    (report : DeleteResult) : Prop where
  sublist : (t.catalog.documents name).Sublist (s.catalog.documents name)
  mem_iff : ∀ row, row ∈ t.catalog.documents name ↔
    row ∈ s.catalog.documents name ∧ ∀ child ∈ children, ¬ row.HasEnds parent child
  length_eq : report.deletedCount + (t.catalog.documents name).length =
    (s.catalog.documents name).length

/-- A row is taken if its ends are the parent and one of the children. -/
theorem takesAny_iff_of_isRow {link : Link} {doc : Document} (hrow : IsRow link doc) :
    takesAny p children doc = true ↔
      ∃ child ∈ children.map LinkId.toValue, doc.HasEnds p.toValue child := by
  rw [takesAny_of_isRow hrow, decide_eq_true_eq]
  simp [Document.HasEnds, hrow.parent, hrow.child, LinkId.toValue_inj, and_comm]

/-- The rows that the pairs take are those of the parent with the children. -/
theorem unlinks_of_removes (hholds : Holds s.catalog j.name links) {report : DeleteResult}
    (hremoves : Removes (fun name doc => name = j.name && takesAny p children doc) s t)
    (hcount : report.deletedCount = (s.catalog.documents j.name).countP (takesAny p children)) :
    Unlinks s t j.name p.toValue (children.map LinkId.toValue) report := by
  have hleft : t.catalog.documents j.name =
      (s.catalog.documents j.name).filter fun doc => !takesAny p children doc := by
    simpa using (hremoves.catalog j.name).documents
  refine ⟨?_, fun row => ?_, ?_⟩
  · rw [hleft]
    exact List.filter_sublist
  · rw [hleft, List.mem_filter]
    refine and_congr_right fun hrow => ?_
    obtain ⟨link, -, hends⟩ := hholds.exists_link hrow
    rw [Bool.not_eq_true', ← Bool.not_eq_true, takesAny_iff_of_isRow hends]
    simp
  · rw [hcount, hleft, ← List.countP_eq_length_filter,
      List.length_eq_countP_add_countP (takesAny p children)]
    simp only [decide_not, Bool.decide_eq_true]

/-- Where deletions are set to fail, links are removed neither at once nor one by one, and both fail
with the same error unless there is nothing to remove. -/
theorem runOn_removals_of_fails (hfails : j.name ∈ s.failingDeletes) (p : LinkId)
    (children : List LinkId) :
    ∃ result results t u,
      (j.removeMany p.toValue (children.map LinkId.toValue)).runOn s = (result, t) ∧
      (children.mapM fun c => j.remove p.toValue c.toValue).runOn s = (results, u) ∧
      t.catalog = s.catalog ∧ u.catalog = s.catalog ∧
      result.map DeleteResult.deletedCount =
        results.map fun reports => (reports.map DeleteResult.deletedCount).sum := by
  have hgate : s.failingDeletes.contains j.name = true := by simpa using hfails
  cases children with
  | nil => exact ⟨_, _, _, _, rfl, rfl, rfl, rfl, rfl⟩
  | cons c rest =>
    obtain ⟨f, hf, -⟩ :=
      means_pairs (LinkId.isSome_key?_toValue p) ((c :: rest).map LinkId.toValue)
    obtain ⟨f', hf', -⟩ :=
      means_pair (LinkId.isSome_key?_toValue p) (LinkId.isSome_key?_toValue c)
    have hall := runOn_deleteMany_of_fails j.session hf hgate
    obtain ⟨u, hfirst, hu⟩ : ∃ u, (j.remove p.toValue c.toValue).runOn s =
        (.error (.deleteFailed j.name), u) ∧ u.catalog = s.catalog :=
      ⟨_, runOn_deleteMany_of_fails j.session hf' hgate, rfl⟩
    refine ⟨_, .error (.deleteFailed j.name), _, u, hall, ?_, rfl, hu, rfl⟩
    rw [List.mapM_cons]
    exact Action.runOn_bind_eq_error_iff.2 (Or.inl hfirst)

end JoinCollection

/-! ## Handles -/

section Handles

variable {γ π ι κ : Type} [EntityId ι] [EntityId κ] [ReliableId ι] [ReliableId κ] [Entity γ ι]
variable [Entity π κ] {c : Context} {property : String} {id : κ} {l : Links γ .owner} {s : Store}

theorem ReliableId.exists_linkIds (ids : List ι) :
    ∃ linkIds : List LinkId, ids.map EntityId.toValue = linkIds.map LinkId.toValue := by
  choose linkId hlinkId using ReliableId.exists_linkId (ι := ι)
  refine ⟨ids.map linkId, ?_⟩
  rw [List.map_map]
  exact List.map_congr_left fun id _ => hlinkId id

/-- Removing several children at once is removing them one by one. In each store that handles have
written, and for any children, given once or more, linked or not, both ways lead to the same
contents: the same rows in their order under the name of the links, and all other collections as
they were. The count of the single removal is the sum of the others, or both fail alike. Where
deletions are not set to fail, the rows that are gone are those that link the entity with one of the
children (`JoinCollection.Unlinks`). -/
theorem HandleRun.removes_each (hlinks : c.links γ π .owner property id = .ok l)
    (hrun : HandleRun l.join.name s) (children : List ι) :
    ∃ result results t u,
      (l.removeMany children).runOn s = (result, t) ∧
      (children.mapM l.remove).runOn s = (results, u) ∧
      (∀ name, t.catalog.content? name = u.catalog.content? name) ∧
      (∀ name, name ≠ l.join.name → t.catalog.content? name = s.catalog.content? name) ∧
      (result.map DeleteResult.deletedCount =
        results.map fun reports => (reports.map DeleteResult.deletedCount).sum) ∧
      (l.join.name ∉ s.failingDeletes → ∃ report, result = .ok report ∧
        JoinCollection.Unlinks s t l.join.name l.entityId (children.map EntityId.toValue)
          report) := by
  obtain ⟨links, hholds, -⟩ := hrun.everywhere.catalog
  obtain ⟨a, ha⟩ := ReliableId.exists_linkId id
  obtain ⟨linkIds, hlinkIds⟩ := ReliableId.exists_linkIds children
  have hid : l.entityId = a.toValue := (Context.exists_isLegal_of_links hlinks).1.trans ha
  -- both ways in terms of the identifiers of links
  have hall : l.removeMany children = l.join.removeMany a.toValue (linkIds.map LinkId.toValue) := by
    rw [Links.removeMany, hid, hlinkIds]
  have heach : children.mapM l.remove =
      linkIds.mapM fun c => l.join.remove a.toValue c.toValue := by
    have hmap := congrArg (List.mapM (l.join.remove a.toValue)) hlinkIds
    rw [List.mapM_map, List.mapM_map] at hmap
    rw [← hid] at hmap ⊢
    exact hmap
  rw [hall, heach]
  by_cases hfails : l.join.name ∈ s.failingDeletes
  · obtain ⟨result, results, t, u, hresult, hresults, ht, hu, hcounts⟩ :=
      JoinCollection.runOn_removals_of_fails hfails a linkIds
    refine ⟨result, results, t, u, hresult, hresults, fun name => ?_, fun name _ => ?_, hcounts,
      fun h => absurd hfails h⟩
    · rw [ht, hu]
    · rw [ht]
  · obtain ⟨r, t, hr, hremoves, hcount⟩ :=
      JoinCollection.exists_runOn_removeAll hholds hfails a linkIds
    obtain ⟨results, u, hresults, hremoves', hsum⟩ :=
      JoinCollection.exists_runOn_removeEach hfails a linkIds
    refine ⟨_, _, t, u, hr, hresults, fun name => ?_, fun name hname => ?_, ?_,
      fun _ => ⟨r, rfl, ?_⟩⟩
    · exact Eq.trans (hremoves.catalog name) (hremoves'.catalog name).symm
    · exact hremoves.catalog.content?_eq fun doc => by rw [decide_eq_false hname, Bool.false_and]
    · rw [Except.map, Except.map, hcount, hsum]
    · rw [hid, hlinkIds]
      exact JoinCollection.unlinks_of_removes hholds hremoves hcount

end Handles

open Sample in
/-- A counter is linked to an item in a new store. It is removed together with one that is not
linked, and it is given twice: either way one row is removed. -/
theorem HandleRun.removes_each_counter :
    ∃ (l : Links Counter .owner) (s : Store),
      Context.links {} Counter Item .owner "Counters" (5 : Int64) = .ok l ∧
      HandleRun l.join.name s ∧ ∃ result results t u,
        (l.removeMany [(7 : Int64), 7, 8]).runOn s = (result, t) ∧
        ([(7 : Int64), 7, 8].mapM l.remove).runOn s = (results, u) ∧
        (∀ name, t.catalog.content? name = u.catalog.content? name) ∧
        result.map DeleteResult.deletedCount = .ok 1 ∧
        (results.map fun reports => (reports.map DeleteResult.deletedCount).sum) = .ok 1 := by
  obtain ⟨l, hlinks, hid, hcard⟩ : ∃ l : Links Counter .owner,
      Context.links {} Counter Item .owner "Counters" (5 : Int64) = .ok l ∧
        l.entityId = .int64 5 ∧ l.join.cardinality = .manyToMany := ⟨_, rfl, rfl, rfl⟩
  -- the counter is linked
  obtain ⟨s, hadd, hholds⟩ := JoinCollection.exists_runOn_add_of_absent (s := Store.empty ⟨0⟩) hcard
    rfl (.int64 5) (.int64 7)
  have hcall : (l.add (7 : Int64)).runOn (Store.empty ⟨0⟩) = (.ok (), s) := by
    rw [Links.add, hid]
    exact hadd
  have hrun : HandleRun l.join.name s := (HandleRun.start ⟨0⟩).add hlinks hcall
  have hfails : l.join.name ∉ s.failingDeletes := by
    rw [(l.join.keeps_failsAlike_add _ _).of_runOn hadd]
    exact List.not_mem_nil
  obtain ⟨result, results, t, u, hresult, hresults, hsame, -, hcounts, -⟩ :=
    HandleRun.removes_each hlinks hrun [(7 : Int64), 7, 8]
  -- the number of rows that are removed at once
  have hone : result.map DeleteResult.deletedCount = .ok 1 := by
    obtain ⟨r, t', hr, -, hcount⟩ := JoinCollection.exists_runOn_removeAll hholds hfails (.int64 5)
      [.int64 7, .int64 7, .int64 8]
    rw [Links.removeMany, hid] at hresult
    obtain ⟨rfl, -⟩ := Prod.mk.inj (hresult.symm.trans hr)
    rw [Except.map, hcount, JoinCollection.countP_takesAny hholds]
    rfl
  exact ⟨l, s, hlinks, hrun, result, results, t, u, hresult, hresults, hsame, hone,
    hcounts.symm.trans hone⟩

end DocMapper
