import DocMapper.Proofs.Cascade.IdDelete

set_option autoImplicit false

/-!
# Which links a deletion removes

The filter for the rows of a join collection asks both of their sides for the deleted identifiers,
whichever of the two collections the entities are deleted from. So a deletion removes no row other
than those with one of the identifiers on some side, and all of those if it succeeds
(`deleteIds_unlinks`). It removes the links of deleted entities only if no identifier on the other
side is among the deleted ones; where the two collections share a number it also removes the link of
an entity that stays (`unlinks_other_item`).
-/

namespace DocMapper.Cascade

open Store

variable {c : Cascade} {info : EntityInfo} {ids : List Value} {s : Store} {n : JoinName}

/-- Whether deleting the entities with some identifiers removes a row: one of its sides has one of
them, or the rows are at the same time the chunks of a file entity. -/
def unlinks (c : Cascade) (info : EntityInfo) (ids : List Value) (n : JoinName)
    (row : Document) : Bool :=
  row.refersTo parentField ids || row.refersTo childField ids ||
    (info.isFile && c.chunkCollection = n.text && row.refersTo fileField ids)

theorem isCollectionName_of_side {collection : String} (hn : n.IsLegal)
    (hside : n.parent = collection ∨ n.child = collection) :
    isCollectionName collection = true := by
  rcases hside with rfl | rfl
  · exact hn.parent
  · exact hn.child

theorem reaches_text (hn : n.IsLegal)
    (hside : n.parent = info.collection ∨ n.child = info.collection) (row : Document) :
    c.reaches info ids n.text row = c.unlinks info ids n row := by
  have hE := isCollectionName_of_side hn hside
  simp [reaches, unlinks, JoinName.text_ne_of_isCollectionName hE,
    (JoinName.joins_text_iff hn).2 hside, Document.links, eq_comm]

/-- A deletion removes from a join collection of the entities only rows that it unlinks, and all of
these if it succeeds. Then it removes only links of deleted children exactly if every row that it
unlinks is one of them, and likewise for parents. -/
theorem deleteIds_unlinks (c : Cascade) (info : EntityInfo) (ids : List Value) (s : Store)
    (hn : n.IsLegal) (hside : n.parent = info.collection ∨ n.child = info.collection) :
    let result := ((c.deleteIds info ids).runOn s).1
    let t := ((c.deleteIds info ids).runOn s).2
    (∃ lost : Document → Bool, (∀ row, lost row = true → c.unlinks info ids n row = true) ∧
        s.catalog.Loses t.catalog n.text lost) ∧
      ∀ r, result = .ok r →
        s.catalog.Loses t.catalog n.text (c.unlinks info ids n) ∧
          ∀ field, (∀ row ∈ s.catalog.documents n.text,
              row ∉ t.catalog.documents n.text → row.refersTo field ids = true) ↔
            ∀ row ∈ s.catalog.documents n.text,
              c.unlinks info ids n row = true → row.refersTo field ids = true := by
  intro result t
  have hE := isCollectionName_of_side hn hside
  refine ⟨?_, fun r hr => ?_⟩
  · -- even a failed deletion takes only what it reaches
    obtain ⟨removed, hremoved, h⟩ := keeps_shrinks_deleteIds hE s
    refine ⟨removed n.text, fun row hrow => ?_, h.catalog n.text⟩
    rw [← reaches_text hn hside]
    exact hremoved n.text row hrow
  · have hrun : (c.deleteIds info ids).runOn s = (.ok r, t) := Prod.ext hr rfl
    have hloses : s.catalog.Loses t.catalog n.text (c.unlinks info ids n) :=
      ((removes_of_deleteIds hE hrun).catalog n.text).congr fun row _ =>
        reaches_text hn hside row
    refine ⟨hloses, fun field => ?_⟩
    -- after a success the rows that are gone are those that the deletion unlinks
    have hgone : ∀ row ∈ s.catalog.documents n.text,
        row ∉ t.catalog.documents n.text ↔ c.unlinks info ids n row = true := by
      intro row hrow
      rw [hloses.mem_documents_iff, not_and, Bool.not_eq_false]
      exact ⟨fun h => h hrow, fun h _ => h⟩
    constructor
    · intro h row hrow hunlinks
      exact h row hrow ((hgone row hrow).2 hunlinks)
    · intro h row hrow hnot
      exact h row hrow ((hgone row hrow).1 hnot)

open Sample in
/-- Deleting the counter that is linked removes its link. -/
theorem deleteIds_unlinks_counter :
    shopCascade.unlinks counterInfo [.int64 7] itemCounters itemRow = true ∧
      ∃ r t, (shopCascade.deleteIds counterInfo [.int64 7]).runOn linked = (.ok r, t) ∧
        t.catalog.documents itemCounters.text = [] := by
  have hunlinks : shopCascade.unlinks counterInfo [.int64 7] itemCounters itemRow = true := by
    simp [unlinks, refersTo_child_itemRow, Value.key?]
  obtain ⟨r, t, h⟩ := exists_runOn_deleteIds shopCascade linked
    (show isCollectionName counterInfo.collection = true by decide)
    (Regex.isSome_ofText?_joinPattern (by decide)) rfl rfl [.int64 7]
  have hrows := ((deleteIds_unlinks shopCascade counterInfo [.int64 7] linked
    isLegal_itemCounters (Or.inr rfl)).2 r (congrArg Prod.fst h)).1
  refine ⟨hunlinks, r, t, h, ?_⟩
  rw [h] at hrows
  rw [hrows.documents, show linked.catalog.documents itemCounters.text = [itemRow] from rfl,
    List.filter_cons, hunlinks]
  rfl

open Sample in
/-- Deleting the counter with the number of the item removes the link of the item with the other
counter, although both of these stay. -/
theorem unlinks_other_item :
    ∃ r t, (shopCascade.deleteIds counterInfo [.int64 5]).runOn linked = (.ok r, t) ∧
      itemCounters.IsLegal ∧ itemCounters.parent ≠ itemCounters.child ∧
      itemCounters.child = counterInfo.collection ∧
      itemRow ∈ linked.catalog.documents itemCounters.text ∧
      itemRow.refersTo childField [.int64 5] = false ∧
      [("_id", .int64 5)] ∈ t.catalog.documents "shop.items" ∧
      [("_id", .int64 7)] ∈ t.catalog.documents "Counter" ∧
      itemRow ∉ t.catalog.documents itemCounters.text := by
  have hE : isCollectionName counterInfo.collection = true := by decide
  obtain ⟨r, t, h⟩ := exists_runOn_deleteIds shopCascade linked hE
    (Regex.isSome_ofText?_joinPattern (by decide)) rfl rfl [.int64 5]
  have hremoved := (removes_of_deleteIds hE h).catalog
  have hitems : JoinName.joins "Counter" "shop.items" = false :=
    JoinName.joins_of_isCollectionName (by decide)
  have hcounters : JoinName.joins "Counter" "Counter" = false :=
    JoinName.joins_of_isCollectionName (by decide)
  refine ⟨r, t, h, isLegal_itemCounters, by decide, rfl, ?row, ?child, ?item, ?counter, ?gone⟩
  case row =>
    rw [show linked.catalog.documents itemCounters.text = [itemRow] from rfl]
    exact List.mem_singleton_self _
  case child =>
    rw [refersTo_child_itemRow]
    decide
  case item =>
    rw [(hremoved "shop.items").mem_documents_iff]
    refine ⟨List.mem_singleton_self _, ?_⟩
    simp [reaches, hitems, counterInfo]
  case counter =>
    rw [(hremoved "Counter").mem_documents_iff]
    refine ⟨List.mem_cons_of_mem _ (List.mem_singleton_self _), ?_⟩
    have hcounter : Document.refersTo [("_id", .int64 7)] "_id" [.int64 5] = false := by
      rw [Document.refersTo_of_get? rfl rfl]
      decide
    simp [reaches, hcounters, hcounter, counterInfo]
  case gone =>
    rw [(hremoved itemCounters.text).mem_documents_iff, not_and, Bool.not_eq_false]
    intro _
    rw [reaches_text isLegal_itemCounters (Or.inr rfl)]
    simp [unlinks, refersTo_parent_itemRow, Value.key?]

end DocMapper.Cascade
