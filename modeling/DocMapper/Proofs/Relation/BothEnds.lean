import DocMapper.Proofs.Relation.OwnerRuns
import DocMapper.Proofs.Relation.Registry
import DocMapper.Proofs.Traversal
import DocMapper.Sample.Shop
import Mathlib.Data.Set.List

set_option autoImplicit false

/-!
# Both ends of a relationship

A handle reads the other ends of the links of its entity (`Links.exists_runOn_ids`): the owner's
handle asks for the rows of a parent and decodes their children, the inverse one asks for those of a
child and decodes their parents. Since both read the same rows, they see the same links, and where a
child has one parent the inverse handle yields one identifier at most (`OwnerRun.mirrored`). The
handles of the relationship itself fit into a run (`Mirrors.fits`).
-/

namespace DocMapper

open Store

/-! ## Reading identifiers -/

/-- The end of a link at which the entity of a handle stands. -/
def Side.ownEnd : Side → Link → LinkId
  | owner => Prod.fst
  | inverse => Prod.snd

/-- The end of a link that a handle reads. -/
def Side.otherEnd : Side → Link → LinkId
  | owner => Prod.snd
  | inverse => Prod.fst

section Reading

variable {γ ι : Type} [EntityId ι] [LawfulEntityId ι] {side : Side} {s t : Store}
variable {links : List Link} {a : LinkId}

theorem mapM_ofValue_eq_ok {ids : List ι} {α : Type} {f : α → Value} {items : List α}
    (h : items.map f = ids.map EntityId.toValue) :
    items.mapM (fun x => (EntityId.ofValue (f x) : Except Error ι)) = .ok ids := by
  rw [← List.forall₂_eq_eq_eq, List.forall₂_map_left_iff, List.forall₂_map_right_iff] at h
  refine mapM_eq_ok_iff.2 (h.imp fun x id hx => ?_)
  rw [EntityId.ofValue, hx, LawfulEntityId.ofValue?_toValue]

/-- The rows that a handle reads are those of the links of its entity, in order. -/
theorem Links.exists_runOn_rows {l : Links γ side} (hholds : Holds s.catalog l.join.name links)
    (ha : l.entityId = a.toValue) :
    ∃ rows t, l.rows.runOn s = (.ok rows, t) ∧
      rows.map (relatedValue side) =
        (links.filter fun link => side.ownEnd link = a).map fun link =>
          (side.otherEnd link).toValue := by
  cases side with
  | owner =>
    obtain ⟨rows, t, hrun, hends⟩ := JoinCollection.runOn_childrenOf hholds a
    rw [← ha] at hrun
    have hvalues := congrArg (List.map Prod.snd) hends
    rw [List.map_map, List.map_map] at hvalues
    exact ⟨rows, t, hrun, hvalues⟩
  | inverse =>
    obtain ⟨rows, t, hrun, hends⟩ := JoinCollection.runOn_parentsOf hholds a
    rw [← ha] at hrun
    have hvalues := congrArg (List.map Prod.fst) hends
    rw [List.map_map, List.map_map] at hvalues
    exact ⟨rows, t, hrun, hvalues⟩

/-- The rows that a handle reads hold identifiers, if the other ends of the links are such. -/
theorem Links.exists_runOn_rows_ids {l : Links γ side} (hholds : Holds s.catalog l.join.name links)
    (hother : ∀ link ∈ links, ∃ id : ι, EntityId.toValue id = (side.otherEnd link).toValue)
    (ha : l.entityId = a.toValue) :
    ∃ (rows : List JoinRow) (ids : List ι) (t : Store), l.rows.runOn s = (.ok rows, t) ∧
      l.ids.runOn s = (.ok ids, t) ∧ rows.map (relatedValue side) = ids.map EntityId.toValue ∧
      ids.map EntityId.toValue =
        (links.filter fun link => side.ownEnd link = a).map fun link =>
          (side.otherEnd link).toValue := by
  obtain ⟨rows, t, hrows, hvalues⟩ := l.exists_runOn_rows hholds ha
  -- each of the values is that of an identifier
  obtain ⟨ids, hids⟩ : ∃ ids : List ι, ids.map EntityId.toValue = rows.map (relatedValue side) := by
    rw [← Set.mem_range, Set.range_list_map, hvalues]
    intro value hvalue
    obtain ⟨link, hlink, rfl⟩ := List.mem_map.1 hvalue
    exact hother link (List.mem_filter.1 hlink).1
  refine ⟨rows, ids, t, hrows, ?_, hids.symm, hids.trans hvalues⟩
  rw [Links.ids, Action.runOn_bind_of_ok hrows, Action.runOn_mapM_ofExcept,
    mapM_ofValue_eq_ok hids.symm]

/-- Identifiers that are read are those at the other ends of the links of an entity. -/
theorem mem_iff_of_map_toValue_eq {ids : List ι}
    (h : ids.map EntityId.toValue =
      (links.filter fun link => side.ownEnd link = a).map fun link =>
        (side.otherEnd link).toValue) (id : ι) :
    id ∈ ids ↔ ∃ link ∈ links, side.ownEnd link = a ∧
      EntityId.toValue id = (side.otherEnd link).toValue := by
  have hinjective : Function.Injective (EntityId.toValue : ι → Value) :=
    fun _ _ => EntityId.toValue_inj.1
  rw [← List.mem_map_of_injective hinjective, h]
  simp [and_assoc, eq_comm]

/-- A handle reads the identifiers at the other ends of the links of its entity, one for each. -/
theorem Links.exists_runOn_ids {l : Links γ side} (hholds : Holds s.catalog l.join.name links)
    (hother : ∀ link ∈ links, ∃ id : ι, EntityId.toValue id = (side.otherEnd link).toValue)
    (ha : l.entityId = a.toValue) :
    ∃ (ids : List ι) (t : Store), l.ids.runOn s = (.ok ids, t) ∧
      (∀ id, id ∈ ids ↔ ∃ link ∈ links, side.ownEnd link = a ∧
        EntityId.toValue id = (side.otherEnd link).toValue) ∧
      ids.length = links.countP fun link => side.ownEnd link = a := by
  obtain ⟨-, ids, t, -, hids, -, hvalues⟩ := l.exists_runOn_rows_ids hholds hother ha
  refine ⟨ids, t, hids, mem_iff_of_map_toValue_eq hvalues, ?_⟩
  have hlength := congrArg List.length hvalues
  simpa [List.countP_eq_length_filter] using hlength

end Reading

/-! ## The two handles -/

section Mirrored

variable {γ π ι κ : Type} [EntityId ι] [EntityId κ] [Entity γ ι] [Entity π κ]
variable {property inverse : String} {card : Cardinality} {s : Store}

/-- The owner's handles for a relationship that is declared on both of its types fit. -/
theorem Mirrors.fits (h : Mirrors γ π property inverse card) {c : Context} {id : κ}
    {l : Links γ .owner} (hl : c.links γ π .owner property id = .ok l) (children : List ι) :
    l.Fits κ ι (ownedLinks γ π property).text card children := by
  obtain ⟨l', hl', hid, hjoin⟩ := h.exists_owner c id
  rw [hl] at hl'
  obtain rfl := Except.ok.inj hl'
  intro _
  exact ⟨by rw [hjoin], ⟨id, hid.symm⟩, fun child _ => ⟨child, rfl⟩⟩

/-- Where each child has one link, at most one of the links has a given child. -/
theorem countP_child_le_one {links : List Link} (h : (links.map Prod.snd).Nodup) (b : LinkId) :
    (links.countP fun link => link.2 = b) ≤ 1 := by
  have hcount := List.nodup_iff_count_le_one.1 h b
  rwa [List.count_eq_countP, List.countP_map] at hcount

/-- After each run over the links of owners both ends of a relationship see the same links. Where
two types, or one type, declare the ends of it, the owner's handle of a parent and the inverse
handle of a child are obtained in any contexts and read identifiers. The child is among those of the
parent exactly if a row links the two, and exactly if the parent is among those of the child; and
where a child has one parent the inverse handle yields one identifier at most. -/
theorem OwnerRun.mirrored [ReliableId ι] [ReliableId κ] (h : Mirrors γ π property inverse card)
    (hrun : OwnerRun κ ι (ownedLinks γ π property).text card s) (c c' : Context) (parent : κ)
    (child : ι) :
    ∃ (l : Links γ .owner) (l' : Links π .inverse) (children : List ι) (parents : List κ)
      (t t' : Store),
      c.links γ π .owner property parent = .ok l ∧ c'.links π γ .inverse inverse child = .ok l' ∧
      l.ids.runOn s = (.ok children, t) ∧ l'.ids.runOn s = (.ok parents, t') ∧
      (child ∈ children ↔ ∃ row ∈ s.catalog.documents (ownedLinks γ π property).text,
        row.HasEnds (EntityId.toValue parent) (EntityId.toValue child)) ∧
      (child ∈ children ↔ parent ∈ parents) ∧ (card = .oneToMany → parents.length ≤ 1) := by
  obtain ⟨links, hholds, hlinks⟩ := hrun.everywhere.catalog
  obtain ⟨a, ha⟩ := ReliableId.exists_linkId parent
  obtain ⟨b, hb⟩ := ReliableId.exists_linkId child
  obtain ⟨l, hl, hid, hjoin⟩ := h.exists_owner c parent
  obtain ⟨l', hl', hid', hjoin'⟩ := h.exists_inverse c' child
  -- both handles read the rows under one name, and each is asked whether a link of the two is there
  obtain ⟨children, t, hchildren, hmem, -⟩ :=
    l.exists_runOn_ids (by rwa [hjoin]) hlinks.child (hid.trans ha)
  have hchild : child ∈ children ↔ (a, b) ∈ links := by
    rw [hmem, hb]
    simp [Side.ownEnd, Side.otherEnd, LinkId.toValue_inj]
  obtain ⟨parents, t', hparents, hmem', hlength⟩ :=
    l'.exists_runOn_ids (by rwa [hjoin']) hlinks.parent (hid'.trans hb)
  have hparent : parent ∈ parents ↔ (a, b) ∈ links := by
    rw [hmem', ha]
    simp [Side.ownEnd, Side.otherEnd, LinkId.toValue_inj]
  refine ⟨l, l', children, parents, t, t', hl, hl', hchildren, hparents, ?_,
    hchild.trans hparent.symm, fun hcard => ?_⟩
  · rw [hchild, hholds.mem_iff, ha, hb]
  · rw [hlength]
    exact countP_child_le_one (hlinks.nodup_children hcard) b

end Mirrored

/-! ## A tree of nodes -/

theorem Sample.mirrors_node : Mirrors Node Node "Children" "Parent" .oneToMany where
  isUsable_owner := ⟨_, rfl⟩
  isUsable_child := ⟨_, rfl⟩
  owner := List.mem_cons_self
  inverse := List.mem_cons_of_mem _ List.mem_cons_self

open Sample in
/-- A node is linked to another one in a new store. It is then among the children of this one, which
is its only parent. -/
theorem OwnerRun.mirrored_node :
    ∃ s, OwnerRun String String (ownedLinks Node Node "Children").text .oneToMany s ∧
      ∃ (l : Links Node .owner) (l' : Links Node .inverse) (children parents : List String)
        (t t' : Store),
        Context.links {} Node Node .owner "Children" "a" = .ok l ∧
        Context.links {} Node Node .inverse "Parent" "b" = .ok l' ∧
        l.ids.runOn s = (.ok children, t) ∧ l'.ids.runOn s = (.ok parents, t') ∧
        "b" ∈ children ∧ "a" ∈ parents ∧ parents.length ≤ 1 := by
  obtain ⟨l, hl, hid, hjoin⟩ := mirrors_node.exists_owner {} "a"
  have hcard : l.join.cardinality = .oneToMany := by rw [hjoin]
  obtain ⟨s, hadd⟩ := JoinCollection.exists_runOn_add_oneToMany (s := Store.empty ⟨0⟩) hcard
    List.not_mem_nil List.not_mem_nil (.string "a") (.string "b")
  have hcall : (l.add "b").runOn (Store.empty ⟨0⟩) = (.ok (), s) := by
    rw [Links.add, hid]
    exact hadd
  have hrun := (OwnerRun.start ⟨0⟩).add (mirrors_node.fits hl ["b"]) hcall
  obtain ⟨l₁, l', children, parents, t, t', hl₁, hl', hchildren, hparents, hrow, hiff, hone⟩ :=
    OwnerRun.mirrored mirrors_node hrun {} {} "a" "b"
  rw [hl] at hl₁
  obtain rfl := Except.ok.inj hl₁
  -- the row that was inserted links the two
  have hnone : Holds (Store.empty ⟨0⟩).catalog l.join.name [] := .nil
  have hholds : Holds s.catalog l.join.name [(.string "a", .string "b")] :=
    JoinCollection.holds_of_add_oneToMany hcard hnone hadd
  rw [hjoin] at hholds
  have hchild : "b" ∈ children := hrow.2 ((hholds.mem_iff _).1 (List.mem_singleton_self _))
  exact ⟨s, hrun, l, l', children, parents, t, t', hl, hl', hchildren, hparents, hchild,
    hiff.1 hchild, hone rfl⟩

end DocMapper
