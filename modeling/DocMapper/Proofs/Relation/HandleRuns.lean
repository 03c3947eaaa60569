import DocMapper.Proofs.Relation.Declarations
import DocMapper.Proofs.Relation.OwnerRuns

set_option autoImplicit false

/-!
# What handles write

A `HandleRun` is any number of calls of the handles of owners, of any types and cardinalities, of
removals of any kind and of transactions. Relationships may share the name of a join collection, so
what is kept under it may be written with both cardinalities and for identifiers of several types.

In every store that such a run leads to, and in every one that an abort would bring back, the
documents under the name are rows of links between identifiers, one for each link
(`HandleRun.everywhere`). An addition, whatever its cardinality, keeps the links apart
(`Cardinality.nodup_link`), and what is left of an addition that fails is some of the links.
-/

namespace DocMapper

open Store

/-- After one link more no link is there twice. -/
theorem Cardinality.nodup_link (card : Cardinality) {links : List Link} (h : links.Nodup)
    (link : Link) : (card.link link links).Nodup := by
  cases card with
  | oneToMany => exact (h.filter _).append (List.nodup_singleton _) (by simp)
  | manyToMany =>
    by_cases hmem : link ∈ links
    · rw [Cardinality.link, linkOnce, if_pos hmem]
      exact h
    · rw [Cardinality.link, linkOnce, if_neg hmem]
      exact h.append (List.nodup_singleton _) (by simpa using hmem)

/-- A catalog in which the documents under a name are the rows of links, one for each. -/
def Catalog.HasLinks (name : String) (c : Catalog) : Prop :=
  ∃ links, Holds c name links ∧ links.Nodup

namespace Catalog.HasLinks

variable {name : String} {c d : Catalog}

theorem empty (name : String) : Catalog.empty.HasLinks name := ⟨[], .nil, List.nodup_nil⟩

theorem congr (h : c.HasLinks name) (hdocuments : d.documents name = c.documents name) :
    d.HasLinks name := by
  obtain ⟨links, hholds, hnodup⟩ := h
  exact ⟨links, hholds.congr hdocuments, hnodup⟩

theorem loses (h : c.HasLinks name) {test : Document → Bool} (hloses : c.Loses d name test) :
    d.HasLinks name := by
  obtain ⟨links, hholds, hnodup⟩ := h
  obtain ⟨kept, hkept, hholds⟩ := hholds.exists_sublist hloses
  exact ⟨kept, hholds, hnodup.sublist hkept⟩

/-- A link between identifiers may be added, also if the addition is cut off. -/
theorem add {κ ι : Type} [EntityId κ] [EntityId ι] [ReliableId κ] [ReliableId ι]
    {j : JoinCollection} {s t : Store} {result : Except Error Unit} {id : κ} {child : ι}
    (h : s.catalog.HasLinks j.name)
    (hrun : (j.add (EntityId.toValue id) (EntityId.toValue child)).runOn s = (result, t)) :
    t.catalog.HasLinks j.name := by
  obtain ⟨links, hholds, hnodup⟩ := h
  obtain ⟨a, ha⟩ := ReliableId.exists_linkId id
  obtain ⟨b, hb⟩ := ReliableId.exists_linkId child
  rw [ha, hb] at hrun
  cases result with
  | ok _ =>
    exact ⟨_, JoinCollection.holds_of_add hholds hrun, j.cardinality.nodup_link hnodup (a, b)⟩
  | error e =>
    rcases JoinCollection.holds_of_add_error hholds hrun with hsame | ⟨-, hrest⟩
    · exact ⟨links, hholds.congr hsame, hnodup⟩
    · exact ⟨_, hrest, hnodup.filter _⟩

end Catalog.HasLinks

namespace Store.Everywhere

variable {κ ι γ : Type} [EntityId κ] [EntityId ι] [ReliableId κ] [ReliableId ι] {name : String}
variable {s t : Store} {l : Links γ .owner} {id : κ} {result : Except Error Unit}

/-- Rows stay links where one is added, under this name or another one, or that fails. -/
theorem addLink (hs : s.Everywhere (Catalog.HasLinks name))
    (hid : l.entityId = EntityId.toValue id) {child : ι}
    (hcall : (l.add child).runOn s = (result, t)) : t.Everywhere (Catalog.HasLinks name) := by
  have hkeeps : (l.add child).Keeps (Evolves (Catalog.Relinks l.join.name fun _ => True)) :=
    keeps_relinks_add_of_agrees l.join (fun _ _ _ => trivial) fun _ _ => trivial
  have hevolves := hkeeps.of_runOn hcall
  refine hs.of_sessions_eq hevolves.sessions ?_
  by_cases hname : l.join.name = name
  · subst hname
    rw [Links.add, hid] at hcall
    exact hs.catalog.add hcall
  · exact hs.catalog.congr (hevolves.catalog.toChanges.documents_of_ne (Ne.symm hname))

/-- Rows stay links where several are added, or one of the additions fails. -/
theorem addLinks (hs : s.Everywhere (Catalog.HasLinks name))
    (hid : l.entityId = EntityId.toValue id) {children : List ι}
    (hcall : (l.addMany children).runOn s = (result, t)) :
    t.Everywhere (Catalog.HasLinks name) := by
  induction children generalizing s with
  | nil =>
    obtain ⟨-, rfl⟩ := Prod.mk.inj hcall
    exact hs
  | cons child rest ih =>
    rw [Links.addMany, Action.runOn_bind] at hcall
    cases hadd : (l.add child).runOn s with
    | mk first u =>
      have hu := hs.addLink hid hadd
      rw [hadd] at hcall
      cases first with
      | ok _ => exact ih hu hcall
      | error e =>
        obtain ⟨-, rfl⟩ := Prod.mk.inj hcall
        exact hu

end Store.Everywhere

/-! ## Runs -/

/-- The stores that calls of handles, removals and transactions lead to. -/
inductive HandleRun (name : String) : Store → Prop
  | start (supply : IdSupply) : HandleRun name (Store.empty supply)
  /-- A child is linked, or that fails. -/
  | add {s t : Store} {γ π ι κ : Type} [EntityId ι] [EntityId κ] [ReliableId ι] [ReliableId κ]
      [Entity γ ι] [Entity π κ] {c : Context} {property : String} {id : κ} {l : Links γ .owner}
      {child : ι} {result : Except Error Unit} (hrun : HandleRun name s)
      (hlinks : c.links γ π .owner property id = .ok l)
      (hcall : (l.add child).runOn s = (result, t)) : HandleRun name t
  /-- Several children are linked, or that fails at one of them. -/
  | addMany {s t : Store} {γ π ι κ : Type} [EntityId ι] [EntityId κ] [ReliableId ι] [ReliableId κ]
      [Entity γ ι] [Entity π κ] {c : Context} {property : String} {id : κ} {l : Links γ .owner}
      {children : List ι} {result : Except Error Unit} (hrun : HandleRun name s)
      (hlinks : c.links γ π .owner property id = .ok l)
      (hcall : (l.addMany children).runOn s = (result, t)) : HandleRun name t
  /-- Documents are only removed, by handles or by cascades, with success or not. -/
  | shrink {s t : Store} (hrun : HandleRun name s) (hshrinks : Shrinks (fun _ _ => true) s t) :
      HandleRun name t
  /-- A transaction is started, or that is refused. -/
  | transaction {s t : Store} {c : Context} {result : Except Error Context}
      (hrun : HandleRun name s) (hcall : c.transaction.runOn s = (result, t)) : HandleRun name t
  /-- A transaction is committed, or that is refused. -/
  | commit {s t : Store} {c : Context} {result : Except Error Unit} (hrun : HandleRun name s)
      (hcall : c.commit.runOn s = (result, t)) : HandleRun name t
  /-- A transaction is aborted, or that is refused. -/
  | abort {s t : Store} {c : Context} {result : Except Error Unit} (hrun : HandleRun name s)
      (hcall : c.abort.runOn s = (result, t)) : HandleRun name t
  /-- Anything that leaves the documents under the name and the sessions alone, such as reading and
  saving entities. -/
  | elsewhere {s t : Store} (hrun : HandleRun name s)
      (hsame : t.catalog.documents name = s.catalog.documents name)
      (hsessions : t.sessions = s.sessions) : HandleRun name t

namespace HandleRun

variable {name : String} {s t : Store}

/-- A link is removed, or that fails. -/
theorem remove (hrun : HandleRun name s) {γ ι : Type} [EntityId ι] [Entity γ ι]
    {l : Links γ .owner} {child : ι} {result : Except Error DeleteResult}
    (hcall : (l.remove child).runOn s = (result, t)) : HandleRun name t :=
  hrun.shrink ((keptByDeleting_shrinks.deleteMany _ _ _).of_runOn hcall)

/-- Several links are removed, or that fails. -/
theorem removeMany (hrun : HandleRun name s) {γ ι : Type} [EntityId ι] [Entity γ ι]
    {l : Links γ .owner} {children : List ι} {result : Except Error DeleteResult}
    (hcall : (l.removeMany children).runOn s = (result, t)) : HandleRun name t :=
  hrun.shrink ((keeps_shrinks_removeMany _ _ _).of_runOn hcall)

/-- In every catalog of a store that a run leads to, the documents under the name are the rows of
links, one for each. -/
theorem everywhere (hrun : HandleRun name s) : s.Everywhere (Catalog.HasLinks name) := by
  -- by induction on the run: an addition puts a link, and the other calls only remove
  induction hrun with
  | start supply => exact .empty (.empty name) supply
  | add _ hlinks hcall ih => exact ih.addLink (Context.exists_isLegal_of_links hlinks).1 hcall
  | addMany _ hlinks hcall ih => exact ih.addLinks (Context.exists_isLegal_of_links hlinks).1 hcall
  | shrink _ hshrinks ih =>
    exact ih.of_shrinks hshrinks fun _ hremoved => ih.catalog.loses (hremoved name)
  | transaction _ hcall ih => exact ih.transaction hcall
  | commit _ hcall ih => exact ih.commit hcall
  | abort _ hcall ih => exact ih.abort hcall
  | elsewhere _ hsame hsessions ih => exact ih.of_sessions_eq hsessions (ih.catalog.congr hsame)

end HandleRun

end DocMapper
