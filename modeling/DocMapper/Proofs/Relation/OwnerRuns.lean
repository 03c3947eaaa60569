import DocMapper.Proofs.Cascade.Keeping
import DocMapper.Proofs.Entity.Identifiers
import DocMapper.Proofs.Relation.LinkChanges
import DocMapper.Proofs.Store.Snapshots

set_option autoImplicit false

/-!
# Runs over the links of owners

An `OwnerRun` is any number of operations on the links of owners, of deletions of entities and of
transactions. Of the links that are kept under the name of one join collection it is known that
their cardinality and their types of identifiers are always the same (`Links.Fits`); other links may
be of any types.

In every store that such a run leads to, the rows under the name are links between identifiers of
the two types, and a child that has one parent has one link (`OwnerRun.everywhere`). An addition
that is cut off and a deletion that breaks off in the middle leave fewer links, of which the same
holds (`Catalog.Relates.loses`), and so does what an abort brings back.
-/

namespace DocMapper

open Store

/-! ## Links between identifiers of two types -/

section Relation

variable {κ ι : Type} [EntityId κ] [EntityId ι] {card : Cardinality} {links kept : List Link}

/-- Links between identifiers of two types, of which each child has one where it has one parent. -/
structure IsRelation (κ ι : Type) [EntityId κ] [EntityId ι] (card : Cardinality)
    (links : List Link) : Prop where
  parent : ∀ link ∈ links, ∃ p : κ, EntityId.toValue p = link.1.toValue
  child : ∀ link ∈ links, ∃ c : ι, EntityId.toValue c = link.2.toValue
  nodup_children : card = .oneToMany → (links.map Prod.snd).Nodup

/-- After one link more there is this one and what was there. -/
theorem Cardinality.eq_or_mem_of_mem_link {link other : Link} (h : other ∈ card.link link links) :
    other = link ∨ other ∈ links := by
  cases card with
  | oneToMany =>
    rcases List.mem_append.1 h with hold | hnew
    · exact Or.inr (List.mem_filter.1 hold).1
    · exact Or.inl (List.mem_singleton.1 hnew)
  | manyToMany =>
    by_cases hin : link ∈ links
    · rw [Cardinality.link, linkOnce, if_pos hin] at h
      exact Or.inr h
    · rw [Cardinality.link, linkOnce, if_neg hin] at h
      rcases List.mem_append.1 h with hold | hnew
      · exact Or.inr hold
      · exact Or.inl (List.mem_singleton.1 hnew)

namespace IsRelation

theorem nil (κ ι : Type) [EntityId κ] [EntityId ι] (card : Cardinality) :
    IsRelation κ ι card [] where
  parent _ h := absurd h List.not_mem_nil
  child _ h := absurd h List.not_mem_nil
  nodup_children _ := List.nodup_nil

theorem sublist (h : IsRelation κ ι card links) (hkept : kept.Sublist links) :
    IsRelation κ ι card kept where
  parent link hlink := h.parent link (hkept.subset hlink)
  child link hlink := h.child link (hkept.subset hlink)
  nodup_children hcard := (h.nodup_children hcard).sublist (hkept.map Prod.snd)

/-- A link more, between identifiers of the two types. -/
theorem add (h : IsRelation κ ι card links) {p : κ} {c : ι} {link : Link}
    (hp : EntityId.toValue p = link.1.toValue) (hc : EntityId.toValue c = link.2.toValue) :
    IsRelation κ ι card (card.link link links) := by
  refine ⟨fun other hother => ?_, fun other hother => ?_, ?_⟩
  · rcases Cardinality.eq_or_mem_of_mem_link hother with rfl | hold
    · exact ⟨p, hp⟩
    · exact h.parent other hold
  · rcases Cardinality.eq_or_mem_of_mem_link hother with rfl | hold
    · exact ⟨c, hc⟩
    · exact h.child other hold
  · rintro rfl
    exact nodup_children_linkAlone (h.nodup_children rfl) link

end IsRelation

/-- A catalog in which the documents under a name are the rows of links between identifiers of two
types. -/
def Catalog.Relates (κ ι : Type) [EntityId κ] [EntityId ι] (name : String) (card : Cardinality)
    (c : Catalog) : Prop :=
  ∃ links, Holds c name links ∧ IsRelation κ ι card links

namespace Catalog.Relates

variable {name : String} {c d : Catalog}

theorem empty (κ ι : Type) [EntityId κ] [EntityId ι] (name : String) (card : Cardinality) :
    Catalog.empty.Relates κ ι name card :=
  ⟨[], .nil, .nil κ ι card⟩

theorem congr (h : c.Relates κ ι name card) (hdocuments : d.documents name = c.documents name) :
    d.Relates κ ι name card := by
  obtain ⟨links, hholds, hlinks⟩ := h
  exact ⟨links, hholds.congr hdocuments, hlinks⟩

theorem loses (h : c.Relates κ ι name card) {test : Document → Bool}
    (hloses : c.Loses d name test) : d.Relates κ ι name card := by
  obtain ⟨links, hholds, hlinks⟩ := h
  obtain ⟨kept, hkept, hholds⟩ := hholds.exists_sublist hloses
  exact ⟨kept, hholds, hlinks.sublist hkept⟩

end Catalog.Relates

end Relation

/-! ## Operations on links -/

section Operations

variable {κ ι ι' γ : Type} [EntityId κ] [EntityId ι] [EntityId ι']
variable {name : String} {card : Cardinality} {s t : Store} {result : Except Error Unit}

/-- Rows stay links where a link between identifiers of the two types is added, also if the addition
is cut off. -/
theorem Catalog.Relates.add [ReliableId κ] [ReliableId ι] {j : JoinCollection} {p : κ} {c : ι}
    (h : s.catalog.Relates κ ι j.name j.cardinality)
    (hrun : (j.add (EntityId.toValue p) (EntityId.toValue c)).runOn s = (result, t)) :
    t.catalog.Relates κ ι j.name j.cardinality := by
  obtain ⟨links, hholds, hlinks⟩ := h
  obtain ⟨a, ha⟩ := ReliableId.exists_linkId p
  obtain ⟨b, hb⟩ := ReliableId.exists_linkId c
  rw [ha, hb] at hrun
  cases result with
  | ok _ =>
    have hadded : IsRelation κ ι j.cardinality (j.cardinality.link (a, b) links) :=
      hlinks.add ha hb
    exact ⟨_, JoinCollection.holds_of_add hholds hrun, hadded⟩
  | error e =>
    rcases JoinCollection.holds_of_add_error hholds hrun with hsame | ⟨-, hrest⟩
    · exact ⟨links, hholds.congr hsame, hlinks⟩
    · exact ⟨_, hrest, hlinks.sublist List.filter_sublist⟩

/-- A handle whose links, if they are kept under the given name, have the given cardinality and
identifiers of the given types. -/
def Links.Fits (κ ι : Type) [EntityId κ] [EntityId ι] (name : String) (card : Cardinality)
    (l : Links γ .owner) (children : List ι') : Prop :=
  l.join.name = name → l.join.cardinality = card ∧ (∃ p : κ, EntityId.toValue p = l.entityId) ∧
    ∀ child ∈ children, ∃ c : ι, EntityId.toValue c = EntityId.toValue child

theorem Links.Fits.of_subset {l : Links γ .owner} {children fewer : List ι'}
    (h : l.Fits κ ι name card children) (hfewer : fewer ⊆ children) :
    l.Fits κ ι name card fewer := by
  intro hname
  obtain ⟨hcard, hparent, hchildren⟩ := h hname
  exact ⟨hcard, hparent, fun child hchild => hchildren child (hfewer hchild)⟩

namespace Store.Everywhere

/-- Rows stay links where a link is added, or that fails. -/
theorem add [ReliableId κ] [ReliableId ι] (hs : s.Everywhere (Catalog.Relates κ ι name card))
    {l : Links γ .owner} {child : ι'} (hfits : l.Fits κ ι name card [child])
    (hcall : (l.add child).runOn s = (result, t)) :
    t.Everywhere (Catalog.Relates κ ι name card) := by
  have hkeeps : (l.add child).Keeps (Evolves (Catalog.Relinks l.join.name fun _ => True)) :=
    keeps_relinks_add_of_agrees l.join (fun _ _ _ => trivial) fun _ _ => trivial
  have hevolves := hkeeps.of_runOn hcall
  refine hs.of_sessions_eq hevolves.sessions ?_
  by_cases hname : l.join.name = name
  · obtain ⟨rfl, ⟨p, hp⟩, hchildren⟩ := hfits hname
    obtain ⟨c, hc⟩ := hchildren child List.mem_cons_self
    subst hname
    rw [Links.add, ← hp, ← hc] at hcall
    exact hs.catalog.add hcall
  · -- the row is added under another name
    exact hs.catalog.congr (hevolves.catalog.toChanges.documents_of_ne (Ne.symm hname))

/-- Rows stay links where several links are added, or one of them fails. -/
theorem addMany [ReliableId κ] [ReliableId ι] (hs : s.Everywhere (Catalog.Relates κ ι name card))
    {l : Links γ .owner} {children : List ι'} (hfits : l.Fits κ ι name card children)
    (hcall : (l.addMany children).runOn s = (result, t)) :
    t.Everywhere (Catalog.Relates κ ι name card) := by
  induction children generalizing s with
  | nil =>
    obtain ⟨-, rfl⟩ := Prod.mk.inj hcall
    exact hs
  | cons child rest ih =>
    have hfirst := hfits.of_subset (List.cons_subset.2 ⟨List.mem_cons_self, List.nil_subset _⟩)
    have hrest := hfits.of_subset (List.subset_cons_self child rest)
    rw [Links.addMany, Action.runOn_bind] at hcall
    cases hadd : (l.add child).runOn s with
    | mk first u =>
      have hu := hs.add hfirst hadd
      rw [hadd] at hcall
      cases first with
      | ok _ => exact ih hu hrest hcall
      | error e =>
        obtain ⟨-, rfl⟩ := Prod.mk.inj hcall
        exact hu

/-- Rows stay links where nothing is added and anything may be removed. -/
theorem relates_of_shrinks (hs : s.Everywhere (Catalog.Relates κ ι name card))
    (h : Shrinks (fun _ _ => true) s t) : t.Everywhere (Catalog.Relates κ ι name card) :=
  hs.of_shrinks h fun _ hremoved => hs.catalog.loses (hremoved name)

end Store.Everywhere

/-- Whether it succeeds or fails, a removal of several links adds nothing. -/
theorem keeps_shrinks_removeMany (j : JoinCollection) (parent : Value) (children : List Value) :
    (j.removeMany parent children).Keeps (Shrinks fun _ _ => true) := by
  unfold JoinCollection.removeMany
  split
  · exact .pure _
  · exact keptByDeleting_shrinks.deleteMany _ _ _

end Operations

/-! ## Runs -/

/-- The stores that operations on the links of owners, deletions of entities and transactions lead
to. What is kept under the name has one cardinality and two types of identifiers. -/
inductive OwnerRun (κ ι : Type) [EntityId κ] [EntityId ι] (name : String) (card : Cardinality) :
    Store → Prop
  | start (supply : IdSupply) : OwnerRun κ ι name card (Store.empty supply)
  /-- A child is linked to an owner, or that fails. -/
  | add {s t : Store} {γ ι' : Type} [EntityId ι'] [Entity γ ι'] {l : Links γ .owner} {child : ι'}
      {result : Except Error Unit} (hrun : OwnerRun κ ι name card s)
      (hfits : l.Fits κ ι name card [child]) (hcall : (l.add child).runOn s = (result, t)) :
      OwnerRun κ ι name card t
  /-- Several children are linked to an owner, or that fails at one of them. -/
  | addMany {s t : Store} {γ ι' : Type} [EntityId ι'] [Entity γ ι'] {l : Links γ .owner}
      {children : List ι'} {result : Except Error Unit} (hrun : OwnerRun κ ι name card s)
      (hfits : l.Fits κ ι name card children)
      (hcall : (l.addMany children).runOn s = (result, t)) : OwnerRun κ ι name card t
  /-- A child is taken away from an owner, or that fails. -/
  | remove {s t : Store} {γ ι' : Type} [EntityId ι'] [Entity γ ι'] {l : Links γ .owner}
      {child : ι'} {result : Except Error DeleteResult} (hrun : OwnerRun κ ι name card s)
      (hcall : (l.remove child).runOn s = (result, t)) : OwnerRun κ ι name card t
  /-- Several children are taken away from an owner, or that fails. -/
  | removeMany {s t : Store} {γ ι' : Type} [EntityId ι'] [Entity γ ι'] {l : Links γ .owner}
      {children : List ι'} {result : Except Error DeleteResult} (hrun : OwnerRun κ ι name card s)
      (hcall : (l.removeMany children).runOn s = (result, t)) : OwnerRun κ ι name card t
  /-- Entities are deleted by their identifiers in a context, or that fails. -/
  | delete {s t : Store} {τ ι' : Type} [EntityId ι'] [Entity τ ι'] {c : Context} {ids : List ι'}
      {cancellation : Option Cancellation} {result : Except Error DeleteResult}
      (hrun : OwnerRun κ ι name card s)
      (hcall : (c.delete τ ids cancellation).runOn s = (result, t)) : OwnerRun κ ι name card t
  /-- Entities are deleted by a filter in a context, or that fails. -/
  | deleteWhere {s t : Store} {τ ι' : Type} [EntityId ι'] [Entity τ ι'] {c : Context}
      {filter : Document} {cancellation : Option Cancellation} {result : Except Error DeleteResult}
      (hrun : OwnerRun κ ι name card s)
      (hcall : (c.deleteWhere τ filter cancellation).runOn s = (result, t)) :
      OwnerRun κ ι name card t
  /-- A cascade deletes by identifiers, or that fails. -/
  | deleteIds {s t : Store} {k : Cascade} {info : EntityInfo} {ids : List Value}
      {result : Except Error DeleteResult} (hrun : OwnerRun κ ι name card s)
      (hcall : (k.deleteIds info ids).runOn s = (result, t)) : OwnerRun κ ι name card t
  /-- A cascade deletes by a filter, or that fails. -/
  | deleteMatching {s t : Store} {k : Cascade} {info : EntityInfo} {filter : Document}
      {result : Except Error DeleteResult} (hrun : OwnerRun κ ι name card s)
      (hcall : (k.deleteMatching info filter).runOn s = (result, t)) : OwnerRun κ ι name card t
  /-- A transaction is started, or that is refused. -/
  | transaction {s t : Store} {c : Context} {result : Except Error Context}
      (hrun : OwnerRun κ ι name card s) (hcall : c.transaction.runOn s = (result, t)) :
      OwnerRun κ ι name card t
  /-- A transaction is committed, or that is refused. -/
  | commit {s t : Store} {c : Context} {result : Except Error Unit}
      (hrun : OwnerRun κ ι name card s) (hcall : c.commit.runOn s = (result, t)) :
      OwnerRun κ ι name card t
  /-- A transaction is aborted, or that is refused. -/
  | abort {s t : Store} {c : Context} {result : Except Error Unit}
      (hrun : OwnerRun κ ι name card s) (hcall : c.abort.runOn s = (result, t)) :
      OwnerRun κ ι name card t
  /-- Anything that leaves the documents under the name and the sessions alone, such as reading and
  saving entities. -/
  | elsewhere {s t : Store} (hrun : OwnerRun κ ι name card s)
      (hsame : t.catalog.documents name = s.catalog.documents name)
      (hsessions : t.sessions = s.sessions) : OwnerRun κ ι name card t

/-- In every catalog of a store that a run leads to, the rows under the name are links between
identifiers of the two types. -/
theorem OwnerRun.everywhere {κ ι : Type} [EntityId κ] [EntityId ι] [ReliableId κ] [ReliableId ι]
    {name : String} {card : Cardinality} {s : Store} (hrun : OwnerRun κ ι name card s) :
    s.Everywhere (Catalog.Relates κ ι name card) := by
  -- by induction on the run: an addition puts a link, and the other calls only remove
  induction hrun with
  | start supply => exact .empty (.empty κ ι name card) supply
  | add _ hfits hcall ih => exact ih.add hfits hcall
  | addMany _ hfits hcall ih => exact ih.addMany hfits hcall
  | remove _ hcall ih =>
    exact ih.relates_of_shrinks ((keptByDeleting_shrinks.deleteMany _ _ _).of_runOn hcall)
  | removeMany _ hcall ih =>
    exact ih.relates_of_shrinks ((keeps_shrinks_removeMany _ _ _).of_runOn hcall)
  | delete _ hcall ih =>
    exact ih.relates_of_shrinks ((Context.keeps_delete keptByDeleting_shrinks _ _ _).of_runOn hcall)
  | deleteWhere _ hcall ih =>
    exact ih.relates_of_shrinks
      ((Context.keeps_deleteWhere keptByDeleting_shrinks _ _ _).of_runOn hcall)
  | deleteIds _ hcall ih =>
    exact ih.relates_of_shrinks
      ((Cascade.keeps_deleteIds keptByDeleting_shrinks _ _ _).of_runOn hcall)
  | deleteMatching _ hcall ih =>
    exact ih.relates_of_shrinks
      ((Cascade.keeps_deleteMatching keptByDeleting_shrinks _ _ _).of_runOn hcall)
  | transaction _ hcall ih => exact ih.transaction hcall
  | commit _ hcall ih => exact ih.commit hcall
  | abort _ hcall ih => exact ih.abort hcall
  | elsewhere _ hsame hsessions ih => exact ih.of_sessions_eq hsessions (ih.catalog.congr hsame)

end DocMapper
