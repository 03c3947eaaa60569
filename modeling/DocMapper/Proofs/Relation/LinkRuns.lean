import DocMapper.Context.Links
import DocMapper.Proofs.Relation.LinkChanges

set_option autoImplicit false

/-!
# Runs on a join collection

A `LinkRun` is any number of calls on one join collection, always with the same cardinality, in any
sessions, together with the changes of the relation that the collection stands for. Every call is in
it: one that succeeds changes the relation by what it was asked for, and one that fails leaves the
documents, is a prefix of its additions, or was cut off after it had taken a child's links away.

After each run from a store without the collection its documents are the rows of the related pairs,
one for each, and reading the children of a parent or the parents of a child gives one record for
each of them (`LinkRun.refines`).
-/

namespace DocMapper

open Store

/-- The stores that calls on a join collection lead to, with the changes that they made. -/
inductive LinkRun (name : String) (card : Cardinality) (s₀ : Store) :
    List LinkChange → Store → Prop
  | start : LinkRun name card s₀ [] s₀
  /-- A link is added. -/
  | add {changes : List LinkChange} {s t : Store} {σ : Option Session} {p c : LinkId}
      (hrun : LinkRun name card s₀ changes s)
      (hcall : (JoinCollection.add ⟨name, card, σ⟩ p.toValue c.toValue).runOn s = (.ok (), t)) :
      LinkRun name card s₀ (changes ++ [.add (p, c)]) t
  /-- Several children are linked to the entity of a handle, one after another. -/
  | addMany {changes : List LinkChange} {s t : Store} {ι γ : Type} [EntityId ι] [Entity γ ι]
      {l : Links γ .owner} {σ : Option Session} {p : LinkId} {cs : List LinkId} {children : List ι}
      (hrun : LinkRun name card s₀ changes s) (hjoin : l.join = ⟨name, card, σ⟩)
      (hparent : l.entityId = p.toValue)
      (hchildren : children.map EntityId.toValue = cs.map LinkId.toValue)
      (hcall : (l.addMany children).runOn s = (.ok (), t)) :
      LinkRun name card s₀ (changes ++ cs.map fun c => .add (p, c)) t
  /-- A link is removed, whether it was there or not. -/
  | remove {changes : List LinkChange} {s t : Store} {σ : Option Session} {p c : LinkId}
      {r : DeleteResult} (hrun : LinkRun name card s₀ changes s)
      (hcall : (JoinCollection.remove ⟨name, card, σ⟩ p.toValue c.toValue).runOn s = (.ok r, t)) :
      LinkRun name card s₀ (changes ++ [.remove (p, c)]) t
  /-- Several links of a parent are removed. -/
  | removeMany {changes : List LinkChange} {s t : Store} {σ : Option Session} {p : LinkId}
      {cs : List LinkId} {r : DeleteResult} (hrun : LinkRun name card s₀ changes s)
      (hcall : (JoinCollection.removeMany ⟨name, card, σ⟩ p.toValue
        (cs.map LinkId.toValue)).runOn s = (.ok r, t)) :
      LinkRun name card s₀ (changes ++ cs.map fun c => .remove (p, c)) t
  /-- An addition fails after it has changed the documents. -/
  | cutOff {changes : List LinkChange} {s t : Store} {σ : Option Session} {p c : LinkId} {e : Error}
      (hrun : LinkRun name card s₀ changes s)
      (hcall : (JoinCollection.add ⟨name, card, σ⟩ p.toValue c.toValue).runOn s = (.error e, t))
      (hchanged : t.catalog.documents name ≠ s.catalog.documents name) :
      LinkRun name card s₀ (changes ++ [.unlink c]) t
  /-- Anything that leaves the documents of the collection: a call that reads, a call that fails, a
  call on something else. -/
  | elsewhere {changes : List LinkChange} {s t : Store} (hrun : LinkRun name card s₀ changes s)
      (hsame : t.catalog.documents name = s.catalog.documents name) : LinkRun name card s₀ changes t

section

variable {name : String} {card : Cardinality} {s₀ s t : Store} {changes : List LinkChange}
variable {links : List Link} {p c : LinkId}

/-! ## Calls that fail -/

/-- A removal that fails is a run. -/
theorem LinkRun.remove_error {σ : Option Session} {e : Error}
    (hrun : LinkRun name card s₀ changes s)
    (hcall : (JoinCollection.remove ⟨name, card, σ⟩ p.toValue c.toValue).runOn s = (.error e, t)) :
    LinkRun name card s₀ changes t := by
  refine hrun.elsewhere ?_
  rw [catalog_of_deleteMany_error hcall]

/-- A removal of several links that fails is a run. -/
theorem LinkRun.removeMany_error {σ : Option Session} {e : Error} {values : List Value}
    (hrun : LinkRun name card s₀ changes s)
    (hcall : (JoinCollection.removeMany ⟨name, card, σ⟩ p.toValue values).runOn s =
      (.error e, t)) :
    LinkRun name card s₀ changes t := by
  unfold JoinCollection.removeMany at hcall
  split at hcall
  · cases hcall
  · refine hrun.elsewhere ?_
    rw [catalog_of_deleteMany_error hcall]

/-- An addition of several links that fails is a run: some are added, and then one fails. -/
theorem LinkRun.addMany_error {ι γ : Type} [EntityId ι] [Entity γ ι] {l : Links γ .owner}
    {σ : Option Session} {cs : List LinkId} {children : List ι} {e : Error}
    (hrun : LinkRun name card s₀ changes s) (hjoin : l.join = ⟨name, card, σ⟩)
    (hparent : l.entityId = p.toValue)
    (hchildren : children.map EntityId.toValue = cs.map LinkId.toValue)
    (hcall : (l.addMany children).runOn s = (.error e, t)) :
    ∃ more, LinkRun name card s₀ (changes ++ more) t := by
  induction children generalizing s changes cs with
  | nil => cases hcall
  | cons child rest ih =>
    obtain ⟨c, cs, rfl, hchild, hrest⟩ := List.map_eq_cons_iff.1 hchildren.symm
    rw [Links.addMany] at hcall
    -- the first child fails, or it is added and a later one fails
    rcases Action.runOn_bind_eq_error_iff.1 hcall with hadd | ⟨_, u, hadd, hcall⟩
    · rw [Links.add, hjoin, hparent, ← hchild] at hadd
      by_cases hsame : t.catalog.documents name = s.catalog.documents name
      · exact ⟨[], by simpa using hrun.elsewhere hsame⟩
      · exact ⟨_, hrun.cutOff hadd hsame⟩
    · rw [Links.add, hjoin, hparent, ← hchild] at hadd
      obtain ⟨more, hmore⟩ := ih (hrun.add hadd) hrest.symm hcall
      rw [List.append_assoc] at hmore
      exact ⟨_, hmore⟩

/-! ## What the collection holds -/

/-- Where a collection stands for a relation it still does after a link is added. -/
theorem represents_of_add {σ : Option Session} (hholds : Holds s.catalog name links)
    (hlinks : Represents card changes links)
    (hcall : (JoinCollection.add ⟨name, card, σ⟩ p.toValue c.toValue).runOn s = (.ok (), t)) :
    Holds t.catalog name (card.link (p, c) links) ∧
      Represents card (changes ++ [.add (p, c)]) (card.link (p, c) links) :=
  ⟨JoinCollection.holds_of_add hholds hcall, hlinks.add (p, c)⟩

/-- Where a collection stands for a relation it still does after several children are linked. -/
theorem exists_represents_of_addMany {ι γ : Type} [EntityId ι] [Entity γ ι] {l : Links γ .owner}
    {σ : Option Session} {cs : List LinkId} {children : List ι}
    (hholds : Holds s.catalog name links) (hlinks : Represents card changes links)
    (hjoin : l.join = ⟨name, card, σ⟩) (hparent : l.entityId = p.toValue)
    (hchildren : children.map EntityId.toValue = cs.map LinkId.toValue)
    (hcall : (l.addMany children).runOn s = (.ok (), t)) :
    ∃ links, Holds t.catalog name links ∧
      Represents card (changes ++ cs.map fun c => .add (p, c)) links := by
  induction children generalizing s changes links cs with
  | nil =>
    have hnil : cs = [] := by simpa using hchildren.symm
    obtain ⟨-, rfl⟩ := Prod.mk.inj hcall
    exact ⟨links, hholds, by simpa [hnil] using hlinks⟩
  | cons child rest ih =>
    obtain ⟨c, cs, rfl, hchild, hrest⟩ := List.map_eq_cons_iff.1 hchildren.symm
    rw [Links.addMany] at hcall
    obtain ⟨_, u, hadd, hcall⟩ := Action.runOn_bind_eq_ok_iff.1 hcall
    rw [Links.add, hjoin, hparent, ← hchild] at hadd
    obtain ⟨hholds', hlinks'⟩ := represents_of_add hholds hlinks hadd
    obtain ⟨links', hholds', hlinks'⟩ := ih hholds' hlinks' hrest.symm hcall
    refine ⟨links', hholds', ?_⟩
    rwa [List.map_cons, List.append_cons]

/-- After each run the documents are the rows of links that represent the changes. -/
theorem LinkRun.exists_represents (hrun : LinkRun name card s₀ changes s)
    (habsent : s₀.catalog.find? name = none) :
    ∃ links, Holds s.catalog name links ∧ Represents card changes links := by
  -- by induction on the run: each call changes the links as its change changes the relation
  induction hrun with
  | start =>
    refine ⟨[], ?_, .nil card⟩
    rw [Holds, Catalog.documents, habsent]
    exact .nil
  | add _ hcall ih =>
    obtain ⟨links, hholds, hlinks⟩ := ih
    exact ⟨_, represents_of_add hholds hlinks hcall⟩
  | addMany _ hjoin hparent hchildren hcall ih =>
    obtain ⟨links, hholds, hlinks⟩ := ih
    exact exists_represents_of_addMany hholds hlinks hjoin hparent hchildren hcall
  | remove _ hcall ih =>
    obtain ⟨links, hholds, hlinks⟩ := ih
    exact ⟨_, JoinCollection.holds_of_remove hholds hcall, hlinks.remove _⟩
  | removeMany _ hcall ih =>
    obtain ⟨links, hholds, hlinks⟩ := ih
    exact ⟨_, JoinCollection.holds_of_removeMany hholds hcall, hlinks.removeMany _ _⟩
  | cutOff _ hcall hchanged ih =>
    obtain ⟨links, hholds, hlinks⟩ := ih
    rcases JoinCollection.holds_of_add_error hholds hcall with hsame | ⟨_, hholds'⟩
    · exact absurd hsame hchanged
    · exact ⟨_, hholds', hlinks.unlink _⟩
  | elsewhere _ hsame ih =>
    obtain ⟨links, hholds, hlinks⟩ := ih
    exact ⟨links, hholds.congr hsame, hlinks⟩

theorem nodup_map_filter {side other : Link → LinkId} (hlinks : links.Nodup)
    (hends : ∀ l l', side l = side l' → other l = other l' → l = l') (a : LinkId) :
    ((links.filter fun link => side link = a).map other).Nodup := by
  refine List.Nodup.map_on (fun l hl l' hl' hother => ?_) (hlinks.filter _)
  have hside : side l = a := by simpa using (List.mem_filter.1 hl).2
  have hside' : side l' = a := by simpa using (List.mem_filter.1 hl').2
  exact hends l l' (hside.trans hside'.symm) hother

/-- The children of a parent are read once each. -/
theorem exists_runOn_childrenOf (hholds : Holds s.catalog name links)
    (hlinks : Represents card changes links) (σ : Option Session) (p : LinkId) :
    ∃ (rows : List JoinRow) (children : List LinkId) (t : Store),
      (JoinCollection.childrenOf ⟨name, card, σ⟩ p.toValue).runOn s = (.ok rows, t) ∧
      rows.map JoinCollection.ends = children.map (fun c => (p.toValue, c.toValue)) ∧
      children.Nodup ∧ ∀ c, c ∈ children ↔ Related changes p c card := by
  obtain ⟨rows, t, hrun, hends⟩ :=
    JoinCollection.runOn_childrenOf (j := ⟨name, card, σ⟩) hholds p
  refine ⟨rows, (links.filter fun link => link.1 = p).map Prod.snd, t, hrun, ?_, ?_, fun c => ?_⟩
  · -- each of these links has the parent at its first end
    rw [hends, List.map_map]
    refine List.map_congr_left fun link hlink => ?_
    have hparent : link.1 = p := by simpa using (List.mem_filter.1 hlink).2
    rw [← hparent]
    rfl
  · exact nodup_map_filter hlinks.nodup (fun _ _ => Prod.ext) p
  · rw [← hlinks.mem_iff]
    simp [eq_comm]

/-- The parents of a child are read once each. -/
theorem exists_runOn_parentsOf (hholds : Holds s.catalog name links)
    (hlinks : Represents card changes links) (σ : Option Session) (c : LinkId) :
    ∃ (rows : List JoinRow) (parents : List LinkId) (t : Store),
      (JoinCollection.parentsOf ⟨name, card, σ⟩ c.toValue).runOn s = (.ok rows, t) ∧
      rows.map JoinCollection.ends = parents.map (fun p => (p.toValue, c.toValue)) ∧
      parents.Nodup ∧ ∀ p, p ∈ parents ↔ Related changes p c card := by
  obtain ⟨rows, t, hrun, hends⟩ :=
    JoinCollection.runOn_parentsOf (j := ⟨name, card, σ⟩) hholds c
  refine ⟨rows, (links.filter fun link => link.2 = c).map Prod.fst, t, hrun, ?_, ?_, fun p => ?_⟩
  · rw [hends, List.map_map]
    refine List.map_congr_left fun link hlink => ?_
    have hchild : link.2 = c := by simpa using (List.mem_filter.1 hlink).2
    rw [← hchild]
    rfl
  · exact nodup_map_filter hlinks.nodup (fun _ _ hchild hparent => Prod.ext hparent hchild) c
  · rw [← hlinks.mem_iff]
    simp [eq_comm]

/-- After each run on a join collection that did not exist its documents are the rows of the related
pairs, one for each pair and, where a child has one parent, one for each child; and its reads give
one record for each related child of a parent and for each related parent of a child. -/
theorem LinkRun.refines (hrun : LinkRun name card s₀ changes s)
    (habsent : s₀.catalog.find? name = none) :
    (∃ links, List.Forall₂ IsRow links (s.catalog.documents name) ∧ links.Nodup ∧
      (card = .oneToMany → (links.map Prod.snd).Nodup) ∧
      ∀ p c, (p, c) ∈ links ↔ Related changes p c card) ∧
    (∀ (σ : Option Session) (p : LinkId),
      ∃ (rows : List JoinRow) (children : List LinkId) (t : Store),
      (JoinCollection.childrenOf ⟨name, card, σ⟩ p.toValue).runOn s = (.ok rows, t) ∧
      rows.map JoinCollection.ends = children.map (fun c => (p.toValue, c.toValue)) ∧
      children.Nodup ∧ ∀ c, c ∈ children ↔ Related changes p c card) ∧
    ∀ (σ : Option Session) (c : LinkId),
      ∃ (rows : List JoinRow) (parents : List LinkId) (t : Store),
      (JoinCollection.parentsOf ⟨name, card, σ⟩ c.toValue).runOn s = (.ok rows, t) ∧
      rows.map JoinCollection.ends = parents.map (fun p => (p.toValue, c.toValue)) ∧
      parents.Nodup ∧ ∀ p, p ∈ parents ↔ Related changes p c card := by
  obtain ⟨links, hholds, hlinks⟩ := hrun.exists_represents habsent
  refine ⟨⟨links, hholds, hlinks.nodup, hlinks.nodup_children, hlinks.mem_iff⟩, ?_, ?_⟩
  · intro σ p
    exact exists_runOn_childrenOf hholds hlinks σ p
  · intro σ c
    exact exists_runOn_parentsOf hholds hlinks σ c

/-- After a child is linked to one parent, taken away from it and linked to another one, this one
has it as its only child. -/
theorem LinkRun.refines_linked :
    ∃ t, LinkRun "~A~B(Bs)" .oneToMany (Store.empty ⟨0⟩)
        [.add (.string "a2", .string "b"), .remove (.string "a2", .string "b"),
          .add (.string "a", .string "b")] t ∧
      ∃ (rows : List JoinRow) (children : List LinkId) (u : Store),
        (JoinCollection.childrenOf ⟨"~A~B(Bs)", .oneToMany, none⟩ (.string "a")).runOn t =
          (.ok rows, u) ∧
        rows.map JoinCollection.ends = children.map (fun c => (.string "a", c.toValue)) ∧
        children.Nodup ∧ ∀ c, c ∈ children ↔ c = .string "b" := by
  let j : JoinCollection := ⟨"~A~B(Bs)", .oneToMany, none⟩
  have habsent : (Store.empty ⟨0⟩).catalog.find? j.name = none := rfl
  have hnone : Holds (Store.empty ⟨0⟩).catalog j.name [] := .nil
  obtain ⟨s₁, hfirst⟩ := j.exists_runOn_add_oneToMany rfl List.not_mem_nil
    (j.isFresh_of_holds_nil hnone) (.string "a2") (.string "b")
  have hlinked := JoinCollection.holds_of_add hnone hfirst
  have hfails₁ : j.name ∉ s₁.failingDeletes := by
    rw [(j.keeps_failsAlike_add _ _).of_runOn hfirst]
    exact List.not_mem_nil
  obtain ⟨r, s₂, hremove⟩ := j.exists_runOn_remove hfails₁ (.string "a2") (.string "b")
  have hunlinked := JoinCollection.holds_of_remove hlinked hremove
  have hfails₂ : j.name ∉ s₂.failingDeletes := by
    rwa [(removes_of_deleteMany hremove).failingDeletes_eq]
  -- the removal took the only link away, so every identifier is fresh
  obtain ⟨t, hsecond⟩ := j.exists_runOn_add_oneToMany rfl hfails₂
    (j.isFresh_of_holds_nil hunlinked) (.string "a") (.string "b")
  have hrun : LinkRun j.name j.cardinality (Store.empty ⟨0⟩) _ t :=
    ((LinkRun.start.add hfirst).remove hremove).add hsecond
  obtain ⟨-, hchildren, -⟩ := LinkRun.refines hrun habsent
  obtain ⟨rows, children, u, hread, hends, hnodup, hmem⟩ := hchildren none (.string "a")
  refine ⟨t, hrun, rows, children, u, hread, hends, hnodup, fun c => ?_⟩
  rw [hmem]
  simp [Related, parentsAfter, LinkChange.onParents, Function.update_apply, j]

end

end DocMapper
