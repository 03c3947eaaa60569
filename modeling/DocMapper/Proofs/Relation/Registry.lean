import DocMapper.Proofs.Relation.Declarations

set_option autoImplicit false

/-!
# Declared relationships are found

The relationship of a property and a side is the one that the entity type declares under them
(`EntityInfo.relation?_of_mem`), so a handle for a declared relationship is obtained and has the
descriptor of the declaration (`Context.links_eq_ok`).

Two types that declare the ends of one relationship (`Mirrors`) have handles for it that read one
join collection, although the descriptors are built from the declarations of different types
(`Mirrors.exists_owner`, `Mirrors.exists_inverse`).
-/

namespace DocMapper

variable {collection : String} {found : List Descriptor} {d : Declaration}

/-- The descriptor of a declaration is found under its property and its side. -/
theorem find?_describe {declarations : List Declaration}
    (h : describe collection declarations = .ok found) (hd : d ∈ declarations) :
    found.find? (fun other => other.isFor d.property d.side) = some (d.descriptor collection) := by
  obtain ⟨rfl, -, hpairwise⟩ := describe_eq_ok_iff.1 h
  clear h
  induction declarations with
  | nil => cases hd
  | cons first rest ih =>
    obtain ⟨hfirst, hrest⟩ := List.pairwise_cons.1 hpairwise
    rw [List.map_cons]
    rcases List.mem_cons.1 hd with rfl | hd
    · exact List.find?_cons_of_pos (Declaration.isFor_descriptor.2 ⟨rfl, rfl⟩)
    · -- the declarations before it are for something else
      have hother : ¬ (first.descriptor collection).isFor d.property d.side = true :=
        fun hsame => hfirst d hd (Declaration.isFor_descriptor.1 hsame)
      rw [List.find?_cons_of_neg (by exact hother)]
      exact ih hd hrest

theorem EntityInfo.relation?_of_mem {τ ι : Type} [EntityId ι] [Entity τ ι] {info : EntityInfo}
    (hinfo : Entity.info τ = .ok info) (hd : d ∈ Entity.relations τ) :
    info.relation? d.property d.side = some (d.descriptor info.collection) := by
  obtain ⟨-, -, hdescribe⟩ := Entity.info_eq_ok hinfo
  exact find?_describe hdescribe hd

/-- Whether what a type declares is accepted. -/
def Entity.IsUsable (τ : Type) {ι : Type} [EntityId ι] [Entity τ ι] : Prop :=
  ∃ info, Entity.info τ = .ok info

section Handles

variable {γ π ι κ : Type} [EntityId ι] [EntityId κ] [Entity γ ι] [Entity π κ]

/-- The descriptor of a declared relationship with a type is that of the declaration. -/
theorem Context.descriptor_eq_ok (hπ : Entity.IsUsable π) (hγ : Entity.IsUsable γ)
    (hd : d ∈ Entity.relations π) (hother : d.other = Stored.collection γ) :
    descriptor γ π d.property d.side = .ok (d.descriptor (Stored.collection π)) := by
  obtain ⟨declaring, hdeclaring⟩ := hπ
  obtain ⟨related, hrelated⟩ := hγ
  have hfound := EntityInfo.relation?_of_mem hdeclaring hd
  rw [(Entity.info_eq_ok hdeclaring).1] at hfound
  have hsame : (d.descriptor (Stored.collection π)).related = related.collection := by
    rw [d.related_descriptor, hother, (Entity.info_eq_ok hrelated).1]
  refine bind_eq_ok_iff.2 ⟨declaring, hdeclaring, bind_eq_ok_iff.2 ⟨related, hrelated, ?_⟩⟩
  rw [hfound, Option.filter_some, if_pos (decide_eq_true hsame)]
  rfl

theorem Context.links_eq_ok (c : Context) (hπ : Entity.IsUsable π) (hγ : Entity.IsUsable γ)
    (hd : d ∈ Entity.relations π) (hother : d.other = Stored.collection γ) (id : κ) :
    c.links γ π d.side d.property id =
      .ok ⟨c, d.descriptor (Stored.collection π), EntityId.toValue id⟩ := by
  unfold links
  rw [descriptor_eq_ok hπ hγ hd hother]
  rfl

end Handles

/-! ## Relationships declared on both of their types -/

/-- How an owner declares its links with another collection. -/
def Cardinality.ownerSide : Cardinality → String → String → Declaration
  | oneToMany => .oneToMany
  | manyToMany => .manyToMany

/-- How the other type declares the links of an owner. -/
def Cardinality.inverseSide : Cardinality → String → String → String → Declaration
  | oneToMany => .parentOf
  | manyToMany => .manyToManyInverse

/-- A relationship that is declared on both of its types: by the owner under a property, and by the
other one, which may be the same type, as the inverse of that property. -/
structure Mirrors (γ π : Type) {ι κ : Type} [EntityId ι] [EntityId κ] [Entity γ ι] [Entity π κ]
    (property inverse : String) (card : Cardinality) : Prop where
  isUsable_owner : Entity.IsUsable π
  isUsable_child : Entity.IsUsable γ
  owner : card.ownerSide property (Stored.collection γ) ∈ Entity.relations π
  inverse : card.inverseSide inverse (Stored.collection π) property ∈ Entity.relations γ

/-- The parts of the name under which an owner keeps its links. -/
def ownedLinks (γ π : Type) {ι κ : Type} [Stored γ ι] [Stored π κ] (property : String) : JoinName :=
  ⟨Stored.collection π, Stored.collection γ, property⟩

namespace Mirrors

variable {γ π ι κ : Type} [EntityId ι] [EntityId κ] [Entity γ ι] [Entity π κ]
variable {property inverse : String} {card : Cardinality}

/-- The owner's links of an entity are obtained. -/
theorem exists_owner (h : Mirrors γ π property inverse card) (c : Context) (id : κ) :
    ∃ l, c.links γ π .owner property id = .ok l ∧ l.entityId = EntityId.toValue id ∧
      l.join = ⟨(ownedLinks γ π property).text, card, c.session⟩ := by
  cases card with
  | oneToMany =>
    exact ⟨_, c.links_eq_ok h.isUsable_owner h.isUsable_child h.owner rfl id, rfl, rfl⟩
  | manyToMany =>
    exact ⟨_, c.links_eq_ok h.isUsable_owner h.isUsable_child h.owner rfl id, rfl, rfl⟩

/-- The links of an entity are obtained on the inverse side, under the same name. -/
theorem exists_inverse (h : Mirrors γ π property inverse card) (c : Context) (id : ι) :
    ∃ l, c.links π γ .inverse inverse id = .ok l ∧ l.entityId = EntityId.toValue id ∧
      l.join = ⟨(ownedLinks γ π property).text, card, c.session⟩ := by
  cases card with
  | oneToMany =>
    exact ⟨_, c.links_eq_ok h.isUsable_child h.isUsable_owner h.inverse rfl id, rfl, rfl⟩
  | manyToMany =>
    exact ⟨_, c.links_eq_ok h.isUsable_child h.isUsable_owner h.inverse rfl id, rfl, rfl⟩

end Mirrors

end DocMapper
