import DocMapper.Context.Links
import DocMapper.Proofs.Relation.JoinNames

set_option autoImplicit false

/-!
# Names that can be declared

What is known about an entity type was checked: its collection has a legal name, and so have the
properties and the collections of its relationships (`mem_describe`, `Entity.info_eq_ok`). Therefore
the links of an owner are kept under the name of a join collection of legal parts, which is read
back as the two collections and the property (`Context.exists_isLegal_of_links`).
-/

namespace DocMapper

variable {collection : String} {found found' : List Descriptor} {d : Descriptor}

/-- Whether all names of a declaration are legal. -/
structure Declaration.IsLegal (declaration : Declaration) : Prop where
  property : isProperty declaration.property = true
  ownerProperty : isProperty declaration.ownerProperty = true
  other : isCollectionName declaration.other = true

theorem checkCollectionName_eq_ok_iff {name : String} :
    checkCollectionName name = .ok () ↔ isCollectionName name = true := by
  unfold checkCollectionName
  split <;> simp [*]

theorem checkCollectionName_eq_error_iff {name : String} {e : Error} :
    checkCollectionName name = .error e ↔
      isCollectionName name = false ∧ e = .illegalCollectionName name := by
  unfold checkCollectionName
  split <;> simp [*, eq_comm]

theorem checkProperty_eq_ok_iff {property : String} :
    checkProperty property = .ok () ↔ isProperty property = true := by
  unfold checkProperty
  split <;> simp [*]

theorem checkProperty_eq_error_iff {property : String} {e : Error} :
    checkProperty property = .error e ↔ isProperty property = false ∧
      e = .illegalProperty property := by
  unfold checkProperty
  split <;> simp [*, eq_comm]

/-- Whether two declarations differ in their property or in their side. -/
def Declaration.Differs (declaration other : Declaration) : Prop :=
  ¬ (declaration.property = other.property ∧ declaration.side = other.side)

theorem Declaration.isFor_descriptor {declaration : Declaration} {property : String} {side : Side} :
    (declaration.descriptor collection).isFor property side = true ↔
      declaration.property = property ∧ declaration.side = side := by
  rw [Descriptor.isFor, Bool.and_eq_true, decide_eq_true_eq, decide_eq_true_eq]
  exact Iff.rfl

/-- There is a descriptor for the property and the side of a declaration if an earlier one has both.
-/
theorem any_isFor_map_descriptor_iff {earlier : List Declaration} {declaration : Declaration} :
    ((earlier.map (·.descriptor collection)).any fun other =>
        other.isFor declaration.property declaration.side) = true ↔
      ∃ other ∈ earlier, other.property = declaration.property ∧ other.side = declaration.side := by
  simp only [List.any_map, List.any_eq_true, Function.comp_apply, Declaration.isFor_descriptor]

/-- A declaration is accepted exactly if it is legal and differs from the earlier ones, and then its
descriptor comes last. -/
theorem declare_eq_ok_iff {earlier : List Declaration} {declaration : Declaration} :
    declare collection (earlier.map (·.descriptor collection)) declaration = .ok found ↔
      declaration.IsLegal ∧ (∀ other ∈ earlier, other.Differs declaration) ∧
        found = (earlier ++ [declaration]).map (·.descriptor collection) := by
  have hdiffers : (¬ ∃ other ∈ earlier,
      other.property = declaration.property ∧ other.side = declaration.side) ↔
        ∀ other ∈ earlier, other.Differs declaration := by
    simp only [Declaration.Differs, not_exists, not_and]
  unfold declare
  constructor
  · intro h
    obtain ⟨_, hproperty, h⟩ := bind_eq_ok_iff.1 h
    obtain ⟨_, howner, h⟩ := bind_eq_ok_iff.1 h
    obtain ⟨_, hother, h⟩ := bind_eq_ok_iff.1 h
    have hlegal : declaration.IsLegal := ⟨checkProperty_eq_ok_iff.1 hproperty,
      checkProperty_eq_ok_iff.1 howner, checkCollectionName_eq_ok_iff.1 hother⟩
    split at h
    · cases h
    · rename_i hnone
      rw [any_isFor_map_descriptor_iff, hdiffers] at hnone
      rw [List.map_append]
      exact ⟨hlegal, hnone, (Except.ok.inj h).symm⟩
  · rintro ⟨hlegal, hdiffer, rfl⟩
    rw [← hdiffers, ← any_isFor_map_descriptor_iff] at hdiffer
    rw [checkProperty_eq_ok_iff.2 hlegal.property, checkProperty_eq_ok_iff.2 hlegal.ownerProperty,
      checkCollectionName_eq_ok_iff.2 hlegal.other, if_neg hdiffer, List.map_append]
    rfl

/-- Declarations after earlier ones are accepted exactly if they are legal, differ pairwise and
differ from the earlier ones. -/
theorem foldlM_declare_eq_ok_iff (earlier : List Declaration) {rest : List Declaration} :
    rest.foldlM (declare collection) (earlier.map (·.descriptor collection)) = .ok found ↔
      (∀ d ∈ rest, d.IsLegal) ∧ rest.Pairwise Declaration.Differs ∧
        (∀ other ∈ earlier, ∀ d ∈ rest, other.Differs d) ∧
        found = (earlier ++ rest).map (·.descriptor collection) := by
  -- by induction on the declarations that are left, for all that were accepted before
  induction rest generalizing earlier with
  | nil => simp [pure, Except.pure, eq_comm]
  | cons declaration rest ih =>
    rw [List.foldlM_cons, bind_eq_ok_iff]
    constructor
    · rintro ⟨next, hfirst, hrest⟩
      obtain ⟨hlegal, hdiffers, rfl⟩ := declare_eq_ok_iff.1 hfirst
      obtain ⟨hlegals, hpairwise, hothers, rfl⟩ := (ih _).1 hrest
      have hlast := hothers declaration (by simp)
      refine ⟨List.forall_mem_cons.2 ⟨hlegal, hlegals⟩, List.pairwise_cons.2 ⟨hlast, hpairwise⟩, ?_,
        by simp⟩
      intro other hother
      exact List.forall_mem_cons.2
        ⟨hdiffers other hother, hothers other (List.mem_append_left _ hother)⟩
    · rintro ⟨hlegals, hpairwise, hothers, rfl⟩
      obtain ⟨hlegal, hlegals⟩ := List.forall_mem_cons.1 hlegals
      obtain ⟨hlast, hpairwise⟩ := List.pairwise_cons.1 hpairwise
      refine ⟨_, declare_eq_ok_iff.2 ⟨hlegal, ?_, rfl⟩, (ih _).2 ⟨hlegals, hpairwise, ?_, by simp⟩⟩
      · intro other hother
        exact hothers other hother declaration List.mem_cons_self
      · intro other hother d hd
        rcases List.mem_append.1 hother with hother | hother
        · exact hothers other hother d (List.mem_cons_of_mem _ hd)
        · obtain rfl := List.mem_singleton.1 hother
          exact hlast d hd

/-- Declarations are accepted exactly if they are legal and differ pairwise, and their descriptors
are found in order. -/
theorem describe_eq_ok_iff {declarations : List Declaration} :
    describe collection declarations = .ok found ↔
      found = declarations.map (·.descriptor collection) ∧ (∀ d ∈ declarations, d.IsLegal) ∧
        declarations.Pairwise Declaration.Differs := by
  refine (foldlM_declare_eq_ok_iff []).trans ?_
  constructor
  · rintro ⟨hlegal, hpairwise, -, rfl⟩
    exact ⟨rfl, hlegal, hpairwise⟩
  · rintro ⟨rfl, hlegal, hpairwise⟩
    exact ⟨hlegal, hpairwise, nofun, rfl⟩

theorem mem_describe {declarations : List Declaration}
    (h : describe collection declarations = .ok found) (hd : d ∈ found) :
    ∃ declaration ∈ declarations,
      declaration.IsLegal ∧ d = declaration.descriptor collection := by
  obtain ⟨rfl, hlegal, -⟩ := describe_eq_ok_iff.1 h
  obtain ⟨declaration, hdeclaration, rfl⟩ := List.mem_map.1 hd
  exact ⟨declaration, hdeclaration, hlegal declaration hdeclaration, rfl⟩

/-- What is known about an entity type has the collection of the type, and its name is legal. -/
theorem Entity.info_eq_ok {τ ι : Type} [EntityId ι] [Entity τ ι] {info : EntityInfo}
    (h : Entity.info τ = .ok info) :
    info.collection = Stored.collection τ ∧ isCollectionName info.collection = true ∧
      describe info.collection (Entity.relations τ) = .ok info.relations := by
  unfold Entity.info EntityInfo.build at h
  obtain ⟨_, hname, h⟩ := bind_eq_ok_iff.1 h
  obtain ⟨relations, hrelations, h⟩ := bind_eq_ok_iff.1 h
  obtain rfl := Except.ok.inj h
  exact ⟨rfl, checkCollectionName_eq_ok_iff.1 hname, hrelations⟩

theorem Entity.isFile_info {τ ι : Type} [EntityId ι] [Entity τ ι] {info : EntityInfo}
    (h : Entity.info τ = .ok info) : info.isFile = Entity.isFile τ := by
  obtain ⟨_, -, h⟩ := bind_eq_ok_iff.1 h
  obtain ⟨relations, -, h⟩ := bind_eq_ok_iff.1 h
  exact Except.ok.inj h ▸ rfl

/-! ## Relationships that share a join collection -/

/-- The parts of the name under which the links of a declared relationship are kept. -/
def Declaration.joinName (collection : String) (declaration : Declaration) : JoinName :=
  ⟨(declaration.descriptor collection).parent, (declaration.descriptor collection).child,
    declaration.ownerProperty⟩

theorem Declaration.join_descriptor (collection : String) (declaration : Declaration) :
    (declaration.descriptor collection).join = (declaration.joinName collection).text := by
  obtain ⟨property, ownerProperty, other, cardinality, side⟩ := declaration
  cases side <;> rfl

theorem Declaration.IsLegal.isLegal_joinName {declaration : Declaration}
    (h : declaration.IsLegal) (hcollection : isCollectionName collection = true) :
    (declaration.joinName collection).IsLegal := by
  obtain ⟨property, ownerProperty, other, cardinality, side⟩ := declaration
  cases side with
  | owner => exact ⟨hcollection, h.other, h.ownerProperty⟩
  | inverse => exact ⟨h.other, hcollection, h.ownerProperty⟩

/-- Names of join collections lose nothing. The parts that are found again are the readable ones, so
all legal ones; a name that is read is the name of what it is read as; and readable parts have a
name of their own. So the links of two declared relationships are kept in one collection exactly if
parent, child and the owner's property are the same. -/
theorem JoinName.encodes :
    (∀ n : JoinName, ofText? n.text = some n ↔ n.IsReadable) ∧
    (∀ n : JoinName, n.IsLegal → ofText? n.text = some n) ∧
    (∀ (name : String) (n : JoinName), ofText? name = some n → n.text = name) ∧
    (∀ m n : JoinName, m.IsReadable → n.IsReadable →
      (m.text = n.text ↔ m.parent = n.parent ∧ m.child = n.child ∧ m.property = n.property)) ∧
    ∀ (collection collection' : String) (d d' : Declaration),
      isCollectionName collection = true → isCollectionName collection' = true →
      d.IsLegal → d'.IsLegal →
      ((d.descriptor collection).join = (d'.descriptor collection').join ↔
        (d.descriptor collection).parent = (d'.descriptor collection').parent ∧
          (d.descriptor collection).child = (d'.descriptor collection').child ∧
          d.ownerProperty = d'.ownerProperty) := by
  refine ⟨fun n => ?_, fun n hn => hn.isReadable.ofText?_text,
    fun name n hread => (ofText?_eq_some_iff.1 hread).1, fun m n hm hn => hm.text_eq_iff hn, ?_⟩
  · rw [ofText?_eq_some_iff]
    exact and_iff_right rfl
  · -- the parts under which links are kept are legal, so they have a name of their own
    intro collection collection' d d' hcollection hcollection' hd hd'
    rw [d.join_descriptor, d'.join_descriptor]
    exact (hd.isLegal_joinName hcollection).isReadable.text_eq_iff
      (hd'.isLegal_joinName hcollection').isReadable

/-- The two sides of one relationship share a join collection, whose name is read back. -/
theorem JoinName.encodes_sides :
    ofText? "~shop.items~Counter(Counters)" = some ⟨"shop.items", "Counter", "Counters"⟩ ∧
      ((Declaration.manyToMany "Counters" "Counter").descriptor "shop.items").join =
        ((Declaration.manyToManyInverse "Items" "shop.items" "Counters").descriptor
          "Counter").join :=
  ⟨encodes.2.1 ⟨"shop.items", "Counter", "Counters"⟩ ⟨by decide, by decide, by decide⟩,
    (encodes.2.2.2.2 "shop.items" "Counter" (.manyToMany "Counters" "Counter")
      (.manyToManyInverse "Items" "shop.items" "Counters") (by decide) (by decide)
      ⟨by decide, by decide, by decide⟩ ⟨by decide, by decide, by decide⟩).2 ⟨rfl, rfl, rfl⟩⟩

/-! ## Declarations that are refused -/

/-- Whether an error is a refusal of what an entity type declares. -/
def Error.isOfDeclaration : Error → Bool
  | .illegalCollectionName _ => true
  | .illegalProperty _ => true
  | .repeatedRelation _ _ => true
  | _ => false

/-- A declaration fails only by being refused. -/
theorem isOfDeclaration_of_declare {declaration : Declaration} {e : Error}
    (h : declare collection found declaration = .error e) : e.isOfDeclaration = true := by
  unfold declare at h
  rcases bind_eq_error_iff.1 h with hproperty | ⟨_, -, h⟩
  · obtain ⟨-, rfl⟩ := checkProperty_eq_error_iff.1 hproperty
    rfl
  rcases bind_eq_error_iff.1 h with howner | ⟨_, -, h⟩
  · obtain ⟨-, rfl⟩ := checkProperty_eq_error_iff.1 howner
    rfl
  rcases bind_eq_error_iff.1 h with hother | ⟨_, -, h⟩
  · obtain ⟨-, rfl⟩ := checkCollectionName_eq_error_iff.1 hother
    rfl
  split at h
  · obtain rfl := Except.error.inj h
    rfl
  · cases h

/-- An entity type can not be used only if something that it declares is refused. -/
theorem Entity.isOfDeclaration_of_info {τ ι : Type} [EntityId ι] [Entity τ ι] {e : Error}
    (h : Entity.info τ = .error e) : e.isOfDeclaration = true := by
  unfold Entity.info EntityInfo.build at h
  rcases bind_eq_error_iff.1 h with hname | ⟨_, -, h⟩
  · obtain ⟨-, rfl⟩ := checkCollectionName_eq_error_iff.1 hname
    rfl
  rcases bind_eq_error_iff.1 h with hrelations | ⟨_, -, h⟩
  · obtain ⟨_, declaration, -, hrefused⟩ := exists_of_foldlM_eq_error hrelations
    exact isOfDeclaration_of_declare hrefused
  · cases h

/-! ## Links of an owner -/

theorem Declaration.related_descriptor (declaration : Declaration) (collection : String) :
    (declaration.descriptor collection).related = declaration.other := by
  obtain ⟨property, ownerProperty, other, cardinality, side⟩ := declaration
  cases side <;> rfl

namespace Context

variable {ι κ γ π : Type} [EntityId ι] [EntityId κ] [Entity γ ι] [Entity π κ]

/-- The relationship of a type with a related one from a side is that of a declaration on this side
which leads to the related type and has legal parts. -/
theorem exists_declaration_of_descriptor {property : String} {side : Side}
    (h : descriptor γ π property side = .ok d) :
    (∃ info, Entity.info γ = .ok info) ∧ ∃ declaration : Declaration, declaration.side = side ∧
      declaration.other = Stored.collection γ ∧
      (declaration.joinName (Stored.collection π)).IsLegal ∧
      d = declaration.descriptor (Stored.collection π) := by
  unfold descriptor at h
  obtain ⟨declaring, hdeclaring, h⟩ := bind_eq_ok_iff.1 h
  obtain ⟨related, hrelated, h⟩ := bind_eq_ok_iff.1 h
  obtain ⟨hcollection, hlegalCollection, hdescribe⟩ := Entity.info_eq_ok hdeclaring
  obtain ⟨hother, -, -⟩ := Entity.info_eq_ok hrelated
  rw [hcollection] at hlegalCollection hdescribe
  split at h
  · rename_i found hfound
    obtain rfl := Except.ok.inj h
    obtain ⟨hfind, hleads⟩ := Option.filter_eq_some_iff.1 hfound
    obtain ⟨declaration, -, hlegal, rfl⟩ := mem_describe hdescribe (List.mem_of_find?_eq_some hfind)
    have hfor := List.find?_some hfind
    rw [decide_eq_true_eq, declaration.related_descriptor, hother] at hleads
    exact ⟨⟨related, hrelated⟩, declaration, (Declaration.isFor_descriptor.1 hfor).2, hleads,
      hlegal.isLegal_joinName hlegalCollection, rfl⟩
  · cases h

/-- The links of an owner are kept under the name of a join collection of legal parts. -/
theorem exists_isLegal_of_links {c : Context} {property : String} {id : κ}
    {l : Links γ .owner} (h : c.links γ π .owner property id = .ok l) :
    l.entityId = EntityId.toValue id ∧
      ∃ n : JoinName, n.IsLegal ∧ n.text = l.join.name ∧ n.parent = Stored.collection π ∧
        n.child = Stored.collection γ := by
  unfold links at h
  obtain ⟨d, hdescriptor, h⟩ := bind_eq_ok_iff.1 h
  obtain rfl := Except.ok.inj h
  obtain ⟨-, declaration, hside, hother, hlegal, rfl⟩ :=
    exists_declaration_of_descriptor hdescriptor
  refine ⟨rfl, declaration.joinName (Stored.collection π), hlegal,
    (declaration.join_descriptor _).symm, ?_, ?_⟩
  · simp [Declaration.joinName, Declaration.descriptor, hside]
  · simp [Declaration.joinName, Declaration.descriptor, hside, hother]

end Context

end DocMapper
