import DocMapper.Proofs.Relation.Registry
import DocMapper.Proofs.Traversal

set_option autoImplicit false

/-!
# Building what is known about an entity type

The declarations of an entity type are acceptable if each is legal and no two are for one property
on one side (`Declaration.Acceptable`). They are looked at one after another, and the first one that
can not join the acceptable ones before it is refused, whatever comes after it
(`describe_eq_error_iff`).

Of acceptable declarations the descriptors say what was declared (`Descriptor.Describes`). Each is
found under its property and its side, and an owner's links are under names of their own, since an
owner declares a relationship under its own property (`EntityInfo.builds`).
-/

namespace DocMapper

variable {collection : String} {found : List Descriptor} {declarations earlier : List Declaration}

namespace Declaration

/-! ## What can be declared -/

/-- The declarations that an entity type can make. -/
inductive IsDeclarable : Declaration → Prop
  | oneToMany (property other : String) : IsDeclarable (.oneToMany property other)
  | manyToMany (property other : String) : IsDeclarable (.manyToMany property other)
  | manyToManyInverse (property other ownerProperty : String) :
      IsDeclarable (.manyToManyInverse property other ownerProperty)
  | parentOf (property other ownerProperty : String) :
      IsDeclarable (.parentOf property other ownerProperty)

/-- Declarations that can stand together. -/
structure Acceptable (declarations : List Declaration) : Prop where
  legal : ∀ d ∈ declarations, d.IsLegal
  differ : declarations.Pairwise Differs

/-- Why a declaration of an entity with a given collection is refused after acceptable ones. Its
names are looked at first, in this order. -/
inductive Refuses (collection : String) (earlier : List Declaration) (d : Declaration) :
    Error → Prop
  | property (h : isProperty d.property = false) :
      Refuses collection earlier d (.illegalProperty d.property)
  | ownerProperty (hproperty : isProperty d.property = true)
      (h : isProperty d.ownerProperty = false) :
      Refuses collection earlier d (.illegalProperty d.ownerProperty)
  | other (hproperty : isProperty d.property = true) (howner : isProperty d.ownerProperty = true)
      (h : isCollectionName d.other = false) :
      Refuses collection earlier d (.illegalCollectionName d.other)
  | repeated (hlegal : d.IsLegal) {first : Declaration} (hfirst : first ∈ earlier)
      (hproperty : first.property = d.property) (hside : first.side = d.side) :
      Refuses collection earlier d (.repeatedRelation d.property collection)

theorem IsDeclarable.ownerProperty_eq {d : Declaration} (h : d.IsDeclarable)
    (hside : d.side = .owner) :
    d.ownerProperty = d.property := by
  cases h with
  | oneToMany => rfl
  | manyToMany => rfl
  | manyToManyInverse => cases hside
  | parentOf => cases hside

end Declaration

/-! ## One declaration after another -/

/-- A declaration that is not accepted is refused for its first reason. -/
theorem declare_eq_error_iff {d : Declaration} {e : Error} :
    declare collection (earlier.map (·.descriptor collection)) d = .error e ↔
      d.Refuses collection earlier e := by
  unfold declare
  constructor
  · intro h
    -- the checks are made one after another, and the first one that fails decides
    rcases bind_eq_error_iff.1 h with hrefused | ⟨_, hproperty, h⟩
    · obtain ⟨hproperty, rfl⟩ := checkProperty_eq_error_iff.1 hrefused
      exact .property hproperty
    rw [checkProperty_eq_ok_iff] at hproperty
    rcases bind_eq_error_iff.1 h with hrefused | ⟨_, howner, h⟩
    · obtain ⟨howner, rfl⟩ := checkProperty_eq_error_iff.1 hrefused
      exact .ownerProperty hproperty howner
    rw [checkProperty_eq_ok_iff] at howner
    rcases bind_eq_error_iff.1 h with hrefused | ⟨_, hother, h⟩
    · obtain ⟨hother, rfl⟩ := checkCollectionName_eq_error_iff.1 hrefused
      exact .other hproperty howner hother
    rw [checkCollectionName_eq_ok_iff] at hother
    split at h
    · rename_i hany
      obtain ⟨first, hfirst, hsame, hside⟩ := any_isFor_map_descriptor_iff.1 hany
      obtain rfl := Except.error.inj h
      exact .repeated ⟨hproperty, howner, hother⟩ hfirst hsame hside
    · cases h
  · intro h
    -- every reason says that the checks before it pass
    cases h with
    | property h => rw [checkProperty_eq_error_iff.2 ⟨h, rfl⟩]; rfl
    | ownerProperty hproperty h =>
      rw [checkProperty_eq_ok_iff.2 hproperty, checkProperty_eq_error_iff.2 ⟨h, rfl⟩]
      rfl
    | other hproperty howner h =>
      rw [checkProperty_eq_ok_iff.2 hproperty, checkProperty_eq_ok_iff.2 howner,
        checkCollectionName_eq_error_iff.2 ⟨h, rfl⟩]
      rfl
    | repeated hlegal hfirst hproperty hside =>
      have hany : ((earlier.map (·.descriptor collection)).any fun other =>
          other.isFor d.property d.side) = true :=
        any_isFor_map_descriptor_iff.2 ⟨_, hfirst, hproperty, hside⟩
      rw [checkProperty_eq_ok_iff.2 hlegal.property, checkProperty_eq_ok_iff.2 hlegal.ownerProperty,
        checkCollectionName_eq_ok_iff.2 hlegal.other, if_pos hany]
      rfl

/-- Declarations are described exactly if they are acceptable, each by its descriptor. -/
theorem describe_eq_ok_iff_acceptable :
    describe collection declarations = .ok found ↔
      Declaration.Acceptable declarations ∧ found = declarations.map (·.descriptor collection) := by
  rw [describe_eq_ok_iff]
  exact ⟨fun h => ⟨⟨h.2.1, h.2.2⟩, h.1⟩, fun h => ⟨h.2, h.1.legal, h.1.differ⟩⟩

/-- Declarations fail with the first one that is refused after the acceptable ones before it. -/
theorem describe_eq_error_iff {e : Error} :
    describe collection declarations = .error e ↔
      ∃ earlier d rest, declarations = earlier ++ d :: rest ∧ Declaration.Acceptable earlier ∧
        d.Refuses collection earlier e := by
  refine foldlM_eq_error_iff.trans ?_
  constructor
  · rintro ⟨earlier, d, rest, next, rfl, hearlier, hd⟩
    obtain ⟨hacceptable, rfl⟩ := describe_eq_ok_iff_acceptable.1 hearlier
    exact ⟨earlier, d, rest, rfl, hacceptable, declare_eq_error_iff.1 hd⟩
  · rintro ⟨earlier, d, rest, rfl, hacceptable, hd⟩
    exact ⟨earlier, d, rest, _, rfl, describe_eq_ok_iff_acceptable.2 ⟨hacceptable, rfl⟩,
      declare_eq_error_iff.2 hd⟩

/-! ## Descriptors of declarations -/

/-- What a descriptor says of a declaration of an entity with a given collection: the owner is the
parent, and the name of the links is read back as the two ends and the owner's property. -/
structure Descriptor.Describes (collection : String) (d : Declaration) (r : Descriptor) : Prop where
  property : r.property = d.property
  side : r.side = d.side
  cardinality : r.cardinality = d.cardinality
  ends : (r.parent, r.child) =
    match d.side with
    | .owner => (collection, d.other)
    | .inverse => (d.other, collection)
  join : JoinName.ofText? r.join = some ⟨r.parent, r.child, d.ownerProperty⟩

/-- The descriptor of a legal declaration describes it. -/
theorem Declaration.IsLegal.describes {d : Declaration} (h : d.IsLegal)
    (hcollection : isCollectionName collection = true) :
    (d.descriptor collection).Describes collection d where
  property := rfl
  side := rfl
  cardinality := rfl
  ends := rfl
  join := by
    rw [d.join_descriptor]
    exact (h.isLegal_joinName hcollection).isReadable.ofText?_text

/-- Owners that declare different relationships keep their links under different names. -/
theorem Declaration.join_ne_of_differs {d d' : Declaration}
    (hcollection : isCollectionName collection = true) (hd : d.IsLegal) (hd' : d'.IsLegal)
    (hdeclarable : d.IsDeclarable) (hdeclarable' : d'.IsDeclarable) (hdiffers : d.Differs d')
    (hside : d.side = .owner) (hside' : d'.side = .owner) :
    (d.descriptor collection).join ≠ (d'.descriptor collection).join := by
  intro hjoin
  rw [d.join_descriptor, d'.join_descriptor,
    (hd.isLegal_joinName hcollection).isReadable.text_eq_iff
      (hd'.isLegal_joinName hcollection).isReadable] at hjoin
  have hproperty : d.ownerProperty = d'.ownerProperty := hjoin.2.2
  rw [hdeclarable.ownerProperty_eq hside, hdeclarable'.ownerProperty_eq hside'] at hproperty
  exact hdiffers ⟨hproperty, hside.trans hside'.symm⟩

/-! ## The entry of an entity type -/

namespace EntityInfo

variable {isFile : Bool} {info : EntityInfo}

/-- An entity type is known exactly if its collection has a legal name and its declarations are
acceptable. -/
theorem build_eq_ok_iff :
    build collection isFile declarations = .ok info ↔
      isCollectionName collection = true ∧ Declaration.Acceptable declarations ∧
        info = ⟨collection, isFile, declarations.map (·.descriptor collection)⟩ := by
  unfold build
  constructor
  · intro h
    obtain ⟨_, hname, h⟩ := bind_eq_ok_iff.1 h
    obtain ⟨relations, hrelations, h⟩ := bind_eq_ok_iff.1 h
    obtain ⟨hacceptable, rfl⟩ := describe_eq_ok_iff_acceptable.1 hrelations
    exact ⟨checkCollectionName_eq_ok_iff.1 hname, hacceptable, (Except.ok.inj h).symm⟩
  · rintro ⟨hname, hacceptable, rfl⟩
    rw [checkCollectionName_eq_ok_iff.2 hname, describe_eq_ok_iff_acceptable.2 ⟨hacceptable, rfl⟩]
    rfl

/-- Otherwise the name of the collection is refused, or else the first declaration that can not join
those before it. -/
theorem build_eq_error_iff {e : Error} :
    build collection isFile declarations = .error e ↔
      (isCollectionName collection = false ∧ e = .illegalCollectionName collection) ∨
        (isCollectionName collection = true ∧
          ∃ earlier d rest, declarations = earlier ++ d :: rest ∧ Declaration.Acceptable earlier ∧
            d.Refuses collection earlier e) := by
  rw [← describe_eq_error_iff]
  unfold build
  constructor
  · intro h
    rcases bind_eq_error_iff.1 h with hname | ⟨_, hname, h⟩
    · exact Or.inl (checkCollectionName_eq_error_iff.1 hname)
    rcases bind_eq_error_iff.1 h with hrelations | ⟨_, -, h⟩
    · exact Or.inr ⟨checkCollectionName_eq_ok_iff.1 hname, hrelations⟩
    · cases h
  · rintro (hname | ⟨hname, hrelations⟩)
    · rw [checkCollectionName_eq_error_iff.2 hname]
      rfl
    · rw [checkCollectionName_eq_ok_iff.2 hname, hrelations]
      rfl

/-- The relationship of a property and a side is that of the declaration for them. -/
theorem relation?_eq_some_iff (h : build collection isFile declarations = .ok info)
    {property : String} {side : Side} {r : Descriptor} :
    info.relation? property side = some r ↔
      ∃ d ∈ declarations, (d.property = property ∧ d.side = side) ∧
        r = d.descriptor collection := by
  obtain ⟨-, hacceptable, rfl⟩ := build_eq_ok_iff.1 h
  have hdescribe : describe collection declarations =
      .ok (declarations.map (·.descriptor collection)) :=
    describe_eq_ok_iff_acceptable.2 ⟨hacceptable, rfl⟩
  constructor
  · intro hfind
    have hfor := List.find?_some (p := fun r => Descriptor.isFor r property side) hfind
    obtain ⟨d, hd, rfl⟩ := List.mem_map.1 (List.mem_of_find?_eq_some hfind)
    exact ⟨d, hd, Declaration.isFor_descriptor.1 hfor, rfl⟩
  · rintro ⟨d, hd, ⟨rfl, rfl⟩, rfl⟩
    exact find?_describe hdescribe hd

/-- An entity type is known exactly if its collection has a legal name, all names in its
declarations are legal and no two of them share property and side. Otherwise the name of the
collection is refused, or else the first declaration that can not join those before it, whatever
follows. What is known describes the declarations in order, finds the one for a property and a side,
and keeps the links of the relationships that are owned apart. -/
theorem builds (collection : String) (isFile : Bool) (declarations : List Declaration)
    (hdeclarable : ∀ d ∈ declarations, d.IsDeclarable) :
    ((∃ info, build collection isFile declarations = .ok info) ↔
        isCollectionName collection = true ∧ (∀ d ∈ declarations, d.IsLegal) ∧
          declarations.Pairwise Declaration.Differs) ∧
      (∀ e, build collection isFile declarations = .error e ↔
        (isCollectionName collection = false ∧ e = .illegalCollectionName collection) ∨
          (isCollectionName collection = true ∧
            ∃ earlier d rest, declarations = earlier ++ d :: rest ∧
              Declaration.Acceptable earlier ∧ d.Refuses collection earlier e)) ∧
      ∀ info, build collection isFile declarations = .ok info →
        (info.collection = collection ∧ info.isFile = isFile) ∧
        List.Forall₂ (Descriptor.Describes collection) declarations info.relations ∧
        (∀ property side r, info.relation? property side = some r ↔
          ∃ d ∈ declarations, (d.property = property ∧ d.side = side) ∧
            r = d.descriptor collection) ∧
        info.relations.Pairwise fun r r' =>
          r.side = .owner → r'.side = .owner → r.join ≠ r'.join := by
  refine ⟨?accepted, fun e => build_eq_error_iff, fun info hinfo => ?known⟩
  case accepted =>
    simp only [build_eq_ok_iff, exists_and_left, exists_eq, and_true]
    exact and_congr_right fun _ => ⟨fun h => ⟨h.legal, h.differ⟩, fun h => ⟨h.1, h.2⟩⟩
  case known =>
    obtain ⟨hcollection, hacceptable, rfl⟩ := build_eq_ok_iff.1 hinfo
    refine ⟨⟨rfl, rfl⟩, ?describes, fun _ _ _ => relation?_eq_some_iff hinfo, ?apart⟩
    case describes =>
      rw [List.forall₂_map_right_iff, List.forall₂_same]
      intro d hd
      exact (hacceptable.legal d hd).describes hcollection
    case apart =>
      rw [List.pairwise_map]
      refine hacceptable.differ.imp_of_mem ?_
      intro d d' hd hd' hdiffers hside hside'
      exact Declaration.join_ne_of_differs hcollection (hacceptable.legal d hd)
        (hacceptable.legal d' hd') (hdeclarable d hd) (hdeclarable d' hd') hdiffers hside hside'

/-- A type with both ends of a relationship with itself and another relationship is known, and the
end of its parent is found. -/
theorem builds_node :
    let declarations : List Declaration := [.oneToMany "Children" "Node",
      .parentOf "Parent" "Node" "Children", .manyToMany "Friends" "Node"]
    (∀ d ∈ declarations, d.IsDeclarable) ∧
      ∃ info, build "Node" false declarations = .ok info ∧
        info.relation? "Parent" .inverse =
          some ((Declaration.parentOf "Parent" "Node" "Children").descriptor "Node") := by
  intro declarations
  have hdeclarable : ∀ d ∈ declarations, d.IsDeclarable := by
    intro d hd
    simp only [declarations, List.mem_cons, List.not_mem_nil, or_false] at hd
    rcases hd with rfl | rfl | rfl
    · exact .oneToMany _ _
    · exact .parentOf _ _ _
    · exact .manyToMany _ _
  have hlegal : ∀ d ∈ declarations, d.IsLegal := by
    intro d hd
    simp only [declarations, List.mem_cons, List.not_mem_nil, or_false] at hd
    rcases hd with rfl | rfl | rfl <;> exact ⟨by decide, by decide, by decide⟩
  have hdiffer : declarations.Pairwise Declaration.Differs := by
    simp [declarations, Declaration.Differs, Declaration.oneToMany, Declaration.parentOf,
      Declaration.manyToMany]
  obtain ⟨haccepted, -, hknown⟩ := builds "Node" false declarations hdeclarable
  obtain ⟨info, hinfo⟩ := haccepted.2 ⟨by decide, hlegal, hdiffer⟩
  obtain ⟨-, -, hrelation, -⟩ := hknown info hinfo
  refine ⟨hdeclarable, info, hinfo, (hrelation "Parent" .inverse _).2 ⟨_, ?_, ⟨rfl, rfl⟩, rfl⟩⟩
  exact List.mem_cons_of_mem _ List.mem_cons_self

end EntityInfo

end DocMapper
