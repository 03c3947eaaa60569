import DocMapper.Error
import DocMapper.Relation.JoinName
import DocMapper.Text.Alphanumeric

set_option autoImplicit false

/-!
# Declared relationships

An entity declares relationships with other entities, each under a property and from one of two
sides. The owner is the parent of the links and may change them; the inverse side reads the links
that the other entity owns under its own property. `describe` turns a list of declarations into
descriptors, or into the error of the first declaration that is illegal.
-/

namespace DocMapper

/-- How many parents a child may have. -/
inductive Cardinality where
  | oneToMany
  | manyToMany
deriving DecidableEq

/-- The end of the links on which a relationship is declared. -/
inductive Side where
  | owner
  | inverse
deriving DecidableEq

/-- The name of a side in messages. -/
def Side.name : Side → String
  | owner => "owner"
  | inverse => "inverse"

/-- A relationship as an entity declares it. -/
structure Declaration where
  property : String
  /-- The property under which the owner declares the same relationship. -/
  ownerProperty : String
  /-- The collection of the other entity. -/
  other : String
  cardinality : Cardinality
  side : Side
deriving DecidableEq

namespace Declaration

/-- The declaring entity owns many of the other, each of which has one owner. -/
def oneToMany (property other : String) : Declaration :=
  ⟨property, property, other, .oneToMany, .owner⟩

/-- The declaring entity owns links with many of the other. -/
def manyToMany (property other : String) : Declaration :=
  ⟨property, property, other, .manyToMany, .owner⟩

/-- The inverse side of links that the other entity owns. -/
def manyToManyInverse (property other ownerProperty : String) : Declaration :=
  ⟨property, ownerProperty, other, .manyToMany, .inverse⟩

/-- The way from a child to the one parent that owns it. -/
def parentOf (property other ownerProperty : String) : Declaration :=
  ⟨property, ownerProperty, other, .oneToMany, .inverse⟩

end Declaration

/-- A relationship with its collections. -/
structure Descriptor where
  property : String
  parent : String
  child : String
  cardinality : Cardinality
  side : Side
  /-- The collection of the links. -/
  join : String
deriving DecidableEq

namespace Descriptor

/-- The collection on the other end. -/
def related (d : Descriptor) : String :=
  match d.side with
  | .owner => d.child
  | .inverse => d.parent

/-- Whether a descriptor is the one of a property and a side. -/
def isFor (d : Descriptor) (property : String) (side : Side) : Bool :=
  d.property = property && d.side = side

end Descriptor

/-! ## Legal names -/

/-- Whether a character can not stand in the name of a collection. -/
def isReservedInCollection (c : Char) : Bool :=
  c = '~' || c = '(' || c = ')' || c = '$' || c = '\x00'

/-- Whether a name can be the name of an entity's collection. -/
def isCollectionName (name : String) : Bool :=
  let chars := name.toList
  !chars.isEmpty && !"system.".toList.isPrefixOf chars && !chars.any isReservedInCollection

/-- Refuses a name that is not legal for a collection. -/
def checkCollectionName (name : String) : Except Error Unit :=
  if isCollectionName name then .ok () else .error (.illegalCollectionName name)

/-- Whether a text can be a property of a relationship. -/
def isProperty (property : String) : Bool :=
  let chars := property.toList
  !chars.isEmpty && chars.all fun c => Text.isAlphanumeric c || c = '_'

/-- Refuses a text that is no property. -/
def checkProperty (property : String) : Except Error Unit :=
  if isProperty property then .ok () else .error (.illegalProperty property)

/-! ## Descriptors from declarations -/

/-- The descriptor of a declaration of an entity with a given collection. -/
def Declaration.descriptor (collection : String) (d : Declaration) : Descriptor :=
  let (parent, child) := match d.side with
    | .owner => (collection, d.other)
    | .inverse => (d.other, collection)
  { property := d.property, parent := parent, child := child, cardinality := d.cardinality
    side := d.side, join := JoinName.text ⟨parent, child, d.ownerProperty⟩ }

/-- The descriptors after one declaration more. -/
def declare (collection : String) (found : List Descriptor) (d : Declaration) :
    Except Error (List Descriptor) := do
  checkProperty d.property
  checkProperty d.ownerProperty
  checkCollectionName d.other
  if found.any fun other => other.isFor d.property d.side then
    throw (.repeatedRelation d.property collection)
  return found ++ [d.descriptor collection]

/-- The descriptors of all declarations of an entity, in order. -/
def describe (collection : String) (declarations : List Declaration) :
    Except Error (List Descriptor) :=
  declarations.foldlM (declare collection) []

/-- What the library knows about an entity type. -/
structure EntityInfo where
  collection : String
  isFile : Bool
  relations : List Descriptor

namespace EntityInfo

/-- The information on an entity type with the given collection and declarations. -/
def build (collection : String) (isFile : Bool) (declarations : List Declaration) :
    Except Error EntityInfo := do
  checkCollectionName collection
  let relations ← describe collection declarations
  return ⟨collection, isFile, relations⟩

/-- The relationship of a property and a side. -/
def relation? (info : EntityInfo) (property : String) (side : Side) : Option Descriptor :=
  info.relations.find? fun d => d.isFor property side

end EntityInfo

end DocMapper
