import DocMapper.Entity.Basic

set_option autoImplicit false

/-!
# Sample entities: publishing

Authors own their books, a book has genres and sequels, and each side of a relationship that another
entity type owns is declared on its own type too.
-/

namespace DocMapper.Sample

/-- A writer. -/
structure Author where
  id : ObjectId
  name : String
  active : Bool := false
deriving DecidableEq

instance : Stored Author ObjectId where
  typeName := "Author"

/-- What a reader says about a book. -/
structure Review where
  rating : Int32
  text : String
deriving DecidableEq

namespace Review

/-- The review as a value. -/
def toValue (r : Review) : Value :=
  .document [("rating", .int32 r.rating), ("text", .string r.text)]

/-- The review that a value stands for: a document, or an array that begins with the rating and
the text. -/
def ofValue? : Value → Option Review
  | .document fields => do
      let rating ← Document.required fields "rating" Value.asInt32?
      let text ← Document.required fields "text" Value.asString?
      return ⟨rating, text⟩
  | .array (rating :: text :: _) => do
      return ⟨← rating.asInt32?, ← text.asString?⟩
  | _ => none

theorem ofValue?_toValue (r : Review) : ofValue? r.toValue = some r := rfl

end Review

/-- A book with a reference to its author. -/
structure Book where
  id : ObjectId
  title : String
  author : Reference Author
  reviews : List Review := []
deriving DecidableEq

instance : Stored Book ObjectId where
  typeName := "Book"

/-- A genre, which is its own name. -/
structure Genre where
  id : String
deriving DecidableEq

instance : Stored Genre String where
  typeName := "Genre"

instance : Entity Author ObjectId where
  relations := [.oneToMany "Books" (Stored.collection Book)]
  id := Author.id
  withId id author := { author with id := id }
  encode author :=
    [("_id", EntityId.toValue author.id), ("name", .string author.name),
      ("active", .boolean author.active)]
  decode? doc := do
    let id ← Document.required doc "_id" EntityId.ofValue?
    let name ← Document.required doc "name" Value.asString?
    let active ← Document.optional doc "active" Value.asBoolean? false
    return ⟨id, name, active⟩

instance : Entity Book ObjectId where
  relations :=
    [.parentOf "Author" (Stored.collection Author) "Books",
      .manyToMany "Genres" (Stored.collection Genre),
      .manyToMany "Sequels" (Stored.collection Book)]
  id := Book.id
  withId id book := { book with id := id }
  encode book :=
    [("_id", EntityId.toValue book.id), ("title", .string book.title),
      ("author", book.author.toValue), ("reviews", .array (book.reviews.map Review.toValue))]
  decode? doc := do
    let id ← Document.required doc "_id" EntityId.ofValue?
    let title ← Document.required doc "title" Value.asString?
    let author ← Document.optional doc "author" Reference.ofValue? Reference.none
    let reviews ← Document.optional doc "reviews" (Value.asList? Review.ofValue?) []
    return ⟨id, title, author, reviews⟩

instance : Entity Genre String where
  relations := [.manyToManyInverse "Books" (Stored.collection Book) "Genres"]
  id := Genre.id
  withId id _ := ⟨id⟩
  encode genre := [("_id", EntityId.toValue genre.id)]
  decode? doc := do
    let id ← Document.required doc "_id" EntityId.ofValue?
    return ⟨id⟩

/-! ## Laws -/

instance : LawfulEntity Author where
  decode?_encode _ := rfl
  get?_encode_id _ := rfl
  id_withId _ _ := rfl

instance : LawfulEntity Book where
  decode?_encode book := by
    obtain ⟨id, title, author, reviews⟩ := book
    simp [Entity.decode?, Entity.encode, Document.required, Document.optional, Fields.get?,
      LawfulEntityId.ofValue?_toValue, Value.asString?, Reference.ofValue?_toValue,
      Value.asList?_array Review.ofValue?_toValue]
  get?_encode_id _ := rfl
  id_withId _ _ := rfl

instance : LawfulEntity Genre where
  decode?_encode _ := rfl
  get?_encode_id _ := rfl
  id_withId _ _ := rfl

end DocMapper.Sample
