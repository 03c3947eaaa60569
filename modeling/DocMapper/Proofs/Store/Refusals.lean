import DocMapper.Proofs.Filter.Merging
import DocMapper.Proofs.Store.Deletion
import DocMapper.Proofs.Store.Histories
import DocMapper.Proofs.Store.Reading
import DocMapper.Proofs.Store.Writing

set_option autoImplicit false

/-!
# Calls that fail

A store looks at the arguments of a call before it changes a document, so a call that fails leaves
all documents as they were. `Store.Failure` lists the errors of the calls with the catalogs that
they leave, and every failing call is among them (`Store.Request.failure_of_action`).

The collections are not all as they were (`Store.Request.refused`). A document whose `_id` has no
key is refused after the place of its collection was taken, so where there was no collection an
empty one stays (`Store.Request.names_ne_of_refused`). Every other failure leaves the catalog
itself.
-/

namespace DocMapper

/-! ## A collection that is put back -/

namespace Catalog

variable {c : Catalog} {name : String} {collection : Collection}

/-- Placing the collection that is held under a name changes nothing. -/
theorem place_of_get? {entries : List (String × Collection)}
    (hsorted : entries.Pairwise fun a b => a.1 < b.1)
    (h : Fields.get? entries name = some collection) :
    place name collection entries = entries := by
  induction entries with
  | nil => cases h
  | cons head rest ih =>
    obtain ⟨n, first⟩ := head
    obtain ⟨hfirst, hrest⟩ := List.pairwise_cons.1 hsorted
    rw [Fields.get?_cons] at h
    by_cases hn : n = name
    · subst hn
      rw [if_pos rfl] at h
      obtain rfl := Option.some.inj h
      rw [place, if_neg (String.lt_irrefl n), if_pos rfl]
    · rw [if_neg hn] at h
      -- the name is one of the later ones, which are larger
      have hmem : name ∈ Fields.keys rest := by
        by_contra hnot
        rw [(Fields.get?_eq_none_iff rest name).2 hnot] at h
        cases h
      obtain ⟨entry, hentry, rfl⟩ := List.mem_map.1 hmem
      have hlt : n < entry.1 := hfirst entry hentry
      rw [place, if_neg fun hgt => String.lt_irrefl n (String.lt_trans hlt hgt),
        if_neg fun heq => hn heq.symm, ih hrest h]

/-- A collection that is put back under its name changes nothing. -/
theorem insert_get (h : name ∈ c.names) : c.insert name (c.get name) = c := by
  cases hfind : c.find? name with
  | none =>
    rw [mem_names_iff, content?, hfind] at h
    cases h
  | some collection =>
    have hplace := place_of_get? c.sorted hfind
    rw [get, hfind, Option.getD_some]
    obtain ⟨entries, sorted⟩ := c
    simp only [insert, hplace]

/-- Under a name that a catalog does not have it holds no documents. -/
theorem get_of_not_mem_names (h : name ∉ c.names) : c.get name = .empty := by
  cases hfind : c.find? name with
  | none => rw [get, hfind, Option.getD_none]
  | some collection =>
    refine absurd ?_ h
    rw [mem_names_iff, content?, hfind]
    rfl

theorem mem_names_insert (c : Catalog) (name : String) (collection : Collection) :
    name ∈ (c.insert name collection).names := by
  rw [mem_names_iff, content?_insert, if_pos rfl]
  rfl

end Catalog

/-! ## Documents that are refused -/

namespace Collection

variable {name : String} {c : Collection} {supply : IdSupply} {id : Value} {doc : Document}
variable {e : Error}

/-- A document is refused under an identifier without a key and under one whose key is taken. -/
theorem prepareWithId_eq_error_iff :
    c.prepareWithId name supply id doc = .error e ↔
      (id.key? = none ∧ e = .unsupportedId id.elementType name) ∨
        ∃ key, id.key? = some key ∧ key ∈ c.toList.map Prod.fst ∧ e = .duplicateId name id := by
  unfold prepareWithId
  cases id.key? with
  | none => simp [eq_comm]
  | some key =>
    simp only [reduceCtorEq, false_and, false_or, Option.some.injEq, exists_eq_left',
      ← contains_iff]
    cases c.contains key with
    | true => simp [eq_comm]
    | false => simp

/-- A document is refused for the type of its identifier, or in a collection that has a document
under the same key. -/
theorem of_prepare_eq_error (h : c.prepare name supply doc = .error e) :
    (∃ type, e = .unsupportedId type name) ∨ (c.toList ≠ [] ∧ ∃ id, e = .duplicateId name id) := by
  have hrefused : ∀ {supply id doc}, c.prepareWithId name supply id doc = .error e →
      (∃ type, e = .unsupportedId type name) ∨
        (c.toList ≠ [] ∧ ∃ id, e = .duplicateId name id) := by
    intro supply id doc h
    rcases prepareWithId_eq_error_iff.1 h with ⟨-, rfl⟩ | ⟨key, -, hkey, rfl⟩
    · exact Or.inl ⟨_, rfl⟩
    · exact Or.inr ⟨fun hnil => by simp [hnil] at hkey, _, rfl⟩
  unfold prepare at h
  cases hid : Fields.get? doc "_id" with
  | some id =>
    rw [hid] at h
    exact hrefused h
  | none =>
    rw [hid] at h
    exact hrefused h

end Collection

namespace Store

variable {s t : Store} {e : Error}

/-! ## How calls fail -/

/-- The errors with which calls fail, and the catalog that is left of the one before. -/
inductive Failure (c : Catalog) : Error → Catalog → Prop
  /-- The filter can not be read. -/
  | filter (fault : Filter.Fault) : Failure c (.unsupportedFilter fault) c
  /-- The pattern can not be read. -/
  | pattern (text : String) : Failure c (.malformedPattern text) c
  /-- The deletion is set to fail. -/
  | deletion (name : String) : Failure c (.deleteFailed name) c
  /-- The key of the `_id` is taken. -/
  | taken (name : String) (id : Value) : Failure c (.duplicateId name id) c
  /-- The `_id` has no key; the collection exists from now on. -/
  | keyless (type : ElementType) (name : String) :
      Failure c (.unsupportedId type name) (c.insert name (c.get name))

namespace Failure

variable {c d : Catalog}

theorem documents_eq (h : Failure c e d) (name : String) : d.documents name = c.documents name := by
  cases h with
  | keyless type other => exact c.documents_insert_get other name
  | _ => rfl

/-- A failure leaves the catalog, unless it makes a collection for a document without a key. -/
theorem eq_iff (h : Failure c e d) :
    d = c ↔ ∀ type name, e = .unsupportedId type name → name ∈ c.names := by
  cases h with
  | keyless type name =>
    constructor
    · intro heq type' name' herror
      cases herror
      rw [← heq]
      exact c.mem_names_insert name _
    · intro hnames
      exact Catalog.insert_get (hnames type name rfl)
  | _ => exact ⟨fun _ _ _ herror => (nomatch herror), fun _ => rfl⟩

theorem eq_insert {type : ElementType} {name : String} (h : Failure c (.unsupportedId type name) d)
    (hname : name ∉ c.names) : d = c.insert name .empty := by
  cases h with
  | keyless => rw [Catalog.get_of_not_mem_names hname]

end Failure

/-- An insertion that is refused. -/
theorem failure_of_insertInto {collection : String} {doc : Document}
    (h : (insertInto collection doc).runOn s = (.error e, t)) :
    Failure s.catalog e t.catalog := by
  rw [runOn_insertInto] at h
  cases hp : (s.catalog.get collection).prepare collection s.supply doc with
  | ok p =>
    rw [hp] at h
    cases h
  | error e' =>
    rw [hp] at h
    obtain ⟨he, rfl⟩ := Prod.mk.inj h
    obtain rfl := Except.error.inj he
    rcases Collection.of_prepare_eq_error hp with ⟨type, rfl⟩ | ⟨hnonempty, id, rfl⟩
    · exact .keyless type collection
    · -- a collection with a document is there already
      have hname : collection ∈ s.catalog.names := by
        by_contra hnot
        rw [Catalog.get_of_not_mem_names hnot] at hnonempty
        exact hnonempty rfl
      dsimp only
      rw [Catalog.insert_get hname]
      exact .taken collection id

theorem failure_of_compileFilter {filter : Document} (c : Catalog)
    (h : compileFilter filter = .error e) : Failure c e c := by
  obtain ⟨fault, rfl⟩ := exists_fault_of_compileFilter h
  exact .filter fault

/-! ## Calls with their arguments -/

/-- A call of a store with its arguments. -/
inductive Request where
  | find (collection : String) (filter : Document) (options : FindOptions)
  | insertOne (collection : String) (doc : Document)
  | replaceOne (collection : String) (filter replacement : Document) (upsert : Bool)
  | deleteMany (collection : String) (filter : Document) (session : Option Session)
  | listCollections (pattern : String)

namespace Request

/-- What a call does; its answer is left out. -/
def action : Request → Action Unit
  | find collection filter options => do
      let _ ← Store.find collection filter options
  | insertOne collection doc => do
      let _ ← Store.insertOne collection doc
  | replaceOne collection filter replacement upsert => do
      let _ ← Store.replaceOne collection filter replacement upsert
  | deleteMany collection filter session => do
      let _ ← Store.deleteMany collection filter session
  | listCollections pattern => do
      let _ ← Store.listCollections pattern

/-- A call fails in one of the ways listed. -/
theorem failure_of_action {request : Request} (h : request.action.runOn s = (.error e, t)) :
    Failure s.catalog e t.catalog := by
  cases request with
  | find collection filter options =>
    rw [action, Action.runOn_bind_pure] at h
    have hrun := Action.eq_error_of_map_eq h
    cases hf : compileFilter filter with
    | ok f =>
      rw [runOn_find collection options s hf] at hrun
      cases hrun
    | error e' =>
      rw [runOn_find_of_fault collection options s hf] at hrun
      cases hrun
      exact failure_of_compileFilter s.catalog hf
  | insertOne collection doc =>
    rw [action, Action.runOn_bind_pure, runOn_insertOne] at h
    have hrun := Action.eq_error_of_map_eq (Action.eq_error_of_map_eq h)
    exact failure_of_insertInto (s := s.record (.insert collection)) hrun
  | replaceOne collection filter replacement upsert =>
    rw [action, Action.runOn_bind_pure] at h
    have hrun := Action.eq_error_of_map_eq h
    cases hf : compileFilter filter with
    | error e' =>
      rw [runOn_replaceOne_of_fault replacement upsert hf] at hrun
      cases hrun
      exact failure_of_compileFilter s.catalog hf
    | ok f =>
      -- with a filter that can be read only the insertion of an upsert can fail
      cases hi : (s.catalog.get collection).findFirst? f.holds with
      | some i =>
        rw [runOn_replaceOne_of_some replacement upsert hf hi] at hrun
        cases hrun
      | none =>
        cases upsert with
        | false =>
          rw [runOn_replaceOne_of_none_of_false replacement hf hi] at hrun
          cases hrun
        | true =>
          rw [runOn_replaceOne_of_none replacement hf hi] at hrun
          exact failure_of_insertInto (s := s.record (.replace collection))
            (Action.eq_error_of_map_eq hrun)
  | deleteMany collection filter session =>
    rw [action, Action.runOn_bind_pure] at h
    have hrun := Action.eq_error_of_map_eq h
    cases hf : compileFilter filter with
    | error e' =>
      rw [runOn_deleteMany_of_fault session hf] at hrun
      cases hrun
      exact failure_of_compileFilter s.catalog hf
    | ok f =>
      cases hfails : s.failingDeletes.contains collection with
      | false =>
        rw [runOn_deleteMany session hf hfails] at hrun
        cases hrun
      | true =>
        rw [runOn_deleteMany_of_fails session hf hfails] at hrun
        cases hrun
        exact .deletion collection
  | listCollections pattern =>
    rw [action, Action.runOn_bind_pure] at h
    have hrun := Action.eq_error_of_map_eq h
    cases hpattern : Regex.ofText? pattern with
    | some regex =>
      rw [runOn_listCollections hpattern] at hrun
      cases hrun
    | none =>
      rw [Store.listCollections, hpattern] at hrun
      cases hrun
      exact .pattern pattern

/-- A call that fails leaves all documents. It leaves the catalog itself, except that a document
whose `_id` has no key leaves an empty collection where there was none. -/
theorem refused {request : Request} (h : request.action.runOn s = (.error e, t)) :
    (∀ name, t.catalog.documents name = s.catalog.documents name) ∧
      (t.catalog = s.catalog ↔
        ∀ type name, e = .unsupportedId type name → name ∈ s.catalog.names) ∧
      ∀ type name, e = .unsupportedId type name → name ∉ s.catalog.names →
        t.catalog = s.catalog.insert name .empty := by
  have hfailure := failure_of_action h
  refine ⟨hfailure.documents_eq, hfailure.eq_iff, ?_⟩
  rintro type name rfl hname
  exact hfailure.eq_insert hname

/-- A document whose `_id` is an array is refused by a new store, which has an empty collection
afterwards. -/
theorem refused_array :
    ∃ t, (insertOne "c" [("_id", .array [])]).action.runOn (.empty ⟨0⟩) =
        (.error (.unsupportedId .array "c"), t) ∧
      t.catalog = Catalog.empty.insert "c" .empty := by
  have hrun : (insertOne "c" [("_id", .array [])]).action.runOn (.empty ⟨0⟩) =
      (.error (.unsupportedId .array "c"), _) := rfl
  obtain ⟨-, -, hmade⟩ := refused hrun
  exact ⟨_, hrun, hmade .array "c" rfl List.not_mem_nil⟩

/-- So the collections after a call that fails are not always those before it. -/
theorem names_ne_of_refused :
    ¬ ∀ (request : Request) (events : List TransactionEvent) (s t : Store) (e : Error),
      StoreRun events s → request.action.runOn s = (.error e, t) →
        t.catalog.names = s.catalog.names := by
  intro h
  have hnames := h (insertOne "c" [("_id", .array [])]) [] _ _ _ (.new ⟨0⟩) rfl
  cases hnames

end Request

end Store

end DocMapper
