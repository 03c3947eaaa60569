import DocMapper.Proofs.Context.Finding
import DocMapper.Proofs.Integrity.RelationRuns
import DocMapper.Proofs.Integrity.Runs
import DocMapper.Proofs.Relation.BothEnds
import DocMapper.Proofs.Relation.LinkRuns

set_option autoImplicit false

/-!
# Counting links and loading entities

The handle of an entity counts the rows of its links, but it loads entities by a query for the
identifiers in these rows. Such a query skips an identifier that nothing is stored under, and it
finds an entity once, however often it is asked for. Therefore the two agree only where each row
links a stored entity and no two rows link the same ones; `Links.Agrees` says how they do.

After each run over entities and their links both is the case, so the handles of both sides agree
(`RelationRun.handles_agree`). No deletion of such a run takes a linked entity for a chunk; one that
does leaves a link that is counted to an entity that is not loaded
(`RelationRun.handles_disagree_excerpt`).
-/

namespace DocMapper

open Store

/-! ## The other end of a handle -/

/-- The collection of the entities that a handle reads. -/
def Side.otherPart : Side → JoinName → String
  | owner => JoinName.child
  | inverse => JoinName.parent

/-- The field of a row by which a handle finds it. -/
def Side.ownField : Side → String
  | owner => parentField
  | inverse => childField

/-- The field of a row that a handle reads. -/
def Side.otherField : Side → String
  | owner => childField
  | inverse => parentField

theorem IsRow.get?_ownField {link : Link} {row : Document} (h : IsRow link row) (side : Side) :
    row.get? side.ownField = some (side.ownEnd link).toValue := by
  cases side with
  | owner => exact h.parent
  | inverse => exact h.child

theorem IsRow.get?_otherField {link : Link} {row : Document} (h : IsRow link row) (side : Side) :
    row.get? side.otherField = some (side.otherEnd link).toValue := by
  cases side with
  | owner => exact h.child
  | inverse => exact h.parent

/-- A handle finds the rows of the links of its entity. -/
theorem Holds.exists_link_iff {c : Catalog} {name : String} {links : List Link}
    (h : Holds c name links) (side : Side) (a : LinkId) (value : Value) :
    (∃ link ∈ links, side.ownEnd link = a ∧ value = (side.otherEnd link).toValue) ↔
      ∃ row ∈ c.documents name, row.get? side.ownField = some a.toValue ∧
        row.get? side.otherField = some value := by
  constructor
  · rintro ⟨link, hlink, rfl, rfl⟩
    obtain ⟨row, hrow, hends⟩ := h.exists_row hlink
    exact ⟨row, hrow, hends.get?_ownField side, hends.get?_otherField side⟩
  · rintro ⟨row, hrow, hown, hother⟩
    obtain ⟨link, hlink, hends⟩ := h.exists_link hrow
    rw [hends.get?_ownField] at hown
    rw [hends.get?_otherField] at hother
    exact ⟨link, hlink, LinkId.toValue_inj.1 (Option.some.inj hown),
      (Option.some.inj hother).symm⟩

theorem Catalog.IsLink.hasEnd {entities : String → Prop} {c : Catalog} {n : JoinName}
    {row : Document} (h : c.IsLink entities n row) (side : Side) :
    c.HasEnd (side.otherPart n) side.otherField row := by
  cases side with
  | owner => exact h.child
  | inverse => exact h.parent

/-- A handle reads the rows under the name of a join collection that has the collection of its
entities at the other end. -/
theorem Context.exists_isReadable_of_links {γ π ι κ : Type} [EntityId ι] [EntityId κ] [Entity γ ι]
    [Entity π κ] {c : Context} {side : Side} {property : String} {id : κ} {l : Links γ side}
    (h : c.links γ π side property id = .ok l) :
    l.entityId = EntityId.toValue id ∧ (∃ info, Entity.info γ = .ok info) ∧
      ∃ n, JoinName.ofText? l.join.name = some n ∧ side.otherPart n = Stored.collection γ := by
  unfold links at h
  obtain ⟨d, hdescriptor, h⟩ := bind_eq_ok_iff.1 h
  obtain rfl := Except.ok.inj h
  obtain ⟨hinfo, declaration, hside, hother, hlegal, rfl⟩ :=
    exists_declaration_of_descriptor hdescriptor
  have hname : (declaration.descriptor (Stored.collection π)).join =
      (declaration.joinName (Stored.collection π)).text := declaration.join_descriptor _
  refine ⟨rfl, hinfo, declaration.joinName (Stored.collection π), ?_, ?_⟩
  · rw [Links.join, hname]
    exact hlegal.isReadable.ofText?_text
  · cases side <;>
      simp [Side.otherPart, Declaration.joinName, Declaration.descriptor, hside, hother]

theorem Side.ext (side : Side) {link other : Link} (hown : side.ownEnd link = side.ownEnd other)
    (hother : side.otherEnd link = side.otherEnd other) : link = other := by
  cases side with
  | owner => exact Prod.ext hown hother
  | inverse => exact Prod.ext hother hown

/-- Identifiers that are read are different if no two rows link the same. -/
theorem nodup_of_map_toValue_eq {ι : Type} [EntityId ι] {side : Side} {links : List Link}
    {a : LinkId} {ids : List ι} (hnodup : links.Nodup)
    (h : ids.map EntityId.toValue =
      (links.filter fun link => side.ownEnd link = a).map fun link =>
        (side.otherEnd link).toValue) : ids.Nodup := by
  -- links of one entity differ in their other ends, and so do the values of these
  have hnodupOther := nodup_map_filter hnodup (fun _ _ => side.ext) a
  have hnodupEnds := hnodupOther.map fun _ _ => LinkId.toValue_inj.1
  rw [List.map_map] at hnodupEnds
  exact (h ▸ hnodupEnds).of_map

/-! ## Stored entities -/

section Entities

variable {γ ι : Type} [EntityId ι] [Entity γ ι] [LawfulEntity γ] {s t : Store} {stored : List γ}

/-- What is held for a type are the documents of entities with different identifiers. -/
theorem Catalog.HoldsEntities.exists_entities {c : Catalog} (hc : c.HoldsEntities γ) :
    ∃ stored : List γ, stored.map Entity.encode = c.documents (Stored.collection γ) ∧
      (stored.map Entity.id).Nodup := by
  obtain ⟨stored, hstored⟩ :
      ∃ stored : List γ, stored.map Entity.encode = c.documents (Stored.collection γ) := by
    rw [← Set.mem_range, Set.range_list_map]
    exact hc.encoded
  -- different documents have different keys
  have hkeys : (c.documents (Stored.collection γ)).map Document.idKey? =
      (stored.map Entity.id).map fun id => (EntityId.toValue id).key? := by
    rw [← hstored, List.map_map, List.map_map]
    refine List.map_congr_left fun entity _ => ?_
    simp [Document.idKey?, LawfulEntity.get?_encode_id]
  have hnodup := hc.wellKeyed.nodup_map_idKey?
  rw [documents_get, hkeys] at hnodup
  exact ⟨stored, hstored, hnodup.of_map⟩

/-- The entities are found that the merged filter takes, in order. -/
theorem Context.runOn_find_of_means {info : EntityInfo} (hinfo : Entity.info γ = .ok info)
    (hstored : stored.map Entity.encode = s.catalog.documents (Stored.collection γ)) {c : Context}
    {filter : Document} {test : Document → Bool} (hmeans : Means (c.mergeFilter γ filter) test) :
    ((c.find γ filter).runOn s).1 =
      .ok (stored.filter fun entity => test (Entity.encode entity)) := by
  obtain ⟨f, hf, hholds⟩ := hmeans
  have hselected : selectDocuments f {} (s.catalog.documents info.collection) =
      (stored.filter fun entity => test (Entity.encode entity)).map Entity.encode := by
    have hproject : project none = id := rfl
    rw [(Entity.info_eq_ok hinfo).1, ← hstored, selectDocuments, hproject, List.map_id,
      List.filter_map]
    simp only [Function.comp_def, hholds]
  rw [find, runOn_findUpTo hinfo hf, hselected, mapM_eq_ok_iff, List.forall₂_map_left_iff,
    List.forall₂_same]
  intro entity _
  rw [Entity.decode, LawfulEntity.decode?_encode]

/-- What is stored is the identifier of an entity. -/
theorem exists_mem_of_stores {c : Catalog}
    (hstored : stored.map Entity.encode = c.documents (Stored.collection γ)) {value : Value}
    (h : c.Stores (Stored.collection γ) value) :
    ∃ entity ∈ stored, EntityId.toValue (Entity.id entity) = value := by
  obtain ⟨doc, hdoc, hid⟩ := h
  rw [← hstored] at hdoc
  obtain ⟨entity, hentity, rfl⟩ := List.mem_map.1 hdoc
  rw [LawfulEntity.get?_encode_id] at hid
  exact ⟨entity, hentity, Option.some.inj hid⟩

/-- The entities that a query for some identifiers takes. -/
def withIds (stored : List γ) (ids : List ι) : List γ :=
  stored.filter fun entity => (Entity.encode entity).refersTo "_id" (ids.map EntityId.toValue)

theorem mem_withIds_iff [ReliableId ι] {ids : List ι} {entity : γ} :
    entity ∈ withIds stored ids ↔ entity ∈ stored ∧ Entity.id entity ∈ ids := by
  rw [withIds, List.mem_filter, Document.refersTo_of_get? (LawfulEntity.get?_encode_id entity)
    (LawfulEntityId.isSome_key?_toValue _)]
  simp [EntityId.key?_toValue_inj]

/-- A query for different identifiers of stored entities takes one entity for each, in the order in
which they are stored. -/
theorem map_id_withIds_perm [ReliableId ι] {ids : List ι} (hstored : (stored.map Entity.id).Nodup)
    (hids : ids.Nodup) (hsubset : ids ⊆ stored.map Entity.id) :
    ((withIds stored ids).map Entity.id).Perm ids := by
  refine (List.perm_ext_iff_of_nodup (hstored.sublist (List.filter_sublist.map _)) hids).2 ?_
  intro id
  rw [List.mem_map]
  constructor
  · rintro ⟨entity, hentity, rfl⟩
    exact (mem_withIds_iff.1 hentity).2
  · intro hid
    obtain ⟨entity, hentity, rfl⟩ := List.mem_map.1 (hsubset hid)
    exact ⟨entity, mem_withIds_iff.2 ⟨hentity, hid⟩, rfl⟩

end Entities

/-! ## Agreement of a handle -/

/-- How what a handle reads in a store fits together: it reads the identifiers that the rows of its
entity hold, and `linked` are the entities that have these. -/
structure Links.Agrees {γ ι : Type} [EntityId ι] [Entity γ ι] {side : Side} (l : Links γ side)
    (s : Store) (ids : List ι) (linked : List γ) : Prop where
  runOn_ids : (l.ids.runOn s).1 = .ok ids
  nodup_ids : ids.Nodup
  mem_ids_iff : ∀ id, id ∈ ids ↔ ∃ row ∈ s.catalog.documents l.join.name,
    row.get? side.ownField = some l.entityId ∧
      row.get? side.otherField = some (EntityId.toValue id)
  /-- As many links are counted as there are entities. -/
  runOn_count : (l.count.runOn s).1 = .ok linked.length
  nodup : (linked.map Entity.id).Nodup
  mem_iff : ∀ id, id ∈ linked.map Entity.id ↔ id ∈ ids
  /-- The entities are stored, and in this order. -/
  sublist : (linked.map Entity.encode).Sublist (s.catalog.documents (Stored.collection γ))
  /-- Without a global filter all of them are loaded. -/
  runOn_entities : l.context.globalFilter? γ = none → (l.entities.runOn s).1 = .ok linked
  /-- With a global filter those are loaded whose documents it takes. -/
  runOn_entities_filtered : ∀ shared g, l.context.globalFilter? γ = some shared →
    compileFilter shared.filter = .ok g →
    (l.entities.runOn s).1 = .ok (linked.filter fun entity => g.holds (Entity.encode entity))

section Handles

variable {γ ι : Type} [EntityId ι] [Entity γ ι] [LawfulEntity γ] {side : Side} {l : Links γ side}
variable {s t : Store} {rows : List JoinRow} {stored : List γ} {info : EntityInfo}

/-- Of the entities that the rows refer to, those are loaded that the global filter takes. -/
theorem Links.runOn_entities_of_means {ids : List ι} (hinfo : Entity.info γ = .ok info)
    (hstored : stored.map Entity.encode = s.catalog.documents (Stored.collection γ))
    (hrows : l.rows.runOn s = (.ok rows, t))
    (hvalues : rows.map (relatedValue side) = ids.map EntityId.toValue) {test : Document → Bool}
    (hmeans : Means
      (l.context.mergeFilter γ [("_id", JoinCollection.anyOf (ids.map EntityId.toValue))])
      fun doc => doc.refersTo "_id" (ids.map EntityId.toValue) && test doc) :
    (l.entities.runOn s).1 =
      .ok ((withIds stored ids).filter fun entity => test (Entity.encode entity)) := by
  -- the entities are found after the rows, in the same catalog
  have hsame := (l.keeps_evolves_rows.of_runOn hrows).catalog
  rw [hsame] at hstored
  rw [entities, Action.runOn_bind_of_ok hrows, hvalues, withIds, List.filter_filter]
  dsimp only
  split
  · -- without links nothing is asked for, and the query would take nothing
    rename_i hempty
    rw [List.isEmpty_iff.1 hempty]
    simp [Action.runOn_pure]
  · rw [Context.runOn_find_of_means hinfo hstored hmeans]
    simp only [Bool.and_comm]

/-- Without a global filter all entities that the rows refer to are loaded. -/
theorem Links.runOn_entities_of_none {ids : List ι} (hinfo : Entity.info γ = .ok info)
    (hstored : stored.map Entity.encode = s.catalog.documents (Stored.collection γ))
    (hrows : l.rows.runOn s = (.ok rows, t))
    (hvalues : rows.map (relatedValue side) = ids.map EntityId.toValue)
    (hnone : l.context.globalFilter? γ = none) :
    (l.entities.runOn s).1 = .ok (withIds stored ids) := by
  -- the query is not merged with anything
  have hmeans : Means (l.context.mergeFilter γ
        [("_id", JoinCollection.anyOf (ids.map EntityId.toValue))])
      fun doc => doc.refersTo "_id" (ids.map EntityId.toValue) && true := by
    rw [Context.mergeFilter, hnone]
    exact (means_anyOf Filter.isPlainField_id _).congr fun doc => (Bool.and_true _).symm
  have hloaded := l.runOn_entities_of_means hinfo hstored hrows hvalues hmeans
  rwa [List.filter_true] at hloaded

/-- Where the rows of a handle link stored entities, and no two rows the same ones, what it reads
agrees. -/
theorem Links.exists_agrees [ReliableId ι] {links : List Link} {a : LinkId}
    (hinfo : Entity.info γ = .ok info) (hentities : s.catalog.HoldsEntities γ)
    (hholds : Holds s.catalog l.join.name links) (hnodup : links.Nodup)
    (hother : ∀ link ∈ links, s.catalog.Stores (Stored.collection γ) (side.otherEnd link).toValue)
    (ha : l.entityId = a.toValue) : ∃ (ids : List ι) (linked : List γ), l.Agrees s ids linked := by
  obtain ⟨stored, hstored, hnodupStored⟩ := hentities.exists_entities
  have hends : ∀ link ∈ links, ∃ entity ∈ stored,
      EntityId.toValue (Entity.id entity) = (side.otherEnd link).toValue :=
    fun link hlink => exists_mem_of_stores hstored (hother link hlink)
  obtain ⟨rows, ids, t, hrows, hids, hvalues, hlinkValues⟩ :=
    l.exists_runOn_rows_ids hholds (fun link hlink => by
      obtain ⟨entity, -, hid⟩ := hends link hlink
      exact ⟨Entity.id entity, hid⟩) ha
  have hnodupIds := nodup_of_map_toValue_eq hnodup hlinkValues
  have hmemIds := mem_iff_of_map_toValue_eq hlinkValues
  -- each identifier that is read is that of a stored entity
  have hsubset : ids ⊆ stored.map Entity.id := by
    intro id hid
    obtain ⟨link, hlink, -, hend⟩ := (hmemIds id).1 hid
    obtain ⟨entity, hentity, hentityId⟩ := hends link hlink
    obtain rfl := EntityId.toValue_inj.1 (hentityId.trans hend.symm)
    exact List.mem_map_of_mem hentity
  have hperm := map_id_withIds_perm hnodupStored hnodupIds hsubset
  refine ⟨ids, withIds stored ids, {
    runOn_ids := congrArg Prod.fst hids
    nodup_ids := hnodupIds
    mem_ids_iff := fun id => ?_
    runOn_count := ?_
    nodup := hperm.nodup_iff.2 hnodupIds
    mem_iff := fun _ => hperm.mem_iff
    sublist := hstored ▸ List.filter_sublist.map _
    runOn_entities := l.runOn_entities_of_none hinfo hstored hrows hvalues
    runOn_entities_filtered := fun shared g hshared hg => ?_ }⟩
  · rw [hmemIds, hholds.exists_link_iff, ha]
  · have hlength : rows.length = (withIds stored ids).length := by
      calc rows.length = (rows.map (relatedValue side)).length := (List.length_map _).symm
        _ = ids.length := by rw [hvalues, List.length_map]
        _ = (withIds stored ids).length := by rw [← hperm.length_eq, List.length_map]
    rw [Links.count, Action.runOn_bind_of_ok hrows, ← hlength]
    rfl
  · exact l.runOn_entities_of_means hinfo hstored hrows hvalues
      (Context.means_mergeFilter_anyOf hshared hg _)

end Handles

/-! ## Runs -/

/-- Counting and loading agree. After each run over entities and their links, the handle of either
side, for any identifier, reads the identifiers that the rows of this one hold, each once, counts
one link for each, and without a global filter loads the entities that have these identifiers, one
for each. With a global filter it loads those of them whose documents the filter takes, in the order
of their collection. -/
theorem RelationRun.handles_agree {γ π ι κ : Type} [EntityId ι] [EntityId κ] [ReliableId ι]
    [ReliableId κ] [Entity γ ι] [Entity π κ] [LawfulEntity γ] {s : Store} (hrun : RelationRun γ s)
    {c : Context} {side : Side} {property : String} {id : κ}
    {l : Links γ side} (hlinks : c.links γ π side property id = .ok l) :
    ∃ (ids : List ι) (linked : List γ), l.Agrees s ids linked := by
  obtain ⟨hid, ⟨info, hinfo⟩, n, hread, hpart⟩ := Context.exists_isReadable_of_links hlinks
  obtain ⟨links, hholds, hnodup⟩ := (hrun.handleRun hread).everywhere.catalog
  obtain ⟨a, ha⟩ := ReliableId.exists_linkId id
  refine l.exists_agrees hinfo (hrun.everywhere hinfo).catalog hholds hnodup ?_ (hid.trans ha)
  -- the row of a link holds the identifier of a stored entity
  intro link hlink
  obtain ⟨row, hrow, hends⟩ := hholds.exists_row hlink
  obtain ⟨value, hvalue, hstored⟩ := (hrun.intact.catalog.links _ n hread row hrow).hasEnd side
  rw [hends.get?_otherField] at hvalue
  obtain rfl := Option.some.inj hvalue
  rwa [← hpart]

open Sample in
/-- An item and a counter are saved and linked in a new store. The counter is then among the
entities that the handle of the item counts. -/
theorem RelationRun.handles_agree_counter :
    ∃ (s : Store) (l : Links Counter .owner) (ids : List Int64) (linked : List Counter),
      RelationRun Counter s ∧
      Context.links {} Counter Item .owner "Counters" (5 : Int64) = .ok l ∧
      l.Agrees s ids linked ∧ 7 ∈ linked.map Counter.id := by
  obtain ⟨info, hinfo⟩ := exists_info_item
  obtain ⟨info', hinfo'⟩ := exists_info_counter
  obtain ⟨l, hlinks, hid, hjoin⟩ := exists_links_itemCounters 5
  let context : Context := {}
  let item : Item := ⟨5, .none⟩
  let counter : Counter := ⟨7, 0⟩
  have hstart : RelationRun Counter (Store.empty ⟨0⟩) := .start ⟨0⟩
  -- the item is saved into a collection that does not exist before, then the counter
  obtain ⟨s₁, hitem, hputs⟩ : ∃ t, (context.save item).runOn (Store.empty ⟨0⟩) = (.ok item, t) ∧
      (Store.empty ⟨0⟩).catalog.Puts item t.catalog :=
    Catalog.HoldsEntities.empty.exists_runOn_save hinfo context (by decide)
  have hrun₁ := hstart.saveOther (by decide) hitem
  obtain ⟨s₂, hcounter, hputs'⟩ : ∃ t, (context.save counter).runOn s₁ = (.ok counter, t) ∧
      s₁.catalog.Puts counter t.catalog :=
    (hrun₁.everywhere hinfo').catalog.exists_runOn_save hinfo' context (by decide)
  have hrun₂ := hrun₁.save hcounter
  have hparent := hputs'.stores_of_ne (by decide) hputs.stores
  -- neither save wrote a row, so the link is the only one
  have habsent : s₂.catalog.content? l.join.name = none := by
    rw [hjoin, hputs'.content?_of_ne _ (by decide), hputs.content?_of_ne _ (by decide)]
    rfl
  obtain ⟨s₃, hadd, hholds⟩ := JoinCollection.exists_runOn_add_of_absent (by rw [hjoin]) habsent
    (.int64 5) (.int64 7)
  have hcall : (l.add (7 : Int64)).runOn s₂ = (.ok (), s₃) := by
    rw [Links.add, hid]
    exact hadd
  have hrun₃ := hrun₂.add hlinks hparent hputs'.stores hcall
  obtain ⟨ids, linked, hagrees⟩ := hrun₃.handles_agree hlinks
  refine ⟨s₃, l, ids, linked, hrun₃, hlinks, hagrees, (hagrees.mem_iff 7).2 ?_⟩
  rw [hagrees.mem_ids_iff, hid]
  obtain ⟨row, hrow, hends⟩ := hholds.exists_row (List.mem_singleton_self _)
  exact ⟨row, hrow, hends.parent, hends.child⟩

/-! ## Excerpts among the chunks -/

namespace Sample

/-- A context that keeps the chunks of files among the excerpts. -/
def excerptContext : Context := { config := { chunkCollection := "Excerpt" } }

/-- The parts of the name of the collection that links excerpts. -/
def excerptQuotes : JoinName := ⟨"Excerpt", "Excerpt", "Quotes"⟩

theorem isLegal_excerptQuotes : excerptQuotes.IsLegal :=
  ⟨by decide, by decide, by decide⟩

theorem exists_info_excerpt : ∃ info, Entity.info Excerpt = .ok info := ⟨_, rfl⟩

theorem exists_links_excerptQuotes (id : Int64) :
    ∃ l : Links Excerpt .owner, excerptContext.links Excerpt Excerpt .owner "Quotes" id = .ok l ∧
      l.entityId = .int64 id ∧ l.join = ⟨excerptQuotes.text, .manyToMany, none⟩ ∧
      l.context.globalFilter? Excerpt = none :=
  ⟨_, rfl, rfl, rfl, rfl⟩

/-- Two excerpts can be saved after an item and linked, and no deletion is set to fail. -/
theorem exists_run_excerpts {l : Links Excerpt .owner}
    (hlinks : excerptContext.links Excerpt Excerpt .owner "Quotes" (5 : Int64) = .ok l)
    (hid : l.entityId = .int64 5) (hjoin : l.join = ⟨excerptQuotes.text, .manyToMany, none⟩) :
    ∃ s, RelationRun Excerpt s ∧ s.failingDeletes = [] ∧
      s.catalog.Stores "shop.items" (.int64 6) ∧
      Entity.encode (⟨7, 6⟩ : Excerpt) ∈ s.catalog.documents (Stored.collection Excerpt) ∧
      Holds s.catalog l.join.name [(.int64 5, .int64 7)] := by
  obtain ⟨info, hinfo⟩ := exists_info_item
  obtain ⟨info', hinfo'⟩ := exists_info_excerpt
  let item : Item := ⟨6, .none⟩
  let quoting : Excerpt := ⟨5, 0⟩
  let quoted : Excerpt := ⟨7, 6⟩
  have hstart : RelationRun Excerpt (Store.empty ⟨0⟩) := .start ⟨0⟩
  obtain ⟨s₁, hitem, hputs₁⟩ :
      ∃ t, (excerptContext.save item).runOn (Store.empty ⟨0⟩) = (.ok item, t) ∧
        (Store.empty ⟨0⟩).catalog.Puts item t.catalog :=
    Catalog.HoldsEntities.empty.exists_runOn_save hinfo excerptContext (by decide)
  have hrun₁ := hstart.saveOther (by decide) hitem
  obtain ⟨s₂, hquoting, hputs₂⟩ :
      ∃ t, (excerptContext.save quoting).runOn s₁ = (.ok quoting, t) ∧
        s₁.catalog.Puts quoting t.catalog :=
    (hrun₁.everywhere hinfo').catalog.exists_runOn_save hinfo' excerptContext (by decide)
  have hrun₂ := hrun₁.save hquoting
  obtain ⟨s₃, hquoted, hputs₃⟩ :
      ∃ t, (excerptContext.save quoted).runOn s₂ = (.ok quoted, t) ∧
        s₂.catalog.Puts quoted t.catalog :=
    (hrun₂.everywhere hinfo').catalog.exists_runOn_save hinfo' excerptContext (by decide)
  have hrun₃ := hrun₂.save hquoted
  -- the identifier of the first excerpt is stored also after the second one was saved
  have hgrows := ((keeps_grows_save hinfo' excerptContext quoted).of_runOn hquoted).catalog
  rw [(Entity.info_eq_ok hinfo').1] at hgrows
  have hparent := hgrows.stores _ hputs₂.stores
  -- no save wrote a row, so the link is the only one
  have hjoinNe : l.join.name ≠ Stored.collection Excerpt ∧
      l.join.name ≠ Stored.collection Item := by
    rw [hjoin]
    exact ⟨by decide, by decide⟩
  have habsent : s₃.catalog.content? l.join.name = none := by
    rw [hputs₃.content?_of_ne _ hjoinNe.1, hputs₂.content?_of_ne _ hjoinNe.1,
      hputs₁.content?_of_ne _ hjoinNe.2]
    rfl
  obtain ⟨s, hadd, hholds⟩ := JoinCollection.exists_runOn_add_of_absent (by rw [hjoin]) habsent
    (.int64 5) (.int64 7)
  have hcall : (l.add (7 : Int64)).runOn s₃ = (.ok (), s) := by
    rw [Links.add, hid]
    exact hadd
  have hrun := hrun₃.add hlinks hparent hputs₃.stores hcall
  have hrelinks := ((keeps_relinks_add l.join rfl rfl).of_runOn hadd).catalog
  have hfails : s.failingDeletes = [] := by
    rw [(l.join.keeps_failsAlike_add _ _).of_runOn hadd,
      (keeps_failsAlike_save _ (by decide)).of_runOn hquoted,
      (keeps_failsAlike_save _ (by decide)).of_runOn hquoting,
      (keeps_failsAlike_save _ (by decide)).of_runOn hitem]
    rfl
  refine ⟨s, hrun, hfails, ?_, ?_, hholds⟩
  · exact hrelinks.stores_of_ne hjoinNe.2.symm
      (hputs₃.stores_of_ne (by decide) (hputs₂.stores_of_ne (by decide) hputs₁.stores))
  · rw [hrelinks.documents_of_ne hjoinNe.1.symm]
    exact hputs₃.mem

/-- A deletion of the item succeeds. It leaves the row, and of the excerpts those that do not refer
to the item by the field of chunks. -/
theorem exists_runOn_delete_item {s : Store} {name : String} {links : List Link}
    (hfails : s.failingDeletes = []) (hname : name = excerptQuotes.text)
    (hholds : Holds s.catalog name links) :
    ∃ r t, (excerptContext.delete Item [(6 : Int64)] none).runOn s = (.ok r, t) ∧
      Holds t.catalog name links ∧
      ∀ doc ∈ t.catalog.documents (Stored.collection Excerpt),
        doc ∈ s.catalog.documents (Stored.collection Excerpt) ∧
          doc.refersTo fileField [.int64 6] = false := by
  obtain ⟨info, hinfo, hcollection, hfile⟩ := exists_info_fileItem
  have hlegal : isCollectionName info.collection = true := by
    rw [hcollection]
    decide
  have haccepted : (Regex.ofText? (joinPattern info.collection)).isSome = true := by
    rw [hcollection]
    exact Regex.isSome_ofText?_joinPattern (by decide)
  obtain ⟨r, t, hdelete⟩ := Cascade.exists_runOn_deleteIds (excerptContext.cascade none) s hlegal
    haccepted rfl hfails [.int64 6]
  have hremoved := (Cascade.removes_of_deleteIds hlegal hdelete).catalog
  refine ⟨r, t, (Context.runOn_delete_of_none hinfo rfl _ none s).trans hdelete, ?_, ?_⟩
  · -- items have no part in the links of excerpts, which are not among the chunks either
    have hjoins : JoinName.joins info.collection name = false := by
      rw [← Bool.not_eq_true, hname, JoinName.joins_text_iff isLegal_excerptQuotes, hcollection]
      decide
    have hne : name ≠ info.collection ∧
        name ≠ (excerptContext.cascade none).chunkCollection := by
      rw [hname, hcollection]
      exact ⟨by decide, by decide⟩
    have hcontent : t.catalog.content? name = s.catalog.content? name := by
      refine hremoved.content?_eq fun doc => ?_
      simp [Cascade.reaches, hjoins, hne.1, hne.2]
    exact hholds.congr (by rw [Catalog.documents_eq, hcontent, ← Catalog.documents_eq])
  · -- excerpts are kept where the chunks are, so those with the item as their file are gone
    intro doc hdoc
    obtain ⟨hold, hkept⟩ := (hremoved _).mem_documents_iff.1 hdoc
    have hchunks : Stored.collection Excerpt = (excerptContext.cascade none).chunkCollection := rfl
    rw [Cascade.reaches, hfile, decide_eq_true hchunks] at hkept
    simp only [Bool.true_and, Bool.or_eq_false_iff] at hkept
    exact ⟨hold, hkept.2⟩

end Sample

open Sample in
/-- Where the chunks are kept among the excerpts, a deletion of an item takes an excerpt of it for a
chunk. The link to this excerpt is still counted, and its identifier read, but no entity is
loaded. -/
theorem RelationRun.handles_disagree_excerpt :
    ∃ (l : Links Excerpt .owner) (s : Store) (r : DeleteResult) (t : Store),
      excerptContext.links Excerpt Excerpt .owner "Quotes" (5 : Int64) = .ok l ∧
      RelationRun Excerpt s ∧ s.catalog.Stores "shop.items" (.int64 6) ∧
      (excerptContext.delete Item [(6 : Int64)] none).runOn s = (.ok r, t) ∧
      (l.count.runOn t).1 = .ok 1 ∧ (l.ids.runOn t).1 = .ok [(7 : Int64)] ∧
      (l.entities.runOn t).1 = .ok [] := by
  obtain ⟨l, hlinks, hid, hjoin, hnone⟩ := exists_links_excerptQuotes 5
  obtain ⟨s, hrun, hfails, hitem, hquoted, hholds⟩ := exists_run_excerpts hlinks hid hjoin
  obtain ⟨info, hinfo⟩ := exists_info_excerpt
  obtain ⟨r, t, hcall, hleft, hkept⟩ :=
    exists_runOn_delete_item hfails (by rw [hjoin]) hholds
  -- the row is left, so the identifier is read and the link counted
  have hends : ∀ link ∈ [(LinkId.int64 5, LinkId.int64 7)], ∃ id : Int64,
      EntityId.toValue id = (Side.owner.otherEnd link).toValue := by
    intro link hlink
    rw [List.mem_singleton.1 hlink]
    exact ⟨7, rfl⟩
  have hentityId : l.entityId = (LinkId.int64 5).toValue := hid
  obtain ⟨rows, ids, u, hrows, hids, hvalues, hlinkValues⟩ :=
    l.exists_runOn_rows_ids hleft hends hentityId
  obtain rfl : ids = [7] :=
    List.map_injective_iff.2 (fun _ _ => EntityId.toValue_inj.1) (hlinkValues.trans rfl)
  -- the excerpt with this identifier is not
  have hexcerpts := hrun.everywhere hinfo
  have hshrinks := (Context.keeps_delete keptByDeleting_shrinks _ _ _).of_runOn hcall
  obtain ⟨stored, hstored, -⟩ := (hexcerpts.shrinks hshrinks).catalog.exists_entities
  have hgone : withIds stored [(7 : Int64)] = [] := by
    rw [List.eq_nil_iff_forall_not_mem]
    intro entity hentity
    obtain ⟨hmem, hseven⟩ := mem_withIds_iff.1 hentity
    obtain ⟨hold, hnot⟩ := hkept _ (hstored ▸ List.mem_map_of_mem hmem)
    have hsame : Entity.encode entity = Entity.encode (⟨7, 6⟩ : Excerpt) := by
      refine hexcerpts.catalog.eq_of_get?_id hold hquoted ?_
      rw [LawfulEntity.get?_encode_id, LawfulEntity.get?_encode_id, List.mem_singleton.1 hseven]
      rfl
    rw [hsame, Document.refersTo_of_get? (v := .int64 6) rfl rfl] at hnot
    revert hnot
    decide
  refine ⟨l, s, r, t, hlinks, hrun, hitem, hcall, ?_, congrArg Prod.fst hids, ?_⟩
  · have hlength := congrArg List.length hvalues
    rw [List.length_map, List.length_map] at hlength
    rw [Links.count, Action.runOn_bind_of_ok hrows, hlength]
    rfl
  · rw [l.runOn_entities_of_none hinfo hstored hrows hvalues hnone, hgone]

end DocMapper
