import DocMapper.Proofs.Context.Confinement
import DocMapper.Proofs.Store.Cursors

set_option autoImplicit false

/-!
# What a find reads

A find gives out the first matching documents up to its limit, each projected, in batches that
depend on the batch size while the documents do not. Entities are decoded from these documents one
by one, so a limit cuts off the entities that a find without one returns, and finding one entity
returns the first of them (`finds_in_batches`).
-/

namespace DocMapper

open Store

/-- What is selected are the first matching documents up to the limit, each projected. -/
theorem selectDocuments_eq (f : Filter) (options : FindOptions) (docs : List Document) :
    selectDocuments f options docs =
      (options.limit.elim (docs.filter f.holds) (docs.filter f.holds).take).map
        (project options.projection) := by
  rw [selectDocuments]
  cases options.limit <;> rfl

theorem selectDocuments_limit (f : Filter) (n : Nat) (docs : List Document) :
    selectDocuments f { limit := some n } docs = (selectDocuments f {} docs).take n :=
  List.map_take

namespace Context

variable {τ ι : Type} [EntityId ι] [Entity τ ι] {c : Context} {filter : Document}
variable {entities : List τ} {s t : Store}

/-- Finding succeeds only for a type whose declarations are fine and a merged filter that can be
read. -/
theorem exists_of_findUpTo {limit : Option Nat}
    (h : (c.findUpTo τ filter limit).runOn s = (.ok entities, t)) :
    ∃ info f, Entity.info τ = .ok info ∧ compileFilter (c.mergeFilter τ filter) = .ok f := by
  obtain ⟨info, hinfo, -⟩ := Action.runOn_ofExcept_bind_eq_ok_iff.1 h
  cases hf : compileFilter (c.mergeFilter τ filter) with
  | ok f => exact ⟨info, f, hinfo, rfl⟩
  | error e =>
    rw [runOn_findUpTo_of_fault hinfo hf] at h
    cases h

/-- Where finding succeeds, finding up to a limit returns the first of the same entities. -/
theorem runOn_findUpTo_of_find (h : (c.find τ filter).runOn s = (.ok entities, t)) (n : Nat) :
    (c.findUpTo τ filter (some n)).runOn s = (.ok (entities.take n), t) := by
  obtain ⟨info, f, hinfo, hf⟩ := exists_of_findUpTo h
  rw [find, runOn_findUpTo hinfo hf] at h
  obtain ⟨hdecode, hstore⟩ := Prod.mk.inj h
  rw [runOn_findUpTo hinfo hf, selectDocuments_limit, mapM_take_of_mapM_eq_ok hdecode, hstore]

theorem runOn_findOne?_of_find (h : (c.find τ filter).runOn s = (.ok entities, t)) :
    (c.findOne? τ filter).runOn s = (.ok entities.head?, t) := by
  rw [findOne?, Action.runOn_bind_of_ok (runOn_findUpTo_of_find h 1), Action.runOn_pure]
  cases entities <;> rfl

end Context

/-- In every store a find whose filter can be read returns a cursor. For each batch size, its
batches partition one and the same list of documents, the first matching ones of the collection up
to the limit, each projected, and collecting the cursor gives this list. Where a context finds
entities, finding one returns the first of them. -/
theorem finds_in_batches {filter : Document} {f : Filter} (hf : compileFilter filter = .ok f)
    (collection : String) (projection : Option Document) (limit : Option Nat) (s : Store) :
    (∀ batchSize, ∃ cursor batches,
        let options : FindOptions := ⟨projection, batchSize, limit⟩
        let found := (s.catalog.documents collection).filter f.holds
        (find collection filter options).runOn s =
          (.ok cursor, s.record (.find collection filter options.effectiveBatchSize)) ∧
        cursor.Partitions options.effectiveBatchSize
          ((limit.elim found found.take).map (project projection)) batches) ∧
      ∀ {τ ι : Type} [EntityId ι] [Entity τ ι] (c : Context) (query : Document)
        (entities : List τ) (t : Store),
        (c.find τ query).runOn s = (.ok entities, t) →
          (c.findOne? τ query).runOn s = (.ok entities.head?, t) := by
  refine ⟨fun batchSize => ?_, fun c query entities t => Context.runOn_findOne?_of_find⟩
  have hrun := runOn_find collection ⟨projection, batchSize, limit⟩ s hf
  rw [selectDocuments_eq] at hrun
  exact ⟨_, _, hrun, Cursor.partitions_pages (FindOptions.effectiveBatchSize_pos _) _⟩

open Sample in
/-- The two items are given in batches of one, and the item that is found is the first one. -/
theorem finds_in_batches_items :
    ∃ s cursor batches first second t,
      s.catalog.documents "shop.items" = [firstItem, secondItem] ∧
      (find "shop.items" [] { batchSize := some 1 }).runOn s =
        (.ok cursor, s.record (.find "shop.items" [] 1)) ∧
      Cursor.Partitions 1 [firstItem, secondItem] cursor batches ∧
      (({} : Context).find Item []).runOn s = (.ok [first, second], t) ∧
      (({} : Context).findOne? Item []).runOn s = (.ok (some first), t) := by
  obtain ⟨s, -, -, hdocuments⟩ := exists_run_items
  obtain ⟨info, hinfo, hcollection, -⟩ := exists_info_fileItem
  have hall : compileFilter [] = .ok (.all []) := rfl
  obtain ⟨hbatches, hfirst⟩ := finds_in_batches hall "shop.items" none none s
  obtain ⟨cursor, batches, hrun, hpartitions⟩ := hbatches (some 1)
  have hfound : (s.catalog.documents "shop.items").filter (Filter.all []).holds =
      [firstItem, secondItem] := by
    rw [hdocuments]
    simp [Filter.holds, Filter.allHold]
  have hfind := Context.runOn_findUpTo (c := {}) hinfo hall none s
  rw [selectDocuments_eq, hcollection] at hfind
  dsimp only [Option.elim] at hfind hpartitions
  rw [hfound] at hfind hpartitions
  exact ⟨s, cursor, batches, _, _, _, hdocuments, hrun, hpartitions, hfind, hfirst _ _ _ _ hfind⟩

end DocMapper
