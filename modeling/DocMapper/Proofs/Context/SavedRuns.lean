import DocMapper.Proofs.Cascade.Keeping
import DocMapper.Proofs.Context.Saving
import DocMapper.Proofs.Store.Snapshots
import DocMapper.Sample.Model

set_option autoImplicit false

/-!
# Saving and finding again

A `SavedRun` is any number of operations after which the collection of an entity type was written
only by saving entities of this type and by cascading deletions: whatever else happens leaves this
collection alone, but transactions may be started, committed and aborted.

In every store that such a run leads to, and in every one that an abort would bring back, the
collection holds entities of the type (`SavedRun.everywhere`). There an entity that is saved is
found again, takes the place of the one with its identifier, and may be saved once more without a
change (`SavedRun.saves`). An entity that lacks an identifier is refused for this only if what its
type declares is accepted (`SavedRun.refuses_broken`).
-/

namespace DocMapper

open Store

/-- The stores in which the collection of an entity type was written only by saving its entities and
by cascading deletions. -/
inductive SavedRun (τ : Type) {ι : Type} [EntityId ι] [Entity τ ι] : Store → Prop
  | start (supply : IdSupply) : SavedRun τ (Store.empty supply)
  /-- An entity of the type is saved, or that fails. -/
  | save {s t : Store} {c : Context} {entity : τ} {result : Except Error τ} (hrun : SavedRun τ s)
      (hcall : (c.save entity).runOn s = (result, t)) : SavedRun τ t
  /-- Entities of any type are deleted by their identifiers in a context, or that fails. -/
  | delete {s t : Store} {σ κ : Type} [EntityId κ] [Entity σ κ] {c : Context} {ids : List κ}
      {cancellation : Option Cancellation} {result : Except Error DeleteResult}
      (hrun : SavedRun τ s) (hcall : (c.delete σ ids cancellation).runOn s = (result, t)) :
      SavedRun τ t
  /-- Entities of any type are deleted by a filter in a context, or that fails. -/
  | deleteWhere {s t : Store} {σ κ : Type} [EntityId κ] [Entity σ κ] {c : Context}
      {filter : Document} {cancellation : Option Cancellation} {result : Except Error DeleteResult}
      (hrun : SavedRun τ s) (hcall : (c.deleteWhere σ filter cancellation).runOn s = (result, t)) :
      SavedRun τ t
  /-- A cascade deletes by identifiers, or that fails. -/
  | deleteIds {s t : Store} {k : Cascade} {info : EntityInfo} {ids : List Value}
      {result : Except Error DeleteResult} (hrun : SavedRun τ s)
      (hcall : (k.deleteIds info ids).runOn s = (result, t)) : SavedRun τ t
  /-- A cascade deletes by a filter, or that fails. -/
  | deleteMatching {s t : Store} {k : Cascade} {info : EntityInfo} {filter : Document}
      {result : Except Error DeleteResult} (hrun : SavedRun τ s)
      (hcall : (k.deleteMatching info filter).runOn s = (result, t)) : SavedRun τ t
  /-- A session is created. -/
  | session {s t : Store} {result : Except Error Session} (hrun : SavedRun τ s)
      (hcall : startSession.runOn s = (result, t)) : SavedRun τ t
  /-- A transaction is started, committed or aborted, or that is refused. -/
  | action {s t : Store} {call : TransactionCall} {handle : Session} {result : Except Error Unit}
      (hrun : SavedRun τ s) (hcall : (call.action handle).runOn s = (result, t)) : SavedRun τ t
  /-- Only the flag of a session is set. -/
  | setInTransaction {s t : Store} {handle : Session} {value : Bool} {result : Except Error Bool}
      (hrun : SavedRun τ s) (hcall : (setInTransaction handle value).runOn s = (result, t)) :
      SavedRun τ t
  /-- Anything that leaves the collection of the type and the sessions alone, such as operations on
  the entities and the links of other types. -/
  | elsewhere {s t : Store} (hrun : SavedRun τ s)
      (hcontent : t.catalog.content? (Stored.collection τ) =
        s.catalog.content? (Stored.collection τ))
      (hsessions : t.sessions = s.sessions) : SavedRun τ t

variable {τ ι : Type} [EntityId ι] [Entity τ ι] {s t : Store}

/-- An entity of the type may be saved, with success or not. -/
theorem Store.Everywhere.save [LawfulEntity τ] [ReliableId ι]
    (hs : s.Everywhere (Catalog.HoldsEntities τ)) {c : Context} {entity : τ}
    {result : Except Error τ} (hcall : (c.save entity).runOn s = (result, t)) :
    t.Everywhere (Catalog.HoldsEntities τ) := by
  rcases Context.save_cases hs.catalog c entity with
    ⟨e, -, hrefused⟩ | ⟨-, ⟨-, hrefused⟩ | ⟨-, saved, u, hsaved, -, hputs, hsessions⟩⟩
  · rw [hrefused] at hcall
    obtain ⟨-, rfl⟩ := Prod.mk.inj hcall
    exact hs
  · rw [hrefused] at hcall
    obtain ⟨-, rfl⟩ := Prod.mk.inj hcall
    exact hs
  · rw [hsaved] at hcall
    obtain ⟨-, rfl⟩ := Prod.mk.inj hcall
    exact hs.of_sessions_eq hsessions (hs.catalog.puts hputs)

theorem Store.Everywhere.shrinks (hs : s.Everywhere (Catalog.HoldsEntities τ))
    (h : Shrinks (fun _ _ => true) s t) : t.Everywhere (Catalog.HoldsEntities τ) :=
  hs.of_shrinks h fun _ hremoved => hs.catalog.without hremoved

/-- In every catalog of a store that a run leads to, the collection of the type holds entities of
the type, each under its identifier. -/
theorem SavedRun.everywhere [LawfulEntity τ] [ReliableId ι] (hrun : SavedRun τ s) :
    s.Everywhere (Catalog.HoldsEntities τ) := by
  -- by induction on the run: a save puts an entity, and a deletion only removes
  induction hrun with
  | start supply => exact .empty .empty supply
  | save _ hcall ih => exact ih.save hcall
  | delete _ hcall ih =>
    exact ih.shrinks ((Context.keeps_delete keptByDeleting_shrinks _ _ _).of_runOn hcall)
  | deleteWhere _ hcall ih =>
    exact ih.shrinks ((Context.keeps_deleteWhere keptByDeleting_shrinks _ _ _).of_runOn hcall)
  | deleteIds _ hcall ih =>
    exact ih.shrinks ((Cascade.keeps_deleteIds keptByDeleting_shrinks _ _ _).of_runOn hcall)
  | deleteMatching _ hcall ih =>
    exact ih.shrinks ((Cascade.keeps_deleteMatching keptByDeleting_shrinks _ _ _).of_runOn hcall)
  | session _ hcall ih => exact ih.session hcall
  | action _ hcall ih => exact ih.action hcall
  | setInTransaction _ hcall ih => exact ih.setInTransaction hcall
  | elsewhere _ hcontent hsessions ih =>
    exact ih.of_sessions_eq hsessions (ih.catalog.congr hcontent)

/-! ## What a save leaves -/

/-- Whether no identifier that a store generates next marks an entity that was never saved. -/
def Store.GeneratesSaved (ι : Type) [EntityId ι] (s : Store) : Prop :=
  ∀ generate : Action ι, EntityId.generate? = some generate →
    ∀ id t, generate.runOn s = (.ok id, t) → EntityId.isUnsaved id = false

/-- What saving an entity with success leaves. -/
structure Store.Saves (s t : Store) (entity saved : τ) : Prop where
  /-- The entity has an identifier afterwards: its own, or a generated one. -/
  isUnsaved_id : EntityId.isUnsaved (Entity.id saved) = false
  savesAs : Context.SavesAs s entity saved
  /-- It is found by this identifier where no global filter is in the way. -/
  found : ∀ c : Context, c.globalFilter? τ = none →
    ((c.findById? τ (Entity.id saved)).runOn t).1 = .ok (some saved)
  /-- It replaced the stored entity with this identifier in its place, or came last; no other
  document was changed. -/
  puts : s.catalog.Puts saved t.catalog
  /-- Saving it once more leaves every collection as it is. -/
  again : ∀ c : Context, ∃ u, (c.save saved).runOn t = (.ok saved, u) ∧
    ∀ name, u.catalog.content? name = t.catalog.content? name

/-- An entity that has an identifier and is stored may be saved once more without a change. -/
theorem Context.exists_runOn_save_again [LawfulEntity τ] [ReliableId ι] {info : EntityInfo}
    (hinfo : Entity.info τ = .ok info) (hs : s.catalog.HoldsEntities τ) {saved : τ}
    (hid : EntityId.isUnsaved (Entity.id saved) = false)
    (hmem : Entity.encode saved ∈ s.catalog.documents (Stored.collection τ)) (c : Context) :
    ∃ u, (c.save saved).runOn s = (.ok saved, u) ∧
      ∀ name, u.catalog.content? name = s.catalog.content? name := by
  obtain ⟨r, u, hreplace, hsame⟩ := exists_runOn_replaceOne_again hs hmem
  refine ⟨u, ?_, hsame⟩
  refine Action.runOn_ofExcept_bind_eq_ok_iff.2 ⟨info, hinfo, ?_⟩
  rw [(Entity.info_eq_ok hinfo).1, identify, hid]
  exact Action.runOn_bind_eq_ok_iff.2 ⟨saved, s, rfl,
    Action.runOn_bind_eq_ok_iff.2 ⟨r, u, hreplace, rfl⟩⟩

/-- An entity that is saved has an identifier, where the store generates such. -/
theorem Context.SavesAs.isUnsaved_eq_false [LawfulEntity τ] {entity saved : τ}
    (h : SavesAs s entity saved) (hfresh : s.GeneratesSaved ι) :
    EntityId.isUnsaved (Entity.id saved) = false := by
  rcases h with ⟨hsaved, rfl⟩ | ⟨-, generate, id, t, hgenerate, hrun, rfl⟩
  · exact hsaved
  · rw [LawfulEntity.id_withId]
    exact hfresh generate hgenerate id t hrun

namespace SavedRun

/-- Saving and finding again, in every store that a run leads to. An entity that is saved with
success is found by its identifier, took the place of the one that had it, and may be saved once
more without a change. Saving succeeds unless the declaration of the type is refused, which is
reported, or the entity lacks an identifier that can be generated, which exactly then is reported;
and a save that fails changes nothing. -/
theorem saves [LawfulEntity τ] [ReliableId ι] (hrun : SavedRun τ s)
    (hfresh : s.GeneratesSaved ι) (c : Context) (entity : τ) :
    (∀ saved t, (c.save entity).runOn s = (.ok saved, t) → s.Saves t entity saved) ∧
      ((∃ saved t, (c.save entity).runOn s = (.ok saved, t)) ↔
        (∃ info, Entity.info τ = .ok info) ∧ ¬ Context.LacksId entity) ∧
      (((c.save entity).runOn s).1 = .error (.idRequired (Stored.typeName τ)) ↔
        (∃ info, Entity.info τ = .ok info) ∧ Context.LacksId entity) ∧
      (∀ e, Entity.info τ = .error e → (c.save entity).runOn s = (.error e, s)) ∧
      ∀ e t, (c.save entity).runOn s = (.error e, t) → t = s := by
  have hs := hrun.everywhere.catalog
  rcases Context.save_cases hs c entity with
    ⟨e, hinfo, hsave⟩ | ⟨⟨info, hinfo⟩,
      ⟨hlacks, hsave⟩ | ⟨hnot, saved, t, hsave, hsavesAs, hputs, -⟩⟩
  · -- the declaration of the type is refused
    rw [hsave, hinfo]
    have hne : e ≠ .idRequired (Stored.typeName τ) := by
      rintro rfl
      cases Entity.isOfDeclaration_of_info hinfo
    simp [hne]
  · -- the entity lacks an identifier
    rw [hsave, hinfo]
    simp [hlacks]
  · -- the entity is stored
    rw [hsave, hinfo]
    have hmem := hputs.mem
    have ht := hs.puts hputs
    have hid := hsavesAs.isUnsaved_eq_false hfresh
    have hsaves : s.Saves t entity saved := {
      isUnsaved_id := hid
      savesAs := hsavesAs
      found := fun c hshared => findById?_of_mem ht hinfo hshared hmem
      puts := hputs
      again := Context.exists_runOn_save_again hinfo ht hid hmem }
    simp [hnot, hsaves]

open Sample in
/-- Two counters can be saved one after the other. -/
theorem exists_run_counters :
    ∃ s, SavedRun Counter s ∧ s.catalog.documents (Stored.collection Counter) =
      [Entity.encode (⟨5, 0⟩ : Counter), Entity.encode (⟨7, 0⟩ : Counter)] := by
  obtain ⟨info, hinfo⟩ : ∃ info, Entity.info Counter = .ok info := ⟨_, rfl⟩
  let context : Context := {}
  let first : Counter := ⟨5, 0⟩
  let second : Counter := ⟨7, 0⟩
  obtain ⟨s, hfirst, hputs⟩ : ∃ t, (context.save first).runOn (Store.empty ⟨0⟩) = (.ok first, t) ∧
      (Store.empty ⟨0⟩).catalog.Puts first t.catalog :=
    Catalog.HoldsEntities.empty.exists_runOn_save hinfo context (by decide)
  have hrun : SavedRun Counter s := (SavedRun.start ⟨0⟩).save hfirst
  have hdocuments := hputs.documents_of_absent (List.forall_mem_nil _)
  obtain ⟨t, hsecond, hputs'⟩ : ∃ t, (context.save second).runOn s = (.ok second, t) ∧
      s.catalog.Puts second t.catalog :=
    hrun.everywhere.catalog.exists_runOn_save hinfo context (by decide)
  -- the second counter has another identifier, so it comes last
  have habsent : ∀ stored ∈ s.catalog.documents (Stored.collection Counter),
      stored.get? "_id" ≠ some (EntityId.toValue (Entity.id second)) := by
    rw [hdocuments]
    intro stored hstored
    obtain rfl := List.mem_singleton.1 hstored
    rw [LawfulEntity.get?_encode_id, ne_eq, Option.some_inj, EntityId.toValue_inj]
    decide
  refine ⟨t, hrun.save hsecond, ?_⟩
  rw [hputs'.documents_of_absent habsent, hdocuments]
  rfl

open Sample in
/-- Of two counters the first one is saved again with another value: it takes its old place and is
found. An author without an identifier gets one when saved into a new store, and is found by it. -/
theorem saves_counter_author :
    let context : Context := {}
    let author : Author := ⟨.zero, "Ada", true⟩
    let changed : Counter := ⟨5, 1⟩
    let other : Counter := ⟨7, 0⟩
    (∃ s t, SavedRun Counter s ∧
      s.catalog.documents (Stored.collection Counter) =
        [Entity.encode (⟨5, 0⟩ : Counter), Entity.encode other] ∧
      (context.save changed).runOn s = (.ok changed, t) ∧
      t.catalog.documents (Stored.collection Counter) =
        [Entity.encode changed, Entity.encode other] ∧
      ((context.findById? Counter (5 : Int64)).runOn t).1 = .ok (some changed)) ∧
    SavedRun Author (Store.empty ⟨1⟩) ∧ (Store.empty ⟨1⟩).GeneratesSaved ObjectId ∧
      ∃ saved t, (context.save author).runOn (Store.empty ⟨1⟩) = (.ok saved, t) ∧
        EntityId.isUnsaved (Entity.id saved) = false ∧
        ((context.findById? Author (Entity.id saved)).runOn t).1 = .ok (some saved) := by
  intro context author changed other
  constructor
  · obtain ⟨s, hrun, hdocuments⟩ := exists_run_counters
    have hfresh : s.GeneratesSaved Int64 := by rintro _ ⟨⟩
    obtain ⟨hsaves, hsucceeds, -⟩ := saves hrun hfresh context changed
    obtain ⟨saved, t, hsave⟩ :=
      hsucceeds.2 ⟨⟨_, rfl⟩, fun hlacks => absurd hlacks.1 (by decide)⟩
    have hsaved := hsaves saved t hsave
    obtain rfl : saved = changed := by
      rcases hsaved.savesAs with ⟨-, h⟩ | ⟨hunsaved, -⟩
      · exact h
      · exact absurd hunsaved (by decide)
    refine ⟨s, t, hrun, hdocuments, hsave, ?_, hsaved.found context rfl⟩
    -- the first document has the identifier and the second one has not
    rcases hsaved.puts.placed with ⟨i, stored, hi, hid, hplaced⟩ | ⟨habsent, -⟩
    · rw [hdocuments] at hi hplaced
      obtain rfl | rfl : i = 0 ∨ i = 1 := by
        have hlt := (List.getElem?_eq_some_iff.1 hi).1
        simp only [List.length_cons, List.length_nil] at hlt
        omega
      · exact hplaced
      · obtain rfl := Option.some.inj hi
        rw [LawfulEntity.get?_encode_id, Option.some_inj, EntityId.toValue_inj] at hid
        exact absurd hid (by decide)
    · rw [hdocuments] at habsent
      exact absurd rfl (habsent _ List.mem_cons_self)
  · have hrun : SavedRun Author (Store.empty ⟨1⟩) := .start ⟨1⟩
    have hfresh : (Store.empty ⟨1⟩).GeneratesSaved ObjectId := by
      rintro _ ⟨⟩ id t h
      obtain ⟨hid, -⟩ := Prod.mk.inj h
      obtain rfl := Except.ok.inj hid
      decide
    obtain ⟨hsaves, hsucceeds, -⟩ := saves hrun hfresh context author
    have hlacks : ¬ Context.LacksId author := by
      rintro ⟨-, hnone⟩
      cases hnone
    obtain ⟨saved, t, hsave⟩ := hsucceeds.2 ⟨⟨_, rfl⟩, hlacks⟩
    have hsaved := hsaves saved t hsave
    exact ⟨hrun, hfresh, saved, t, hsave, hsaved.isUnsaved_id, hsaved.found context rfl⟩

/-- An entity that lacks an identifier which can not be generated is refused for its type's illegal
collection name, not for the identifier. -/
theorem refuses_broken :
    let broken : Sample.Broken := ⟨0⟩
    let context : Context := {}
    SavedRun Sample.Broken (Store.empty ⟨1⟩) ∧ Context.LacksId broken ∧
      (context.save broken).runOn (Store.empty ⟨1⟩) =
        (.error (.illegalCollectionName "a~b"), Store.empty ⟨1⟩) ∧
      ((context.save broken).runOn (Store.empty ⟨1⟩)).1 ≠
        .error (.idRequired (Stored.typeName Sample.Broken)) := by
  intro broken context
  have hsave : (context.save broken).runOn (Store.empty ⟨1⟩) =
      (.error (.illegalCollectionName "a~b"), Store.empty ⟨1⟩) := rfl
  refine ⟨.start ⟨1⟩, ⟨by decide, rfl⟩, hsave, ?_⟩
  rw [hsave]
  intro h
  cases h

end SavedRun

end DocMapper
