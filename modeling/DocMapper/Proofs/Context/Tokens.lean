import DocMapper.Proofs.Context.Confinement

set_option autoImplicit false

/-!
# The tokens of deletions

Whether a deletion goes ahead is decided by its token and by whether its session is in a
transaction: `Cascade.refusal?` is the decision. A deletion that is refused does nothing. One that
goes ahead does what it does without a token, because the token is not asked again
(`Cascade.runOn_deleteIds_eq`, `Cascade.runOn_deleteMatching_eq`).

`Deletion` lists the ways in which a context is asked for a deletion. The decision is the same for
all of them (`Deletion.gated`) with one exception: where the type has a global filter, a deletion by
no identifiers ends before its token is asked whether it has fired (`Deletion.passes_fired`).
-/

namespace DocMapper

open Store

namespace Cascade

variable {c : Cascade} {info : EntityInfo} {s : Store}

/-! ## The decision -/

/-- Why a deletion is refused before it begins: its token is not accepted, or it has fired. -/
def refusal? (c : Cascade) (s : Store) : Option Error :=
  if c.cancellation.isSome && !s.hasActiveTransaction c.session then
    some .cancellationOutsideTransaction
  else if c.cancellation = some .fired then some .cancelled
  else none

theorem refusal?_of_inactive (h : s.hasActiveTransaction c.session = false)
    {token : Cancellation} (htoken : c.cancellation = some token) :
    c.refusal? s = some .cancellationOutsideTransaction := by
  rw [refusal?, htoken, h]
  rfl

theorem refusal?_of_active (h : s.hasActiveTransaction c.session = true) :
    c.refusal? s = if c.cancellation = some .fired then some .cancelled else none := by
  rw [refusal?, h, Bool.not_true, Bool.and_false, if_neg Bool.false_ne_true]

theorem runOn_checkCancellation_of_inactive (h : s.hasActiveTransaction c.session = false)
    {token : Cancellation} (htoken : c.cancellation = some token) :
    c.checkCancellation.runOn s = (.error .cancellationOutsideTransaction, s) := by
  rw [runOn_checkCancellation, htoken, h]
  rfl

theorem runOn_checkCancellation_of_active (h : s.hasActiveTransaction c.session = true) :
    c.checkCancellation.runOn s = (.ok (), s) := by
  rw [runOn_checkCancellation, h, Bool.not_true, Bool.and_false]
  rfl

/-- What is checked is refused or done. -/
theorem runOn_checked_eq {α : Type} (c : Cascade) (action : Action α) (s : Store) :
    (do c.checkCancellation; c.cancellable action).runOn s =
      match c.refusal? s with
      | some e => (.error e, s)
      | none => action.runOn s := by
  rw [Action.runOn_bind, runOn_checkCancellation, refusal?, cancellable]
  by_cases houtside : (c.cancellation.isSome && !s.hasActiveTransaction c.session) = true
  · rw [if_pos houtside, if_pos houtside]
  · rw [if_neg houtside, if_neg houtside]
    dsimp only
    by_cases hfired : c.cancellation = some .fired
    · rw [if_pos hfired, if_pos hfired]
      rfl
    · rw [if_neg hfired, if_neg hfired]

/-! ## After the decision -/

/-- The same deletion without a token. -/
def withoutToken (c : Cascade) : Cascade := { c with cancellation := none }

/-- Batches are deleted alike with any token. -/
theorem deleteBatches_withoutToken (c : Cascade) (info : EntityInfo) (batches : List (List Value)) :
    ∀ total, c.withoutToken.deleteBatches info total batches =
      c.deleteBatches info total batches := by
  induction batches with
  | nil => exact fun _ => rfl
  | cons batch rest ih =>
    intro total
    -- a batch does not look at the token
    have hbatch : c.withoutToken.deleteBatch info batch = c.deleteBatch info batch := rfl
    simp only [deleteBatches, hbatch, ih]

theorem deleteIdBatches_withoutToken (c : Cascade) (info : EntityInfo) (ids : List Value) :
    c.withoutToken.deleteIdBatches info ids = c.deleteIdBatches info ids :=
  deleteBatches_withoutToken c info (pages batchSize ids) {}

/-- Pages are deleted alike with any token. -/
theorem deletePages_withoutToken (c : Cascade) (info : EntityInfo) (found : List (List Document)) :
    ∀ total, c.withoutToken.deletePages info total found = c.deletePages info total found := by
  induction found with
  | nil => exact fun _ => rfl
  | cons page rest ih =>
    intro total
    simp only [deletePages, deleteIdBatches_withoutToken, ih]

theorem deleteFound_withoutToken (c : Cascade) (info : EntityInfo) (filter : Document) :
    c.withoutToken.deleteFound info filter = c.deleteFound info filter := by
  simp only [deleteFound, deletePages_withoutToken]

@[simp] theorem refusal?_withoutToken (c : Cascade) (s : Store) :
    c.withoutToken.refusal? s = none := rfl

/-- A deletion by identifiers is refused, or it is the one without a token. -/
theorem runOn_deleteIds_eq (c : Cascade) (info : EntityInfo) (ids : List Value) (s : Store) :
    (c.deleteIds info ids).runOn s =
      match c.refusal? s with
      | some e => (.error e, s)
      | none => (c.withoutToken.deleteIds info ids).runOn s := by
  rw [deleteIds, runOn_checked_eq, deleteIds, runOn_checked_eq, refusal?_withoutToken,
    deleteIdBatches_withoutToken]

/-- A deletion by a filter is refused, or it is the one without a token. -/
theorem runOn_deleteMatching_eq (c : Cascade) (info : EntityInfo) (filter : Document) (s : Store) :
    (c.deleteMatching info filter).runOn s =
      match c.refusal? s with
      | some e => (.error e, s)
      | none => (c.withoutToken.deleteMatching info filter).runOn s := by
  rw [deleteMatching, runOn_checked_eq, deleteMatching, runOn_checked_eq, refusal?_withoutToken,
    deleteFound_withoutToken]

end Cascade

/-! ## Deletions that a context is asked for -/

/-- A way to ask a context for a deletion. -/
inductive Deletion (ι : Type) where
  | byIds (ids : List ι)
  | byId (id : ι)
  | byFilter (filter : Document)

namespace Deletion

variable {τ ι : Type} [EntityId ι] [Entity τ ι] {c : Context} {info : EntityInfo} {s : Store}

/-- The deletion of entities of a type by a context with a token. -/
def action (τ : Type) [Entity τ ι] (c : Context) (cancellation : Option Cancellation) :
    Deletion ι → Action DeleteResult
  | byIds ids => c.delete τ ids cancellation
  | byId id => c.deleteOne τ id cancellation
  | byFilter filter => c.deleteWhere τ filter cancellation

/-- Whether a deletion is one by no identifiers under a global filter. -/
def endsEarly (τ : Type) [Entity τ ι] (c : Context) : Deletion ι → Bool
  | byIds [] => (c.globalFilter? τ).isSome
  | _ => false

/-- A deletion that does not end early is refused, or it is the one without a token. -/
theorem runOn_action_eq (hinfo : Entity.info τ = .ok info) {d : Deletion ι}
    (hd : d.endsEarly τ c = false) (cancellation : Option Cancellation) (s : Store) :
    (d.action τ c cancellation).runOn s =
      match (c.cascade cancellation).refusal? s with
      | some e => (.error e, s)
      | none => (d.action τ c none).runOn s := by
  -- identifiers are deleted through the global filter, or by themselves
  have hdelete : ∀ ids : List ι, (ids = [] → c.globalFilter? τ = none) →
      (c.delete τ ids cancellation).runOn s =
        match (c.cascade cancellation).refusal? s with
        | some e => (.error e, s)
        | none => (c.delete τ ids none).runOn s := by
    intro ids hids
    cases hshared : c.globalFilter? τ with
    | none =>
      rw [Context.runOn_delete_of_none hinfo hshared, Context.runOn_delete_of_none hinfo hshared]
      exact Cascade.runOn_deleteIds_eq _ info _ s
    | some shared =>
      have hne : ids ≠ [] := by
        rintro rfl
        rw [hids rfl] at hshared
        cases hshared
      rw [Context.runOn_delete hinfo hshared hne, Context.runOn_delete hinfo hshared hne]
      exact Cascade.runOn_deleteMatching_eq _ info _ s
  cases d with
  | byIds ids =>
    refine hdelete ids ?_
    rintro rfl
    simpa [endsEarly] using hd
  | byId id => exact hdelete [id] (fun h => nomatch h)
  | byFilter filter =>
    rw [action, action, Context.runOn_deleteWhere hinfo, Context.runOn_deleteWhere hinfo]
    exact Cascade.runOn_deleteMatching_eq _ info _ s

/-- A deletion that ends early only has its token checked. -/
theorem runOn_action_of_endsEarly (hinfo : Entity.info τ = .ok info) {d : Deletion ι}
    (hd : d.endsEarly τ c = true) (cancellation : Option Cancellation) (s : Store) :
    (d.action τ c cancellation).runOn s =
      (do (c.cascade cancellation).checkCancellation; return ({} : DeleteResult)).runOn s := by
  cases d with
  | byIds ids =>
    cases ids with
    | cons id rest => cases hd
    | nil =>
      obtain ⟨shared, hshared⟩ := Option.isSome_iff_exists.1 hd
      exact Context.runOn_delete_nil hinfo hshared cancellation s
  | byId id => cases hd
  | byFilter filter => cases hd

/-- Outside of a transaction a deletion with a token is refused. In a transaction one with a token
that has fired is refused, unless it ends early, and one with another token is the one without. A
refusal does nothing. -/
theorem gated (hinfo : Entity.info τ = .ok info) (d : Deletion ι) (c : Context) (s : Store) :
    (s.hasActiveTransaction c.session = false → ∀ token,
        (d.action τ c (some token)).runOn s = (.error .cancellationOutsideTransaction, s)) ∧
      (s.hasActiveTransaction c.session = true →
        (d.action τ c (some .fired)).runOn s =
            (if d.endsEarly τ c then .ok {} else .error .cancelled, s) ∧
          (d.action τ c (some .live)).runOn s = (d.action τ c none).runOn s) := by
  cases hd : d.endsEarly τ c with
  | true =>
    have hchecked := runOn_action_of_endsEarly hinfo hd
    refine ⟨fun hinactive token => ?_, fun hactive => ⟨?_, ?_⟩⟩
    · rw [hchecked, Action.runOn_bind, Cascade.runOn_checkCancellation_of_inactive hinactive rfl]
    · rw [hchecked, Action.runOn_bind, Cascade.runOn_checkCancellation_of_active hactive]
      rfl
    · rw [hchecked, hchecked, Action.runOn_bind, Action.runOn_bind,
        Cascade.runOn_checkCancellation_of_active hactive,
        Cascade.runOn_checkCancellation_of_active hactive]
  | false =>
    refine ⟨fun hinactive token => ?_, fun hactive => ⟨?_, ?_⟩⟩
    · rw [runOn_action_eq hinfo hd,
        Cascade.refusal?_of_inactive (c := c.cascade (some token)) hinactive rfl]
    · rw [runOn_action_eq hinfo hd,
        Cascade.refusal?_of_active (c := c.cascade (some .fired)) hactive]
      rfl
    · rw [runOn_action_eq hinfo hd,
        Cascade.refusal?_of_active (c := c.cascade (some .live)) hactive]
      rfl

end Deletion

/-! ## A context in a transaction -/

open Sample in
theorem Context.exists_transaction_tagContext :
    ∃ c s, ((tagContext "chunks").transaction).runOn (.empty ⟨0⟩) = (.ok c, s) ∧
      s.hasActiveTransaction c.session = true ∧ (c.globalFilter? Item).isSome = true :=
  ⟨_, _, rfl, rfl, rfl⟩

open Sample in
/-- In the transaction the deletion of an item with a token that has fired is refused; before it, it
is refused with any token. -/
theorem Deletion.gated_item :
    ∃ c s, ((tagContext "chunks").transaction).runOn (.empty ⟨0⟩) = (.ok c, s) ∧
      ((byId (1 : Int64)).action Item c (some .fired)).runOn s = (.error .cancelled, s) ∧
      ((byId (1 : Int64)).action Item (tagContext "chunks") (some .live)).runOn (.empty ⟨0⟩) =
        (.error .cancellationOutsideTransaction, .empty ⟨0⟩) := by
  obtain ⟨info, hinfo, -⟩ := exists_info_fileItem
  obtain ⟨c, s, hrun, hactive, -⟩ := Context.exists_transaction_tagContext
  obtain ⟨hrefused, -⟩ :=
    Deletion.gated hinfo (byId (1 : Int64)) (tagContext "chunks") (.empty ⟨0⟩)
  obtain ⟨-, hcancelled⟩ := Deletion.gated hinfo (byId (1 : Int64)) c s
  exact ⟨c, s, hrun, (hcancelled hactive).1, hrefused rfl .live⟩

open Sample in
/-- In the transaction the deletion of no items succeeds although its token has fired. Without the
global filter it is refused. -/
theorem Deletion.passes_fired :
    ∃ c s, ((tagContext "chunks").transaction).runOn (.empty ⟨0⟩) = (.ok c, s) ∧
      ((byIds ([] : List Int64)).action Item c (some .fired)).runOn s = (.ok {}, s) ∧
      ((byIds ([] : List Int64)).action Item { c with globalFilters := [] } (some .fired)).runOn s =
        (.error .cancelled, s) :=
  ⟨_, _, rfl, rfl, rfl⟩

end DocMapper
