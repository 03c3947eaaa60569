import DocMapper.Context.Entities
import DocMapper.Proofs.Cascade.Effect

set_option autoImplicit false

/-!
# What every deletion of entities keeps

A deletion of entities lists, finds and deletes. A relation between stores that these three calls
keep (`Store.KeptByDeleting`) and that is a preorder is therefore kept by the deletions of a cascade
(`Cascade.keeps_deleteIds`, `Cascade.keeps_deleteMatching`) and of a context
(`Context.keeps_delete`, `Context.keeps_deleteWhere`), also by one whose cascade breaks off in the
middle.

That nothing is added is such a relation (`Store.keptByDeleting_shrinks`).
-/

namespace DocMapper

open Store

/-- A relation between stores that each call of a deletion keeps, whether it succeeds or fails. -/
structure Store.KeptByDeleting (R : Store → Store → Prop) : Prop where
  listCollections : ∀ pattern, (listCollections pattern).Keeps R
  find : ∀ name filter options, (find name filter options).Keeps R
  deleteMany : ∀ name filter session, (deleteMany name filter session).Keeps R

variable {R : Store → Store → Prop} [Std.Refl R] [IsTrans Store R]

/-! ## Cascades -/

namespace Cascade

theorem keeps_deleteEach (hR : KeptByDeleting R) (session : Option Session)
    (deletes : List (String × Document)) : (deleteEach session deletes).Keeps R := by
  induction deletes with
  | nil => exact .pure ()
  | cons delete rest ih => exact (hR.deleteMany _ _ _).bind fun _ => ih

theorem keeps_deleteBatch (hR : KeptByDeleting R) (c : Cascade) (info : EntityInfo)
    (ids : List Value) : (c.deleteBatch info ids).Keeps R := by
  rw [deleteBatch_eq]
  refine (hR.listCollections _).bind fun _ => ?_
  refine (hR.deleteMany _ _ _).bind fun result => ?_
  exact (keeps_deleteEach hR _ _).bind fun _ => .pure result

theorem keeps_deleteBatches (hR : KeptByDeleting R) (c : Cascade) (info : EntityInfo)
    (total : DeleteResult) (batches : List (List Value)) :
    (c.deleteBatches info total batches).Keeps R := by
  induction batches generalizing total with
  | nil => exact .pure total
  | cons batch rest ih => exact (keeps_deleteBatch hR c info batch).bind fun _ => ih _

theorem keeps_deletePages (hR : KeptByDeleting R) (c : Cascade) (info : EntityInfo)
    (total : DeleteResult) (found : List (List Document)) :
    (c.deletePages info total found).Keeps R := by
  induction found generalizing total with
  | nil => exact .pure total
  | cons page rest ih => exact (keeps_deleteBatches hR c info {} _).bind fun _ => ih _

/-- A check of the token changes nothing, and an action whose token has fired is not begun. -/
theorem keeps_checked {α : Type} {action : Action α} (c : Cascade) (h : action.Keeps R) :
    (do c.checkCancellation; c.cancellable action).Keeps R := by
  refine Action.Keeps.bind (fun s => ?_) fun _ => ?_
  · rw [runOn_checkCancellation]
    exact refl_of R s
  · unfold cancellable
    split
    · exact .throw _
    · exact h

/-- What is kept by a deletion by identifiers, even if it fails in the middle. -/
theorem keeps_deleteIds (hR : KeptByDeleting R) (c : Cascade) (info : EntityInfo)
    (ids : List Value) : (c.deleteIds info ids).Keeps R :=
  keeps_checked c (keeps_deleteBatches hR c info {} _)

/-- What is kept by a deletion by a filter, even if it fails in the middle. -/
theorem keeps_deleteMatching (hR : KeptByDeleting R) (c : Cascade) (info : EntityInfo)
    (filter : Document) : (c.deleteMatching info filter).Keeps R := by
  refine keeps_checked c ?_
  exact (hR.find _ _ _).bind fun found => keeps_deletePages hR c info {} found

end Cascade

/-! ## Contexts -/

namespace Context

variable {τ ι : Type} [EntityId ι] [Entity τ ι]

/-- What is kept by a deletion by identifiers in a context. -/
theorem keeps_delete (hR : KeptByDeleting R) (c : Context) (ids : List ι)
    (cancellation : Option Cancellation) : (c.delete τ ids cancellation).Keeps R := by
  refine (Action.Keeps.ofExcept _).bind fun info => ?_
  refine Action.Keeps.bind (fun s => ?_) fun _ => ?_
  · rw [Cascade.runOn_checkCancellation]
    exact refl_of R s
  · dsimp only
    split
    · split
      · exact .pure _
      · exact Cascade.keeps_deleteMatching hR _ info _
    · exact Cascade.keeps_deleteIds hR _ info _

/-- What is kept by a deletion by a filter in a context. -/
theorem keeps_deleteWhere (hR : KeptByDeleting R) (c : Context) (filter : Document)
    (cancellation : Option Cancellation) : (c.deleteWhere τ filter cancellation).Keeps R := by
  refine (Action.Keeps.ofExcept _).bind fun info => ?_
  refine Action.Keeps.bind (fun s => ?_) fun _ => ?_
  · rw [Cascade.runOn_checkCancellation]
    exact refl_of R s
  · exact Cascade.keeps_deleteMatching hR _ info _

end Context

/-! ## Nothing is added -/

/-- A deletion adds nothing. -/
theorem Store.keptByDeleting_shrinks : KeptByDeleting (Shrinks fun _ _ => true) where
  listCollections := Cascade.keeps_shrinks_listCollections
  find name filter options := by
    intro s
    cases hf : compileFilter filter with
    | error e =>
      rw [runOn_find_of_fault name options s hf]
      exact refl_of (Shrinks _) s
    | ok f =>
      rw [runOn_find name options s hf]
      exact shrinks_record s _
  deleteMany name filter session := keeps_shrinks_deleteMany session fun _ _ => rfl

end DocMapper
