import DocMapper.Proofs.Value.KeyEquality
import DocMapper.Value.Reach
import Mathlib.Data.List.Perm.Subperm

set_option autoImplicit false

/-!
# Symmetry of the equality of values

A document is equal to one with the same fields in another order. The test for this walks through
the fields of the first document and looks each of them up in the second one, so it is symmetric as
long as no document has a name twice (`Value.hasDistinctNames`): then there are as many names on one
side as on the other, and each field is found by its name (`identical_symm`, `equal_comm`).

The values that a path reaches have distinct names if the document does
(`Document.hasDistinctNames_of_mem_valuesAt`).
-/

namespace DocMapper

/-! ## Fields with distinct names -/

namespace Fields

variable {α : Type} {fields others : Fields α} {key : String} {v : α}

/-- A look-up finds a field. -/
theorem mem_of_get?_eq_some (h : get? fields key = some v) : (key, v) ∈ fields := by
  induction fields with
  | nil => cases h
  | cons field rest ih =>
    obtain ⟨name, w⟩ := field
    rw [get?_cons] at h
    split at h
    · rename_i hname
      obtain rfl := Option.some.inj h
      rw [hname]
      exact List.mem_cons_self
    · exact List.mem_cons_of_mem _ (ih h)

/-- Where no name is that of two fields, a look-up finds every field. -/
theorem get?_of_mem (hdistinct : (keys fields).Nodup) (h : (key, v) ∈ fields) :
    get? fields key = some v := by
  induction fields with
  | nil => cases h
  | cons field rest ih =>
    obtain ⟨name, w⟩ := field
    obtain ⟨hnot, hrest⟩ := List.nodup_cons.1 hdistinct
    rcases List.mem_cons.1 h with heq | hmem
    · obtain ⟨rfl, rfl⟩ := Prod.mk.inj heq
      rw [get?_cons, if_pos rfl]
    · have hne : ¬ name = key := by
        rintro rfl
        exact hnot (List.mem_map.2 ⟨(name, v), hmem, rfl⟩)
      rw [get?_cons, if_neg hne]
      exact ih hrest hmem

/-- Of as many distinct names, all are among the others if the others are among them. -/
theorem mem_keys_of_subset (hdistinct : (keys fields).Nodup)
    (hlength : fields.length = others.length) (hsubset : keys fields ⊆ keys others) :
    keys others ⊆ keys fields := by
  have hlength' : (keys others).length ≤ (keys fields).length := by
    simp [keys, hlength]
  have hperm := (hdistinct.subperm hsubset).perm_of_length_le hlength'
  intro name hname
  exact hperm.mem_iff.2 hname

end Fields

theorem Double.numericEq_comm (x y : Double) : x.numericEq y = y.numericEq x := by
  rw [Double.numericEq, Double.numericEq, BEq.comm]
  cases x.isNaN <;> cases y.isNaN <;> cases x.isZero <;> cases y.isZero <;> rfl

namespace Value

/-! ## Values with distinct names -/

mutual
/-- Whether no document inside a value has a name twice. -/
def hasDistinctNames : Value → Bool
  | document fields => fieldsAreDistinct fields
  | array items => itemsAreDistinct items
  | javaScriptWithScope _ scope => fieldsAreDistinct scope
  | _ => true
/-- Whether no name is that of two fields, and none is inside their values. -/
def fieldsAreDistinct : List (String × Value) → Bool
  | [] => true
  | (key, v) :: rest =>
      !(Fields.keys rest).contains key && hasDistinctNames v && fieldsAreDistinct rest
/-- Whether no document inside the items has a name twice. -/
def itemsAreDistinct : List Value → Bool
  | [] => true
  | v :: rest => hasDistinctNames v && itemsAreDistinct rest
end

variable {fields others : List (String × Value)} {items : List Value}

/-- The names of distinct fields are distinct, and so are those inside their values. -/
theorem fieldsAreDistinct_iff :
    fieldsAreDistinct fields = true ↔
      (Fields.keys fields).Nodup ∧ ∀ field ∈ fields, field.2.hasDistinctNames = true := by
  induction fields with
  | nil => simp [fieldsAreDistinct, Fields.keys]
  | cons field rest ih =>
    obtain ⟨key, v⟩ := field
    simp only [fieldsAreDistinct, Bool.and_eq_true, ih, List.mem_cons, forall_eq_or_imp]
    simp only [Fields.keys, List.map_cons, List.nodup_cons, Bool.not_eq_true',
      List.contains_eq_mem, decide_eq_false_iff_not]
    tauto

theorem itemsAreDistinct_iff :
    itemsAreDistinct items = true ↔ ∀ v ∈ items, v.hasDistinctNames = true := by
  induction items with
  | nil => simp [itemsAreDistinct]
  | cons v rest ih => simp [itemsAreDistinct, ih]

/-! ## Equality in both orders -/

/-- Fields are identical to others if each has an identical value among these. -/
theorem fieldsIdentical_iff :
    fieldsIdentical fields others = true ↔
      ∀ field ∈ fields, ∃ w, Fields.get? others field.1 = some w ∧ field.2.identical w = true := by
  induction fields with
  | nil => simp [fieldsIdentical]
  | cons field rest ih =>
    obtain ⟨key, v⟩ := field
    simp only [fieldsIdentical, Bool.and_eq_true, ih, List.mem_cons, forall_eq_or_imp]
    cases Fields.get? others key <;> simp

/-- Fields that are identical in one order are so in the other, if that holds of their values. -/
theorem fieldsIdentical_symm_of
    (hvalues : ∀ field ∈ fields, ∀ w, w.hasDistinctNames = true → field.2.identical w = true →
      w.identical field.2 = true)
    (hfields : fieldsAreDistinct fields = true) (hothers : fieldsAreDistinct others = true)
    (hlength : fields.length = others.length) (h : fieldsIdentical fields others = true) :
    fieldsIdentical others fields = true := by
  rw [fieldsAreDistinct_iff] at hfields hothers
  rw [fieldsIdentical_iff] at h ⊢
  -- each name of the fields is one of the others, and there are as many
  have hsubset : Fields.keys fields ⊆ Fields.keys others := by
    intro name hname
    obtain ⟨field, hfield, rfl⟩ := List.mem_map.1 hname
    obtain ⟨w, hw, -⟩ := h field hfield
    exact List.mem_map.2 ⟨(field.1, w), Fields.mem_of_get?_eq_some hw, rfl⟩
  have hback := Fields.mem_keys_of_subset hfields.1 hlength hsubset
  intro other hother
  obtain ⟨field, hfield, hname⟩ := List.mem_map.1 (hback (List.mem_map.2 ⟨other, hother, rfl⟩))
  obtain ⟨w, hw, hidentical⟩ := h field hfield
  -- the look-up of the name finds this field and the other one
  have hfound : Fields.get? others field.1 = some other.2 := by
    rw [hname]
    exact Fields.get?_of_mem hothers.1 hother
  obtain rfl := Option.some.inj (hw.symm.trans hfound)
  refine ⟨field.2, ?_, hvalues field hfield _ (hothers.2 other hother) hidentical⟩
  rw [← hname]
  exact Fields.get?_of_mem hfields.1 hfield

mutual
/-- Values that are identical in one order are so in the other. -/
theorem identical_symm (v w : Value) (hv : v.hasDistinctNames = true)
    (hw : w.hasDistinctNames = true) (h : v.identical w = true) : w.identical v = true := by
  rw [identical.eq_def] at h
  split at h
  case h_1 x y =>
    rw [identical, Double.numericEq_comm]
    exact h
  case h_3 fields others =>
    rw [Bool.and_eq_true, beq_iff_eq] at h
    rw [identical, Bool.and_eq_true, beq_iff_eq]
    exact ⟨h.1.symm, fieldsIdentical_symm_of (identical_symm_field fields hv) hv hw h.1 h.2⟩
  case h_4 xs ys => exact itemsIdentical_symm xs ys hv hw h
  case h_15 s fields t others =>
    rw [Bool.and_eq_true, Bool.and_eq_true, beq_iff_eq, beq_iff_eq] at h
    rw [identical, Bool.and_eq_true, Bool.and_eq_true, beq_iff_eq, beq_iff_eq]
    obtain ⟨⟨hcode, hlength⟩, hfields⟩ := h
    exact ⟨⟨hcode.symm, hlength.symm⟩,
      fieldsIdentical_symm_of (identical_symm_field fields hv) hv hw hlength hfields⟩
  -- the content of the other types is compared as it is
  all_goals
    first
    | rfl
    | cases h
    | (simp only [Bool.and_eq_true, beq_iff_eq] at h
       simp [identical, h])
/-- The values of fields that are identical in one order to others are so in the other. -/
theorem identical_symm_field (fields : List (String × Value))
    (hfields : fieldsAreDistinct fields = true) : ∀ field ∈ fields, ∀ w : Value,
      w.hasDistinctNames = true → field.2.identical w = true → w.identical field.2 = true := by
  intro field hfield w hw h
  cases fields with
  | nil => cases hfield
  | cons first rest =>
    obtain ⟨key, v⟩ := first
    simp only [fieldsAreDistinct, Bool.and_eq_true] at hfields
    rcases List.mem_cons.1 hfield with rfl | hfield
    · exact identical_symm v w hfields.1.2 hw h
    · exact identical_symm_field rest hfields.2 field hfield w hw h
/-- Items that are identical in one order are so in the other. -/
theorem itemsIdentical_symm (xs ys : List Value) (hxs : itemsAreDistinct xs = true)
    (hys : itemsAreDistinct ys = true) (h : itemsIdentical xs ys = true) :
    itemsIdentical ys xs = true := by
  cases xs with
  | nil =>
    cases ys with
    | nil => rfl
    | cons y ys => cases h
  | cons x xs =>
    cases ys with
    | nil => cases h
    | cons y ys =>
      simp only [itemsAreDistinct, Bool.and_eq_true] at hxs hys
      rw [itemsIdentical, Bool.and_eq_true] at h ⊢
      exact ⟨identical_symm x y hxs.1 hys.1 h.1, itemsIdentical_symm xs ys hxs.2 hys.2 h.2⟩
end

/-- Equality in queries does not depend on the order of the values. -/
theorem equal_comm {v w : Value} (hv : v.hasDistinctNames = true) (hw : w.hasDistinctNames = true) :
    v.equal w = w.equal v := by
  have hidentical : v.identical w = w.identical v := by
    rw [Bool.eq_iff_iff]
    exact ⟨identical_symm v w hv hw, identical_symm w v hw hv⟩
  unfold equal
  cases hx : v.number? with
  | none => cases w.number? <;> exact hidentical
  | some x =>
    cases hy : w.number? with
    | none => exact hidentical
    | some y =>
      rw [Bool.eq_iff_iff, beq_iff_eq, beq_iff_eq]
      exact Number.order_eq_comm

/-! ## Values at a path -/

mutual
/-- What a path reaches in a value has distinct names if the value does. -/
theorem hasDistinctNames_of_mem_reach (v : Value) (path : List String)
    (hv : v.hasDistinctNames = true) : ∀ w ∈ v.reach path, w.hasDistinctNames = true := by
  intro w hw
  cases path with
  | nil =>
    cases v with
    | array items =>
      rcases List.mem_cons.1 hw with rfl | hw
      · exact hv
      · exact itemsAreDistinct_iff.1 hv w hw
    | _ =>
      obtain rfl := List.mem_singleton.1 hw
      exact hv
  | cons name path =>
    cases v with
    | document fields => exact hasDistinctNames_of_mem_reachField fields name path hv w hw
    | array items => exact hasDistinctNames_of_mem_reachElements items name path hv w hw
    | _ => cases hw
/-- What a path reaches in fields has distinct names if the fields do. -/
theorem hasDistinctNames_of_mem_reachField (fields : List (String × Value)) (name : String)
    (path : List String) (hfields : fieldsAreDistinct fields = true) :
    ∀ w ∈ reachField fields name path, w.hasDistinctNames = true := by
  intro w hw
  cases fields with
  | nil => cases hw
  | cons field rest =>
    obtain ⟨key, v⟩ := field
    simp only [fieldsAreDistinct, Bool.and_eq_true] at hfields
    rw [reachField] at hw
    split at hw
    · exact hasDistinctNames_of_mem_reach v path hfields.1.2 w hw
    · exact hasDistinctNames_of_mem_reachField rest name path hfields.2 w hw
/-- What a path reaches in the documents among some items has distinct names if the items do. -/
theorem hasDistinctNames_of_mem_reachElements (items : List Value) (name : String)
    (path : List String) (hitems : itemsAreDistinct items = true) :
    ∀ w ∈ reachElements items name path, w.hasDistinctNames = true := by
  intro w hw
  cases items with
  | nil => cases hw
  | cons v rest =>
    simp only [itemsAreDistinct, Bool.and_eq_true] at hitems
    cases v with
    | document fields =>
      rw [reachElements] at hw
      rcases List.mem_append.1 hw with hw | hw
      · exact hasDistinctNames_of_mem_reachField fields name path hitems.1 w hw
      · exact hasDistinctNames_of_mem_reachElements rest name path hitems.2 w hw
    | _ => exact hasDistinctNames_of_mem_reachElements rest name path hitems.2 w hw
end

end Value

/-- What a path reaches in a document has distinct names if the document does. -/
theorem Document.hasDistinctNames_of_mem_valuesAt {doc : Document} {path : List String} {v : Value}
    (hdoc : Value.fieldsAreDistinct doc = true) (hv : v ∈ doc.valuesAt path) :
    v.hasDistinctNames = true := by
  cases path with
  | nil => cases hv
  | cons name path => exact Value.hasDistinctNames_of_mem_reachField doc name path hdoc v hv

end DocMapper
