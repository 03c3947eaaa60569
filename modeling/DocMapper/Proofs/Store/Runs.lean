import DocMapper.Store.Basic
import Mathlib.Order.Defs.Unbundled

set_option autoImplicit false

/-!
# Runs of actions

`Action.runOn` gives the result of an action and the store after it. This file has one law for each
way of forming an action. A sequence that succeeds is a success of its first part followed by a
success of the rest (`runOn_bind_eq_ok_iff`).

`Action.Keeps R` says that an action relates the store before it to the store after it by `R`,
whether it succeeds or fails. If `R` is a preorder, sequences keep what their parts keep.
-/

namespace DocMapper.Action

variable {α β : Type} {a : Action α} {f : α → Action β} {s t : Store}

/-! ## One law for each form -/

@[simp] theorem runOn_pure (x : α) (s : Store) : (pure x : Action α).runOn s = (.ok x, s) := rfl

@[simp] theorem runOn_throw (e : Error) (s : Store) :
    (throw e : Action α).runOn s = (.error e, s) := rfl

@[simp] theorem runOn_get (s : Store) : (get : Action Store).runOn s = (.ok s, s) := rfl

@[simp] theorem runOn_set (s t : Store) : (set t : Action PUnit).runOn s = (.ok ⟨⟩, t) := rfl

@[simp] theorem runOn_modify (g : Store → Store) (s : Store) :
    (modify g : Action PUnit).runOn s = (.ok ⟨⟩, g s) := rfl

@[simp] theorem runOn_modifyGet (g : Store → α × Store) (s : Store) :
    (modifyGet g : Action α).runOn s = (.ok (g s).1, (g s).2) := rfl

@[simp] theorem runOn_ofExcept (result : Except Error α) (s : Store) :
    (ofExcept result).runOn s = (result, s) := by
  cases result <;> rfl

/-- After a first part that succeeds the rest runs; a failure ends the sequence. -/
theorem runOn_bind (a : Action α) (f : α → Action β) (s : Store) :
    (a >>= f).runOn s =
      match a.runOn s with
      | (.ok x, t) => (f x).runOn t
      | (.error e, t) => (.error e, t) := by
  unfold Action.runOn ExceptT.run StateT.run
  simp only [Bind.bind, ExceptT.bind, ExceptT.mk, StateT.bind, ExceptT.bindCont]
  cases a s with
  | mk result t => cases result <;> rfl

theorem runOn_bind_of_ok {x : α} (h : a.runOn s = (.ok x, t)) :
    (a >>= f).runOn s = (f x).runOn t := by
  rw [runOn_bind, h]

theorem runOn_bind_pure (a : Action α) (g : α → β) (s : Store) :
    (a >>= fun x => pure (g x)).runOn s = ((a.runOn s).1.map g, (a.runOn s).2) := by
  rw [runOn_bind]
  cases a.runOn s with
  | mk result t => cases result <;> rfl

theorem eq_ok_of_map_eq {run : Except Error α × Store} {g : α → β} {y : β}
    (h : (run.1.map g, run.2) = (.ok y, t)) : ∃ x, run = (.ok x, t) := by
  obtain ⟨result, u⟩ := run
  cases result with
  | ok x =>
    obtain ⟨-, rfl⟩ := Prod.mk.inj h
    exact ⟨x, rfl⟩
  | error e => cases h

theorem eq_error_of_map_eq {run : Except Error α × Store} {g : α → β} {e : Error}
    (h : (run.1.map g, run.2) = (.error e, t)) : run = (.error e, t) := by
  obtain ⟨result, u⟩ := run
  cases result with
  | ok x => cases h
  | error e' =>
    cases h
    rfl

/-- A sequence succeeds exactly when both parts do. -/
theorem runOn_bind_eq_ok_iff {u : Store} {y : β} :
    (a >>= f).runOn s = (.ok y, u) ↔
      ∃ x t, a.runOn s = (.ok x, t) ∧ (f x).runOn t = (.ok y, u) := by
  constructor
  · intro h
    rw [runOn_bind] at h
    cases hrun : a.runOn s with
    | mk result t =>
      rw [hrun] at h
      cases result with
      | ok x => exact ⟨x, t, rfl, h⟩
      | error e => cases h
  · rintro ⟨x, t, hfirst, hrest⟩
    rw [runOn_bind_of_ok hfirst, hrest]

/-- A sequence that begins with a result that does not depend on the store succeeds exactly when
there is such a result and the rest does. -/
theorem runOn_ofExcept_bind_eq_ok_iff {u : Store} {result : Except Error α} {y : β} :
    (ofExcept result >>= f).runOn s = (.ok y, u) ↔
      ∃ x, result = .ok x ∧ (f x).runOn s = (.ok y, u) := by
  rw [runOn_bind, runOn_ofExcept]
  cases result with
  | ok x => simp
  | error e => simp

/-- A sequence fails exactly when its first part fails, or its second part after it. -/
theorem runOn_bind_eq_error_iff {u : Store} {e : Error} :
    (a >>= f).runOn s = (.error e, u) ↔
      a.runOn s = (.error e, u) ∨
        ∃ x t, a.runOn s = (.ok x, t) ∧ (f x).runOn t = (.error e, u) := by
  rw [runOn_bind]
  cases hrun : a.runOn s with
  | mk result t =>
    cases result with
    | ok x =>
      constructor
      · intro h
        exact Or.inr ⟨x, t, rfl, h⟩
      · rintro (h | ⟨x', t', h, hrest⟩)
        · cases h
        · cases h
          exact hrest
    | error e' =>
      constructor
      · intro h
        cases h
        exact Or.inl rfl
      · rintro (h | ⟨x', t', h, _⟩)
        · cases h
          rfl
        · cases h

/-- Results for the items of a list that do not depend on the store leave it alone. -/
theorem runOn_mapM_ofExcept (g : α → Except Error β) (items : List α) (s : Store) :
    (items.mapM fun x => ofExcept (g x)).runOn s = (items.mapM g, s) := by
  induction items with
  | nil => rfl
  | cons x rest ih =>
    rw [List.mapM_cons, List.mapM_cons, runOn_bind, runOn_ofExcept]
    cases g x with
    | error e => rfl
    | ok y =>
      dsimp only
      rw [runOn_bind_pure, ih]
      cases rest.mapM g <;> rfl

/-! ## What every run keeps -/

/-- Whether it succeeds or fails, an action relates the store before it to the store after it. -/
def Keeps (R : Store → Store → Prop) (a : Action α) : Prop := ∀ s, R s (a.runOn s).2

namespace Keeps

variable {R S : Store → Store → Prop}

theorem of_runOn (ha : Keeps R a) {result : Except Error α} (h : a.runOn s = (result, t)) :
    R s t := by
  have hs := ha s
  rwa [h] at hs

theorem mono (ha : Keeps R a) (h : ∀ s t, R s t → S s t) : Keeps S a :=
  fun s => h s _ (ha s)

theorem pure [Std.Refl R] (x : α) : Keeps R (Pure.pure x : Action α) := fun s => refl_of R s

theorem throw [Std.Refl R] (e : Error) : Keeps R (MonadExcept.throw e : Action α) :=
  fun s => refl_of R s

theorem get [Std.Refl R] : Keeps R (MonadState.get : Action Store) := fun s => refl_of R s

theorem ofExcept [Std.Refl R] (result : Except Error α) : Keeps R (Action.ofExcept result) := by
  intro s
  rw [runOn_ofExcept]
  exact refl_of R s

/-- A sequence keeps what its first part keeps and its second part keeps after each success of the
first. -/
theorem bind_of_ok [IsTrans Store R] (ha : Keeps R a)
    (hf : ∀ s x t, a.runOn s = (.ok x, t) → R t ((f x).runOn t).2) : Keeps R (a >>= f) := by
  intro s
  rw [runOn_bind]
  cases hrun : a.runOn s with
  | mk result t =>
    have hfirst : R s t := ha.of_runOn hrun
    cases result with
    | ok x => exact trans_of R hfirst (hf s x t hrun)
    | error e => exact hfirst

theorem bind [IsTrans Store R] (ha : Keeps R a) (hf : ∀ x, Keeps R (f x)) : Keeps R (a >>= f) :=
  ha.bind_of_ok fun _ x t _ => hf x t

theorem mapM [Std.Refl R] [IsTrans Store R] (hf : ∀ x, Keeps R (f x)) (items : List α) :
    Keeps R (items.mapM f) := by
  induction items with
  | nil => exact .pure []
  | cons x rest ih =>
    rw [List.mapM_cons]
    exact (hf x).bind fun _ => ih.bind fun _ => .pure _

end Keeps

end DocMapper.Action
