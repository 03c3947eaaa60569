import DocMapper.Value.Reach
import Mathlib.Data.List.Basic

set_option autoImplicit false

/-!
# Positions on a dotted path

A path names fields. A `Position` on it says of each of these fields whether its value is meant or
which element of the array in it, and `Document.at?` is the value at a position, if a document has
one there: a field leads on from a document only, and an index from an array only.

The values at a path are those at its positions, each position once, in the lexicographic order in
which an array comes before its elements (`Document.valuesAt_eq_map_positions`). So arrays inside
arrays are not entered and no element is lost or found twice.
-/

namespace DocMapper

/-! ## Positions -/

/-- For each field of a path the index of an element of the array in it, or none for the value of
the field itself. -/
abbrev Position := List (Option Nat)

namespace Position

/-- An array comes before its elements, and these are in the order of their indices. -/
def IndexBefore : Option Nat → Option Nat → Prop
  | none, some _ => True
  | some i, some j => i < j
  | _, none => False

/-- The lexicographic order of positions. -/
def Before : Position → Position → Prop := List.Lex IndexBefore

theorem not_indexBefore_self (index : Option Nat) : ¬ IndexBefore index index := by
  cases index with
  | none => exact id
  | some i => exact Nat.lt_irrefl i

theorem not_before_self (position : Position) : ¬ Before position position := by
  intro h
  induction position with
  | nil => cases h
  | cons index rest ih =>
    cases h with
    | rel hindex => exact not_indexBefore_self index hindex
    | cons hrest => exact ih hrest

end Position

theorem pairwise_zipIdx {α : Type} (items : List α) :
    items.zipIdx.Pairwise fun a b => a.2 < b.2 := by
  have hplaces : (items.zipIdx.map Prod.snd).Pairwise (· < ·) := by
    rw [List.zipIdx_map_snd]
    exact List.pairwise_lt_range'
  exact List.pairwise_map.1 hplaces

namespace Value

/-! ## The value at a position -/

/-- The value of a field of a document; other values have no fields. -/
def field? : Value → String → Option Value
  | .document fields, name => Fields.get? fields name
  | _, _ => none

/-- The elements of an array; other values have none. -/
def elements : Value → List Value
  | .array items => items
  | _ => []

/-- The value itself, or the element at an index. -/
def element? (v : Value) : Option Nat → Option Value
  | none => some v
  | some i => v.elements[i]?

/-- The value at a position, from field to field. -/
def at? : Value → List String → Position → Option Value
  | v, [], [] => some v
  | v, name :: path, index :: position =>
      ((v.field? name).bind fun held => held.element? index).bind fun next =>
        next.at? path position
  | _, _, _ => none

/-- The positions on a path at which there is a value. -/
def positions : Value → List String → List Position
  | _, [] => [[]]
  | v, name :: path =>
      match v.field? name with
      | none => []
      | some held =>
          (held.positions path).map (none :: ·) ++
            held.elements.zipIdx.flatMap fun item => (item.1.positions path).map (some item.2 :: ·)

variable {v held : Value} {name : String} {path : List String}

theorem at?_cons_of_none (h : v.field? name = none) (position : Position) :
    v.at? (name :: path) position = none := by
  cases position with
  | nil => rfl
  | cons index rest => rw [at?, h]; rfl

theorem at?_cons_none (h : v.field? name = some held) (position : Position) :
    v.at? (name :: path) (none :: position) = held.at? path position := by
  rw [at?, h]
  rfl

theorem at?_cons_some (h : v.field? name = some held) (i : Nat) (position : Position) :
    v.at? (name :: path) (some i :: position) =
      held.elements[i]?.bind fun item => item.at? path position := by
  rw [at?, h]
  rfl

/-! ## The positions at which there is a value -/

/-- The positions are those at which there is a value. -/
theorem mem_positions_iff {position : Position} :
    position ∈ v.positions path ↔ (v.at? path position).isSome = true := by
  induction path generalizing v position with
  | nil => cases position <;> simp [positions, at?]
  | cons name path ih =>
    rw [positions]
    cases hfield : v.field? name with
    | none => simp [at?_cons_of_none hfield]
    | some held =>
      match position with
      | [] => simp [at?]
      | none :: rest => simp [at?_cons_none hfield, ih]
      | some i :: rest =>
        rw [at?_cons_some hfield, Option.isSome_bind, Option.any_eq_true]
        simp only [← ih, List.mem_append, List.mem_map, List.mem_flatMap, List.cons.injEq,
          reduceCtorEq, false_and, and_false, exists_false, false_or, Option.some.injEq,
          Prod.exists, List.mem_zipIdx_iff_getElem?]
        constructor
        · rintro ⟨item, _, hitem, _, hmem, rfl, rfl⟩
          exact ⟨item, hitem, hmem⟩
        · rintro ⟨item, hitem, hmem⟩
          exact ⟨item, i, hitem, rest, hmem, rfl, rfl⟩

theorem pairwise_map_cons {positions : List Position} (index : Option Nat)
    (h : positions.Pairwise Position.Before) :
    (positions.map (index :: ·)).Pairwise Position.Before :=
  List.pairwise_map.2 (h.imp .cons)

/-- The positions are in order. -/
theorem pairwise_positions (v : Value) (path : List String) :
    (v.positions path).Pairwise Position.Before := by
  induction path generalizing v with
  | nil => exact List.pairwise_singleton _ _
  | cons name path ih =>
    rw [positions]
    cases v.field? name with
    | none => exact List.Pairwise.nil
    | some held =>
      refine List.pairwise_append.2 ⟨pairwise_map_cons none (ih held), ?_, ?_⟩
      · -- the elements are in the order of their indices
        refine List.pairwise_flatMap.2 ⟨fun item _ => pairwise_map_cons _ (ih item.1), ?_⟩
        refine (pairwise_zipIdx held.elements).imp fun {a b} hlt => ?_
        intro p hp q hq
        obtain ⟨p, -, rfl⟩ := List.mem_map.1 hp
        obtain ⟨q, -, rfl⟩ := List.mem_map.1 hq
        exact .rel hlt
      · -- and come after the array
        intro p hp q hq
        obtain ⟨p, -, rfl⟩ := List.mem_map.1 hp
        obtain ⟨item, -, hq⟩ := List.mem_flatMap.1 hq
        obtain ⟨q, -, rfl⟩ := List.mem_map.1 hq
        exact .rel trivial

/-! ## The values at the positions -/

/-- The values that a path leads to from a value that is not entered as an array. -/
def follow (v : Value) : List String → List Value
  | [] => [v]
  | name :: path =>
      match v.field? name with
      | none => []
      | some held => held.reach path

theorem follow_cons_document (fields : Document) (name : String) (path : List String) :
    (Value.document fields).follow (name :: path) = reachField fields name path := by
  rw [reachField_eq, follow, field?]
  cases fields.get? name <;> rfl

/-- Elements of an array are entered if they are documents. -/
theorem reachElements_eq (items : List Value) (name : String) (path : List String) :
    reachElements items name path = items.flatMap fun item => item.follow (name :: path) := by
  induction items with
  | nil => rfl
  | cons item rest ih =>
    rw [List.flatMap_cons, ← ih]
    cases item with
    | document fields => rw [follow_cons_document, reachElements]
    | _ => rfl

/-- What a path reaches in a value is what it leads to from the value and from its elements. -/
theorem reach_eq (v : Value) (path : List String) :
    v.reach path = v.follow path ++ v.elements.flatMap fun item => item.follow path := by
  cases path with
  | nil => cases v <;> simp [reach, ends, follow, elements]
  | cons name path =>
    cases v with
    | document fields =>
      rw [follow_cons_document]
      exact (List.append_nil _).symm
    | array items => exact reachElements_eq items name path
    | _ => rfl

/-- The values that a path leads to are those at its positions. -/
theorem map_some_follow (v : Value) (path : List String) :
    (v.follow path).map some = (v.positions path).map (v.at? path) := by
  induction path generalizing v with
  | nil => rfl
  | cons name path ih =>
    rw [positions, follow]
    cases hfield : v.field? name with
    | none => rfl
    | some held =>
      dsimp only
      rw [reach_eq, List.map_append, List.map_append, List.map_flatMap, List.map_flatMap]
      congr 1
      · rw [ih, List.map_map]
        exact List.map_congr_left fun p _ => (at?_cons_none hfield p).symm
      · -- each element is followed under its index
        rw [← List.zipIdx_map_fst 0 held.elements, List.flatMap_map, List.zipIdx_map_fst]
        refine List.flatMap_congr fun item hitem => ?_
        rw [List.mem_zipIdx_iff_getElem?] at hitem
        rw [ih, List.map_map]
        refine List.map_congr_left fun p _ => ?_
        rw [Function.comp_apply, at?_cons_some hfield, hitem, Option.bind_some]

end Value

namespace Document

/-- The value at a position of a document. -/
def at? (doc : Document) (path : List String) (position : Position) : Option Value :=
  (Value.document doc).at? path position

/-- The positions on a path at which a document has a value. -/
def positions (doc : Document) (path : List String) : List Position :=
  (Value.document doc).positions path

/-- The values at a path are the values at the positions on it at which there is one, each position
once and in their order. -/
theorem valuesAt_eq_map_positions (doc : Document) (name : String) (path : List String) :
    (doc.valuesAt (name :: path)).map some =
        (doc.positions (name :: path)).map (doc.at? (name :: path)) ∧
      (∀ position, position ∈ doc.positions (name :: path) ↔
        (doc.at? (name :: path) position).isSome = true) ∧
      (doc.positions (name :: path)).Pairwise Position.Before ∧
      (doc.positions (name :: path)).Nodup := by
  have hsorted := Value.pairwise_positions (.document doc) (name :: path)
  refine ⟨?_, fun _ => Value.mem_positions_iff, hsorted, hsorted.imp ?_⟩
  · rw [valuesAt, ← Value.follow_cons_document]
    exact Value.map_some_follow _ _
  · rintro p _ hbefore rfl
    exact Position.not_before_self p hbefore

/-- An array at the end of a path comes before its elements, and an array among these is not
entered. -/
example : positions [("a", .array [.int32 1, .array [.int32 2]])] ["a"] =
    [[none], [some 0], [some 1]] := rfl

end Document

end DocMapper
