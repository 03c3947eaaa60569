import DocMapper.Template.Basic
import Mathlib.Data.List.Induction

set_option autoImplicit false

/-!
# Registrations

A `Registration` gives a template a value for a name: either both are said, or both are forms of a
navigation expression (`PathForm`). Every registration is a `tag` with an entry of its own, or it
fails as its expression does (`Registration.register_eq`), so a row of registrations writes the row
of their entries (`registerAll_eq`).

Of such a row the last entry for a name gives the value (`Fields.get?_ofList`), and the first one
gives the place of the name (`Fields.keys_ofList`).
-/

namespace DocMapper

/-! ## Entries written one after another -/

namespace Fields

universe u

variable {α : Type u} {entries : Fields α} {key : String} {value : α}

/-- A name that comes last is a new one, or it stands in its place already. -/
theorem eraseDups_append_singleton (names : List String) (name : String) :
    (names ++ [name]).eraseDups =
      if name ∈ names then names.eraseDups else names.eraseDups ++ [name] := by
  rw [List.eraseDups_append]
  split
  · rename_i hmem
    simp [List.removeAll, hmem]
  · rename_i hnew
    have hkept : [name].removeAll names = [name] := by simp [List.removeAll, hnew]
    rw [hkept]
    rfl

/-- The value that is written last for a name. -/
def lastValue? (entries : Fields α) (key : String) : Option α :=
  (entries.filter fun entry => entry.1 = key).getLast?.map Prod.snd

/-- The entry that comes last is written last. -/
theorem ofList_append_singleton (entries : Fields α) (entry : String × α) :
    ofList (entries ++ [entry]) = insert entry.1 entry.2 (ofList entries) := by
  rw [ofList, List.foldl_append]
  rfl

/-- The entry that comes last has the last value for its name, and for no other. -/
theorem lastValue?_append_singleton (entries : Fields α) (entry : String × α) (key : String) :
    lastValue? (entries ++ [entry]) key =
      if entry.1 = key then some entry.2 else lastValue? entries key := by
  unfold lastValue?
  rw [List.filter_append]
  by_cases h : entry.1 = key
  · rw [if_pos h, List.filter_cons_of_pos (by simpa using h), List.filter_nil]
    simp
  · rw [if_neg h, List.filter_cons_of_neg (by simpa using h), List.filter_nil, List.append_nil]

/-- A name has the value that is written last for it. -/
theorem get?_ofList (entries : Fields α) (key : String) :
    get? (ofList entries) key = lastValue? entries key := by
  -- from the right, since the entry that comes last decides
  induction entries using List.reverseRecOn with
  | nil => rfl
  | append_singleton entries entry ih =>
    rw [ofList_append_singleton, get?_insert, lastValue?_append_singleton, ih]

/-- Names stand in the order in which they are written first. -/
theorem keys_ofList (entries : Fields α) : keys (ofList entries) = (keys entries).eraseDups := by
  induction entries using List.reverseRecOn with
  | nil => rfl
  | append_singleton entries entry ih =>
    have hkeys : keys (entries ++ [entry]) = keys entries ++ [entry.1] := List.map_append
    rw [ofList_append_singleton, keys_insert, ih, hkeys, eraseDups_append_singleton,
      if_congr List.mem_eraseDups rfl rfl]

theorem contains_ofList_iff : contains (ofList entries) key = true ↔ key ∈ keys entries := by
  rw [contains, Option.isSome_iff_ne_none, Ne, get?_eq_none_iff, keys_ofList, List.mem_eraseDups,
    not_not]

theorem exists_lastValue? (h : key ∈ keys entries) :
    ∃ value, lastValue? entries key = some value := by
  rw [← get?_ofList]
  exact Option.isSome_iff_exists.1 (contains_ofList_iff.2 h)

/-- Whether two rows have the same entries for each name, in the same order. -/
def SameByName (entries entries' : Fields α) : Prop :=
  ∀ key, entries.filter (fun entry => entry.1 = key) = entries'.filter fun entry => entry.1 = key

theorem SameByName.lastValue?_eq {entries' : Fields α} (h : SameByName entries entries')
    (key : String) : lastValue? entries key = lastValue? entries' key := by
  rw [lastValue?, h key, lastValue?]

theorem lastValue?_eq_none_iff : lastValue? entries key = none ↔ key ∉ keys entries := by
  rw [← get?_ofList, get?_eq_none_iff, keys_ofList, List.mem_eraseDups]

theorem SameByName.mem_keys_iff {entries' : Fields α} (h : SameByName entries entries')
    (key : String) : key ∈ keys entries ↔ key ∈ keys entries' := by
  rw [← not_iff_not, ← lastValue?_eq_none_iff, ← lastValue?_eq_none_iff, h.lastValue?_eq]

end Fields

/-! ## Registrations -/

namespace Template

/-- A form in which a template takes a navigation expression. -/
inductive PathForm where
  | property
  | path
  | elementsPath
  | elements (n : Nat)
  | posFiltered
  | posAll
  | posFirst
deriving DecidableEq

namespace PathForm

/-- The template that takes an expression in a form. -/
def register : PathForm → Template → Path.Expr → Except Error Template
  | property, t, e => t.property e
  | path, t, e => t.path e
  | elementsPath, t, e => t.elementsPath e
  | elements n, t, e => t.elements n e
  | posFiltered, t, e => t.posFiltered e
  | posAll, t, e => t.posAll e
  | posFirst, t, e => t.posFirst e

/-- The name that a rendering gets a value for. -/
def key : PathForm → Path.Rendering → String
  | property, r => r.property
  | path, r => r.property
  | elementsPath, r => r.property
  | elements n, r => Path.identifier n ++ "." ++ Path.joinDots r.dotted
  | posFiltered, r => Path.joinDots r.posFiltered
  | posAll, r => Path.joinDots r.posAll
  | posFirst, r => Path.joinDots r.posFirst

/-- The value that the name gets: the path for a last member, and otherwise the name itself. -/
def value : PathForm → Path.Rendering → String
  | path, r => Path.joinDots r.dotted
  | elementsPath, r => Path.joinDots r.dotted
  | form, r => form.key r

/-- A template takes the name and the value of the rendering. -/
theorem register_eq (form : PathForm) (t : Template) (e : Path.Expr) :
    form.register t e =
      pathResult ((Path.render e).map fun r => t.tag (form.key r) (form.value r)) := by
  -- the text of a form is read off the rendering, so both fail together
  cases hrender : Path.render e with
  | error fault =>
    cases form <;>
      simp [register, Template.property, Template.path, Template.elementsPath, Template.elements,
        Template.posFiltered, Template.posAll, Template.posFirst, Path.property, Path.elements,
        Path.dotted, Path.posFiltered, Path.posAll, Path.posFirst, hrender, Except.map]
  | ok r =>
    cases form <;>
      simp [register, key, value, Template.property, Template.path, Template.elementsPath,
        Template.elements, Template.posFiltered, Template.posAll, Template.posFirst, Path.property,
        Path.elements, Path.dotted, Path.posFiltered, Path.posAll, Path.posFirst, hrender,
        Except.map]

end PathForm

/-- A name with a value, or a navigation expression in a form. -/
inductive Registration where
  | tag (name value : String)
  | path (form : PathForm) (e : Path.Expr)

namespace Registration

/-- The template with a registration more. -/
def register (t : Template) : Registration → Except Error Template
  | tag name value => .ok (t.tag name value)
  | path form e => form.register t e

/-- The name and the value that are registered. -/
def entry : Registration → Except Error (String × String)
  | tag name value => .ok (name, value)
  | path form e => pathResult ((Path.render e).map fun r => (form.key r, form.value r))

/-- A registration is a tag with its entry. -/
theorem register_eq (t : Template) (registration : Registration) :
    registration.register t = registration.entry.map fun entry => t.tag entry.1 entry.2 := by
  cases registration with
  | tag name value => rfl
  | path form e =>
    rw [register, PathForm.register_eq, entry]
    cases Path.render e <;> rfl

end Registration

/-- The template with all registrations, one after another. -/
def registerAll (t : Template) (registrations : List Registration) : Except Error Template :=
  registrations.foldlM Registration.register t

/-- The entries are written one after another, or the first registration that fails is reported. -/
theorem registerAll_eq (t : Template) (registrations : List Registration) :
    registerAll t registrations =
      (registrations.mapM Registration.entry).map fun entries =>
        entries.foldl (fun t entry => t.tag entry.1 entry.2) t := by
  -- by induction on the row: a registration that fails ends both the row and the list of entries
  induction registrations generalizing t with
  | nil => rfl
  | cons registration rest ih =>
    rw [registerAll, List.foldlM_cons, Registration.register_eq, List.mapM_cons]
    cases registration.entry with
    | error e => rfl
    | ok entry =>
      refine (ih _).trans ?_
      cases rest.mapM Registration.entry <;> rfl

/-- Tags write fields. -/
theorem foldl_tag (t : Template) (entries : Fields String) :
    entries.foldl (fun t entry => t.tag entry.1 entry.2) t =
      ⟨t.body, entries.foldl (fun fields entry => Fields.insert entry.1 entry.2 fields)
        t.values⟩ := by
  induction entries generalizing t with
  | nil => rfl
  | cons entry rest ih =>
    rw [List.foldl_cons, ih]
    rfl

theorem registerAll_empty (body : List Char) (registrations : List Registration) :
    registerAll ⟨body, []⟩ registrations =
      (registrations.mapM Registration.entry).map fun entries => ⟨body, Fields.ofList entries⟩ := by
  rw [registerAll_eq]
  simp only [foldl_tag]
  rfl

end Template

end DocMapper
