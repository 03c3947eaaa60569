import DocMapper.Entity.Basic
import DocMapper.Store.Basic

set_option autoImplicit false

/-!
# Contexts

A context is what the operations on entities run in: a configuration, perhaps a session, and global
filters by entity type. A global filter restricts all reading and deleting of its type to the
documents that match it: `mergeFilter` joins it with the filter of the caller. The configuration
says where in the merged filter it goes, and which collection holds the chunks of files.
-/

namespace DocMapper

/-- The place of a global filter relative to the filter of the caller. -/
inductive FilterPosition where
  | prepend
  | append
deriving DecidableEq

/-- The name of a position. -/
def FilterPosition.name : FilterPosition → String
  | prepend => "Prepend"
  | append => "Append"

/-- What a context is configured with. -/
structure Config where
  filterPosition : FilterPosition := .prepend
  chunkCollection : String := "[BINARY_CHUNKS]"
deriving DecidableEq

/-- A filter that applies to a whole entity type. -/
structure GlobalFilter where
  filter : Document
  /-- The place of the filter, if it differs from the configured one. -/
  position : Option FilterPosition := none

/-- A configuration, a session and the global filters by the name of their entity type. -/
structure Context where
  config : Config := {}
  session : Option Session := none
  globalFilters : Fields GlobalFilter := []

namespace Context

/-! ## Global filters -/

section GlobalFilter

variable {ι : Type}

/-- The context with a global filter for a type, instead of one that the type had. -/
def withGlobalFilter (c : Context) (τ : Type) [Stored τ ι] (filter : GlobalFilter) : Context :=
  { c with globalFilters := Fields.insert (Stored.typeName τ) filter c.globalFilters }

/-- The global filter of a type. -/
def globalFilter? (c : Context) (τ : Type) [Stored τ ι] : Option GlobalFilter :=
  c.globalFilters.get? (Stored.typeName τ)

/-- Where the global filter of a type goes. -/
def filterPosition (c : Context) (τ : Type) [Stored τ ι] : FilterPosition :=
  ((c.globalFilter? τ).bind (·.position)).getD c.config.filterPosition

/-- A filter that takes what two filters take. -/
def both (first second : Document) : Document :=
  [("$and", .array [.document first, .document second])]

/-- A filter joined with the global filter of a type. -/
def mergeFilter (c : Context) (τ : Type) [Stored τ ι] (filter : Document) : Document :=
  match c.globalFilter? τ with
  | none => filter
  | some shared =>
      match c.filterPosition τ with
      | .prepend => both shared.filter filter
      | .append => both filter shared.filter

end GlobalFilter

/-! ## Transactions -/

/-- A context like this one whose operations run in a new transaction. -/
def transaction (c : Context) : Action Context := do
  let s ← get
  if s.hasActiveTransaction c.session then throw .transactionAlreadyStarted
  let session ← Store.startSession
  Store.startTransaction session
  return { c with session := some session }

/-- Commits the transaction of the session. -/
def commit (c : Context) : Action Unit :=
  match c.session with
  | some session => Store.commitTransaction session
  | none => throw .noTransactionStarted

/-- Aborts the transaction of the session. -/
def abort (c : Context) : Action Unit :=
  match c.session with
  | some session => Store.abortTransaction session
  | none => throw .noTransactionStarted

/-! ## Showing a context -/

/-- A context without session as it is shown to a programmer. -/
def text? (c : Context) : Option String :=
  match c.session with
  | some _ => none
  | none => some <|
      "DbContext \x7b config: Config \x7b global_filter_position: " ++
        c.config.filterPosition.name ++
        ", chunk_collection: " ++ Text.quoted c.config.chunkCollection ++
        " \x7d, session: None, global_filters: " ++ toString c.globalFilters.length ++ " \x7d"

end Context

end DocMapper
