import RsQuery.Executor

/-!
# What an observer reads

A query is observed with initial data, which goes into the cache where there is none, and
with placeholder data, which is shown as long as there is none.  The state shown is read from
the cache: by `read_query_state` for a hook, and by `initial_result` for a new spec of a
`QueriesObserver`.
-/

namespace RsQuery

variable {V : Type} [PartialEqAny V]

namespace QueryState

/-- The data a state carries. -/
def data : QueryState V → Option V
  | .idle | .loading => none
  | .loadingWithPlaceholder d | .refetching d | .success d | .stale d => some d
  | .error _ staleData => staleData

/-- The optimistic mark of a state whose query is executed. -/
def marked (state : QueryState V) : QueryState V :=
  match state.data with
  | some data => .refetching data
  | none => .loading

end QueryState

/-- Placeholder data: a value, or a function of the previous data. -/
inductive PlaceholderData (V : Type) where
  | value (data : V)
  | function (f : Option V → V)

/-- Definition of a query with what it shows before it is fetched. -/
structure SeededQuery (V : Type) [PartialEqAny V] extends Query V where
  initialData : Option V := none
  placeholderData : Option (PlaceholderData V) := none
  initialData_typeOf : ∀ d ∈ initialData, typeOf d = typeId

/-- A query that shows nothing before it is fetched. -/
def SeededQuery.unseeded (query : Query V) : SeededQuery V :=
  { query with initialData := none, initialData_typeOf := nofun }

/-- The placeholder a query shows; there is no previous data. -/
def placeholderValue (query : SeededQuery V) : Option V :=
  query.placeholderData.map fun data =>
    match data with
    | .value value => value
    | .function f => f none

/-- The initial data goes into the cache if there is no data. -/
def seedInitial (c : QueryClient V) (now : Instant) (query : SeededQuery V) : QueryClient V :=
  match c.getQueryData query.key query.typeId, query.initialData with
  | none, some initial => c.setQueryData now query.key initial query.options
  | _, _ => c

/-- The state of a key as the cache has it. -/
def readQueryState (c : QueryClient V) (now : Instant) (key : QueryKey) (typeId : TypeId)
    (placeholder : Option V) : QueryState V :=
  match c.getQueryData key typeId with
  | some data => if c.isStale now key then .stale data else .success data
  | none =>
    match placeholder with
    | some data => .loadingWithPlaceholder data
    | none => .idle

/-- The first state of a spec, with the client its initial data is in. -/
def initialResult (c : QueryClient V) (now : Instant) (query : SeededQuery V) :
    QueryClient V × QueryState V :=
  let c := seedInitial c now query
  (c,
    match c.getQueryData query.key query.typeId with
    | some data =>
      if c.isInFlight query.key then .refetching data
      else if c.isStale now query.key then .stale data
      else .success data
    | none => if c.isInFlight query.key then .loading else .idle)

end RsQuery
