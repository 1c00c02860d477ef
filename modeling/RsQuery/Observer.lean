import RsQuery.Backoff
import RsQuery.Observing

/-!
# Query observers

A `QueryObserver` has the state it shows, the receiver of its key's notifications, and its
own record of the fetches it was told of.  `update` reads the state from the cache; the
transitions `set_loading`, `set_success`, `set_error` and `set_stale` are made by whoever
runs the fetch.

What an observer does with data does not depend on what data is, so observers are over any
type of data; one that reads a client has the client's.
-/

namespace RsQuery

variable {D : Type}

/-- The placeholder, given the previous data. -/
def PlaceholderData.resolve : PlaceholderData D → Option D → D
  | .value data, _ => data
  | .function f, previous => f previous

namespace QueryState

/-- Whether any data is available. -/
def hasData (state : QueryState D) : Bool :=
  state.data.isSome

/-- Whether the last fetch failed. -/
def isError : QueryState D → Bool
  | .error .. => true
  | _ => false

/-- Whether placeholder data is shown. -/
def isPlaceholder : QueryState D → Bool
  | .loadingWithPlaceholder _ => true
  | _ => false

/-- The state that shows cached data. -/
def ofCached (data : D) (isStale : Bool) : QueryState D :=
  if isStale then .stale data else .success data

/-- The state after the cache was read again. -/
def observe : QueryState D → Option D → Bool → QueryState D
  | _, none, _ => .idle
  | .loading, some data, isStale
  | .loadingWithPlaceholder _, some data, isStale
  | .refetching _, some data, isStale => if isStale then .stale data else .success data
  | _, some data, true => .stale data
  | _, some data, false => .success data

theorem observe_none (state : QueryState D) (isStale : Bool) :
  state.observe none isStale = .idle
  := by
  cases state with
  | _ => rfl

/-- Data that is read is shown, whatever was shown before. -/
theorem observe_some (state : QueryState D) (data : D) (isStale : Bool) :
  state.observe (some data) isStale = ofCached data isStale
  := by
  cases isStale with
  | _ =>
    cases state with
    | _ => rfl

end QueryState

/-- Derived result flags of an observer. -/
structure QueryResultFlags where
  dataUpdatedAt : Option Instant
  errorUpdatedAt : Option Instant
  errorUpdateCount : Nat
  failureCount : Nat
  failureReason : Option QueryError
  isFetched : Bool
  isFetchedAfterMount : Bool
  isLoadingError : Bool
  isRefetchError : Bool
  isPlaceholderData : Bool
  isPaused : Bool
  isEnabled : Bool

/-- Reactive observer for a query key. -/
structure QueryObserver (D : Type) where
  key : QueryKey
  typeId : TypeId
  state : QueryState D
  receiver : Nat
  options : QueryOptions := {}
  fetchStartedAt : Option Instant := none
  placeholderData : Option (PlaceholderData D) := none
  dataUpdatedAt : Option Instant := none
  errorUpdatedAt : Option Instant := none
  errorUpdateCount : Nat := 0
  failureCount : Nat := 0
  failureReason : Option QueryError := none
  isFetched : Bool := false
  isFetchedAfterMount : Bool := false

namespace QueryObserver

/-- What `update` does with what it has read. -/
def observe (o : QueryObserver D) (data : Option D) (isStale : Bool) : QueryObserver D :=
  { o with state := o.state.observe data isStale }

/-- Marks a fetch as started, resetting the failure bookkeeping. -/
def setLoading (o : QueryObserver D) (now : Instant) : QueryObserver D :=
  { o with
    fetchStartedAt := some now
    failureCount := 0
    failureReason := none
    state :=
      match o.state.data, o.placeholderData with
      | some data, _ => .refetching data
      | none, some placeholder => .loadingWithPlaceholder (placeholder.resolve none)
      | none, none => .loading }

/-- Records a successful fetch. -/
def setSuccess (o : QueryObserver D) (now : Instant) (data : D) : QueryObserver D :=
  { o with
    fetchStartedAt := none
    state := .success data
    dataUpdatedAt := some now
    isFetched := true
    isFetchedAfterMount := o.fetchStartedAt.isSome || o.isFetchedAfterMount
    failureCount := 0
    failureReason := none }

/-- Records a failed fetch; the counters saturate. -/
def setError (o : QueryObserver D) (now : Instant) (error : QueryError) : QueryObserver D :=
  { o with
    fetchStartedAt := none
    state := .error error o.state.data
    errorUpdatedAt := some now
    errorUpdateCount := min (o.errorUpdateCount + 1) u32Max
    failureCount := min (o.failureCount + 1) u32Max
    failureReason := some error
    isFetched := true
    isFetchedAfterMount := o.fetchStartedAt.isSome || o.isFetchedAfterMount }

/-- Marks the data there is as stale. -/
def setStale (o : QueryObserver D) (now : Instant) : QueryObserver D :=
  match o.state.data with
  | some data => { o with state := .stale data, dataUpdatedAt := some now }
  | none => o

/-- The flags, given the connectivity. -/
def flags (o : QueryObserver D) (online : Bool) : QueryResultFlags where
  dataUpdatedAt := o.dataUpdatedAt
  errorUpdatedAt := o.errorUpdatedAt
  errorUpdateCount := o.errorUpdateCount
  failureCount := o.failureCount
  failureReason := o.failureReason
  isFetched := o.isFetched
  isFetchedAfterMount := o.isFetchedAfterMount
  isLoadingError := o.state.isError && !o.state.hasData
  isRefetchError := o.state.isError && o.state.hasData
  isPlaceholderData := o.state.isPlaceholder
  isPaused := !canFetch o.options.networkMode online
  isEnabled := o.options.isEnabled

/-! ### Observers of a client -/

variable {V : Type} [PartialEqAny V]

/-- Creates an observer for a key. -/
def new (c : QueryClient V) (now : Instant) (key : QueryKey) (typeId : TypeId) :
    QueryClient V × QueryObserver V :=
  let (c, receiver) := c.subscribe key.cacheKey
  let state :=
    match c.getQueryData key typeId with
    | some data => if c.isStale now key then .stale data else .success data
    | none => .idle
  (c, { key := key, typeId := typeId, state := state, receiver := receiver })

/-- Creates an observer from a query definition, applying initial and placeholder data. -/
def fromQuery (c : QueryClient V) (now : Instant) (query : SeededQuery V) :
    QueryClient V × QueryObserver V :=
  let (c, receiver) := c.subscribe query.key.cacheKey
  let (c, state) :=
    match c.getQueryData query.key query.typeId, query.initialData with
    | some data, _ =>
      (c, if c.isStale now query.key then QueryState.stale data else .success data)
    | none, some initial =>
      (c.setQueryData now query.key initial query.options, .success initial)
    | none, none => (c, .idle)
  (c,
    { key := query.key
      typeId := query.typeId
      state := state
      receiver := receiver
      options := query.options
      placeholderData := query.placeholderData })

/-- Creates an observer with explicit query options. -/
def withOptions (c : QueryClient V) (now : Instant) (key : QueryKey) (typeId : TypeId)
    (options : QueryOptions) : QueryClient V × QueryObserver V :=
  let (c, observer) := new c now key typeId
  (c, { observer with options := options })

/-- Re-reads the cache and recomputes the state. -/
def update (o : QueryObserver V) (c : QueryClient V) (now : Instant) : QueryObserver V :=
  o.observe (c.getQueryData o.key o.typeId) (c.isStale now o.key)

/-- `try_recv` of the receiver of the observer. -/
def receive (o : QueryObserver D) (c : QueryClient V) :
    QueryClient V × Except Bus.TryRecvError QueryStateUpdate :=
  match c.subscribers.lookup o.key.cacheKey with
  | some sender =>
    let (sender, result) := Bus.tryRecv sender o.receiver
    ({ c with subscribers := c.subscribers.insert o.key.cacheKey sender }, result)
  | none => (c, .error .closed)

/-- The loop of `try_recv` after a lag: as many receives as values were missed, up to the
first that fails. -/
def recover (o : QueryObserver D) :
    Nat → QueryClient V → Option QueryStateUpdate → QueryClient V × Option QueryStateUpdate
  | 0, c, last => (c, last)
  | n + 1, c, last =>
    match o.receive c with
    | (c, .ok update) => recover o n c (some update)
    | (c, .error _) => (c, last)

/-- Non-blockingly tries to receive the next state update. -/
def tryRecv (o : QueryObserver D) (c : QueryClient V) :
    QueryClient V × Option QueryStateUpdate :=
  match o.receive c with
  | (c, .ok update) => (c, some update)
  | (c, .error .empty) | (c, .error .closed) => (c, none)
  | (c, .error (.lagged n)) => recover o n c none

/-- The three ways to create an observer. -/
inductive Mount (V : Type) [PartialEqAny V] where
  | new (key : QueryKey) (typeId : TypeId)
  | withOptions (key : QueryKey) (typeId : TypeId) (options : QueryOptions)
  | fromQuery (query : SeededQuery V)

def mount (c : QueryClient V) (now : Instant) : Mount V → QueryClient V × QueryObserver V
  | .new key typeId => new c now key typeId
  | .withOptions key typeId options => withOptions c now key typeId options
  | .fromQuery query => fromQuery c now query

/-- A call on an observer; an update finds the client as it is by then. -/
inductive Call (V : Type) where
  | update (now : Instant) (c : QueryClient V)
  | setLoading (now : Instant)
  | setSuccess (now : Instant) (data : V)
  | setError (now : Instant) (error : QueryError)
  | setStale (now : Instant)

def call (o : QueryObserver V) : Call V → QueryObserver V
  | .update now c => o.update c now
  | .setLoading now => o.setLoading now
  | .setSuccess now data => o.setSuccess now data
  | .setError now error => o.setError now error
  | .setStale now => o.setStale now

/-- The bookkeeping fields are as they are in a new observer. -/
structure Unrecorded (o : QueryObserver V) : Prop where
  fetchStartedAt : o.fetchStartedAt = none
  dataUpdatedAt : o.dataUpdatedAt = none
  errorUpdateCount : o.errorUpdateCount = 0
  failureCount : o.failureCount = 0
  failureReason : o.failureReason = none
  isFetched : o.isFetched = false
  isFetchedAfterMount : o.isFetchedAfterMount = false

theorem unrecorded_mount (c : QueryClient V) (now : Instant) (m : Mount V) :
  (mount c now m).2.Unrecorded
  := by
  cases m with
  | new key typeId => exact ⟨rfl, rfl, rfl, rfl, rfl, rfl, rfl⟩
  | withOptions key typeId options => exact ⟨rfl, rfl, rfl, rfl, rfl, rfl, rfl⟩
  | fromQuery query => exact ⟨rfl, rfl, rfl, rfl, rfl, rfl, rfl⟩

/-- A new observer shows no placeholder. -/
theorem isPlaceholder_mount (c : QueryClient V) (now : Instant) (m : Mount V) :
  (mount c now m).2.state.isPlaceholder = false
  := by
  have fresh (key : QueryKey) (typeId : TypeId) :
      (new c now key typeId).2.state.isPlaceholder = false := by
    simp only [new]
    split
    · split
      · rfl
      · rfl
    · rfl
  cases m with
  | new key typeId => apply fresh
  | withOptions key typeId options => apply fresh
  | fromQuery query =>
    simp only [mount, fromQuery]
    split
    · split
      · rfl
      · rfl
    · rfl
    · rfl

end QueryObserver

end RsQuery
