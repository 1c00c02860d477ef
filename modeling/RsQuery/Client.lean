import Mathlib.Data.Finset.Basic
import RsQuery.Filters
import RsQuery.Options

/-!
# The query client

`QueryClient` holds the cache, the in-flight registrations and the channels of a
client, over erased values of a type `V`.  Each function is the effect of one call made
while no other call runs.  What calls do to things that live outside the client (tokens
they cancel, tasks they abort, wakers they wake) is recorded in `signals`.

The maps of the client have no order; a loop over one runs in the order of its table.
-/

namespace RsQuery

/-- Identifies a concrete type among the erased values. -/
abbrev TypeId := Nat

/-- Names a spawned task. -/
abbrev TaskId := Nat

/-- Names a cancellation token. -/
abbrev Token := Nat

/-- Erased values that know their type and can be compared. -/
class PartialEqAny (V : Type) where
  typeOf : V → TypeId
  eqAny : V → V → Bool
  /-- A comparison with a value of another type fails. -/
  typeOf_eq_of_eqAny : ∀ {v w : V}, eqAny v w = true → typeOf v = typeOf w

export PartialEqAny (typeOf eqAny)

/-- `downcast_ref`: the value, if it has the type asked for. -/
def downcast {V : Type} [PartialEqAny V] (typeId : TypeId) (v : V) : Option V :=
  if typeOf v = typeId then some v else none

/-- Erased values of two types. -/
instance : PartialEqAny (String ⊕ Nat) where
  typeOf v := if v.isLeft then 0 else 1
  eqAny v w := v = w
  typeOf_eq_of_eqAny h := by rw [of_decide_eq_true h]

/-- Cache entry for type-erased storage. -/
structure CacheEntry (V : Type) where
  data : V
  typeId : TypeId
  fetchedAt : Instant
  lastAccessed : Instant
  options : QueryOptions
  isStale : Bool

/-- An in-flight task: the task `abort` aborts, and its cancellation token. -/
structure InFlightTask where
  abort : TaskId
  cancelToken : Token
deriving DecidableEq, Repr

/-- Activity events for global fetching and mutating state. -/
inductive ActivityEvent where
  | fetchingCountChanged (count : Nat)
  | mutatingCountChanged (count : Nat)
deriving DecidableEq, Repr

/-- Effects on what lives outside the client. -/
structure Signals where
  cancelled : Finset Token := ∅
  aborted : Finset TaskId := ∅
  woken : Finset Waker := ∅

/-- Central query client managing cache and in-flight fetches. -/
structure QueryClient (V : Type) where
  cache : Table String (CacheEntry V)
  inFlight : Table String InFlightTask
  subscribers : Table String (Bus.Shared QueryStateUpdate)
  allSubscribers : Bus.Shared QueryStateUpdate
  online : OnlineManager
  defaultOptions : Option QueryOptions
  isRestoring : Bool
  fetchingCount : Nat
  mutatingCount : Nat
  activityTx : Bus.Shared ActivityEvent
  signals : Signals

namespace QueryClient

variable {V : Type}

/-- `bus::Sender::channel(capacity).0`: the first receiver is dropped unused. -/
def senderOnly {T : Type} (capacity : Nat) : Bus.Shared T :=
  let (channel, receiver) := Bus.channel capacity
  Bus.dropReceiver channel receiver

/-- A new, empty client. -/
def new : QueryClient V where
  cache := ∅
  inFlight := ∅
  subscribers := ∅
  allSubscribers := senderOnly 64
  online := .new
  defaultOptions := none
  isRestoring := false
  fetchingCount := 0
  mutatingCount := 0
  activityTx := senderOnly 16
  signals := {}

/-- Wakes the tasks the wakers belong to. -/
def wake (c : QueryClient V) (wakers : List Waker) : QueryClient V :=
  { c with signals.woken := c.signals.woken ∪ wakers.toFinset }

/-- Subscribes to the state changes of a cache key; the id is the receiver's. -/
def subscribe (c : QueryClient V) (cacheKey : String) : QueryClient V × Nat :=
  let sender := (c.subscribers.lookup cacheKey).getD (senderOnly 16)
  let (sender, id) := Bus.subscribe sender
  ({ c with subscribers := c.subscribers.insert cacheKey sender }, id)

/-- Notifies the subscribers of every key and those of this key. -/
def notifySubscribers (c : QueryClient V) (cacheKey : String) (variant : QueryStateVariant) :
    QueryClient V :=
  let update : QueryStateUpdate := ⟨cacheKey, variant⟩
  let (all, wakers) := Bus.send c.allSubscribers update
  let c := wake { c with allSubscribers := all } wakers
  match c.subscribers.lookup cacheKey with
  | some sender =>
    let (sender, wakers) := Bus.send sender update
    wake { c with subscribers := c.subscribers.insert cacheKey sender } wakers
  | none => c

theorem notifySubscribers_subscribers
    (c : QueryClient V) (cacheKey : String) (variant : QueryStateVariant) :
  (c.notifySubscribers cacheKey variant).subscribers
    = Table.adjust cacheKey (fun sender => (Bus.send sender ⟨cacheKey, variant⟩).1) c.subscribers
  := by
  simp only [notifySubscribers, wake, Table.adjust]
  cases c.subscribers.lookup cacheKey with
  | none => rfl
  | some sender => rfl

/-- A notification changes nothing but the channels and what is woken. -/
theorem notifySubscribers_frame
    (c : QueryClient V) (cacheKey : String) (variant : QueryStateVariant) :
  let c' := c.notifySubscribers cacheKey variant
  c'.cache = c.cache ∧ c'.inFlight = c.inFlight ∧ c'.isRestoring = c.isRestoring ∧
    c'.online = c.online ∧ c'.defaultOptions = c.defaultOptions ∧
    c'.signals.cancelled = c.signals.cancelled ∧ c'.signals.aborted = c.signals.aborted
  := by
  simp only [notifySubscribers, wake]
  cases c.subscribers.lookup cacheKey with
  | none => simp
  | some sender => simp

/-- Cached data of the type, if there is any. -/
def getQueryData [PartialEqAny V] (c : QueryClient V) (key : QueryKey) (typeId : TypeId) :
    Option V :=
  match c.cache.lookup key.cacheKey with
  | some entry => if entry.typeId ≠ typeId then none else downcast typeId entry.data
  | none => none

/-- Staleness of a cache entry: stale flag, or stale time elapsed. -/
def entryIsStale (now : Instant) (entry : CacheEntry V) : Bool :=
  let timeStale := entry.options.staleTime ≠ 0 ∧
    Instant.elapsed now entry.fetchedAt > entry.options.staleTime
  timeStale || entry.isStale

/-- Whether the data for a key is stale. -/
def isStale (c : QueryClient V) (now : Instant) (key : QueryKey) : Bool :=
  match c.cache.lookup key.cacheKey with
  | some entry => entryIsStale now entry
  | none => false

/-- The entry `set_query_data` stores: the options of a new entry are merged with the
client's defaults, and equal old data is kept where data is shared. -/
def newEntry [PartialEqAny V] (c : QueryClient V) (now : Instant) (key : QueryKey) (data : V)
    (options : QueryOptions) : CacheEntry V :=
  let old := c.cache.lookup key.cacheKey
  let options :=
    match old, c.defaultOptions with
    | none, some defaults => QueryOptions.mergeOptions defaults options
    | _, _ => options
  let finalData :=
    match old with
    | some oldEntry =>
      if options.structuralSharing ∧ oldEntry.typeId = typeOf data ∧ eqAny data oldEntry.data then
        oldEntry.data
      else data
    | none => data
  { data := finalData
    typeId := typeOf data
    fetchedAt := now
    lastAccessed := now
    options := options
    isStale := false }

/-- The part of `set_query_data` before its notification. -/
def storeQueryData [PartialEqAny V] (c : QueryClient V) (now : Instant) (key : QueryKey)
    (data : V) (options : QueryOptions) : QueryClient V :=
  { c with cache := c.cache.insert key.cacheKey (c.newEntry now key data options) }

/-- Sets cached data with optional structural sharing. -/
def setQueryData [PartialEqAny V] (c : QueryClient V) (now : Instant) (key : QueryKey)
    (data : V) (options : QueryOptions) : QueryClient V :=
  (c.storeQueryData now key data options).notifySubscribers key.cacheKey .success

/-! ### Registrations -/

/-- Whether a query is in flight. -/
def isInFlight (c : QueryClient V) (key : QueryKey) : Bool :=
  (c.inFlight.lookup key.cacheKey).isSome

/-- Stores an in-flight task for a key. -/
def setInFlight (c : QueryClient V) (key : QueryKey) (task : InFlightTask) : QueryClient V :=
  { c with inFlight := c.inFlight.insert key.cacheKey task }

/-- Removes the in-flight task for a key. -/
def clearInFlight (c : QueryClient V) (key : QueryKey) : QueryClient V :=
  { c with inFlight := c.inFlight.erase key.cacheKey }

/-- Cancels the token of a task and aborts it. -/
def cancelTask (c : QueryClient V) (task : InFlightTask) : QueryClient V :=
  { c with
      signals.cancelled := insert task.cancelToken c.signals.cancelled
      signals.aborted := insert task.abort c.signals.aborted }

/-- Removes the registration under a cache key, if there is one, and cancels its task. -/
def withdraw (c : QueryClient V) (cacheKey : String) : QueryClient V :=
  match c.inFlight.lookup cacheKey with
  | some task => cancelTask { c with inFlight := c.inFlight.erase cacheKey } task
  | none => c

/-- Sets the stale flag of the entry under a cache key, if there is one. -/
def markStale (c : QueryClient V) (cacheKey : String) : QueryClient V :=
  { c with cache := Table.adjust cacheKey (fun e => { e with isStale := true }) c.cache }

/-- Removes the entry under a cache key, if there is one. -/
def evict (c : QueryClient V) (cacheKey : String) : QueryClient V :=
  { c with cache := c.cache.erase cacheKey }

/-- Runs a loop body on the items one after another and adds up what it counts. -/
def forEach {β : Type} (body : QueryClient V → β → QueryClient V × Nat) :
    List β → QueryClient V → QueryClient V × Nat
  | [], c => (c, 0)
  | b :: bs, c =>
    let (c, n) := body c b
    let (c, m) := forEach body bs c
    (c, n + m)

/-- A loop body that counts nothing. -/
def uncounted {β : Type} (body : QueryClient V → β → QueryClient V) :
    QueryClient V → β → QueryClient V × Nat :=
  fun c b => (body c b, 0)

/-- The keys a pattern invalidates: those whose cache key has the pattern's as a
prefix. -/
def keysToInvalidate (c : QueryClient V) (pattern : QueryKey) : List String :=
  c.cache.keys.filter fun key =>
    pattern.cacheKey.toList.isPrefixOf key.toList || key == pattern.cacheKey

/-- The loop body of `invalidate_queries`. -/
def invalidateKey (c : QueryClient V) (cacheKey : String) : QueryClient V :=
  let c := c.withdraw cacheKey
  match c.cache.lookup cacheKey with
  | some _ => (c.markStale cacheKey).notifySubscribers cacheKey .stale
  | none => c

/-- Invalidates the queries matching the key pattern. -/
def invalidateQueries (c : QueryClient V) (pattern : QueryKey) : QueryClient V :=
  (forEach (uncounted invalidateKey) (c.keysToInvalidate pattern) c).1

/-- Cancels the fetch of a cache key, if one is in flight, and tells the subscribers;
the count is the number of fetches cancelled. -/
def cancelKey (c : QueryClient V) (cacheKey : String) : QueryClient V × Nat :=
  match c.inFlight.lookup cacheKey with
  | some _ => ((c.withdraw cacheKey).notifySubscribers cacheKey .error, 1)
  | none => (c, 0)

/-- Cancels a specific query if it is in flight. -/
def cancelQuery (c : QueryClient V) (key : QueryKey) : QueryClient V :=
  (c.cancelKey key.cacheKey).1

/-- Clears all cached data: every task in flight is cancelled first. -/
def clear (c : QueryClient V) : QueryClient V :=
  let c := (Table.values c.inFlight).foldl cancelTask c
  { c with inFlight := ∅, cache := ∅ }

/-- Garbage collection of the entries not accessed for their gc time. -/
def gc (c : QueryClient V) (now : Instant) : QueryClient V :=
  { c with
      cache := Table.retain
        (fun _ entry => Instant.elapsed now entry.lastAccessed < entry.options.gcTime) c.cache }

/-! ### Bulk operations -/

/-- The filter snapshot of one cache entry; the key is rebuilt from the cache key. -/
def entrySnapshot (now : Instant) (cacheKey : String) (entry : CacheEntry V) (inFlight : Bool) :
    QuerySnapshot where
  key := .fromSegments (splitSegments cacheKey)
  isActive := inFlight && entry.options.isEnabled
  isStale := entryIsStale now entry
  status := .success
  fetchStatus := if inFlight then .fetching else .idle
  hasData := true

/-- The cache keys and snapshots of the entries matching the filters. -/
def matchingEntries (c : QueryClient V) (now : Instant) (filters : QueryFilters) :
    List (String × QuerySnapshot) :=
  c.cache.entries.filterMap fun entry =>
    let snapshot := entrySnapshot now entry.1 entry.2 (c.inFlight.lookup entry.1).isSome
    if matchQuery snapshot filters then some (entry.1, snapshot) else none

/-- Cancels the fetches in flight of the matching queries; returns how many. -/
def cancelQueries (c : QueryClient V) (now : Instant) (filters : QueryFilters) :
    QueryClient V × Nat :=
  forEach (fun c m => c.cancelKey m.1) (c.matchingEntries now filters) c

/-- The loop body of `reset_queries` and `remove_queries`, which differ in what they
notify. -/
def dropKey (c : QueryClient V) (variant : QueryStateVariant) (cacheKey : String) :
    QueryClient V × Nat :=
  let c := c.withdraw cacheKey
  let n := if (c.cache.lookup cacheKey).isSome then 1 else 0
  ((c.evict cacheKey).notifySubscribers cacheKey variant, n)

/-- Resets the matching queries; returns how many entries were removed. -/
def resetQueries (c : QueryClient V) (now : Instant) (filters : QueryFilters) :
    QueryClient V × Nat :=
  forEach (fun c m => c.dropKey .loading m.1) (c.matchingEntries now filters) c

/-- Removes the matching entries and aborts their fetches; returns how many were
removed. -/
def removeQueries (c : QueryClient V) (now : Instant) (filters : QueryFilters) :
    QueryClient V × Nat :=
  forEach (fun c m => c.dropKey .error m.1) (c.matchingEntries now filters) c

/-- Cancels the work in flight for a cache key and notifies loading, keeping the entry
marked stale. -/
def triggerRefetch (c : QueryClient V) (cacheKey : String) : QueryClient V :=
  ((c.withdraw cacheKey).markStale cacheKey).notifySubscribers cacheKey .loading

/-- Whether an invalidation refetches the query of the snapshot. -/
def shouldRefetch (refetchType : RefetchType) (snapshot : QuerySnapshot) : Bool :=
  match refetchType with
  | .all => true
  | .active => snapshot.isActive
  | .inactive => !snapshot.isActive
  | .none => false

/-- Invalidates the matching queries: all are marked stale, and those of the refetch
type have their refetch triggered.  Returns the number of matches. -/
def invalidateQueriesFiltered (c : QueryClient V) (now : Instant)
    (filters : InvalidateQueryFilters) : QueryClient V × Nat :=
  let matched := c.matchingEntries now filters.filters
  let c := (forEach (uncounted fun c m => c.markStale m.1) matched c).1
  let refetched := matched.filter fun m => shouldRefetch filters.refetchType m.2
  let c := (forEach (uncounted fun c m => c.triggerRefetch m.1) refetched c).1
  (c, matched.length)

/-- The loop body of `refetch_queries`: disabled queries and static queries with fresh
data are skipped, and a fetch in flight is aborted first when it is to be cancelled. -/
def refetchKey (c : QueryClient V) (cancelRefetch isStale : Bool) (cacheKey : String) :
    QueryClient V × Nat :=
  match c.cache.lookup cacheKey with
  | none => (c, 0)
  | some entry =>
    let staticFresh := entry.options.staleTimeStatic && !isStale
    if !entry.options.isEnabled || staticFresh then (c, 0)
    else
      let c := if cancelRefetch then c.withdraw cacheKey else c
      ((c.markStale cacheKey).notifySubscribers cacheKey .loading, 1)

/-- Triggers refetches for the matching queries; returns how many. -/
def refetchQueries (c : QueryClient V) (now : Instant) (filters : QueryFilters)
    (opts : RefetchQueryFilters) : QueryClient V × Nat :=
  forEach (fun c m => c.refetchKey opts.cancelRefetch m.2.isStale m.1)
    (c.matchingEntries now filters) c

/-- Number of matching queries with a fetch in flight. -/
def isFetchingFiltered (c : QueryClient V) (now : Instant) (filters : QueryFilters) : Nat :=
  ((c.matchingEntries now filters).filter fun m => (c.inFlight.lookup m.1).isSome).length

/-- The loop body of `refetch_all_stale` and `handle_reconnect`: an entry the trigger
allows is marked stale and its subscribers are told. -/
def refreshKey (c : QueryClient V) (allows : CacheEntry V → Bool) (cacheKey : String) :
    QueryClient V :=
  match c.cache.lookup cacheKey with
  | some entry =>
    if allows entry then (c.markStale cacheKey).notifySubscribers cacheKey .stale else c
  | none => c

/-- Whether window focus refetches an entry. -/
def allowsOnFocus (now : Instant) (entry : CacheEntry V) : Bool :=
  let isStale := entryIsStale now entry
  isStale && entry.options.refetchOnWindowFocus.allowsRefetch isStale

/-- Triggers the refetch of all stale queries, on window focus. -/
def refetchAllStale (c : QueryClient V) (now : Instant) : QueryClient V :=
  (forEach (uncounted fun c key => c.refreshKey (allowsOnFocus now) key) c.cache.keys c).1

/-- Whether a reconnection refetches an entry. -/
def allowsOnReconnect (now : Instant) (entry : CacheEntry V) : Bool :=
  entry.options.refetchOnReconnect.allowsRefetch (entryIsStale now entry)

/-- The refetch pass run when connectivity is restored. -/
def handleReconnect (c : QueryClient V) (now : Instant) : QueryClient V :=
  (forEach (uncounted fun c key => c.refreshKey (allowsOnReconnect now) key) c.cache.keys c).1

/-! ### Flags and counters -/

/-- Replaces the client-wide default options. -/
def setDefaultOptions (c : QueryClient V) (options : QueryOptions) : QueryClient V :=
  { c with defaultOptions := some options }

/-- Toggles the restore flag. -/
def setIsRestoring (c : QueryClient V) (restoring : Bool) : QueryClient V :=
  { c with isRestoring := restoring }

/-- `online_manager().set_online`. -/
def setOnline (c : QueryClient V) (online : Bool) : QueryClient V :=
  let (manager, wakers) := c.online.setOnline online
  wake { c with online := manager } wakers

def sendActivity (c : QueryClient V) (event : ActivityEvent) : QueryClient V :=
  let (tx, wakers) := Bus.send c.activityTx event
  wake { c with activityTx := tx } wakers

def incFetching (c : QueryClient V) : QueryClient V :=
  let new := c.fetchingCount + 1
  sendActivity { c with fetchingCount := new } (.fetchingCountChanged new)

def decFetching (c : QueryClient V) : QueryClient V :=
  let new := c.fetchingCount - 1
  sendActivity { c with fetchingCount := new } (.fetchingCountChanged new)

def incMutating (c : QueryClient V) : QueryClient V :=
  let new := c.mutatingCount + 1
  sendActivity { c with mutatingCount := new } (.mutatingCountChanged new)

def decMutating (c : QueryClient V) : QueryClient V :=
  let new := c.mutatingCount - 1
  sendActivity { c with mutatingCount := new } (.mutatingCountChanged new)

end QueryClient

end RsQuery
