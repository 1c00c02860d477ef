import RsQuery.Lib.Machine
import RsQuery.Slots

/-!
# Executions of queries

A run is one execution of `execute_query_inner`: the body of a task spawned by
`spawn_query`, which skips the dedup check, or an `execute_query` call awaited by its
caller.  A run advances from one access to the client to the next, so the steps of
several runs interleave at that granularity; calls made on the client by other threads
are steps of their own, and `spawn_query` takes two, the spawning of the task and its
registration.

What is outside the source is left open: the outcome of the fetch function and when it
is ready, when a sleep ends or a waiting task is polled again, and whether a fetch that
is being polled while its token is cancelled still finishes.  The token of a run and the
task it runs in have the number of the run.
-/

namespace RsQuery

/-- Definition of a query, without its fetch function. -/
structure Query (V : Type) [PartialEqAny V] where
  key : QueryKey
  typeId : TypeId
  select : Option (V → V)
  options : QueryOptions
  select_typeOf : ∀ f ∈ select, ∀ v, typeOf v = typeId → typeOf (f v) = typeId

/-- Where an execution stands in `wait_for_dedup`; `rx` is its receiver. -/
inductive WaitPc (V : Type) where
  /-- Subscribes. -/
  | subscribe
  /-- Reads the cache after subscribing. -/
  | recheck (rx : Nat)
  /-- Reads the staleness of the data found. -/
  | judge (rx : Nat) (data : V)
  /-- Polls `recv`. -/
  | receive (rx : Nat)
  /-- Suspended in `recv`. -/
  | parked (rx : Nat)
  /-- Received an update of this kind and reads the cache. -/
  | received (rx : Nat) (variant : QueryStateVariant)

/-- After an update: loading and refetching are not waited for. -/
def WaitPc.onUpdate {V : Type} (rx : Nat) (variant : QueryStateVariant) : WaitPc V :=
  match variant with
  | .success | .stale | .error => .received rx variant
  | .idle | .loading | .refetching => .receive rx

/-- Where an execution that fetches stands; `n` counts the attempts before this one. -/
inductive FetchPc (V : Type) where
  /-- Notifies that it is loading. -/
  | loading
  /-- Checks connectivity. -/
  | gate
  /-- Checks the token at the head of the loop. -/
  | attempt (n : Nat)
  /-- Checks the token in `cancellable_fetch`. -/
  | call (n : Nat)
  /-- Polls the fetch. -/
  | fetching (n : Nat)
  /-- Suspended in the fetch. -/
  | fetchPending (n : Nat)
  /-- Applies the select function to fetched data. -/
  | fetched (data : V)
  /-- Stores the data. -/
  | selected (data : V)
  /-- Notifies that the data is stored. -/
  | stored
  /-- Reads the data back. -/
  | readBack
  /-- The attempt failed. -/
  | failed (n : Nat) (error : QueryError)
  /-- Checks token and connectivity in `wait_for_online`. -/
  | waiting (n : Nat)
  /-- Suspended in `wait_for_online`. -/
  | waitPending (n : Nat)
  /-- Checks the token after `wait_for_online`. -/
  | waited (n : Nat)
  /-- Suspended in the backoff sleep. -/
  | sleeping (n : Nat)
  /-- Notifies that the fetch failed. -/
  | notifyError (error : QueryError)
  /-- Reads the stale data that goes with an error. -/
  | failing (error : QueryError)

/-- Where an execution stands: what it does when it advances. -/
inductive Pc (V : Type) where
  /-- Spawned and not polled yet. -/
  | queued
  /-- Reads the restore flag. -/
  | start
  /-- Checks for a fetch in flight. -/
  | dedup
  | waitForDedup (pc : WaitPc V)
  | fetch (pc : FetchPc V)
  /-- Has its result; a task deregisters. -/
  | finish (result : QueryState V)
  /-- A task sends its result and is over. -/
  | reply (result : QueryState V)
  | done (result : QueryState V)
  /-- The future was dropped, by an abort, by its owner or by a panic. -/
  | dropped

/-- What a panic carries. -/
inductive PanicPayload where
  | str (message : String)
  | string (message : String)
  /-- A box, itself taken for the payload. -/
  | boxed (payload : PanicPayload)
  | other

/-- Extracts a readable message from a panic payload, a string or not. -/
def panicMessage : PanicPayload → String
  | .str message | .string message => "fetch panicked: " ++ message
  | .boxed _ | .other => "fetch panicked"

/-- What an advance depends on besides the client: how a poll of the fetch ends, and
whether user code panics. -/
inductive Outcome (V : Type) where
  | next
  | pending
  | ready (result : Except QueryError V)
  | cancelled
  | panic (payload : PanicPayload)

/-- One execution of a query. -/
structure Run (V : Type) [PartialEqAny V] where
  query : Query V
  /-- It is the body of a spawned task, not a call awaited directly. -/
  spawned : Bool
  /-- The `spawn_query` call that made it has returned. -/
  returned : Bool
  /-- Its handle was detached. -/
  detached : Bool
  pc : Pc V

namespace Run

variable {V : Type} [PartialEqAny V]

/-- Whether a failure is retried. -/
def shouldRetry (r : Run V) (error : QueryError) (attempt : Nat) : Bool :=
  decide (attempt < r.query.options.retry.maxRetries) &&
    match error with
    | .network _ | .timeout _ => true
    | _ => false

/-- Cached data of the type of the query. -/
def cached (r : Run V) (c : QueryClient V) : Option V :=
  c.getQueryData r.query.key r.query.typeId

/-- Drops the receiver of the run. -/
def dropReceiver (r : Run V) (c : QueryClient V) (rx : Nat) : QueryClient V :=
  { c with
      subscribers :=
        Table.adjust r.query.key.cacheKey (fun sender => Bus.dropReceiver sender rx) c.subscribers }

/-- A panic: a task turns it into an error state, a direct call is unwound. -/
def panicked (r : Run V) (payload : PanicPayload) : Pc V :=
  -- The message is read off the box that `catch_unwind` returns, not off what it holds.
  if r.spawned then .fetch (.failing (.custom (panicMessage (.boxed payload)))) else .dropped

/-- Resumes a fetch from a suspension, where an aborted task is dropped instead. -/
def resume (r : Run V) (i : Nat) (c : QueryClient V) (pc : Pc V) : QueryClient V × Pc V :=
  if r.spawned ∧ i ∈ c.signals.aborted then (c.decFetching, .dropped) else (c, pc)

/-- Leaves `wait_for_dedup` with a result. -/
def leave (r : Run V) (c : QueryClient V) (rx : Nat) (result : QueryState V) :
    QueryClient V × Pc V :=
  (r.dropReceiver c rx, .finish result)

/-- One poll of `recv` on the channel of the key. -/
def recvPoll (r : Run V) (i : Nat) (c : QueryClient V) (rx : Nat) : QueryClient V × Pc V :=
  match c.subscribers.lookup r.query.key.cacheKey with
  | none => (c, .finish .loading)
  | some sender =>
    let (sender, poll) := Bus.recvPoll sender rx i
    let c := { c with subscribers := c.subscribers.insert r.query.key.cacheKey sender }
    match poll with
    | none => (c, .waitForDedup (.parked rx))
    | some (.ok update) => (c, .waitForDedup (.onUpdate rx update.stateVariant))
    | some (.error _) => r.leave c rx .loading

/-- One step in `wait_for_dedup`. -/
def advanceWait (r : Run V) (i : Nat) (now : Instant) (c : QueryClient V) :
    WaitPc V → QueryClient V × Pc V
  | .subscribe =>
    let (c, rx) := c.subscribe r.query.key.cacheKey
    (c, .waitForDedup (.recheck rx))
  | .recheck rx =>
    match r.cached c with
    | some data => (c, .waitForDedup (.judge rx data))
    | none => (c, .waitForDedup (.receive rx))
  | .judge rx data =>
    r.leave c rx (if c.isStale now r.query.key then .stale data else .success data)
  | .receive rx => r.recvPoll i c rx
  | .parked rx => (c, .waitForDedup (.receive rx))
  | .received rx variant =>
    match variant, r.cached c with
    | .success, some data => r.leave c rx (.success data)
    | .stale, some data => r.leave c rx (.stale data)
    | .error, data => r.leave c rx (.error (.custom "Deduplicated request failed") data)
    | _, _ => (c, .waitForDedup (.receive rx))

/-- One step of a fetch; `cancelled` says whether its token is. -/
def advanceFetch (r : Run V) (i : Nat) (now : Instant) (c : QueryClient V) (cancelled : Bool) :
    FetchPc V → Outcome V → Option (QueryClient V × Pc V)
  | .loading, .next =>
    some (c.notifySubscribers r.query.key.cacheKey .loading, .fetch .gate)
  | .gate, .next =>
    if canFetch r.query.options.networkMode c.online.isOnline then
      some (c, .fetch (.attempt 0))
    else some (c, .fetch (.failing .paused))
  | .attempt n, .next =>
    if cancelled then some (c, .fetch (.failing (.cancelled false false)))
    else some (c, .fetch (.call n))
  | .call n, .next =>
    if cancelled then some (c, .fetch (.failed n (.cancelled false false)))
    else some (c, .fetch (.fetching n))
  | .fetching n, .pending => some (c, .fetch (.fetchPending n))
  | .fetching _, .ready (.ok data) =>
    if typeOf data = r.query.typeId then some (c, .fetch (.fetched data)) else none
  | .fetching n, .ready (.error error) => some (c, .fetch (.failed n error))
  | .fetching n, .cancelled =>
    if cancelled then some (c, .fetch (.failed n (.cancelled false false))) else none
  | .fetching _, .panic payload => some (c, r.panicked payload)
  | .fetchPending n, .next => some (r.resume i c (.fetch (.fetching n)))
  | .fetched data, .next =>
    match r.query.select with
    | some select => some (c, .fetch (.selected (select data)))
    | none => some (c, .fetch (.selected data))
  | .fetched _, .panic payload =>
    if r.query.select.isSome then some (c, r.panicked payload) else none
  | .selected data, .next =>
    some (c.storeQueryData now r.query.key data r.query.options, .fetch .stored)
  | .stored, .next =>
    some (c.notifySubscribers r.query.key.cacheKey .success, .fetch .readBack)
  | .readBack, .next =>
    match r.cached c with
    | some data => some (c, .finish (.success data))
    | none => some (c, r.panicked (.string "data should be set"))
  | .failed n error, .next =>
    if error.isCancelled then some (c, .fetch (.failing (.cancelled false false)))
    else if r.shouldRetry error n then
      if canRetry r.query.options.networkMode c.online.isOnline then
        some (c, .fetch (.sleeping n))
      else some (c, .fetch (.waiting n))
    else some (c, .fetch (.notifyError error))
  | .waiting n, .next =>
    if cancelled || canRetry r.query.options.networkMode c.online.isOnline then
      some (c, .fetch (.waited n))
    else some (c, .fetch (.waitPending n))
  | .waitPending n, .next => some (r.resume i c (.fetch (.waiting n)))
  | .waited n, .next =>
    if cancelled then some (c, .fetch (.failing (.cancelled false false)))
    else some (c, .fetch (.sleeping n))
  | .sleeping n, .next => some (r.resume i c (.fetch (.attempt (n + 1))))
  | .notifyError error, .next =>
    some (c.notifySubscribers r.query.key.cacheKey .error, .fetch (.failing error))
  | .failing error, .next => some (c, .finish (.error error (r.cached c)))
  | _, _ => none

/-- One step of run `i`, the token of which is `i`. -/
def advance (r : Run V) (i : Nat) (now : Instant) (c : QueryClient V) (o : Outcome V) :
    Option (QueryClient V × Pc V) :=
  match r.pc, o with
  | .queued, .next => some (r.resume i c .start)
  | .start, .next =>
    if c.isRestoring then some (c, .finish .idle)
    else if r.spawned then some (c, .fetch .loading)
    else some (c, .dedup)
  | .dedup, .next =>
    if c.isInFlight r.query.key then some (c, .waitForDedup .subscribe)
    else some (c, .fetch .loading)
  | .waitForDedup pc, .next => some (r.advanceWait i now c pc)
  | .fetch pc, o => r.advanceFetch i now c (decide (i ∈ c.signals.cancelled)) pc o
  | .finish result, .next =>
    if r.spawned then some (c.clearInFlight r.query.key, .reply result)
    else some (c, .done result)
  | .reply result, .next => some (c.decFetching, .done result)
  | _, _ => none

/-- The client after the future of a direct call is dropped where it is suspended. -/
def dropFuture (r : Run V) (c : QueryClient V) : Option (QueryClient V) :=
  match r.pc with
  | .waitForDedup (.parked rx) => some (r.dropReceiver c rx)
  | .fetch (.fetchPending _) | .fetch (.waitPending _) | .fetch (.sleeping _) => some c
  | _ => none

end Run

/-- A call made on the client by some thread. -/
inductive Call (V : Type) where
  | setQueryData (key : QueryKey) (data : V) (options : QueryOptions)
  | invalidateQueries (pattern : QueryKey)
  | cancelQuery (key : QueryKey)
  | clear
  | gc
  | cancelQueries (filters : QueryFilters)
  | resetQueries (filters : QueryFilters)
  | removeQueries (filters : QueryFilters)
  | invalidateQueriesFiltered (filters : InvalidateQueryFilters)
  | refetchQueries (filters : QueryFilters) (opts : RefetchQueryFilters)
  | refetchAllStale
  | handleReconnect
  | setDefaultOptions (options : QueryOptions)
  | setIsRestoring (restoring : Bool)
  | setOnline (online : Bool)
  | subscribe (cacheKey : String)
  | notifySubscribers (cacheKey : String) (variant : QueryStateVariant)

/-- The client after a call. -/
def Call.apply {V : Type} [PartialEqAny V] (call : Call V) (now : Instant) (c : QueryClient V) :
    QueryClient V :=
  match call with
  | .setQueryData key data options => c.setQueryData now key data options
  | .invalidateQueries pattern => c.invalidateQueries pattern
  | .cancelQuery key => c.cancelQuery key
  | .clear => c.clear
  | .gc => c.gc now
  | .cancelQueries filters => (c.cancelQueries now filters).1
  | .resetQueries filters => (c.resetQueries now filters).1
  | .removeQueries filters => (c.removeQueries now filters).1
  | .invalidateQueriesFiltered filters => (c.invalidateQueriesFiltered now filters).1
  | .refetchQueries filters opts => (c.refetchQueries now filters opts).1
  | .refetchAllStale => c.refetchAllStale now
  | .handleReconnect => c.handleReconnect now
  | .setDefaultOptions options => c.setDefaultOptions options
  | .setIsRestoring restoring => c.setIsRestoring restoring
  | .setOnline online => c.setOnline online
  | .subscribe cacheKey => (c.subscribe cacheKey).1
  | .notifySubscribers cacheKey variant => c.notifySubscribers cacheKey variant

/-- A client with its executions. -/
structure Sys (V : Type) [PartialEqAny V] where
  client : QueryClient V
  now : Instant
  runs : Table Nat (Run V)
  nextRun : Nat
  /-- The most recently registered fetch of each cache key. -/
  latest : Table String Nat

/-- A step of the system. -/
inductive Action (V : Type) [PartialEqAny V] where
  /-- `spawn_query` up to the spawning of the task. -/
  | spawn (query : Query V)
  /-- The rest of `spawn_query`: the task is registered. -/
  | register (i : Nat)
  /-- A call of `execute_query`, with a token of its own. -/
  | execute (query : Query V)
  | advance (i : Nat) (o : Outcome V)
  /-- `SpawnedTask::abort`. -/
  | abort (i : Nat)
  /-- `SpawnedTask::detach`, and what a poll of the handle does first. -/
  | detach (i : Nat)
  /-- The handle is dropped. -/
  | drop (i : Nat)
  /-- The future of a direct call is dropped. -/
  | dropFuture (i : Nat)
  /-- The caller of a direct call cancels its token. -/
  | cancelToken (i : Nat)
  | call (call : Call V)
  | tick (n : Nat)

namespace Sys

variable {V : Type} [PartialEqAny V]

/-- No run, and a new client. -/
def initial : Sys V :=
  ⟨.new, 0, ∅, 0, ∅⟩

/-- The system with one run replaced. -/
def setRun (s : Sys V) (i : Nat) (r : Run V) : Sys V :=
  { s with runs := s.runs.insert i r }

/-- Aborts the task of a run. -/
def abortTask (s : Sys V) (i : Nat) : Sys V :=
  { s with client.signals.aborted := insert i s.client.signals.aborted }

/-- The system after a new run. -/
def newRun (s : Sys V) (r : Run V) : Sys V :=
  { s.setRun s.nextRun r with nextRun := s.nextRun + 1 }

/-- `spawn_query` up to the spawning of the task; while restoring, the task only replies
and the call is over. -/
def spawn (s : Sys V) (query : Query V) : Sys V :=
  if s.client.isRestoring then s.newRun ⟨query, true, true, false, .done .idle⟩
  else { s with client := s.client.incFetching }.newRun ⟨query, true, false, false, .queued⟩

/-- The state after an action, if it is enabled. -/
def step (s : Sys V) : Action V → Option (Sys V)
  | .spawn query => some (s.spawn query)
  | .register i => do
    let r ← s.runs.lookup i
    if r.spawned ∧ ¬ r.returned then
      let s := s.setRun i { r with returned := true }
      some { s with
        client := s.client.setInFlight r.query.key ⟨i, i⟩
        latest := s.latest.insert r.query.key.cacheKey i }
    else none
  | .execute query => some (s.newRun ⟨query, false, true, false, .start⟩)
  | .advance i o => do
    let r ← s.runs.lookup i
    let (c, pc) ← r.advance i s.now s.client o
    some { s.setRun i { r with pc := pc } with client := c }
  | .abort i => do
    let r ← s.runs.lookup i
    if r.spawned ∧ r.returned then some (s.abortTask i) else none
  | .detach i => do
    let r ← s.runs.lookup i
    if r.spawned ∧ r.returned then some (s.setRun i { r with detached := true }) else none
  | .drop i => do
    let r ← s.runs.lookup i
    if r.spawned ∧ r.returned then some (if r.detached then s else s.abortTask i) else none
  | .dropFuture i => do
    let r ← s.runs.lookup i
    if r.spawned then none
    else
      let c ← r.dropFuture s.client
      some { s.setRun i { r with pc := .dropped } with client := c }
  | .cancelToken i => do
    let r ← s.runs.lookup i
    if r.spawned then none
    else
      some { s with client.signals.cancelled := insert i s.client.signals.cancelled }
  | .call call => some { s with client := call.apply s.now s.client }
  | .tick n => some { s with now := s.now + n }

/-- A new client with no run, and every step. -/
def machine : Machine (Sys V) (Action V) :=
  ⟨fun s => s = initial, step⟩

/-- A query for `"k"` that is fetched once. -/
def queryK : Query (String ⊕ Nat) :=
  ⟨.new "k", 0, none, { retry := { maxRetries := 0 } }, nofun⟩

end Sys

end RsQuery
