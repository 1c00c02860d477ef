import RsQuery.Key
import RsQuery.State

/-!
# The mutation cache

The cache of mutation entries with its scopes, its event bus and the release cells of the
scopes.  A method of the cache that takes several locks in turn, or one lock several
times, is given here by what it does under each: every function of this file is the
effect of one such section.
-/

namespace RsQuery

/-- Identifies a mutation scope; mutations sharing an id run in serial. -/
structure MutationScope where
  id : String
deriving DecidableEq, Repr

/-- Aggregate status of a mutation. -/
inductive MutationStatus where
  | idle
  | pending
  | success
  | error
deriving DecidableEq, Repr

/-- Snapshot of a submitted mutation. -/
structure MutationCacheEntry where
  id : Nat
  mutationKey : Option QueryKey
  scope : Option MutationScope
  status : MutationStatus
  isPaused : Bool
  submittedAtMs : Option Nat
  hasResult : Bool
  error : Option QueryError
  hasContext : Bool

/-- Lifecycle event broadcast by the cache. -/
inductive MutationCacheEvent where
  | added (id : Nat)
  | removed (id : Nat)
  | updated (id : Nat)
  /-- The next queued mutation of a scope may run. -/
  | scopeResumed (scope : String)
  | cleared
deriving DecidableEq, Repr

/-- Who is running in a scope and who waits. -/
structure ScopeState where
  running : Bool := false
  queue : List Nat := []
deriving DecidableEq, Repr

/-- Cache of mutation entries. -/
structure MutationCache where
  entries : List MutationCacheEntry
  scopes : Table String ScopeState
  nextId : Nat
  tx : Bus.Shared MutationCacheEvent
  scopeRelease : Table String (Watch.Shared Unit)

/-- Broadcast capacity of the events. -/
def eventCapacity : Nat := 256

namespace MutationCache

/-- An empty cache, whose first event receiver is dropped. -/
def new : MutationCache :=
  let (tx, rx) := Bus.channel eventCapacity
  ⟨[], ∅, 0, Bus.dropReceiver tx rx, ∅⟩

/-- Broadcasts an event. -/
def send (c : MutationCache) (event : MutationCacheEvent) : MutationCache :=
  { c with tx := (Bus.send c.tx event).1 }

/-- The state of a scope, the default one if there is none. -/
def scopeState (c : MutationCache) (scope : String) : ScopeState :=
  (c.scopes.lookup scope).getD {}

/-- The cache with the state of one scope replaced. -/
def setScope (c : MutationCache) (scope : String) (state : ScopeState) : MutationCache :=
  { c with scopes := c.scopes.insert scope state }

theorem scopeState_setScope (c : MutationCache) (scope scope' : String) (state : ScopeState) :
  (c.setScope scope state).scopeState scope' =
    if scope' = scope then state else c.scopeState scope'
  := by
  simp only [setScope, scopeState, Table.lookup_insert_eq]
  split
  · rfl
  · rfl

/-! ### `add_with_hook` -/

/-- Assigns the next id. -/
def assignId (c : MutationCache) : MutationCache × Nat :=
  ({ c with nextId := c.nextId + 1 }, c.nextId + 1)

/-- Enters a scope: behind a running mutation, the entry is paused and queued. -/
def joinScope (c : MutationCache) (scope : String) (entry : MutationCacheEntry) :
    MutationCache × MutationCacheEntry :=
  let state := c.scopeState scope
  if state.running then
    (c.setScope scope { state with queue := state.queue ++ [entry.id] },
      { entry with isPaused := true })
  else
    (c.setScope scope state, entry)

/-- Inserts the entry. -/
def pushEntry (c : MutationCache) (entry : MutationCacheEntry) : MutationCache :=
  { c with entries := c.entries ++ [entry] }

/-! ### `update`, `remove`, `clear` and reads -/

/-- Applies `apply` to the first of the entries that has the id. -/
def applyTo (id : Nat) (apply : MutationCacheEntry → MutationCacheEntry) :
    List MutationCacheEntry → List MutationCacheEntry
  | [] => []
  | entry :: entries =>
    if entry.id = id then apply entry :: entries else entry :: applyTo id apply entries

/-- Applies `apply` to the entry with the given id, and says whether there is one. -/
def updateEntry (c : MutationCache) (id : Nat) (apply : MutationCacheEntry → MutationCacheEntry) :
    MutationCache × Bool :=
  ({ c with entries := applyTo id apply c.entries }, c.entries.any fun entry => entry.id = id)

/-- Removes the entry with the given id, and gives its scope if there is one. -/
def removeEntry (c : MutationCache) (id : Nat) : MutationCache × Option (Option String) :=
  ({ c with entries := c.entries.eraseP fun entry => entry.id = id },
    (c.entries.find? fun entry => entry.id = id).map fun entry => entry.scope.map (·.id))

/-- Splices an id out of the queue of a scope. -/
def spliceScope (c : MutationCache) (scope : String) (id : Nat) : MutationCache :=
  { c with
      scopes := Table.adjust scope
        (fun state => { state with queue := state.queue.filter (· ≠ id) }) c.scopes }

/-- Removes every entry and gives their ids. -/
def takeEntries (c : MutationCache) : MutationCache × List Nat :=
  ({ c with entries := [] }, c.entries.map (·.id))

/-- Removes every scope. -/
def clearScopes (c : MutationCache) : MutationCache :=
  { c with scopes := ∅ }

/-- Snapshot of the entry with the given id, if present. -/
def get (c : MutationCache) (id : Nat) : Option MutationCacheEntry :=
  c.entries.find? fun entry => entry.id = id

/-! ### Scopes -/

/-- Whether a mutation may start in `scope` right now. -/
def canRun (c : MutationCache) (scope : String) : Bool :=
  !(c.scopes.lookup scope).any (·.running)

/-- Marks `scope` as occupied. -/
def markRunning (c : MutationCache) (scope : String) : MutationCache :=
  c.setScope scope { c.scopeState scope with running := true }

/-- `mark_finished` before it notifies: the scope is not running any more, and is removed
when nothing is queued. -/
def markFinished (c : MutationCache) (scope : String) : MutationCache :=
  match c.scopes.lookup scope with
  | some state =>
    if state.queue.isEmpty then { c with scopes := c.scopes.erase scope }
    else c.setScope scope { state with running := false }
  | none => c

/-- A watcher of the releases of `scope`, on its cell, which is made for the first one. -/
def subscribeScope (c : MutationCache) (scope : String) : MutationCache × Watch.Watcher :=
  let cell := (c.scopeRelease.lookup scope).getD (Watch.new ()).1
  let (cell, watcher) := Watch.subscribe cell
  ({ c with scopeRelease := c.scopeRelease.insert scope cell }, watcher)

/-- Whether `notify_scope` finds a release cell. -/
def hasRelease (c : MutationCache) (scope : String) : Bool :=
  (c.scopeRelease.lookup scope).isSome

/-- `notify_scope` on the cell it found; the wakers taken are still to be woken. -/
def sendRelease (c : MutationCache) (scope : String) : MutationCache × List Waker :=
  match c.scopeRelease.lookup scope with
  | some cell =>
    let (cell, wakers) := Watch.send cell ()
    ({ c with scopeRelease := c.scopeRelease.insert scope cell }, wakers)
  | none => (c, [])

/-- One poll of `changed` on the release cell of `scope`. -/
def pollRelease (c : MutationCache) (scope : String) (watcher : Watch.Watcher) (waker : Waker) :
    Option (MutationCache × Watch.Watcher × Poll (Except Watch.ChangeError Unit)) :=
  (c.scopeRelease.lookup scope).map fun cell =>
    let (cell, watcher, poll) := Watch.changedPoll cell watcher waker
    ({ c with scopeRelease := c.scopeRelease.insert scope cell }, watcher, poll)

/-- `run_next` before it notifies: the id at the head of the queue is taken. -/
def popNext (c : MutationCache) (scope : String) : MutationCache × Option Nat :=
  match c.scopes.lookup scope with
  | some state =>
    (c.setScope scope { state with queue := state.queue.tail }, state.queue.head?)
  | none => (c, none)

/-! ### What the sections do to a scope -/

theorem canRun_eq (c : MutationCache) (scope : String) :
  c.canRun scope = !(c.scopeState scope).running
  := by
  unfold canRun scopeState
  cases c.scopes.lookup scope with
  | none => rfl
  | some state => rfl

theorem scopeState_joinScope
    (c : MutationCache) (scope scope' : String) (entry : MutationCacheEntry) :
  (c.joinScope scope entry).1.scopeState scope' =
    if scope' = scope ∧ (c.scopeState scope).running then
      { running := true, queue := (c.scopeState scope).queue ++ [entry.id] }
    else c.scopeState scope'
  := by
  unfold joinScope
  cases h : (c.scopeState scope).running with
  | true => simp [h, scopeState_setScope]
  | false =>
    simp only [h, Bool.false_eq_true, ↓reduceIte, scopeState_setScope, and_false,
      ite_eq_right_iff]
    rintro rfl
    rfl

theorem scopeState_spliceScope (c : MutationCache) (scope scope' : String) (id : Nat) :
  (c.spliceScope scope id).scopeState scope' =
    if scope' = scope then
      { c.scopeState scope with queue := (c.scopeState scope).queue.filter (· ≠ id) }
    else c.scopeState scope'
  := by
  simp only [spliceScope, scopeState, Table.lookup_adjust]
  split
  · next h =>
    rw [h]
    cases c.scopes.lookup scope with
    | none => rfl
    | some state => rfl
  · rfl

theorem scopeState_markRunning (c : MutationCache) (scope scope' : String) :
  (c.markRunning scope).scopeState scope' =
    if scope' = scope then { c.scopeState scope with running := true } else c.scopeState scope'
  := by
  apply scopeState_setScope

theorem scopeState_markFinished (c : MutationCache) (scope scope' : String) :
  (c.markFinished scope).scopeState scope' =
    if scope' = scope then { c.scopeState scope with running := false } else c.scopeState scope'
  := by
  unfold markFinished
  cases h : c.scopes.lookup scope with
  | none =>
    dsimp only
    split
    · next h' =>
      rw [h']
      simp [scopeState, h]
    · rfl
  | some state =>
    obtain ⟨running, queue⟩ := state
    have hstate : c.scopeState scope = ⟨running, queue⟩ := by simp [scopeState, h]
    rw [hstate]
    cases queue with
    | nil =>
      simp only [scopeState, List.isEmpty_nil, ↓reduceIte, Table.lookup_erase_eq]
      split
      · rfl
      · rfl
    | cons id queue => apply scopeState_setScope

theorem scopeState_popNext (c : MutationCache) (scope scope' : String) :
  (c.popNext scope).1.scopeState scope' =
    if scope' = scope then
      { c.scopeState scope with queue := (c.scopeState scope).queue.tail }
    else c.scopeState scope'
  := by
  unfold popNext
  cases h : c.scopes.lookup scope with
  | none =>
    dsimp only
    split
    · next h' =>
      rw [h']
      simp [scopeState, h]
    · rfl
  | some state =>
    have hstate : c.scopeState scope = state := by simp [scopeState, h]
    rw [hstate]
    apply scopeState_setScope

theorem popNext_snd (c : MutationCache) (scope : String) :
  (c.popNext scope).2 = (c.scopeState scope).queue.head?
  := by
  unfold popNext scopeState
  cases c.scopes.lookup scope with
  | none => rfl
  | some state => rfl

theorem canRun_joinScope (c : MutationCache) (scope scope' : String) (entry : MutationCacheEntry) :
  (c.joinScope scope' entry).1.canRun scope = c.canRun scope
  := by
  rw [canRun_eq, canRun_eq, scopeState_joinScope]
  split
  · next h => rw [h.1, h.2]
  · rfl

theorem canRun_spliceScope (c : MutationCache) (scope scope' : String) (id : Nat) :
  (c.spliceScope scope' id).canRun scope = c.canRun scope
  := by
  rw [canRun_eq, canRun_eq, scopeState_spliceScope]
  split
  · next h => rw [h]
  · rfl

theorem canRun_popNext (c : MutationCache) (scope scope' : String) :
  (c.popNext scope').1.canRun scope = c.canRun scope
  := by
  rw [canRun_eq, canRun_eq, scopeState_popNext]
  split
  · next h => rw [h]
  · rfl

theorem canRun_markRunning (c : MutationCache) (scope scope' : String) :
  (c.markRunning scope').canRun scope = if scope = scope' then false else c.canRun scope
  := by
  rw [canRun_eq, canRun_eq, scopeState_markRunning]
  split
  · rfl
  · rfl

theorem canRun_markFinished (c : MutationCache) (scope scope' : String) :
  (c.markFinished scope').canRun scope = if scope = scope' then true else c.canRun scope
  := by
  rw [canRun_eq, canRun_eq, scopeState_markFinished]
  split
  · rfl
  · rfl

theorem scopeRelease_joinScope (c : MutationCache) (scope : String) (entry : MutationCacheEntry) :
  (c.joinScope scope entry).1.scopeRelease = c.scopeRelease
  := by
  unfold joinScope
  dsimp only
  split
  · rfl
  · rfl

theorem scopeRelease_markFinished (c : MutationCache) (scope : String) :
  (c.markFinished scope).scopeRelease = c.scopeRelease
  := by
  unfold markFinished
  split
  · split
    · rfl
    · rfl
  · rfl

theorem scopeRelease_popNext (c : MutationCache) (scope : String) :
  (c.popNext scope).1.scopeRelease = c.scopeRelease
  := by
  unfold popNext
  split
  · rfl
  · rfl

theorem sendRelease_lookup (c : MutationCache) (scope scope' : String) :
  (c.sendRelease scope').1.scopeRelease.lookup scope =
    if scope = scope' then (c.scopeRelease.lookup scope).map fun cell => (Watch.send cell ()).1
    else c.scopeRelease.lookup scope
  := by
  unfold sendRelease
  cases h : c.scopeRelease.lookup scope' with
  | none =>
    dsimp only
    split
    · next heq =>
      rw [heq, h]
      rfl
    · rfl
  | some cell =>
    simp only [Table.lookup_insert_eq]
    split
    · next heq =>
      rw [heq, h]
      rfl
    · rfl

theorem scopes_sendRelease (c : MutationCache) (scope : String) :
  (c.sendRelease scope).1.scopes = c.scopes
  := by
  unfold sendRelease
  split
  · rfl
  · rfl

theorem canRun_sendRelease (c : MutationCache) (scope scope' : String) :
  (c.sendRelease scope').1.canRun scope = c.canRun scope
  := by
  rw [canRun, canRun, scopes_sendRelease]

/-- The wakers a send takes are those registered. -/
theorem mem_sendRelease {c : MutationCache} {scope : String} {w : Waker} :
  w ∈ (c.sendRelease scope).2 ↔
    ∃ cell ∈ c.scopeRelease.lookup scope, ∃ id, cell.waiters.lookup id = some w
  := by
  unfold sendRelease
  cases c.scopeRelease.lookup scope with
  | none => simp
  | some cell => simp [Watch.mem_send]

end MutationCache

end RsQuery
