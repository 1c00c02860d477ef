import Mathlib.Data.Finset.Basic
import RsQuery.Lib.Machine
import RsQuery.MutationCache

/-!
# Executions of mutations

The runs of `execute_mutation_full` on one mutation cache, and the calls of `add`,
`remove`, `clear` and `run_next` other threads make on it.  Both advance from one lock
section of the cache to the next, so their steps interleave at that granularity, and a
sender wakes the wakers it has taken one by one, in any order.

What is outside the source is left open: what `on_mutate` and the mutate function return
and when, when a sleep ends, when a parked task is polled again, and whether user code
panics or the future is dropped where it is suspended.  What a mutation does to the query
client is left out, as is the data it yields.
-/

namespace RsQuery

/-- Definition of a mutation, without its functions and callbacks. -/
structure Mutation where
  mutationKey : Option QueryKey := none
  scope : Option MutationScope := none
  retry : Nat := 0
  /-- It has an `on_mutate` hook. -/
  hasOnMutate : Bool := false

namespace Mutations

/-- What a mutation ends with, without its data. -/
abbrev Result := Except QueryError Unit

/-- Where `notify_scope` stands. -/
inductive NotifyPc where
  /-- Looks for the release cell. -/
  | lookup
  | send
  /-- Has these wakers to wake. -/
  | wake (wakers : List Waker)

/-- Where `add_with_hook` stands. -/
inductive AddPc where
  | assign (entry : MutationCacheEntry)
  | join (entry : MutationCacheEntry)
  | push (entry : MutationCacheEntry)
  | hook (id : Nat)
  | announce (id : Nat)

/-- Where `run_next` stands. -/
inductive RunNextPc where
  | pop
  /-- Sends `ScopeResumed`. -/
  | resumed
  | notify (pc : NotifyPc)

/-- Where an execution stands at the gate of its scope. -/
inductive GatePc where
  /-- Asks whether it can run. -/
  | check (watcher : Watch.Watcher)
  /-- Marks the scope as running. -/
  | mark
  /-- Polls `changed` on its watcher. -/
  | poll (watcher : Watch.Watcher)
  /-- Suspended in `changed`. -/
  | parked (watcher : Watch.Watcher)

/-- Where an execution stands that runs; `n` counts the retries, `rollback` says whether
there is one. -/
inductive BodyPc where
  /-- Reads whether its entry is paused. -/
  | readPaused
  | unpause
  /-- Sends `Updated` for it. -/
  | unpaused
  | onMutate
  /-- Records that there is a context. -/
  | keepContext
  /-- Sends `Updated` for it. -/
  | keptContext
  | mutateFn (n : Nat) (rollback : Bool)
  /-- Suspended in the retry delay. -/
  | sleeping (n : Nat) (rollback : Bool)
  | rollback (error : QueryError)
  /-- Updates its entry with the result. -/
  | settle (result : Result)
  /-- Sends `Updated` for it. -/
  | settled (result : Result)
  | callbacks (result : Result)

/-- Where an execution stands: what it does when it advances. -/
inductive Pc where
  /-- Not polled yet. -/
  | queued
  | add (pc : AddPc)
  | fireOnMutate
  /-- Subscribes to the releases of its scope. -/
  | subscribe
  | gate (pc : GatePc)
  | body (pc : BodyPc)
  | markFinished (result : Result)
  /-- In the notification of `mark_finished`. -/
  | notify (pc : NotifyPc) (result : Result)
  | runNext (pc : RunNextPc) (result : Result)
  | done (result : Result)
  /-- The future was dropped, by its owner or by a panic. -/
  | dropped

/-- What an advance depends on besides the cache: what user code returns. -/
inductive Outcome where
  | next
  | ready (result : Result)

/-- One execution of a mutation; its entry has the id `0` until one is assigned. -/
structure Exec where
  mutation : Mutation
  entryId : Nat
  pc : Pc

/-- Where a call of another thread stands. -/
inductive CallPc where
  | add (pc : AddPc)
  | remove (id : Nat)
  | splice (id : Nat) (scope : String)
  /-- Sends `Removed`. -/
  | removed (id : Nat)
  | clear
  | clearScopes (ids : List Nat)
  /-- Sends `Removed` for these ids, then `Cleared`. -/
  | cleared (ids : List Nat)
  | runNext (scope : String) (pc : RunNextPc)

/-! ### The parts of executions and calls -/

/-- The id of the entry that is added. -/
def AddPc.entryId : AddPc → Nat
  | .assign _ => 0
  | .join entry | .push entry => entry.id
  | .hook id | .announce id => id

def AddPc.advance (c : MutationCache) : AddPc → MutationCache × Option AddPc
  | .assign entry =>
    let (c, id) := c.assignId
    (c, some (.join { entry with id := id }))
  | .join entry =>
    match entry.scope with
    | some scope =>
      let (c, entry) := c.joinScope scope.id entry
      (c, some (.push entry))
    | none => (c, some (.push entry))
  | .push entry => (c.pushEntry entry, some (.hook entry.id))
  | .hook id => (c, some (.announce id))
  | .announce id => (c.send (.added id), none)

/-- The wakers a sender has still to wake. -/
def NotifyPc.hand : NotifyPc → List Waker
  | .wake wakers => wakers
  | _ => []

def NotifyPc.waken (w : Waker) : NotifyPc → NotifyPc
  | .wake wakers => .wake (wakers.erase w)
  | pc => pc

def NotifyPc.advance (scope : String) (c : MutationCache) :
    NotifyPc → Option (MutationCache × Option NotifyPc)
  | .lookup => some (c, if c.hasRelease scope then some .send else none)
  | .send =>
    let (c, wakers) := c.sendRelease scope
    some (c, some (.wake wakers))
  | .wake [] => some (c, none)
  | .wake (_ :: _) => none

def RunNextPc.hand : RunNextPc → List Waker
  | .notify pc => pc.hand
  | _ => []

def RunNextPc.waken (w : Waker) : RunNextPc → RunNextPc
  | .notify pc => .notify (pc.waken w)
  | pc => pc

def RunNextPc.advance (scope : String) (c : MutationCache) :
    RunNextPc → Option (MutationCache × Option RunNextPc)
  | .pop =>
    let (c, next) := c.popNext scope
    some (c, if next.isSome then some .resumed else none)
  | .resumed => some (c.send (.scopeResumed scope), some (.notify .lookup))
  | .notify pc => (pc.advance scope c).map fun (c, pc) => (c, pc.map .notify)

def CallPc.hand : CallPc → List Waker
  | .runNext _ pc => pc.hand
  | _ => []

def CallPc.waken (w : Waker) : CallPc → CallPc
  | .runNext scope pc => .runNext scope (pc.waken w)
  | pc => pc

def CallPc.advance (c : MutationCache) : CallPc → Option (MutationCache × Option CallPc)
  | .add pc =>
    let (c, pc) := pc.advance c
    some (c, pc.map .add)
  | .remove id =>
    match c.removeEntry id with
    | (c, some (some scope)) => some (c, some (.splice id scope))
    | (c, _) => some (c, some (.removed id))
  | .splice id scope => some (c.spliceScope scope id, some (.removed id))
  | .removed id => some (c.send (.removed id), none)
  | .clear =>
    let (c, ids) := c.takeEntries
    some (c, some (.clearScopes ids))
  | .clearScopes ids => some (c.clearScopes, some (.cleared ids))
  | .cleared (id :: ids) => some (c.send (.removed id), some (.cleared ids))
  | .cleared [] => some (c.send .cleared, none)
  | .runNext scope pc => (pc.advance scope c).map fun (c, pc) => (c, pc.map (.runNext scope))

/-! ### Executions -/

def Pc.hand : Pc → List Waker
  | .notify pc _ => pc.hand
  | .runNext pc _ => pc.hand
  | _ => []

def Pc.waken (w : Waker) : Pc → Pc
  | .notify pc result => .notify (pc.waken w) result
  | .runNext pc result => .runNext (pc.waken w) result
  | pc => pc

/-- User code runs or the future is suspended here, so it can be dropped here. -/
def Pc.interruptible : Pc → Bool
  | .queued | .add (.hook _) | .fireOnMutate | .gate (.parked _) => true
  | .body pc =>
    match pc with
    | .onMutate | .mutateFn .. | .sleeping .. | .rollback _ | .callbacks _ => true
    | _ => false
  | _ => false

namespace Exec

/-- The entry of a new execution. -/
def entry (e : Exec) (nowMs : Nat) : MutationCacheEntry where
  id := 0
  mutationKey := e.mutation.mutationKey
  scope := e.mutation.scope
  status := .pending
  isPaused := false
  submittedAtMs := some nowMs
  hasResult := false
  error := none
  hasContext := false

/-- One step at the gate. -/
def advanceGate (i : Nat) (scope : String) (c : MutationCache) :
    GatePc → Option (MutationCache × Pc)
  | .check watcher => some (c, .gate (if c.canRun scope then .mark else .poll watcher))
  | .mark => some (c.markRunning scope, .body .readPaused)
  | .poll watcher =>
    match c.pollRelease scope watcher i with
    | some (c, watcher, some _) => some (c, .gate (.check watcher))
    | some (c, watcher, none) => some (c, .gate (.parked watcher))
    | none => none
  | .parked _ => none

/-- What settling does to the entry. -/
def settled (result : Result) (entry : MutationCacheEntry) : MutationCacheEntry :=
  match result with
  | .ok _ =>
    { entry with status := .success, hasResult := true, error := none, isPaused := false }
  | .error error =>
    { entry with status := .error, error := some error, hasResult := false, isPaused := false }

/-- An update of the entry of the execution, after which `Updated` is sent if the entry
was found. -/
def update (e : Exec) (c : MutationCache) (apply : MutationCacheEntry → MutationCacheEntry)
    (found missing : BodyPc) : MutationCache × Pc :=
  let (c, isFound) := c.updateEntry e.entryId apply
  (c, .body (if isFound then found else missing))

/-- One step of an execution that runs. -/
def advanceBody (e : Exec) (c : MutationCache) : BodyPc → Outcome → Option (MutationCache × Pc)
  | .readPaused, .next =>
    let paused := (c.get e.entryId).any (·.isPaused)
    some (c, .body (if paused then .unpause else .onMutate))
  | .unpause, .next =>
    some (e.update c (fun entry => { entry with isPaused := false }) .unpaused .onMutate)
  | .unpaused, .next => some (c.send (.updated e.entryId), .body .onMutate)
  | .onMutate, .next => if e.mutation.hasOnMutate then none else some (c, .body (.mutateFn 0 false))
  | .onMutate, .ready result =>
    if e.mutation.hasOnMutate then
      match result with
      | .ok _ => some (c, .body .keepContext)
      | .error error => some (c, .body (.settle (.error error)))
    else none
  | .keepContext, .next =>
    some (e.update c (fun entry => { entry with hasContext := true }) .keptContext
      (.mutateFn 0 true))
  | .keptContext, .next => some (c.send (.updated e.entryId), .body (.mutateFn 0 true))
  | .mutateFn _ _, .ready (.ok _) => some (c, .body (.settle (.ok ())))
  | .mutateFn n rollback, .ready (.error error) =>
    if n < e.mutation.retry then some (c, .body (.sleeping (n + 1) rollback))
    else if rollback then some (c, .body (.rollback error))
    else some (c, .body (.settle (.error error)))
  | .sleeping n rollback, .next => some (c, .body (.mutateFn n rollback))
  | .rollback error, .next => some (c, .body (.settle (.error error)))
  | .settle result, .next =>
    some (e.update c (settled result) (.settled result) (.callbacks result))
  | .settled result, .next => some (c.send (.updated e.entryId), .body (.callbacks result))
  | .callbacks result, .next =>
    some (c, if e.mutation.scope.isSome then .markFinished result else .done result)
  | _, _ => none

/-- One step of an execution. -/
def advance (e : Exec) (i : Nat) (nowMs : Nat) (c : MutationCache) (o : Outcome) :
    Option (MutationCache × Exec) :=
  match e.pc, e.mutation.scope with
  | .queued, _ => some (c, { e with pc := .add (.assign (e.entry nowMs)) })
  | .add pc, _ =>
    match pc.advance c with
    | (c, some pc) => some (c, { e with entryId := pc.entryId, pc := .add pc })
    | (c, none) => some (c, { e with pc := .fireOnMutate })
  | .fireOnMutate, scope =>
    some (c, { e with pc := if scope.isSome then .subscribe else .body .onMutate })
  | .body pc, _ => (e.advanceBody c pc o).map fun (c, pc) => (c, { e with pc := pc })
  | .subscribe, some scope =>
    let (c, watcher) := c.subscribeScope scope.id
    some (c, { e with pc := .gate (.check watcher) })
  | .gate pc, some scope =>
    (advanceGate i scope.id c pc).map fun (c, pc) => (c, { e with pc := pc })
  | .markFinished result, some scope =>
    some (c.markFinished scope.id, { e with pc := .notify .lookup result })
  | .notify pc result, some scope =>
    (pc.advance scope.id c).map fun (c, pc) =>
      (c, { e with pc := pc.elim (.runNext .pop result) (.notify · result) })
  | .runNext pc result, some scope =>
    (pc.advance scope.id c).map fun (c, pc) =>
      (c, { e with pc := pc.elim (.done result) (.runNext · result) })
  | _, _ => none

end Exec

/-- A step of the system. -/
inductive Action where
  /-- `execute_mutation_full` makes the execution `i`. -/
  | submit (i : Nat) (mutation : Mutation)
  | advance (i : Nat) (o : Outcome)
  /-- The task of an execution that is parked at the gate polls it again. -/
  | resume (i : Nat)
  /-- The future of an execution is dropped, or user code in it panics. -/
  | abandon (i : Nat)
  /-- An execution wakes one of the wakers it has taken. -/
  | wake (i : Nat) (w : Waker)
  | add (j : Nat) (entry : MutationCacheEntry)
  | remove (j : Nat) (id : Nat)
  | clear (j : Nat)
  | runNext (j : Nat) (scope : String)
  | advanceCall (j : Nat)
  | wakeCall (j : Nat) (w : Waker)
  | tick (n : Nat)

end Mutations

/-- A mutation cache with the executions and the calls on it, and the tasks that have
been woken and not polled since. -/
structure Mutations where
  cache : MutationCache
  nowMs : Nat
  execs : Table Nat Mutations.Exec
  calls : Table Nat Mutations.CallPc
  woken : Finset Nat

namespace Mutations

/-- A new cache, and nothing going on. -/
def initial : Mutations :=
  ⟨.new, 0, ∅, ∅, ∅⟩

def setExec (s : Mutations) (i : Nat) (e : Exec) : Mutations :=
  { s with execs := s.execs.insert i e }

/-- A new call, under a name that is not in use. -/
def start (s : Mutations) (j : Nat) (pc : CallPc) : Option Mutations :=
  if (s.calls.lookup j).isSome then none else some { s with calls := s.calls.insert j pc }

/-- The state after an action, if it is enabled. -/
def step (s : Mutations) : Action → Option Mutations
  | .submit i mutation =>
    if (s.execs.lookup i).isSome then none else some (s.setExec i ⟨mutation, 0, .queued⟩)
  | .advance i o => do
    let e ← s.execs.lookup i
    let (c, e) ← e.advance i s.nowMs s.cache o
    some { s.setExec i e with cache := c }
  | .resume i => do
    let e ← s.execs.lookup i
    match e.pc with
    | .gate (.parked watcher) =>
      some { s.setExec i { e with pc := .gate (.poll watcher) } with woken := s.woken.erase i }
    | _ => none
  | .abandon i => do
    let e ← s.execs.lookup i
    if e.pc.interruptible then some (s.setExec i { e with pc := .dropped }) else none
  | .wake i w => do
    let e ← s.execs.lookup i
    if w ∈ e.pc.hand then
      some { s.setExec i { e with pc := e.pc.waken w } with woken := insert w s.woken }
    else none
  | .add j entry => s.start j (.add (.assign entry))
  | .remove j id => s.start j (.remove id)
  | .clear j => s.start j .clear
  | .runNext j scope => s.start j (.runNext scope .pop)
  | .advanceCall j => do
    let pc ← s.calls.lookup j
    let (c, pc) ← pc.advance s.cache
    some { s with cache := c, calls := pc.elim (s.calls.erase j) (s.calls.insert j) }
  | .wakeCall j w => do
    let pc ← s.calls.lookup j
    if w ∈ pc.hand then
      some { s with calls := s.calls.insert j (pc.waken w), woken := insert w s.woken }
    else none
  | .tick n => some { s with nowMs := s.nowMs + n }

/-- A new cache with nothing going on, and every step. -/
def machine : Machine Mutations Action :=
  ⟨fun s => s = initial, step⟩

end Mutations

end RsQuery
