import RsQuery.Backoff
import RsQuery.Connectivity
import RsQuery.State
import RsQuery.WatchHandles

/-!
# The retryer

`Retryer::run` attempts a task until it succeeds or is not to be retried.  Before an attempt
that follows a failure it pauses while connectivity forbids a retry; it looks at its token
only there.  A run of it interleaves with calls of `set_online`, with the cancellation of the
token, and with the wakers the calls have taken.
-/

namespace RsQuery

/-- How many times an operation may be retried after a failure. -/
inductive RetryDecision where
  | never
  | count (n : UInt32)
  | always
  /-- Gets the error and the index of the attempt. -/
  | function (f : QueryError → UInt32 → Bool)

/-- Whether a retry should happen after the given failure. -/
def RetryDecision.shouldRetry : RetryDecision → QueryError → UInt32 → Bool
  | .never, _, _ => false
  | .count n, _, attempt => attempt < n
  | .always, _, _ => true
  | .function f, error, attempt => f error attempt

/-- A retryer; its timer is left out, the end of a sleep is open. -/
structure Retryer where
  decision : RetryDecision
  failureCount : UInt32
  failureReason : Option QueryError
  isPaused : Bool

namespace Retryer

/-- Where a call of `run` stands. -/
inductive Pc (T : Type) where
  /-- Tests connectivity and the failure count at the head of the loop. -/
  | head
  /-- Subscribes for the pause. -/
  | subscribe
  /-- Checks the token in the pause. -/
  | token (rx : Nat)
  /-- Polls `changed`. -/
  | poll (rx : Nat)
  /-- Suspended in `changed`. -/
  | parked (rx : Nat)
  /-- Reads the connectivity after a change. -/
  | changed (rx : Nat)
  /-- Starts an attempt. -/
  | start
  /-- Awaits the attempt. -/
  | running
  | sleeping (delay : Duration)
  | returned (result : Except QueryError T)
  /-- The future was dropped where it was suspended, or unwound by a panic. -/
  | dropped

/-- An attempt starts next. -/
def Pc.isStart {T : Type} : Pc T → Bool
  | .start => true
  | _ => false

theorem Pc.isStart_iff {T : Type} {pc : Pc T} :
  pc.isStart = true ↔ pc = .start
  := by
  unfold Pc.isStart
  split
  · simp
  · next h => simpa using h

/-- The receiver the call is suspended on. -/
def Pc.suspended {T : Type} : Pc T → Option Nat
  | .parked rx => some rx
  | _ => none

theorem Pc.suspended_eq_some_iff {T : Type} {pc : Pc T} {rx : Nat} :
  pc.suspended = some rx ↔ pc = .parked rx
  := by
  unfold Pc.suspended
  split
  · simp
  · next h => simpa using h rx

/-- The value the call has returned. -/
def Pc.value {T : Type} : Pc T → Option T
  | .returned (.ok value) => some value
  | _ => none

theorem Pc.value_eq_some_iff {T : Type} {pc : Pc T} {value : T} :
  pc.value = some value ↔ pc = .returned (.ok value)
  := by
  unfold Pc.value
  split
  · simp
  · next h => simpa using h value

/-- The task that polls the retryer. -/
def task : Waker := 0

/-- A call of `run` with the online manager, the token and the calls of `set_online`. -/
structure Loop (T : Type) where
  retryer : Retryer
  mode : NetworkMode
  pc : Pc T
  /-- The attempts started. -/
  attempts : Nat
  /-- The token is cancelled. -/
  cancelled : Bool
  online : Bool
  tx : Watch.Handles Bool
  /-- The number of the next subscription. -/
  nextRx : Nat
  calls : Table Nat Connectivity.SetOnline
  nextCall : Nat

/-- A step. -/
inductive Action (T : Type) where
  /-- The next step of the retryer. -/
  | advance
  /-- The attempt is over. -/
  | finish (result : Except QueryError T)
  /-- The future is dropped where it is suspended, or the task panics. -/
  | drop
  | cancel
  | setOnline (online : Bool)
  /-- The next step of a call of `set_online`. -/
  | proceed (i : Nat)
  /-- A waker that was taken is woken. -/
  | wake (t : Waker)

namespace Loop

variable {T : Type}

/-- A call of `run` on a retryer; nothing has happened to the manager. -/
def initial (retryer : Retryer) (mode : NetworkMode) : Loop T where
  retryer := retryer
  mode := mode
  pc := .head
  attempts := 0
  cancelled := false
  online := true
  tx := .initial true
  nextRx := 1
  calls := ∅
  nextCall := 0

/-- Connectivity forbids a retry, and the task has failed before. -/
def pauses (s : Loop T) : Bool :=
  !canRetry s.mode s.online && decide (0 < s.retryer.failureCount)

/-- The retryer goes on to `pc`, paused or not. -/
def goto (s : Loop T) (isPaused : Bool) (pc : Pc T) : Loop T :=
  { s with retryer.isPaused := isPaused, pc := pc }

/-- The next step of the retryer, except for the end of an attempt. -/
def advance (s : Loop T) : Option (Loop T) :=
  match s.pc with
  | .head => some (if s.pauses then s.goto true .subscribe else { s with pc := .start })
  | .subscribe =>
    (s.tx.step (.subscribe s.nextRx)).map fun tx =>
      { s with tx := tx, nextRx := s.nextRx + 1, pc := .token s.nextRx }
  | .token rx =>
    some (if s.cancelled then s.goto false (.returned (.error (.cancelled false false)))
      else { s with pc := .poll rx })
  | .poll rx => do
    let w ← s.tx.watchers.lookup rx
    let tx ← s.tx.step (.changed rx task)
    let pc := match (Watch.changedPoll s.tx.cell w task).2.2 with
      | some (.ok _) => .changed rx
      | some (.error _) => .token rx
      | none => .parked rx
    some { s with tx := tx, pc := pc }
  | .parked rx => some { s with pc := .poll rx }
  | .changed rx => some (if s.online then s.goto false .start else { s with pc := .token rx })
  | .start => some { s with attempts := s.attempts + 1, pc := .running }
  | .sleeping _ => some { s with pc := .head }
  | .running | .returned _ | .dropped => none

/-- The end of an attempt; the failure count wraps. -/
def finish (s : Loop T) (result : Except QueryError T) : Option (Loop T) :=
  match s.pc, result with
  | .running, .ok value =>
    some { s with retryer.failureReason := none, pc := .returned (.ok value) }
  | .running, .error error =>
    if error.isCancelled then
      some { s with pc := .returned (.error (.cancelled false false)) }
    else
      let attempt := s.retryer.failureCount
      let s := { s with
        retryer.failureCount := attempt + 1
        retryer.failureReason := some error }
      if s.retryer.decision.shouldRetry error attempt then
        some { s with pc := .sleeping (retryDelay attempt.toNat) }
      else some { s with pc := .returned (.error error) }
  | _, _ => none

/-- The call `i` of `set_online` goes on to `pc`. -/
def setCall (s : Loop T) (i : Nat) (call : Connectivity.SetOnline) (pc : Connectivity.Pc) :
    Loop T :=
  { s with calls := s.calls.insert i { call with pc := pc } }

/-- The next step of a call of `set_online`. -/
def proceed (s : Loop T) (i : Nat) : Option (Loop T) := do
  let call ← s.calls.lookup i
  match call.pc with
  | .test => some (s.setCall i call (if s.online ≠ call.online then .store else .returned))
  | .store => some { s.setCall i call .send with online := call.online }
  | .send =>
    (s.tx.step (.send call.online)).map fun tx => { s.setCall i call .returned with tx := tx }
  | .returned => none

/-- The state after a step. -/
def step (s : Loop T) : Action T → Option (Loop T)
  | .advance => s.advance
  | .finish result => s.finish result
  | .drop =>
    match s.pc with
    | .parked _ | .running | .sleeping _ => some { s with pc := .dropped }
    | _ => none
  | .cancel => some { s with cancelled := true }
  | .setOnline online =>
    some { s with calls := s.calls.insert s.nextCall ⟨online, .test⟩, nextCall := s.nextCall + 1 }
  | .proceed i => s.proceed i
  | .wake t => (s.tx.step (.wake t)).map fun tx => { s with tx := tx }

/-- The calls of `run`, and their interleavings. -/
def machine : Machine (Loop T) (Action T) where
  init s := ∃ retryer mode, s = initial retryer mode
  step := step

variable {s s' : Loop T} {a : Action T}

theorem step_proceed {i : Nat} (hs : s.proceed i = some s') :
  ∃ call, s.calls.lookup i = some call ∧
    ((call.pc = .test ∧
        s' = s.setCall i call (if s.online ≠ call.online then .store else .returned)) ∨
      (call.pc = .store ∧ s' = { s.setCall i call .send with online := call.online }) ∨
      (call.pc = .send ∧ ∃ tx, s.tx.step (.send call.online) = some tx ∧
        s' = { s.setCall i call .returned with tx := tx }))
  := by
  obtain ⟨call, hcall, hs⟩ := Option.bind_eq_some_iff.mp hs
  use call, hcall
  split at hs
  · next hpc =>
    left
    exact ⟨hpc, (Option.some.inj hs).symm⟩
  · next hpc =>
    right
    left
    exact ⟨hpc, (Option.some.inj hs).symm⟩
  · next hpc =>
    right
    right
    obtain ⟨tx, htx, rfl⟩ := Option.map_eq_some_iff.mp hs
    exact ⟨hpc, tx, htx, rfl⟩
  · contradiction

/-- What the next step of the retryer can be. -/
inductive Takes (s : Loop T) : Loop T → Prop where
  | pause : s.pc = .head → s.pauses = true → Takes s (s.goto true .subscribe)
  | pass : s.pc = .head → s.pauses = false → Takes s { s with pc := .start }
  | subscribe {tx : Watch.Handles Bool} : s.pc = .subscribe →
      s.tx.step (.subscribe s.nextRx) = some tx →
      Takes s { s with tx := tx, nextRx := s.nextRx + 1, pc := .token s.nextRx }
  | cancelled {rx : Nat} : s.pc = .token rx → s.cancelled = true →
      Takes s (s.goto false (.returned (.error (.cancelled false false))))
  | wait {rx : Nat} : s.pc = .token rx → s.cancelled = false → Takes s { s with pc := .poll rx }
  | changed {rx : Nat} {w : Watch.Watcher} {tx : Watch.Handles Bool} : s.pc = .poll rx →
      s.tx.watchers.lookup rx = some w → s.tx.step (.changed rx task) = some tx →
      (Watch.changedPoll s.tx.cell w task).2.2 = some (.ok ()) →
      Takes s { s with tx := tx, pc := .changed rx }
  | closed {rx : Nat} {w : Watch.Watcher} {tx : Watch.Handles Bool} {error : Watch.ChangeError} :
      s.pc = .poll rx → s.tx.watchers.lookup rx = some w →
      s.tx.step (.changed rx task) = some tx →
      (Watch.changedPoll s.tx.cell w task).2.2 = some (.error error) →
      Takes s { s with tx := tx, pc := .token rx }
  | park {rx : Nat} {w : Watch.Watcher} {tx : Watch.Handles Bool} : s.pc = .poll rx →
      s.tx.watchers.lookup rx = some w → s.tx.step (.changed rx task) = some tx →
      (Watch.changedPoll s.tx.cell w task).2.2 = none →
      Takes s { s with tx := tx, pc := .parked rx }
  | resume {rx : Nat} : s.pc = .parked rx → Takes s { s with pc := .poll rx }
  | unpause {rx : Nat} : s.pc = .changed rx → s.online = true → Takes s (s.goto false .start)
  | offline {rx : Nat} : s.pc = .changed rx → s.online = false →
      Takes s { s with pc := .token rx }
  | start : s.pc = .start → Takes s { s with attempts := s.attempts + 1, pc := .running }
  | slept {delay : Duration} : s.pc = .sleeping delay → Takes s { s with pc := .head }

theorem takes_of_advance (hs : s.advance = some s') :
  s.Takes s'
  := by
  unfold advance at hs
  split at hs
  · next hpc =>
    obtain rfl := Option.some.inj hs
    split
    · next h => exact .pause hpc h
    · next h => exact .pass hpc (Bool.eq_false_of_not_eq_true h)
  · next hpc =>
    obtain ⟨tx, htx, rfl⟩ := Option.map_eq_some_iff.mp hs
    exact .subscribe hpc htx
  · next rx hpc =>
    obtain rfl := Option.some.inj hs
    split
    · next h => exact .cancelled hpc h
    · next h => exact .wait hpc (Bool.eq_false_of_not_eq_true h)
  · next rx hpc =>
    obtain ⟨w, hw, hs⟩ := Option.bind_eq_some_iff.mp hs
    obtain ⟨tx, htx, hs⟩ := Option.bind_eq_some_iff.mp hs
    obtain rfl := Option.some.inj hs
    rcases hpoll : (Watch.changedPoll s.tx.cell w task).2.2 with _ | error | ok
    · exact .park hpc hw htx hpoll
    · exact .closed hpc hw htx hpoll
    · exact .changed hpc hw htx hpoll
  · next rx hpc =>
    obtain rfl := Option.some.inj hs
    exact .resume hpc
  · next rx hpc =>
    obtain rfl := Option.some.inj hs
    split
    · next h => exact .unpause hpc h
    · next h => exact .offline hpc (Bool.eq_false_of_not_eq_true h)
  · next hpc =>
    obtain rfl := Option.some.inj hs
    exact .start hpc
  · next delay hpc =>
    obtain rfl := Option.some.inj hs
    exact .slept hpc
  · contradiction
  · contradiction
  · contradiction

/-- A step of a call of `set_online` is none of the retryer, and stores the flag at most. -/
theorem frame_proceed {i : Nat} (hs : s.proceed i = some s') :
  s'.pc = s.pc ∧ s'.mode = s.mode ∧ s'.attempts = s.attempts ∧ s'.cancelled = s.cancelled ∧
    (s'.online = s.online ∨
      ∃ call, s.calls.lookup i = some call ∧ call.pc = .store ∧ s'.online = call.online)
  := by
  obtain ⟨call, hcall, ⟨-, rfl⟩ | ⟨hpc, rfl⟩ | ⟨-, tx, -, rfl⟩⟩ := step_proceed hs
  · exact ⟨rfl, rfl, rfl, rfl, .inl rfl⟩
  · exact ⟨rfl, rfl, rfl, rfl, .inr ⟨call, hcall, hpc, rfl⟩⟩
  · exact ⟨rfl, rfl, rfl, rfl, .inl rfl⟩

/-- What the end of an attempt can be. -/
inductive Finishes (s : Loop T) : Except QueryError T → Loop T → Prop where
  | ok {value : T} :
      Finishes s (.ok value) { s with retryer.failureReason := none, pc := .returned (.ok value) }
  | cancelled {error : QueryError} : error.isCancelled = true →
      Finishes s (.error error) { s with pc := .returned (.error (.cancelled false false)) }
  | retry {error : QueryError} : error.isCancelled = false →
      s.retryer.decision.shouldRetry error s.retryer.failureCount = true →
      Finishes s (.error error) { s with
        retryer.failureCount := s.retryer.failureCount + 1
        retryer.failureReason := some error
        pc := .sleeping (retryDelay s.retryer.failureCount.toNat) }
  | fail {error : QueryError} : error.isCancelled = false →
      s.retryer.decision.shouldRetry error s.retryer.failureCount = false →
      Finishes s (.error error) { s with
        retryer.failureCount := s.retryer.failureCount + 1
        retryer.failureReason := some error
        pc := .returned (.error error) }

theorem finishes_of_finish {result : Except QueryError T} (hs : s.finish result = some s') :
  s.pc = .running ∧ s.Finishes result s'
  := by
  unfold finish at hs
  split at hs
  · next hpc =>
    obtain rfl := Option.some.inj hs
    exact ⟨hpc, .ok⟩
  · next error hpc =>
    split at hs
    · next hc =>
      obtain rfl := Option.some.inj hs
      exact ⟨hpc, .cancelled hc⟩
    · next hc =>
      have hc := Bool.eq_false_of_not_eq_true hc
      simp only at hs
      split at hs
      · next hretry =>
        obtain rfl := Option.some.inj hs
        exact ⟨hpc, .retry hc hretry⟩
      · next hretry =>
        obtain rfl := Option.some.inj hs
        exact ⟨hpc, .fail hc (Bool.eq_false_of_not_eq_true hretry)⟩
  · contradiction

/-- The other steps are none of the retryer, or drop it. -/
theorem pc_of_step (hs : s.step a = some s') (ha : a ≠ .advance)
    (hfinish : ∀ result, a ≠ .finish result) :
  s'.pc = s.pc ∨ s'.pc = .dropped
  := by
  cases a with
  | advance => contradiction
  | finish result => exact absurd rfl (hfinish result)
  | drop =>
    right
    simp only [Loop.step] at hs
    split at hs
    all_goals try contradiction
    all_goals
      obtain rfl := Option.some.inj hs
      rfl
  | cancel =>
    left
    obtain rfl := Option.some.inj hs
    rfl
  | setOnline online =>
    left
    obtain rfl := Option.some.inj hs
    rfl
  | proceed i =>
    left
    apply (frame_proceed hs).1
  | wake t =>
    left
    obtain ⟨tx, -, rfl⟩ := Option.map_eq_some_iff.mp hs
    rfl

end Loop

end Retryer

end RsQuery
