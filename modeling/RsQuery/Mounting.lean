import RsQuery.Client
import RsQuery.WatchHandles

/-!
# Mounting and the reconnect watcher

The first `mount` of a client spawns a task that watches the connectivity and runs
`handle_reconnect` when it is restored; the last `unmount` tells the task to stop.  The
watchers of earlier mounts may not have been polled since they were told, and while one is
polled the connectivity may change again and again.  Whatever the order, one watcher that is
not told to stop is there while the client is mounted, and it sees every restored connection.

A call of `mount` or `unmount` is one step.  A call of `set_online` tests and stores the
flag, sends, and wakes the tasks whose wakers it took, and a poll of a watcher takes a step
for each future it polls, each reading and each call it makes.
-/

namespace RsQuery

namespace Mounting

/-- The futures a watcher selects between. -/
inductive Side where
  | stop
  | online
deriving DecidableEq, Repr

/-- The futures of a select in the order in which they are polled. -/
def Side.order : Side → List Side
  | .stop => [.stop, .online]
  | .online => [.online, .stop]

/-- Where a watcher is. -/
inductive Pc where
  /-- Not being polled. -/
  | parked
  /-- At the head of its loop. -/
  | select
  /-- It selects; these futures are still to be polled. -/
  | polling (sides : List Side)
  /-- The connectivity has changed, it reads it. -/
  | borrow
  | reconnect
  | exited
deriving DecidableEq, Repr

/-- The watcher waits for the connectivity to change. -/
def Pc.Waits : Pc → Prop
  | .parked => True
  | .polling sides => .online ∉ sides
  | _ => False

/-- The task of a watcher, with the cell it is stopped through; it watches the connectivity
as the watcher of its number. -/
structure ReconnectWatcher where
  stopTx : Watch.Shared Bool
  stopRx : Watch.Watcher
  pc : Pc
  /-- It was woken since it was last polled. -/
  woken : Bool

/-- Where the call of `set_online` is, if one is made. -/
inductive Setting where
  | idle
  | store (online : Bool)
  | send (online : Bool)
  | wake
deriving DecidableEq, Repr

/-- What happened: the flag of the connectivity changed, or something to a watcher. -/
inductive Event where
  | changed (online : Bool)
  | subscribed (i : Nat)
  | stopped (i : Nat)
  | polled (i : Nat)
  | parked (i : Nat)
  | reconnected (i : Nat)
deriving DecidableEq, Repr

/-- The watcher something happened to. -/
def Event.watcher : Event → Option Nat
  | .changed _ => none
  | .subscribed i | .stopped i | .polled i | .parked i | .reconnected i => some i

variable {V : Type}

/-- What the clones of a client share, the watchers spawned, and what has happened. -/
structure Clones (V : Type) where
  client : QueryClient V
  mountCount : Nat
  /-- The watcher whose stop cell is held. -/
  reconnectTask : Option Nat
  online : Bool
  tx : Watch.Handles Bool
  watchers : Table Nat ReconnectWatcher
  nextWatcher : Nat
  setting : Setting
  log : List Event

/-- A step. -/
inductive Action (V : Type) where
  | mount
  | unmount
  | setOnline (online : Bool)
  /-- The next step of the call of `set_online`. -/
  | proceed
  /-- The call of `set_online` wakes a task. -/
  | wake (t : Waker)
  /-- A watcher is polled. -/
  | poll (i : Nat)
  /-- A watcher goes into a select, which polls this future first. -/
  | select (i : Nat) (first : Side)
  /-- The next step of a watcher. -/
  | advance (i : Nat) (now : Instant)
  /-- Anything else that is done with the client. -/
  | use (client : QueryClient V)

namespace Clones

/-- A new client, with this cache. -/
def initial (client : QueryClient V) : Clones V where
  client := client
  mountCount := 0
  reconnectTask := none
  online := true
  tx := .initial true
  watchers := ∅
  nextWatcher := 1
  setting := .idle
  log := []

/-- The online manager. -/
def manager (s : Clones V) : OnlineManager :=
  ⟨s.online, s.tx.cell⟩

/-- The watcher `i` becomes `w`, and this has happened. -/
def goto (s : Clones V) (i : Nat) (w : ReconnectWatcher) (events : List Event) : Clones V :=
  { s with watchers := s.watchers.insert i w, log := s.log ++ events }

/-- Increments the mount count; the first mount spawns a watcher. -/
def mount (s : Clones V) : Option (Clones V) :=
  let count := s.mountCount + 1
  if count = 1 then do
    let tx ← s.tx.step (.subscribe s.nextWatcher)
    let (stopTx, stopRx) := Watch.new false
    some ({ s with
      mountCount := count
      reconnectTask := some s.nextWatcher
      tx := tx
      nextWatcher := s.nextWatcher + 1
    }.goto s.nextWatcher ⟨stopTx, stopRx, .parked, true⟩ [.subscribed s.nextWatcher])
  else some { s with mountCount := count }

/-- Tells the watcher to stop; its cell has no other watcher than its own. -/
def stop (s : Clones V) (i : Nat) : Clones V :=
  match s.watchers.lookup i with
  | some w =>
    let (stopTx, wakers) := Watch.send w.stopTx true
    s.goto i { w with stopTx := stopTx, woken := w.woken || decide (i ∈ wakers) } [.stopped i]
  | none => s

/-- Decrements the mount count; the last unmount stops the watcher. -/
def unmount (s : Clones V) : Clones V :=
  let count := s.mountCount
  let s := { s with mountCount := count - 1 }
  match s.reconnectTask with
  | some i => if count = 1 then { s with reconnectTask := none }.stop i else s
  | none => s

/-- The next step of the call of `set_online`. -/
def proceed (s : Clones V) : Option (Clones V) :=
  match s.setting with
  | .idle => none
  | .store online =>
    some { s with online := online, setting := .send online, log := s.log ++ [.changed online] }
  | .send online => (s.tx.step (.send online)).map fun tx => { s with tx := tx, setting := .wake }
  | .wake => if s.tx.hand = [] then some { s with setting := .idle } else none

/-- The next step of the watcher `i`. -/
def advance (s : Clones V) (i : Nat) (w : ReconnectWatcher) (now : Instant) :
    Option (Clones V) :=
  match w.pc with
  | .polling (.stop :: sides) =>
    match Watch.changedPoll w.stopTx w.stopRx i with
    | (stopTx, stopRx, some _) =>
      some (s.goto i { w with stopTx := stopTx, stopRx := stopRx, pc := .exited } [])
    | (stopTx, stopRx, none) =>
      some (s.goto i { w with stopTx := stopTx, stopRx := stopRx, pc := .polling sides } [])
  | .polling (.online :: sides) => do
    let rx ← s.tx.watchers.lookup i
    let tx ← s.tx.step (.changed i i)
    match (Watch.changedPoll s.tx.cell rx i).2.2 with
    | some (.ok _) => some ({ s with tx := tx }.goto i { w with pc := .borrow } [])
    | some (.error _) => some ({ s with tx := tx }.goto i { w with pc := .exited } [])
    | none => some ({ s with tx := tx }.goto i { w with pc := .polling sides } [])
  | .polling [] => some (s.goto i { w with pc := .parked } [.parked i])
  | .borrow => do
    let rx ← s.tx.watchers.lookup i
    let tx ← s.tx.step (.borrow i)
    let online := (Watch.borrow s.tx.cell rx).2
    some ({ s with tx := tx }.goto i { w with pc := if online then .reconnect else .select } [])
  | .reconnect =>
    some ({ s with client := s.client.handleReconnect now }.goto i { w with pc := .select }
      [.reconnected i])
  | .parked | .select | .exited => none

/-- The state after a step. -/
def step (s : Clones V) : Action V → Option (Clones V)
  | .mount => s.mount
  -- an unmount is paired with a mount
  | .unmount => if 0 < s.mountCount then some s.unmount else none
  | .setOnline online =>
    if s.setting = .idle then
      some { s with setting := if s.manager.isOnline ≠ online then .store online else .idle }
    else none
  | .proceed => s.proceed
  | .wake t =>
    (s.tx.step (.wake t)).map fun tx =>
      { s with tx := tx, watchers := Table.adjust t (fun w => { w with woken := true }) s.watchers }
  | .poll i => do
    let w ← s.watchers.lookup i
    if w.pc = .parked then
      some (s.goto i { w with pc := .select, woken := false } [.polled i])
    else none
  | .select i first => do
    let w ← s.watchers.lookup i
    if w.pc = .select then some (s.goto i { w with pc := .polling first.order } []) else none
  | .advance i now => do
    let w ← s.watchers.lookup i
    s.advance i w now
  | .use client => some { s with client := client }

/-- The calls, the polls and their interleavings. -/
def machine : Machine (Clones V) (Action V) where
  init s := ∃ client, s = initial client
  step := step

/-- A select polls its first future first. -/
def StopFirst (_ : Clones V) : Action V → Prop
  | .select _ first => first = .stop
  | _ => True

instance (s : Clones V) (a : Action V) : Decidable (s.StopFirst a) := by
  unfold StopFirst
  split
  · infer_instance
  · infer_instance

/-- The steps of a call of `set_online` that is let alone are `set_online`, but for the
tasks it still wakes. -/
theorem exec_setOnline {s : Clones V} (hidle : s.setting = .idle) (online : Bool) :
  ∃ as s', machine.exec s as = some s' ∧ s'.manager = (s.manager.setOnline online).1 ∧
    s'.tx.hand = (s.manager.setOnline online).2 ++ s.tx.hand
  := by
  rw [OnlineManager.setOnline]
  have htest : machine.step s (.setOnline online) = some { s with
      setting := if s.manager.isOnline ≠ online then .store online else .idle } := by
    simp only [machine, Clones.step, hidle, if_true]
  split
  · next h =>
    rw [if_pos h] at htest
    refine ⟨[.setOnline online, .proceed, .proceed], _,
      (Machine.exec_cons htest).trans ((Machine.exec_cons rfl).trans (Machine.exec_cons rfl)),
      rfl, rfl⟩
  · next h => exact ⟨[.setOnline online], _, Machine.exec_cons htest, rfl, rfl⟩

/-! ### What the watchers should do -/

/-- A watcher that was not told to stop. -/
def Live (s : Clones V) (i : Nat) : Prop :=
  ∃ w, s.watchers.lookup i = some w ∧ w.stopTx.value = false

/-- Next steps of the watcher alone make it exit, and it does nothing else in them. -/
def Exits (s : Clones V) (i : Nat) : Prop :=
  ∃ as s' w, (∀ a ∈ as, (∃ first, a = .select i first) ∨ ∃ now, a = .advance i now) ∧
    machine.exec s as = some s' ∧ s'.log = s.log ∧
    s'.watchers.lookup i = some w ∧ w.pc = .exited

/-- The last change of the connectivity since the watcher subscribed was to online, and
the watcher has not run `handle_reconnect` after it. -/
def Owed (log : List Event) (i : Nat) : Prop :=
  ∃ l₁ l₂, log = l₁ ++ .changed true :: l₂ ∧ (∀ online, .changed online ∉ l₂) ∧
    .subscribed i ∈ l₁ ∧ .reconnected i ∉ l₂

/-- One watcher not told to stop is there while the client is mounted, and none
otherwise.  A watcher told to stop and then polled exits in that poll, without running
`handle_reconnect`.  When a watcher waits and no wake-up is pending, and the connectivity was
last changed to online after it subscribed, it has run `handle_reconnect` after that. -/
structure Watches (s : Clones V) : Prop where
  told : ∀ i w, s.watchers.lookup i = some w → (w.stopTx.value = true ↔ .stopped i ∈ s.log)
  live : if 0 < s.mountCount then ∃! i, s.Live i else ∀ i, ¬ s.Live i
  exits : ∀ i l₁ l₂, s.log = l₁ ++ .polled i :: l₂ → .stopped i ∈ l₁ →
    .reconnected i ∉ l₂ ∧ .parked i ∉ l₂ ∧ .polled i ∉ l₂ ∧ s.Exits i
  reconnects : ∀ i w, s.watchers.lookup i = some w → w.pc = .parked → w.woken = false →
    s.setting = .idle → ¬ Owed s.log i

/-! ### What is kept -/

/-- The watcher was polled after it was told to stop. -/
def Doomed (log : List Event) (i : Nat) : Prop :=
  ∃ l₁ l₂, log = l₁ ++ .polled i :: l₂ ∧ .stopped i ∈ l₁

/-- Since it was polled after it was told to stop, the watcher has done nothing else. -/
def Quiet (log : List Event) (i : Nat) : Prop :=
  ∀ l₁ l₂, log = l₁ ++ .polled i :: l₂ → .stopped i ∈ l₁ →
    .reconnected i ∉ l₂ ∧ .parked i ∉ l₂ ∧ .polled i ∉ l₂

/-- What is kept of a watcher: it has a watcher of the connectivity; its stop cell tells
what it was told; it waits only if it was woken or will be; what is owed will be done; and
told to stop it does nothing but exit. -/
structure KeptWatcher (s : Clones V) (i : Nat) (w : ReconnectWatcher) : Prop where
  subscribed : (s.tx.watchers.lookup i).isSome = true
  alive : w.stopTx.alive = true
  version : w.stopTx.version = w.stopTx.value.toNat
  unseen : w.pc ≠ .exited → w.stopRx.lastSeen = 0
  told : w.stopTx.value = true ↔ .stopped i ∈ s.log
  exited : w.pc = .exited → w.stopTx.value = true
  waits : w.pc.Waits → w.woken = true ∨ s.tx.pending.lookup i = some i
  owed : Owed s.log i → s.setting = .send true ∨ s.tx.observed i < s.tx.sent.length ∨
    w.pc = .borrow ∨ w.pc = .reconnect
  doomed : Doomed s.log i → w.pc = .select ∨ w.pc = .polling [.stop, .online] ∨ w.pc = .exited
  quiet : Quiet s.log i

/-- The last change of the connectivity. -/
def LastChange (log : List Event) (online : Bool) : Prop :=
  ∃ l₁ l₂, log = l₁ ++ .changed online :: l₂ ∧ ∀ online', .changed online' ∉ l₂

/-- What the flag says was sent, unless it is about to be, and it is the last change. -/
structure Told (s : Clones V) : Prop where
  sent : (∀ online, s.setting ≠ .send online) → Watch.Handles.latest true s.tx.sent = s.online
  sending : ∀ online, s.setting = .send online → s.online = online
  changed : ∀ online, LastChange s.log online → s.online = online
  hand : s.setting ≠ .wake → s.tx.hand = []

/-- What is kept. -/
structure Kept (s : Clones V) : Prop where
  handles : s.tx.Kept true
  told : s.Told
  watchers : ∀ i w, s.watchers.lookup i = some w → s.KeptWatcher i w
  numbered : ∀ i, (s.watchers.lookup i).isSome = true → i < s.nextWatcher
  unsubscribed : ∀ i, s.nextWatcher ≤ i → s.tx.watchers.lookup i = none
  logged : ∀ e ∈ s.log, ∀ i ∈ e.watcher, (s.watchers.lookup i).isSome = true
  task : ∀ i, s.reconnectTask = some i ↔ s.Live i
  count : s.reconnectTask = none ↔ s.mountCount = 0

/-! ### What a step adds to the log -/

section Log

variable {log : List Event} {i : Nat} {e : Event}

theorem owed_concat :
  Owed (log ++ [e]) i ↔ (e = .changed true ∧ .subscribed i ∈ log) ∨
    (Owed log i ∧ (∀ online, e ≠ .changed online) ∧ e ≠ .reconnected i)
  := by
  constructor
  · rintro ⟨l₁, l₂, hlog, hlast, hsub, hrec⟩
    rcases Machine.concat_eq_append_cons hlog with ⟨l, rfl, rfl⟩ | ⟨rfl, rfl, rfl⟩
    · right
      simp only [List.mem_append, List.mem_singleton, not_or] at hlast hrec
      exact ⟨⟨l₁, l, rfl, fun online => (hlast online).1, hsub, hrec.1⟩,
        fun online => Ne.symm (hlast online).2, Ne.symm hrec.2⟩
    · left
      use rfl
  · rintro (⟨rfl, hsub⟩ | ⟨⟨l₁, l₂, rfl, hlast, hsub, hrec⟩, hne, hne'⟩)
    · use log, []
      simp [hsub]
    · use l₁, l₂ ++ [e]
      simp only [List.mem_append, List.mem_singleton, not_or]
      exact ⟨by simp, fun online => ⟨hlast online, Ne.symm (hne online)⟩, hsub, hrec, Ne.symm hne'⟩

theorem doomed_concat :
  Doomed (log ++ [e]) i ↔ Doomed log i ∨ (e = .polled i ∧ .stopped i ∈ log)
  := by
  constructor
  · rintro ⟨l₁, l₂, hlog, hstop⟩
    rcases Machine.concat_eq_append_cons hlog with ⟨l, rfl, rfl⟩ | ⟨rfl, rfl, rfl⟩
    · left
      use l₁, l
    · right
      use rfl
  · rintro (⟨l₁, l₂, rfl, hstop⟩ | ⟨rfl, hstop⟩)
    · use l₁, l₂ ++ [e]
      simp [hstop]
    · use log, []

theorem quiet_concat :
  Quiet (log ++ [e]) i ↔ Quiet log i ∧
    (Doomed log i → e ≠ .reconnected i ∧ e ≠ .parked i ∧ e ≠ .polled i)
  := by
  constructor
  · intro h
    constructor
    · rintro l₁ l₂ rfl hstop
      have hquiet := h l₁ (l₂ ++ [e]) (by simp) hstop
      simp only [List.mem_append, not_or] at hquiet
      exact ⟨hquiet.1.1, hquiet.2.1.1, hquiet.2.2.1⟩
    · rintro ⟨l₁, l₂, rfl, hstop⟩
      have hquiet := h l₁ (l₂ ++ [e]) (by simp) hstop
      simp only [List.mem_append, List.mem_singleton, not_or] at hquiet
      exact ⟨Ne.symm hquiet.1.2, Ne.symm hquiet.2.1.2, Ne.symm hquiet.2.2.2⟩
  · rintro ⟨h, hdoomed⟩ l₁ l₂ hlog hstop
    rcases Machine.concat_eq_append_cons hlog with ⟨l, rfl, rfl⟩ | ⟨rfl, rfl, rfl⟩
    · obtain ⟨hrec, hpark, hpoll⟩ := h l₁ l rfl hstop
      obtain ⟨hrec', hpark', hpoll'⟩ := hdoomed ⟨l₁, l, rfl, hstop⟩
      simp only [List.mem_append, List.mem_singleton, not_or]
      exact ⟨⟨hrec, Ne.symm hrec'⟩, ⟨hpark, Ne.symm hpark'⟩, ⟨hpoll, Ne.symm hpoll'⟩⟩
    · simp

theorem lastChange_concat {online : Bool} :
  LastChange (log ++ [e]) online ↔ e = .changed online ∨
    (LastChange log online ∧ ∀ online', e ≠ .changed online')
  := by
  constructor
  · rintro ⟨l₁, l₂, hlog, hlast⟩
    rcases Machine.concat_eq_append_cons hlog with ⟨l, rfl, rfl⟩ | ⟨rfl, rfl, rfl⟩
    · right
      simp only [List.mem_append, List.mem_singleton, not_or] at hlast
      exact ⟨⟨l₁, l, rfl, fun online => (hlast online).1⟩,
        fun online => Ne.symm (hlast online).2⟩
    · left
      rfl
  · rintro (rfl | ⟨⟨l₁, l₂, rfl, hlast⟩, hne⟩)
    · use log, []
      simp
    · use l₁, l₂ ++ [e]
      simp only [List.mem_append, List.mem_singleton, not_or]
      exact ⟨by simp, fun online => ⟨hlast online, Ne.symm (hne online)⟩⟩

/-- What happens to a watcher is no change of the connectivity. -/
theorem LastChange.of_concat
    {online : Bool} (h : LastChange (log ++ [e]) online) (he : e.watcher = some i) :
  LastChange log online
  := by
  rcases lastChange_concat.mp h with rfl | ⟨h, -⟩
  · contradiction
  · apply h

theorem Owed.lastChange (h : Owed log i) :
  LastChange log true
  := by
  obtain ⟨l₁, l₂, hlog, hlast, -, -⟩ := h
  use l₁, l₂

/-- What is owed when something happens that is no change of the connectivity. -/
theorem Owed.of_concat (h : Owed (log ++ [e]) i) (hne : e ≠ .changed true) :
  Owed log i ∧ e ≠ .reconnected i
  := by
  rcases owed_concat.mp h with ⟨heq, -⟩ | ⟨h, -, hrec⟩
  · contradiction
  · exact ⟨h, hrec⟩

end Log

section Step

variable {s s' : Clones V} {a : Action V} {i : Nat} {w w' : ReconnectWatcher} {e : Event}

/-- Nothing happened, or something that was not about the watcher. -/
def SparesLog (log log' : List Event) (i : Nat) (sends : Prop) : Prop :=
  log' = log ∨ ∃ e, log' = log ++ [e] ∧ e.watcher ≠ some i ∧ (e = .changed true → sends)

/-- A step that is not about a watcher keeps what is kept of it. -/
theorem KeptWatcher.of_spares
    (h : s.KeptWatcher i w) (hseen : s.tx.observed i ≤ s.tx.sent.length)
    (htx : s.tx.Spares s'.tx i)
    (hsetting : s.setting = .send true →
      s'.setting = .send true ∨ s.tx.sent.length < s'.tx.sent.length)
    (hlog : SparesLog s.log s'.log i (s'.setting = .send true)) :
  s'.KeptWatcher i w
  := by
  have hpending : w.pc.Waits → w.woken = true ∨ s'.tx.pending.lookup i = some i :=
    fun hpc => (h.waits hpc).imp_right htx.pending
  have hsent := htx.sent
  have hobserved := htx.observed
  have howed (howed : Owed s.log i) : s'.setting = .send true ∨
      s'.tx.observed i < s'.tx.sent.length ∨ w.pc = .borrow ∨ w.pc = .reconnect := by
    rw [hobserved]
    rcases h.owed howed with hset | hobs | hpc
    · rcases hsetting hset with hset | hlt
      · left
        apply hset
      · right
        left
        omega
    · right
      left
      omega
    · right
      right
      apply hpc
  rcases hlog with hlog | ⟨e, hlog, hne, hsends⟩
  · refine { h with
      subscribed := htx.watchers ▸ h.subscribed, told := ?_, waits := hpending, owed := ?_,
      doomed := ?_, quiet := ?_ }
    all_goals rw [hlog]
    · apply h.told
    · apply howed
    · apply h.doomed
    · apply h.quiet
  · -- what happened is about another watcher or about none
    have hother (e' : Event) (he' : e'.watcher = some i) : e ≠ e' := by
      rintro rfl
      contradiction
    refine { h with
      subscribed := htx.watchers ▸ h.subscribed, told := ?_, waits := hpending, owed := ?_,
      doomed := ?_, quiet := ?_ }
    all_goals rw [hlog]
    · rw [h.told, List.mem_append, List.mem_singleton, or_iff_left]
      apply Ne.symm (hother _ rfl)
    · intro ho
      rcases owed_concat.mp ho with ⟨he, -⟩ | ⟨ho, -, -⟩
      · left
        apply hsends he
      · apply howed ho
    · intro hd
      rcases doomed_concat.mp hd with hd | ⟨he, -⟩
      · apply h.doomed hd
      · exact absurd he (hother _ rfl)
    · rw [quiet_concat]
      exact ⟨h.quiet, fun _ => ⟨hother _ rfl, hother _ rfl, hother _ rfl⟩⟩

theorem lookup_goto (events : List Event) (j : Nat) :
  (s.goto i w events).watchers.lookup j = if j = i then some w else s.watchers.lookup j
  := Table.lookup_insert_eq _ _ _ _

/-- The live watchers after a watcher has changed but for what it was told. -/
theorem live_goto
    (events : List Event) (hi : s.watchers.lookup i = some w)
    (hvalue : w'.stopTx.value = w.stopTx.value)
    (j : Nat) :
  (s.goto i w' events).Live j ↔ s.Live j
  := by
  rw [Live, Live, lookup_goto]
  split
  · next hji =>
    rw [hji, hi]
    simp [hvalue]
  · rfl

/-- What happened so far happened to watchers that are there. -/
theorem logged_goto
    {events : List Event} (h : ∀ e ∈ s.log, ∀ j ∈ e.watcher, (s.watchers.lookup j).isSome = true)
    (hevents : ∀ e ∈ events, e.watcher = some i) :
  ∀ e ∈ (s.goto i w events).log, ∀ j ∈ e.watcher,
    ((s.goto i w events).watchers.lookup j).isSome = true
  := by
  intro e he j hj
  rw [lookup_goto]
  split
  · rfl
  · next hne =>
    rcases List.mem_append.mp he with he | he
    · apply h e he j hj
    · rw [hevents e he] at hj
      exact absurd (Option.some.inj hj).symm hne

/-- The watchers that are there are numbered below a number. -/
theorem numbered_goto
    {events : List Event} {n : Nat} (h : ∀ j, (s.watchers.lookup j).isSome = true → j < n)
    (hi : i < n) :
  ∀ j, ((s.goto i w events).watchers.lookup j).isSome = true → j < n
  := by
  intro j hj
  rw [lookup_goto] at hj
  split at hj
  · next hji => rwa [hji]
  · apply h j hj

/-- A step that writes one watcher keeps what is kept when it keeps what is kept of the
watcher, and of the task and the count. -/
theorem Kept.of_watcher
    {m n : Nat} {task : Option Nat} {t : Watch.Handles Bool} {c : QueryClient V}
    {events : List Event} (h : s.Kept) (hle : s.nextWatcher ≤ n) (hlt : i < n)
    (hhandles : t.Kept true) (htx : ∀ j, j ≠ i → s.tx.Spares t j) (hsent : t.sent = s.tx.sent)
    (hhand : t.hand = s.tx.hand) (hevents : ∀ e ∈ events, e.watcher = some i)
    (hlength : events.length ≤ 1) (hcount : task = none ↔ m = 0)
    (htask : ∀ j, task = some j ↔ (s.goto i w events).Live j)
    (hw : Clones.KeptWatcher ({ s with
      mountCount := m
      reconnectTask := task
      tx := t
      client := c
      nextWatcher := n }.goto i w events) i w) :
  Kept ({ s with
    mountCount := m
    reconnectTask := task
    tx := t
    client := c
    nextWatcher := n }.goto i w events)
  := by
  have hcases : events = [] ∨ ∃ e, events = [e] ∧ e.watcher = some i := by
    cases events with
    | nil => left; rfl
    | cons e es =>
      obtain rfl := List.eq_nil_of_length_eq_zero (Nat.le_zero.mp (Nat.le_of_succ_le_succ hlength))
      right
      use e, rfl, hevents e (List.mem_singleton_self e)
  constructor
  case handles => apply hhandles
  case told =>
    refine ⟨?_, h.told.sending, ?_, ?_⟩
    · intro hset
      apply (congrArg _ hsent).trans (h.told.sent hset)
    · intro online hlast
      apply h.told.changed online
      rcases hcases with rfl | ⟨e, rfl, he⟩
      · simpa [Clones.goto] using hlast
      · apply hlast.of_concat he
    · intro hset
      apply hhand.trans (h.told.hand hset)
  case watchers =>
    intro j v hj
    rw [lookup_goto] at hj
    split at hj
    · next hji =>
      obtain rfl := Option.some.inj hj
      rw [hji]
      apply hw
    · next hji =>
      have hv := h.watchers j v hj
      obtain ⟨rx, hrx⟩ := Option.isSome_iff_exists.mp hv.subscribed
      refine hv.of_spares (h.handles.sees j rx hrx).le (htx j hji) .inl ?_
      rcases hcases with rfl | ⟨e, rfl, he⟩
      · left
        apply List.append_nil s.log
      · right
        use e, rfl
        rw [he]
        constructor
        · simpa using Ne.symm hji
        · rintro rfl
          contradiction
  case numbered => exact numbered_goto (fun j hj => (h.numbered j hj).trans_le hle) hlt
  case unsubscribed =>
    intro j hj
    have hji : j ≠ i := (Nat.lt_of_lt_of_le hlt hj).ne'
    apply (htx j hji).watchers.trans (h.unsubscribed j (hle.trans hj))
  case logged => apply logged_goto h.logged hevents
  case task => apply htask
  case count => apply hcount

/-- A step of a watcher keeps what is kept when it keeps what is kept of the watcher. -/
theorem Kept.goto
    {t : Watch.Handles Bool} {c : QueryClient V} {events : List Event} (h : s.Kept)
    (hi : s.watchers.lookup i = some w) (hhandles : t.Kept true)
    (htx : ∀ j, j ≠ i → s.tx.Spares t j) (hsent : t.sent = s.tx.sent)
    (hhand : t.hand = s.tx.hand) (hevents : ∀ e ∈ events, e.watcher = some i)
    (hlength : events.length ≤ 1) (hvalue : w'.stopTx.value = w.stopTx.value)
    (hw : ({ s with tx := t, client := c }.goto i w' events).KeptWatcher i w') :
  ({ s with tx := t, client := c }.goto i w' events).Kept
  := by
  have hlt : i < s.nextWatcher := h.numbered i (by rw [hi]; rfl)
  apply h.of_watcher (Nat.le_refl _) hlt hhandles htx hsent hhand hevents hlength h.count _ hw
  intro j
  apply (h.task j).trans (live_goto events hi hvalue j).symm

theorem Doomed.stopped {log : List Event} (h : Doomed log i) :
  .stopped i ∈ log
  := by
  obtain ⟨l₁, l₂, rfl, hstop⟩ := h
  simp [hstop]

/-- What is kept of a watcher that has taken a step and was not told anything in it. -/
theorem KeptWatcher.goto
    {t : Watch.Handles Bool} {c : QueryClient V} {events : List Event} (h : s.KeptWatcher i w)
    (hstop : w'.stopTx.alive = w.stopTx.alive ∧ w'.stopTx.version = w.stopTx.version ∧
      w'.stopTx.value = w.stopTx.value)
    (hunseen : w'.pc ≠ .exited → w'.stopRx.lastSeen = 0)
    (hexited : w'.pc = .exited → w.stopTx.value = true)
    (hsubscribed : (t.watchers.lookup i).isSome = true) (hevents : .stopped i ∉ events)
    (hwaits : w'.pc.Waits → w'.woken = true ∨ t.pending.lookup i = some i)
    (howed : Owed (s.log ++ events) i → s.setting = .send true ∨
      t.observed i < t.sent.length ∨ w'.pc = .borrow ∨ w'.pc = .reconnect)
    (hdoomed : Doomed (s.log ++ events) i →
      w'.pc = .select ∨ w'.pc = .polling [.stop, .online] ∨ w'.pc = .exited)
    (hquiet : Quiet (s.log ++ events) i) :
  ({ s with tx := t, client := c }.goto i w' events).KeptWatcher i w'
  := by
  obtain ⟨halive, hversion, hvalue⟩ := hstop
  constructor
  case subscribed => apply hsubscribed
  case alive => rw [halive, h.alive]
  case version => rw [hversion, hvalue, h.version]
  case unseen => apply hunseen
  case told =>
    rw [hvalue, h.told, Clones.goto, List.mem_append, or_iff_left hevents]
  case exited => rwa [hvalue]
  case waits => apply hwaits
  case owed => apply howed
  case doomed => apply hdoomed
  case quiet => apply hquiet

/-- A watcher is polled. -/
theorem Kept.poll (h : s.Kept) (hi : s.watchers.lookup i = some w) (hpc : w.pc = .parked) :
  (s.goto i { w with pc := .select, woken := false } [.polled i]).Kept
  := by
  have hw := h.watchers i w hi
  refine h.goto (t := s.tx) (c := s.client) hi h.handles (fun _ _ => .refl _) rfl rfl
    (by simp [Event.watcher]) (Nat.le_refl _) rfl ?_
  refine hw.goto (t := s.tx) (c := s.client) ⟨rfl, rfl, rfl⟩ (fun _ => hw.unseen (by simp [hpc]))
    (by simp) hw.subscribed (by simp) ?_ ?_ ?_ ?_
  · apply False.elim
  · intro ho
    simpa [hpc] using hw.owed (ho.of_concat (by simp)).1
  · exact fun _ => .inl rfl
  · rw [quiet_concat]
    use hw.quiet
    intro hd
    simpa [hpc] using hw.doomed hd

/-- A watcher goes into a select that polls the stop cell first. -/
theorem Kept.select (h : s.Kept) (hi : s.watchers.lookup i = some w) (hpc : w.pc = .select) :
  (s.goto i { w with pc := .polling [.stop, .online] } []).Kept
  := by
  have hw := h.watchers i w hi
  refine h.goto (t := s.tx) (c := s.client) hi h.handles (fun _ _ => .refl _) rfl rfl
    (by simp) (Nat.zero_le _) rfl ?_
  refine hw.goto (t := s.tx) (c := s.client) ⟨rfl, rfl, rfl⟩ (fun _ => hw.unseen (by simp [hpc]))
    (by simp) hw.subscribed (by simp) ?_ ?_ ?_ ?_
  · simp [Pc.Waits]
  · intro ho
    rw [List.append_nil] at ho
    simpa [hpc] using hw.owed ho
  · exact fun _ => .inr (.inl rfl)
  · rw [List.append_nil]
    apply hw.quiet

/-- The poll of the stop cell is ready when the watcher was told to stop. -/
theorem KeptWatcher.changedPoll_stop (h : s.KeptWatcher i w) (hpc : w.pc ≠ .exited) :
  Watch.changedPoll w.stopTx w.stopRx i
    = if w.stopTx.value = true then (w.stopTx, { w.stopRx with lastSeen := 1 }, some (.ok ()))
      else ({ w.stopTx with waiters := w.stopTx.waiters.insert w.stopRx.id i }, w.stopRx, none)
  := by
  have hversion := h.version
  have hseen := h.unseen hpc
  split
  · next hvalue =>
    rw [hvalue, Bool.toNat_true] at hversion
    rw [Watch.changedPoll_ready (by rw [hversion, hseen]; decide), hversion]
  · next hvalue =>
    rw [Bool.not_eq_true] at hvalue
    rw [hvalue, Bool.toNat_false] at hversion
    rw [Watch.changedPoll_pending (hversion.trans hseen.symm) h.alive]

/-- A watcher polls its stop cell. -/
theorem Kept.pollStop
    {sides : List Side} {now : Instant} (h : s.Kept) (hi : s.watchers.lookup i = some w)
    (hpc : w.pc = .polling (.stop :: sides)) (hs : s.advance i w now = some s') :
  s'.Kept
  := by
  have hw := h.watchers i w hi
  have hrunning : w.pc ≠ .exited := by simp [hpc]
  simp only [Clones.advance, hpc, hw.changedPoll_stop hrunning] at hs
  by_cases hvalue : w.stopTx.value = true
  · rw [if_pos hvalue] at hs
    obtain rfl := Option.some.inj hs
    refine h.goto (t := s.tx) (c := s.client) hi h.handles (fun _ _ => .refl _) rfl rfl
      (by simp) (Nat.zero_le _) rfl ?_
    refine hw.goto (t := s.tx) (c := s.client) ⟨rfl, rfl, rfl⟩ (fun h => absurd rfl h)
      (fun _ => hvalue) hw.subscribed (by simp) ?_ ?_ ?_ ?_
    · apply False.elim
    · intro ho
      rw [List.append_nil] at ho
      simpa [hpc] using hw.owed ho
    · exact fun _ => .inr (.inr rfl)
    · rw [List.append_nil]
      apply hw.quiet
  · rw [if_neg hvalue] at hs
    obtain rfl := Option.some.inj hs
    refine h.goto (t := s.tx) (c := s.client) hi h.handles (fun _ _ => .refl _) rfl rfl
      (by simp) (Nat.zero_le _) rfl ?_
    refine hw.goto (t := s.tx) (c := s.client) ⟨rfl, rfl, rfl⟩ (fun _ => hw.unseen hrunning)
      (by simp) hw.subscribed (by simp) ?_ ?_ ?_ ?_
    · intro hwaits
      apply hw.waits
      rw [hpc]
      simpa [Pc.Waits] using hwaits
    · intro ho
      rw [List.append_nil] at ho
      simpa [hpc] using hw.owed ho
    · intro hd
      rw [List.append_nil] at hd
      exact absurd (hw.told.mpr hd.stopped) hvalue
    · rw [List.append_nil]
      apply hw.quiet

/-- A watcher polls the connectivity. -/
theorem Kept.pollOnline
    {sides : List Side} {now : Instant} (h : s.Kept) (hi : s.watchers.lookup i = some w)
    (hpc : w.pc = .polling (.online :: sides)) (hs : s.advance i w now = some s') :
  s'.Kept
  := by
  have hw := h.watchers i w hi
  have hrunning : w.pc ≠ .exited := by simp [hpc]
  have hdoomed : ¬ Doomed s.log i := by
    intro hd
    simpa [hpc] using hw.doomed hd
  obtain ⟨rx, hrx⟩ := Option.isSome_iff_exists.mp hw.subscribed
  simp only [Clones.advance, hpc, hrx, Option.bind_eq_bind, Option.bind_some] at hs
  obtain ⟨t, ht, hs⟩ := Option.bind_eq_some_iff.mp hs
  have hspares (j : Nat) (hj : j ≠ i) : s.tx.Spares t j :=
    Watch.Handles.spares_of_step ht (Ne.symm hj)
  have hkept := h.handles.step ht
  simp only [Watch.Handles.step, hrx, Option.bind_eq_bind, Option.bind_some] at ht
  have hchanged := h.handles.changed_iff hrx
  by_cases hv : s.tx.cell.version = rx.lastSeen
  · rw [Watch.changedPoll_pending hv h.handles.alive] at ht hs
    obtain rfl := Option.some.inj ht
    obtain rfl := Option.some.inj hs
    refine h.goto hi hkept hspares rfl rfl (by simp) (Nat.zero_le _) rfl ?_
    refine hw.goto ⟨rfl, rfl, rfl⟩ (fun _ => hw.unseen hrunning) (by simp) ?_ (by simp) ?_ ?_ ?_ ?_
    · simp [Watch.Handles.setWatcher]
    · exact fun _ => .inr (AList.lookup_insert _)
    · intro ho
      rw [List.append_nil] at ho
      rcases hw.owed ho with hset | hobserved | hpc'
      · left
        apply hset
      · exact absurd hv (hchanged.mp hobserved)
      · simp [hpc] at hpc'
    · intro hd
      rw [List.append_nil] at hd
      exact absurd hd hdoomed
    · rw [List.append_nil]
      apply hw.quiet
  · rw [Watch.changedPoll_ready hv] at ht hs
    obtain rfl := Option.some.inj ht
    obtain rfl := Option.some.inj hs
    refine h.goto hi hkept hspares rfl rfl (by simp) (Nat.zero_le _) rfl ?_
    refine hw.goto ⟨rfl, rfl, rfl⟩ (fun _ => hw.unseen hrunning) (by simp) ?_ (by simp) ?_ ?_ ?_ ?_
    · simp [Watch.Handles.setWatcher]
    · apply False.elim
    · exact fun _ => .inr (.inr (.inl rfl))
    · intro hd
      rw [List.append_nil] at hd
      exact absurd hd hdoomed
    · rw [List.append_nil]
      apply hw.quiet

/-- What the watcher reads, unless it is about to be told otherwise. -/
theorem Kept.value_eq (h : s.Kept) (hset : ∀ online, s.setting ≠ .send online) :
  s.tx.cell.value = s.online
  := h.handles.value.trans (h.told.sent hset)

/-- A watcher reads the connectivity. -/
theorem Kept.borrow
    {now : Instant} (h : s.Kept) (hi : s.watchers.lookup i = some w) (hpc : w.pc = .borrow)
    (hs : s.advance i w now = some s') :
  s'.Kept
  := by
  have hw := h.watchers i w hi
  have hrunning : w.pc ≠ .exited := by simp [hpc]
  have hdoomed : ¬ Doomed s.log i := by
    intro hd
    simpa [hpc] using hw.doomed hd
  obtain ⟨rx, hrx⟩ := Option.isSome_iff_exists.mp hw.subscribed
  simp only [Clones.advance, hpc, hrx, Option.bind_eq_bind, Option.bind_some] at hs
  obtain ⟨t, ht, hs⟩ := Option.bind_eq_some_iff.mp hs
  have hspares (j : Nat) (hj : j ≠ i) : s.tx.Spares t j :=
    Watch.Handles.spares_of_step ht (Ne.symm hj)
  have hkept := h.handles.step ht
  simp only [Watch.Handles.step, hrx, Option.bind_eq_bind, Option.bind_some] at ht
  obtain rfl := Option.some.inj ht
  obtain rfl := Option.some.inj hs
  refine h.goto hi hkept hspares rfl rfl (by simp) (Nat.zero_le _) rfl ?_
  refine hw.goto ⟨rfl, rfl, rfl⟩ (fun _ => hw.unseen hrunning) ?_ ?_ (by simp) ?_ ?_ ?_ ?_
  · simp only
    split
    · simp
    · simp
  · simp [Watch.Handles.setWatcher]
  · intro hwaits
    have hnot (online : Bool) : ¬ (if online = true then Pc.reconnect else Pc.select).Waits := by
      cases online with
      | true => apply id
      | false => apply id
    exact absurd hwaits (hnot _)
  · intro ho
    rw [List.append_nil] at ho
    -- offline is read only if the send of the last change is still to come
    have honline := h.told.changed true ho.lastChange
    by_cases hset : s.setting = .send true
    · left
      apply hset
    · right
      right
      right
      have hvalue : s.tx.cell.value = true := by
        rw [← honline]
        apply h.value_eq
        rintro online heq
        rw [← h.told.sending online heq, honline] at heq
        contradiction
      simp [Watch.borrow, hvalue]
  · intro hd
    rw [List.append_nil] at hd
    exact absurd hd hdoomed
  · rw [List.append_nil]
    apply hw.quiet

/-- A watcher runs `handle_reconnect`. -/
theorem Kept.reconnect
    {c : QueryClient V} (h : s.Kept) (hi : s.watchers.lookup i = some w)
    (hpc : w.pc = .reconnect) :
  ({ s with client := c }.goto i { w with pc := .select } [.reconnected i]).Kept
  := by
  have hw := h.watchers i w hi
  have hdoomed : ¬ Doomed s.log i := by
    intro hd
    simpa [hpc] using hw.doomed hd
  refine h.goto (t := s.tx) (c := c) hi h.handles (fun _ _ => .refl _) rfl rfl
    (by simp [Event.watcher]) (Nat.le_refl _) rfl ?_
  refine hw.goto (t := s.tx) (c := c) ⟨rfl, rfl, rfl⟩ (fun _ => hw.unseen (by simp [hpc]))
    (by simp) hw.subscribed (by simp) ?_ ?_ ?_ ?_
  · apply False.elim
  · intro ho
    exact absurd rfl (ho.of_concat (by simp)).2
  · exact fun _ => .inl rfl
  · rw [quiet_concat]
    exact ⟨hw.quiet, fun hd => absurd hd hdoomed⟩

/-- A watcher parks. -/
theorem Kept.park (h : s.Kept) (hi : s.watchers.lookup i = some w) (hpc : w.pc = .polling []) :
  (s.goto i { w with pc := .parked } [.parked i]).Kept
  := by
  have hw := h.watchers i w hi
  have hdoomed : ¬ Doomed s.log i := by
    intro hd
    simpa [hpc] using hw.doomed hd
  refine h.goto (t := s.tx) (c := s.client) hi h.handles (fun _ _ => .refl _) rfl rfl
    (by simp [Event.watcher]) (Nat.le_refl _) rfl ?_
  refine hw.goto (t := s.tx) (c := s.client) ⟨rfl, rfl, rfl⟩ (fun _ => hw.unseen (by simp [hpc]))
    (by simp) hw.subscribed (by simp) ?_ ?_ ?_ ?_
  · intro
    apply hw.waits
    simp [hpc, Pc.Waits]
  · intro ho
    simpa [hpc] using hw.owed (ho.of_concat (by simp)).1
  · intro hd
    rcases doomed_concat.mp hd with hd | ⟨heq, -⟩
    · exact absurd hd hdoomed
    · contradiction
  · rw [quiet_concat]
    exact ⟨hw.quiet, fun hd => absurd hd hdoomed⟩

/-- The next step of a watcher. -/
theorem Kept.advance
    {now : Instant} (h : s.Kept) (hi : s.watchers.lookup i = some w)
    (hs : s.advance i w now = some s') :
  s'.Kept
  := by
  cases hpc : w.pc with
  | polling sides =>
    rcases sides with _ | ⟨stop | online, sides⟩
    · simp only [Clones.advance, hpc] at hs
      obtain rfl := Option.some.inj hs
      apply h.park hi hpc
    · apply h.pollStop hi hpc hs
    · apply h.pollOnline hi hpc hs
  | borrow => apply h.borrow hi hpc hs
  | reconnect =>
    simp only [Clones.advance, hpc] at hs
    obtain rfl := Option.some.inj hs
    apply h.reconnect hi hpc
  | parked => simp [Clones.advance, hpc] at hs
  | select => simp [Clones.advance, hpc] at hs
  | exited => simp [Clones.advance, hpc] at hs

end Step

end Clones

end Mounting

end RsQuery
