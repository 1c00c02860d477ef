import RsQuery.Notices

/-!
# Queries bound to signals

`use_query` reads the state of a key into a signal, spawns the query, subscribes to the key
and leaves a pump behind, which reads the state again with every notification.  The slots of
`use_queries` are bound in the same way, but for the spawning.  Every access to the client is
a step, so that fetches, calls of other threads and other bindings come between any two.

What changes before the subscription is told to nobody who reads it again, and some calls
change the cache silently.  A signal is in sync where its pump has nothing to receive, along
every run in which no change is missed: `Bindings.inSync_of_run`.
-/

namespace RsQuery

variable {V : Type} [PartialEqAny V]

namespace QueryState

/-- The derived comparison of states. -/
def eqState : QueryState V → QueryState V → Bool
  | .idle, .idle | .loading, .loading => true
  | .loadingWithPlaceholder d, .loadingWithPlaceholder d' => eqAny d d'
  | .refetching d, .refetching d' => eqAny d d'
  | .success d, .success d' => eqAny d d'
  | .stale d, .stale d' => eqAny d d'
  | .error e none, .error e' none => e = e'
  | .error e (some d), .error e' (some d') => decide (e = e') && eqAny d d'
  | _, _ => false

/-- Two states are the same, or compare equal. -/
def Matches (state state' : QueryState V) : Prop :=
  state = state' ∨ state.eqState state' = true ∨ state'.eqState state = true

end QueryState

/-- `Signal::set_if_eq` of the reactive framework: what a signal holds afterwards. -/
structure SetIfEq (V : Type) [PartialEqAny V] where
  set : QueryState V → QueryState V → QueryState V
  /-- It is the new state, or what the signal held, if that compares equal. -/
  set_matches : ∀ held fresh, set held fresh = fresh ∨ (set held fresh = held ∧ held.Matches fresh)

/-- The write of a slot of `use_queries`. -/
def setSlot (held fresh : QueryState V) : QueryState V :=
  if held.eqState fresh then held else fresh

/-- A state without data. -/
def placeholderState (placeholder : Option V) : QueryState V :=
  match placeholder with
  | some data => .loadingWithPlaceholder data
  | none => .idle

/-- Where a binding stands: what the thread that sets it up does next, and then its pump,
which has the receiver `rx`. -/
inductive PumpPc (V : Type) where
  /-- Looks whether there is data. -/
  | seed
  /-- Puts the initial data into the cache. -/
  | store (initial : V)
  /-- Reads the data for the signal. -/
  | read
  /-- Reads whether the data is stale. -/
  | readStale (data : V)
  /-- Spawns the query. -/
  | spawn
  /-- In `spawn_query`, which has spawned this run. -/
  | spawned (i : Nat)
  | subscribe
  /-- Polls `recv`. -/
  | receive (rx : Nat)
  /-- Suspended in `recv`. -/
  | parked (rx : Nat)
  /-- Looks at the stop token. -/
  | received (rx : Nat)
  /-- Reads the data. -/
  | reread (rx : Nat)
  /-- Reads whether the data is stale. -/
  | rereadStale (rx : Nat) (data : V)
  /-- Writes the signal. -/
  | write (rx : Nat) (fresh : QueryState V)
  | ended

/-- The receiver of a pump. -/
def PumpPc.rx : PumpPc V → Option Nat
  | .receive rx | .parked rx | .received rx | .reread rx | .rereadStale rx _ | .write rx _ =>
    some rx
  | _ => none

/-- A binding: a query with the signal it is read into. -/
structure Pump (V : Type) [PartialEqAny V] where
  query : SeededQuery V
  /-- It is `use_query`'s, not a slot of `use_queries`. -/
  single : Bool
  /-- The task of the pump. -/
  task : Waker
  /-- What the signal holds. -/
  value : QueryState V
  /-- The stop token is cancelled. -/
  stopped : Bool
  pc : PumpPc V
  /-- What the accesses of the first read found; no step depends on it. -/
  seen : List (Option (EntryView V))

namespace Pump

/-- The cache key of the query. -/
def key (p : Pump V) : String :=
  p.query.key.cacheKey

/-- A binding that begins. -/
def new (query : SeededQuery V) (single : Bool) (task : Waker) : Pump V :=
  ⟨query, single, task, .idle, false, .seed, []⟩

/-- The state of the query as a client has it. -/
def readState (p : Pump V) (c : QueryClient V) (now : Instant) : QueryState V :=
  readQueryState c now p.query.key p.query.typeId (placeholderValue p.query)

/-- The accesses of the first read found what a client has. -/
def Saw (p : Pump V) (c : QueryClient V) : Prop :=
  ∀ view ∈ p.seen, view = c.view p.key

/-- The binding with its signal made from what its accesses found. -/
def createSignal (p : Pump V) (seen : List (Option (EntryView V))) (state : QueryState V) :
    Pump V :=
  { p with value := state, pc := if p.single then .spawn else .subscribe, seen := seen }

/-- The client without the receiver of the pump. -/
def dropReceiver (p : Pump V) (c : QueryClient V) (rx : Nat) : QueryClient V :=
  { c with
      subscribers := Table.adjust p.key (fun sender => Bus.dropReceiver sender rx) c.subscribers }

/-- One poll of `recv`; a lag counts as a notification. -/
def recvPoll (p : Pump V) (c : QueryClient V) (rx : Nat) : QueryClient V × PumpPc V :=
  match c.subscribers.lookup p.key with
  | none => (c, .ended)
  | some sender =>
    let (sender, poll) := Bus.recvPoll sender rx p.task
    let c := { c with subscribers := c.subscribers.insert p.key sender }
    match poll with
    | none => (c, .parked rx)
    | some (.ok _) | some (.error (.lagged _)) => (c, .received rx)
    | some (.error .closed) => (p.dropReceiver c rx, .ended)

/-- One step of a binding. -/
def advance (signal : SetIfEq V) (p : Pump V) (s : Sys V) : Option (Sys V × Pump V) :=
  match p.pc with
  | .seed =>
    match s.client.getQueryData p.query.key p.query.typeId, p.query.initialData with
    | none, some initial => some (s, { p with pc := .store initial })
    | _, _ => some (s, { p with pc := .read })
  | .store initial =>
    some ({ s with client := s.client.setQueryData s.now p.query.key initial p.query.options },
      { p with pc := .read })
  | .read =>
    match s.client.getQueryData p.query.key p.query.typeId with
    | some data => some (s, { p with pc := .readStale data, seen := [s.client.view p.key] })
    | none =>
      some (s, p.createSignal [s.client.view p.key]
        (placeholderState (placeholderValue p.query)))
  | .readStale data =>
    some (s, p.createSignal (s.client.view p.key :: p.seen)
      (if s.client.isStale s.now p.query.key then .stale data else .success data))
  | .spawn => some (s.spawn p.query.toQuery, { p with pc := .spawned s.nextRun })
  | .spawned i =>
    if (s.runs.lookup i).any (·.returned) then some (s, { p with pc := .subscribe }) else none
  | .subscribe =>
    let (c, rx) := s.client.subscribe p.key
    some ({ s with client := c }, { p with pc := .receive rx })
  | .receive rx =>
    let (c, pc) := p.recvPoll s.client rx
    some ({ s with client := c }, { p with pc := pc })
  | .parked rx => some (s, { p with pc := .receive rx })
  | .received rx =>
    if p.single ∧ p.stopped then
      some ({ s with client := p.dropReceiver s.client rx }, { p with pc := .ended })
    else some (s, { p with pc := .reread rx })
  | .reread rx =>
    match s.client.getQueryData p.query.key p.query.typeId with
    | some data => some (s, { p with pc := .rereadStale rx data })
    | none =>
      some (s, { p with pc := .write rx (placeholderState (placeholderValue p.query)) })
  | .rereadStale rx data =>
    some (s, { p with
      pc := .write rx
        (if s.client.isStale s.now p.query.key then .stale data else .success data) })
  | .write rx fresh =>
    some (s, { p with
      value := if p.single then signal.set p.value fresh else setSlot p.value fresh
      pc := .receive rx })
  | .ended => none

/-! ### What is asked of a signal -/

/-- The receiver the pump is suspended at. -/
def parked (p : Pump V) : Option Nat :=
  match p.pc with
  | .parked rx => some rx
  | _ => none

/-- The pump is suspended with nothing to receive, and no fetch is about to notify it. -/
def Quiet (p : Pump V) (s : Sys V) : Prop :=
  ∃ rx ∈ p.parked, ¬ (s.client.slot p.key).Stirred rx ∧ ¬ s.Announces p.key

/-- The signal holds what is read from the cache, but for what only time made stale. -/
def InSync (p : Pump V) (s : Sys V) : Prop :=
  ∃ now ≤ s.now, p.value.Matches (p.readState s.client now)

/-- A notification is there, or on its way. -/
def Notified (p : Pump V) (s : Sys V) (rx : Nat) : Prop :=
  (s.client.slot p.key).Stirred rx ∨ s.Announces p.key

/-- The pump is going to read the cache. -/
def Rereads (p : Pump V) : Prop :=
  match p.pc with
  | .received _ | .reread _ => True
  | _ => False

/-- The pump reads the cache again after this. -/
def Due (p : Pump V) (s : Sys V) (rx : Nat) : Prop :=
  p.Notified s rx ∨ p.Rereads

/-- The binding subscribes next. -/
def Subscribes (p : Pump V) : Prop :=
  match p.pc with
  | .subscribe => True
  | _ => False

section Decidable

variable (p : Pump V) (s : Sys V) (rx : Nat)

instance [DecidableEq V] (c : QueryClient V) : Decidable (p.Saw c) :=
  inferInstanceAs (Decidable (∀ view ∈ _, _))

instance : Decidable (p.Quiet s) :=
  inferInstanceAs (Decidable (∃ rx ∈ p.parked, _))

instance [DecidableEq V] : Decidable (p.InSync s) :=
  inferInstanceAs (Decidable (∃ now ≤ s.now, _ ∨ _))

instance : Decidable p.Rereads := by
  unfold Rereads
  split
  all_goals infer_instance

instance : Decidable (p.Due s rx) :=
  inferInstanceAs (Decidable ((_ ∨ _) ∨ p.Rereads))

instance : Decidable p.Subscribes := by
  unfold Subscribes
  split
  all_goals infer_instance

end Decidable

end Pump

/-- A client with its executions, and the bindings on it. -/
structure Bindings (V : Type) [PartialEqAny V] where
  sys : Sys V
  pumps : Table Nat (Pump V)

namespace Bindings

/-- A step of the system. -/
inductive Action (V : Type) [PartialEqAny V] where
  /-- A fetch or another thread goes on; `spawn_query`'s second half is one of these too. -/
  | sys (a : RsQuery.Action V)
  /-- `use_query` is called; the binding is given this number. -/
  | useQuery (j : Nat) (query : SeededQuery V) (task : Waker)
  /-- `use_queries` comes to one of its specs. -/
  | useQueriesSlot (j : Nat) (query : SeededQuery V) (task : Waker)
  | advance (j : Nat)
  /-- A `UseQuery` is dropped. -/
  | stop (j : Nat)

/-- The system with one binding replaced. -/
def setPump (s : Bindings V) (j : Nat) (p : Pump V) : Bindings V :=
  { s with pumps := s.pumps.insert j p }

/-- The state after an action, if it is enabled. -/
def step (signal : SetIfEq V) (s : Bindings V) : Action V → Option (Bindings V)
  | .sys a => do
    let sys ← s.sys.step a
    some { s with sys := sys }
  | .useQuery j query task =>
    if (s.pumps.lookup j).isSome then none else some (s.setPump j (.new query true task))
  | .useQueriesSlot j query task =>
    if (s.pumps.lookup j).isSome then none else some (s.setPump j (.new query false task))
  | .advance j => do
    let p ← s.pumps.lookup j
    let (sys, p) ← p.advance signal s.sys
    some { s.setPump j p with sys := sys }
  | .stop j => do
    let p ← s.pumps.lookup j
    some (s.setPump j { p with stopped := true })

/-- No binding on a new client, and every step. -/
def machine (signal : SetIfEq V) : Machine (Bindings V) (Action V) :=
  ⟨fun s => s = ⟨.initial, ∅⟩, step signal⟩

/-- The signal of every quiet pump is in sync. -/
def Synced (s : Bindings V) : Prop :=
  ∀ j p, s.pumps.lookup j = some p → p.Quiet s.sys → p.InSync s.sys

/-- No change is missed.  A binding subscribes while the cache has what it has read, unless a
fetch is to notify it, and what changes silently changes for pumps only that are to read the
cache again. -/
def MissesNothing (s : Bindings V) : Action V → Prop
  | .sys a => ∀ j p, s.pumps.lookup j = some p →
    ∀ rx ∈ p.pc.rx, s.sys.Silent a p.key → p.Due s.sys rx
  | .advance j => ∀ p ∈ s.pumps.lookup j, p.Subscribes → p.Saw s.sys.client ∨ s.sys.Announces p.key
  | _ => True

instance [DecidableEq V] (s : Bindings V) (a : Action V) : Decidable (s.MissesNothing a) := by
  unfold MissesNothing
  split
  all_goals infer_instance

end Bindings

/-! ### What is read -/

namespace QueryState

theorem Matches.refl (state : QueryState V) :
  state.Matches state
  := .inl rfl

end QueryState

theorem setSlot_matches (held fresh : QueryState V) :
  (setSlot held fresh).Matches fresh
  := by
  unfold setSlot
  split
  · next h => exact .inr (.inl h)
  · apply QueryState.Matches.refl

theorem SetIfEq.matches (signal : SetIfEq V) (held fresh : QueryState V) :
  (signal.set held fresh).Matches fresh
  := by
  obtain h | ⟨h, ha⟩ := signal.set_matches held fresh
  · rw [h]
    apply QueryState.Matches.refl
  · rw [h]
    apply ha

namespace Pump

variable {p p' : Pump V} {c c' : QueryClient V} {now : Instant} {data : V}

theorem readState_congr (h : c'.view p.key = c.view p.key) (now : Instant) :
  p.readState c' now = p.readState c now
  := by
  simp only [readState, readQueryState, QueryClient.getQueryData_congr h,
    QueryClient.isStale_congr h]

theorem readState_of_data (h : c.getQueryData p.query.key p.query.typeId = some data) :
  p.readState c now = if c.isStale now p.query.key then .stale data else .success data
  := by
  simp only [readState, readQueryState, h]

theorem readState_of_none (h : c.getQueryData p.query.key p.query.typeId = none) :
  p.readState c now = placeholderState (placeholderValue p.query)
  := by
  simp only [readState, readQueryState, h]
  rfl

/-! ### What a binding does to the client -/

/-- A poll concerns the receiver of the pump, which is suspended only with nothing to
receive. -/
structure Polled (p : Pump V) (c : QueryClient V) (rx : Nat) (r : QueryClient V × PumpPc V) :
    Prop where
  client : ∃ subs, r.1 = { c with subscribers := subs }
  trace : ∀ {R : Option Nat → List QueryStateVariant → Slot V → Slot V → Prop}, Slot.Traces R →
    ∀ k, R (if k = p.key then some rx else none) [] (c.slot k) (r.1.slot k)
  pc : r.2 = .ended ∨ ((r.2 = .received rx ∨ (r.2 = .parked rx ∧ ¬ (c.slot p.key).Stirred rx)) ∧
    (r.1.slot p.key).Attached rx)

theorem polled_recvPoll (p : Pump V) {rx : Nat} (ha : (c.slot p.key).Attached rx) :
  p.Polled c rx (p.recvPoll c rx)
  := by
  obtain ⟨hlt, st, hst, halive⟩ := ha
  obtain ⟨sender, hs, hst⟩ := Option.bind_eq_some_iff.mp hst
  have hs : c.subscribers.lookup p.key = some sender := hs
  have htrace {R : Option Nat → List QueryStateVariant → Slot V → Slot V → Prop}
      (hR : Slot.Traces R) (k : String) :
      R (if k = p.key then some rx else none) [] (c.slot k)
        ({ c with
            subscribers :=
              c.subscribers.insert p.key (Bus.recvPoll sender rx p.task).1 }.slot k) :=
    hR.recvPoll hs rfl k
  have hattached (h : (Bus.recvPoll sender rx p.task).2 ≠ some (.error .closed)) :
      (({ c with
          subscribers :=
            c.subscribers.insert p.key (Bus.recvPoll sender rx p.task).1 } :
          QueryClient V).slot p.key).Attached rx := by
    obtain ⟨st', hst', halive'⟩ := Bus.recvPoll_alive hst halive h
    have hnext : (Bus.recvPoll sender rx p.task).1.nextId = sender.nextId := by
      rw [Bus.recvPoll_fst]
      apply (Bus.pollState_lookup_ne (Nat.succ_ne_self rx) sender _).2
    constructor
    · simpa [Slot.nextRx, QueryClient.slot, hnext, hs] using hlt
    · exact ⟨st', by simpa [Slot.receiver, QueryClient.slot] using hst', halive'⟩
  simp only [recvPoll, hs]
  split
  · next hpoll =>
    refine ⟨⟨_, rfl⟩, htrace, .inr ⟨.inr ⟨rfl, ?_⟩, hattached (by simp [hpoll])⟩⟩
    obtain ⟨hqueue, hmissed⟩ := Bus.recvPoll_none hst hpoll
    rintro ⟨st', hst', hstirred⟩
    obtain rfl : st = st' := by
      obtain ⟨sender', hs', hst'⟩ := Option.bind_eq_some_iff.mp hst'
      obtain rfl := Option.some.inj (hs.symm.trans hs')
      apply Option.some.inj (hst.symm.trans hst')
    simp [Bus.RecvState.Stirred, hqueue, hmissed] at hstirred
  · next hpoll => exact ⟨⟨_, rfl⟩, htrace, .inr ⟨.inl rfl, hattached (by simp [hpoll])⟩⟩
  · next hpoll => exact ⟨⟨_, rfl⟩, htrace, .inr ⟨.inl rfl, hattached (by simp [hpoll])⟩⟩
  · refine ⟨⟨_, rfl⟩, fun hR k => ?_, .inl rfl⟩
    apply hR.trans (htrace hR k) (hR.dropReceiver rfl k)

/-- What a step of a binding does to the system: nothing, a step of the system that moves no
run and changes nothing silently, or something to the receiver of the pump. -/
theorem sys_advance
    {signal : SetIfEq V} {s s' : Sys V}
    (ha : ∀ rx ∈ p.pc.rx, (s.client.slot p.key).Attached rx)
    (h : p.advance signal s = some (s', p')) :
  s' = s ∨ (∃ a, s.step a = some s' ∧ (∀ i, ¬ a.Moves i) ∧ ∀ k, ¬ s.Silent a k) ∨
    ∃ rx subs, p.pc.rx = some rx ∧ s' = { s with client.subscribers := subs } ∧
      ∀ {R : Option Nat → List QueryStateVariant → Slot V → Slot V → Prop}, Slot.Traces R →
        ∀ k, R (if k = p.key then some rx else none) [] (s.client.slot k) (s'.client.slot k)
  := by
  unfold advance at h
  split at h
  case h_2 initial hpc =>
    obtain ⟨rfl, -⟩ := Prod.mk.inj (Option.some.inj h)
    right
    left
    exact ⟨.call (.setQueryData p.query.key initial p.query.options), rfl, nofun, nofun⟩
  case h_5 hpc =>
    obtain ⟨rfl, -⟩ := Prod.mk.inj (Option.some.inj h)
    right
    left
    exact ⟨.spawn p.query.toQuery, rfl, nofun, nofun⟩
  case h_7 hpc =>
    obtain ⟨rfl, -⟩ := Prod.mk.inj (Option.some.inj h)
    right
    left
    exact ⟨.call (.subscribe p.key), rfl, nofun, nofun⟩
  case h_8 rx hpc =>
    have hs' : { s with client := (p.recvPoll s.client rx).1 } = s' :=
      congrArg Prod.fst (Option.some.inj h)
    have hrx : p.pc.rx = some rx := by rw [hpc]; rfl
    have hpolled := p.polled_recvPoll (ha rx hrx)
    obtain ⟨subs, hsubs⟩ := hpolled.client
    right
    right
    rw [← hs']
    exact ⟨rx, subs, hrx, by rw [hsubs], fun hR => hpolled.trace hR⟩
  case h_10 rx hpc =>
    split at h
    · obtain ⟨rfl, -⟩ := Prod.mk.inj (Option.some.inj h)
      right
      right
      refine ⟨rx, _, by rw [hpc]; rfl, rfl, ?_⟩
      exact fun hR => hR.dropReceiver rfl
    · obtain ⟨rfl, -⟩ := Prod.mk.inj (Option.some.inj h)
      left
      rfl
  all_goals repeat' split at h
  all_goals try contradiction
  all_goals
    left
    apply (congrArg Prod.fst (Option.some.inj h)).symm

end Pump

namespace Pump

variable {p p' : Pump V} {s s' : Sys V} {signal : SetIfEq V}

theorem query_advance (h : p.advance signal s = some (s', p')) :
  p'.query = p.query
  := by
  unfold advance at h
  split at h
  all_goals repeat' split at h
  all_goals try contradiction
  all_goals exact (congrArg (fun x => x.2.query) (Option.some.inj h)).symm

theorem informs_advance
    (hsane : s.Sane) (ha : ∀ rx ∈ p.pc.rx, (s.client.slot p.key).Attached rx)
    (h : p.advance signal s = some (s', p')) :
  Sys.Informs (fun k => if k = p.key then p.pc.rx else none) (fun _ => False) s s'
  := by
  obtain rfl | ⟨a, hs, hm, hq⟩ | ⟨rx, subs, hrx, rfl, htrace⟩ := sys_advance ha h
  · use Nat.le_refl _
    exact fun k => ⟨[], Slot.stirs_traces.of_sender rfl, fun _ => ⟨id, .inl rfl⟩⟩
  · apply Sys.informs_of_plain hsane hs hm hq
  · rw [hrx]
    apply Sys.informs_of_channels
    apply htrace Slot.stirs_traces

theorem sane_advance
    (hsane : s.Sane) (ha : ∀ rx ∈ p.pc.rx, (s.client.slot p.key).Attached rx)
    (h : p.advance signal s = some (s', p')) :
  s'.Sane
  := by
  obtain rfl | ⟨a, hs, -⟩ | ⟨rx, subs, -, rfl, -⟩ := sys_advance ha h
  · apply hsane
  · apply hsane.step hs
  · apply hsane.channels

/-- The receivers of waiting calls are as they were. -/
theorem runs_advance
    (hw : s.Wired) (ha : ∀ rx ∈ p.pc.rx, (s.client.slot p.key).Attached rx)
    (h : p.advance signal s = some (s', p')) {i rx : Nat} {r' : Run V}
    (hr' : s'.runs.lookup i = some r') (hrx : rx ∈ r'.rx) :
  ∃ r, s.runs.lookup i = some r ∧ r'.query = r.query ∧ rx ∈ r.rx
  := by
  obtain rfl | ⟨a, hs, hm, -⟩ | ⟨rx', subs, -, rfl, -⟩ := sys_advance ha h
  · exact ⟨r', hr', rfl, hrx⟩
  · obtain ⟨r, hr, hq, -, hold | ⟨hmoves, -⟩⟩ := hw.rx_step hs hr' hrx
    · exact ⟨r, hr, hq, hold⟩
    · exact absurd hmoves (hm i)
  · exact ⟨r', hr', rfl, hrx⟩

theorem wired_advance
    (hw : s.Wired) (ha : ∀ rx ∈ p.pc.rx, (s.client.slot p.key).Attached rx)
    (hapart : ∀ i r, s.runs.lookup i = some r → r.query.key.cacheKey = p.key →
      ∀ rx ∈ p.pc.rx, rx ∉ r.rx)
    (h : p.advance signal s = some (s', p')) :
  s'.Wired
  := by
  obtain rfl | ⟨a, hs, -⟩ | ⟨rx, subs, hrx, rfl, htrace⟩ := sys_advance ha h
  · apply hw
  · apply hw.step hs
  · apply hw.channels (htrace Slot.stirs_traces)
    intro i r hr rx' hrx'
    split
    · next hkey =>
      intro heq
      obtain rfl := Option.some.inj heq
      apply hapart i r hr hkey rx hrx hrx'
    · exact nofun

/-! ### What holds of a binding -/

/-- What holds of a binding where it stands. -/
def Holds (p : Pump V) (s : Sys V) : Prop :=
  match p.pc with
  | .readStale data =>
    ∀ c, p.Saw c → c.getQueryData p.query.key p.query.typeId = some data
  | .spawn | .spawned _ | .subscribe =>
    ∀ c, p.Saw c → ∃ now ≤ s.now, p.value.Matches (p.readState c now)
  | .receive rx | .parked rx => p.Due s rx ∨ p.InSync s
  | .rereadStale rx data =>
    p.Due s rx ∨ s.client.getQueryData p.query.key p.query.typeId = some data
  | .write rx fresh => p.Due s rx ∨ ∃ now ≤ s.now, fresh = p.readState s.client now
  | _ => True

@[simp]
theorem rx_createSignal (p : Pump V) (seen : List (Option (EntryView V))) (state : QueryState V) :
  (p.createSignal seen state).pc.rx = none
  := by
  unfold createSignal
  split
  · rfl
  · rfl

/-- A signal is made with what is read. -/
theorem holds_createSignal {seen : List (Option (EntryView V))} {state : QueryState V}
    (h : ∀ c, (∀ view ∈ seen, view = c.view p.key) → state = p.readState c s.now) :
  (p.createSignal seen state).Holds s
  := by
  have read (c : QueryClient V) (hsaw : ∀ view ∈ seen, view = c.view p.key) :
      ∃ now ≤ s.now, state.Matches (p.readState c now) := by
    refine ⟨s.now, Nat.le_refl _, ?_⟩
    rw [← h c hsaw]
    apply QueryState.Matches.refl
  unfold createSignal
  split
  · apply read
  · apply read

/-- A binding that others' steps inform goes on as it should. -/
theorem Holds.informs
    {own : String → Option Nat} {silent : String → Prop} (h : p.Holds s)
    (hi : Sys.Informs own silent s s') (hne : ∀ rx ∈ p.pc.rx, own p.key ≠ some rx)
    (ha : ∀ rx ∈ p.pc.rx, (s.client.slot p.key).Attached rx)
    (hsilent : ∀ rx ∈ p.pc.rx, silent p.key → p.Due s rx) :
  p.Holds s'
  := by
  have due (rx : Nat) (hrx : rx ∈ p.pc.rx) :
      (p.Due s rx → p.Due s' rx) ∧ (p.Due s' rx ∨ s'.client.view p.key = s.client.view p.key) := by
    obtain ⟨hkept, hview⟩ := hi.due (hne rx hrx) (ha rx hrx)
    have kept (hd : p.Due s rx) : p.Due s' rx := hd.imp_left hkept
    use kept
    obtain hst | hann | hv | hq := hview
    · exact .inl (.inl (.inl hst))
    · exact .inl (.inl (.inr hann))
    · exact .inr hv
    · exact .inl (kept (hsilent rx hrx hq))
  have setUp (h : ∀ c, p.Saw c → ∃ now ≤ s.now, p.value.Matches (p.readState c now)) :
      ∀ c, p.Saw c → ∃ now ≤ s'.now, p.value.Matches (p.readState c now) := by
    intro c hsaw
    obtain ⟨now, hnow, hmatches⟩ := h c hsaw
    exact ⟨now, hnow.trans hi.now, hmatches⟩
  -- a signal in sync stays so, unless the pump is to read again
  have synced (rx : Nat) (hrx : rx ∈ p.pc.rx) (h : p.Due s rx ∨ p.InSync s) :
      p.Due s' rx ∨ p.InSync s' := by
    obtain ⟨hkept, hd | hv⟩ := due rx hrx
    · exact .inl hd
    · apply h.imp hkept
      rintro ⟨now, hnow, hmatches⟩
      refine ⟨now, hnow.trans hi.now, ?_⟩
      rwa [readState_congr hv]
  unfold Holds at h ⊢
  cases hpc : p.pc with
  | readStale data => simpa only [hpc] using h
  | spawn =>
    simp only [hpc] at h
    apply setUp h
  | spawned i =>
    simp only [hpc] at h
    apply setUp h
  | subscribe =>
    simp only [hpc] at h
    apply setUp h
  | receive rx =>
    simp only [hpc] at h
    apply synced rx (by rw [hpc]; rfl) h
  | parked rx =>
    simp only [hpc] at h
    apply synced rx (by rw [hpc]; rfl) h
  | rereadStale rx data =>
    simp only [hpc] at h
    obtain ⟨hkept, hd | hv⟩ := due rx (by rw [hpc]; rfl)
    · exact .inl hd
    · apply h.imp hkept
      intro hdata
      rw [QueryClient.getQueryData_congr hv, hdata]
  | write rx fresh =>
    simp only [hpc] at h
    obtain ⟨hkept, hd | hv⟩ := due rx (by rw [hpc]; rfl)
    · exact .inl hd
    · apply h.imp hkept
      rintro ⟨now, hnow, hfresh⟩
      refine ⟨now, hnow.trans hi.now, ?_⟩
      rw [readState_congr hv, hfresh]
  | _ => trivial

/-- The receiver of a pump after its step was its receiver before, or is a new one. -/
theorem rx_advance
    (ha : ∀ rx ∈ p.pc.rx, (s.client.slot p.key).Attached rx)
    (h : p.advance signal s = some (s', p')) {rx : Nat} (hrx : rx ∈ p'.pc.rx) :
  (s'.client.slot p.key).Attached rx ∧ (rx ∈ p.pc.rx ∨ (s.client.slot p.key).nextRx ≤ rx)
  := by
  -- the pump goes on with its receiver, the channel being as it was
  have same {rx' : Nat} (hpc : p.pc.rx = some rx') (hs : s = s') (hrx' : rx ∈ some rx') :
      (s'.client.slot p.key).Attached rx ∧
        (rx ∈ p.pc.rx ∨ (s.client.slot p.key).nextRx ≤ rx) := by
    obtain rfl := Option.mem_some_iff.mp hrx'
    rw [← hs]
    exact ⟨ha _ hpc, .inl hpc⟩
  cases hpc : p.pc with
  | subscribe =>
    simp only [advance, hpc] at h
    obtain ⟨rfl, rfl⟩ := Prod.mk.inj (Option.some.inj h)
    obtain rfl := Option.some.inj hrx
    obtain ⟨hattached, hnew⟩ := s.client.attached_subscribe p.key
    exact ⟨hattached, .inr hnew⟩
  | receive rx' =>
    simp only [advance, hpc] at h
    obtain ⟨rfl, rfl⟩ := Prod.mk.inj (Option.some.inj h)
    have hrx' : p.pc.rx = some rx' := by rw [hpc]; rfl
    obtain hend | ⟨hgo, hattached⟩ := (p.polled_recvPoll (ha rx' hrx')).pc
    · dsimp only at hrx
      rw [hend] at hrx
      contradiction
    · dsimp only at hrx
      obtain hgo | ⟨hgo, -⟩ := hgo
      · rw [hgo] at hrx
        obtain rfl := Option.some.inj hrx
        exact ⟨hattached, .inl rfl⟩
      · rw [hgo] at hrx
        obtain rfl := Option.some.inj hrx
        exact ⟨hattached, .inl rfl⟩
  | parked rx' =>
    simp only [advance, hpc] at h
    obtain ⟨hs, rfl⟩ := Prod.mk.inj (Option.some.inj h)
    rw [← hpc]
    apply same (by rw [hpc]; rfl) hs hrx
  | received rx' =>
    simp only [advance, hpc] at h
    split at h
    · obtain ⟨-, rfl⟩ := Prod.mk.inj (Option.some.inj h)
      contradiction
    · obtain ⟨hs, rfl⟩ := Prod.mk.inj (Option.some.inj h)
      rw [← hpc]
      apply same (by rw [hpc]; rfl) hs hrx
  | reread rx' =>
    simp only [advance, hpc] at h
    rw [← hpc]
    split at h
    · obtain ⟨hs, rfl⟩ := Prod.mk.inj (Option.some.inj h)
      apply same (by rw [hpc]; rfl) hs hrx
    · obtain ⟨hs, rfl⟩ := Prod.mk.inj (Option.some.inj h)
      apply same (by rw [hpc]; rfl) hs hrx
  | rereadStale rx' data =>
    simp only [advance, hpc] at h
    obtain ⟨hs, rfl⟩ := Prod.mk.inj (Option.some.inj h)
    rw [← hpc]
    apply same (by rw [hpc]; rfl) hs hrx
  | write rx' fresh =>
    simp only [advance, hpc] at h
    obtain ⟨hs, rfl⟩ := Prod.mk.inj (Option.some.inj h)
    rw [← hpc]
    apply same (by rw [hpc]; rfl) hs hrx
  | _ =>
    -- no receiver yet, or none any more
    simp only [advance, hpc] at h
    repeat' split at h
    all_goals try contradiction
    all_goals
      have hnone : _ = p'.pc.rx := congrArg (fun x => x.2.pc.rx) (Option.some.inj h)
      rw [← hnone] at hrx
      first
      | contradiction
      | simp at hrx

/-- What holds of a binding after its step. -/
theorem Holds.advance
    (h : p.Holds s) (ha : ∀ rx ∈ p.pc.rx, (s.client.slot p.key).Attached rx)
    (hok : p.Subscribes → p.Saw s.client ∨ s.Announces p.key)
    (hs : p.advance signal s = some (s', p')) :
  p'.Holds s'
  := by
  cases hpc : p.pc with
  | seed =>
    simp only [Pump.advance, hpc] at hs
    split at hs
    · obtain ⟨-, rfl⟩ := Prod.mk.inj (Option.some.inj hs)
      trivial
    · obtain ⟨-, rfl⟩ := Prod.mk.inj (Option.some.inj hs)
      trivial
  | store initial =>
    simp only [Pump.advance, hpc] at hs
    obtain ⟨-, rfl⟩ := Prod.mk.inj (Option.some.inj hs)
    trivial
  | read =>
    simp only [Pump.advance, hpc] at hs
    split at hs
    · next data hdata =>
      obtain ⟨rfl, rfl⟩ := Prod.mk.inj (Option.some.inj hs)
      intro c hsaw
      rw [← QueryClient.getQueryData_congr (hsaw _ List.mem_cons_self), hdata]
    · next hdata =>
      obtain ⟨rfl, rfl⟩ := Prod.mk.inj (Option.some.inj hs)
      apply holds_createSignal
      intro c hsaw
      rw [readState_congr (hsaw _ List.mem_cons_self).symm, readState_of_none hdata]
  | readStale data =>
    simp only [Pump.advance, hpc] at hs
    simp only [Holds, hpc] at h
    obtain ⟨rfl, rfl⟩ := Prod.mk.inj (Option.some.inj hs)
    apply holds_createSignal
    intro c hsaw
    have hdata := h c fun view hview => hsaw view (List.mem_cons_of_mem _ hview)
    have hview := hsaw _ List.mem_cons_self
    rw [readState_of_data hdata, QueryClient.isStale_congr hview]
  | spawn =>
    simp only [Pump.advance, hpc] at hs
    simp only [Holds, hpc] at h
    obtain ⟨rfl, rfl⟩ := Prod.mk.inj (Option.some.inj hs)
    intro c hsaw
    obtain ⟨now, hnow, hmatches⟩ := h c hsaw
    exact ⟨now, hnow.trans (Sys.now_le_of_step (a := .spawn p.query.toQuery) rfl), hmatches⟩
  | spawned i =>
    simp only [Pump.advance, hpc] at hs
    simp only [Holds, hpc] at h
    split at hs
    · obtain ⟨rfl, rfl⟩ := Prod.mk.inj (Option.some.inj hs)
      apply h
    · contradiction
  | subscribe =>
    simp only [Pump.advance, hpc] at hs
    simp only [Holds, hpc] at h
    obtain ⟨rfl, rfl⟩ := Prod.mk.inj (Option.some.inj hs)
    have hsubscribes : p.Subscribes := by
      rw [Subscribes, hpc]
      trivial
    obtain hsaw | hann := hok hsubscribes
    · right
      apply h s.client hsaw
    · left
      exact .inl (.inr hann)
  | receive rx =>
    simp only [Pump.advance, hpc] at hs
    simp only [Holds, hpc] at h
    obtain ⟨rfl, rfl⟩ := Prod.mk.inj (Option.some.inj hs)
    have hpolled := p.polled_recvPoll (ha rx (by rw [hpc]; rfl))
    obtain ⟨subs, hsubs⟩ := hpolled.client
    obtain hend | ⟨hgo | ⟨hgo, hnone⟩, -⟩ := hpolled.pc
    · rw [hend]
      trivial
    · rw [hgo]
      trivial
    · -- nothing was there to receive
      rw [hgo, hsubs]
      obtain (hnotified | hrereads) | hsync := h
      · left
        left
        right
        obtain hst | hann := hnotified
        · contradiction
        · apply hann
      · rw [Rereads, hpc] at hrereads
        contradiction
      · right
        apply hsync
  | parked rx =>
    simp only [Pump.advance, hpc] at hs
    simp only [Holds, hpc] at h
    obtain ⟨rfl, rfl⟩ := Prod.mk.inj (Option.some.inj hs)
    apply h.imp_left
    rintro (hnotified | hrereads)
    · exact .inl hnotified
    · rw [Rereads, hpc] at hrereads
      contradiction
  | received rx =>
    simp only [Pump.advance, hpc] at hs
    split at hs
    · obtain ⟨-, rfl⟩ := Prod.mk.inj (Option.some.inj hs)
      trivial
    · obtain ⟨-, rfl⟩ := Prod.mk.inj (Option.some.inj hs)
      trivial
  | reread rx =>
    simp only [Pump.advance, hpc] at hs
    split at hs
    · next data hdata =>
      obtain ⟨rfl, rfl⟩ := Prod.mk.inj (Option.some.inj hs)
      right
      apply hdata
    · next hdata =>
      obtain ⟨rfl, rfl⟩ := Prod.mk.inj (Option.some.inj hs)
      right
      exact ⟨s.now, Nat.le_refl _, (readState_of_none hdata).symm⟩
  | rereadStale rx data =>
    simp only [Pump.advance, hpc] at hs
    simp only [Holds, hpc] at h
    obtain ⟨rfl, rfl⟩ := Prod.mk.inj (Option.some.inj hs)
    obtain (hnotified | hrereads) | hdata := h
    · exact .inl (.inl hnotified)
    · rw [Rereads, hpc] at hrereads
      contradiction
    · right
      exact ⟨s.now, Nat.le_refl _, (readState_of_data hdata).symm⟩
  | write rx fresh =>
    simp only [Pump.advance, hpc] at hs
    simp only [Holds, hpc] at h
    obtain ⟨rfl, rfl⟩ := Prod.mk.inj (Option.some.inj hs)
    obtain (hnotified | hrereads) | ⟨now, hnow, rfl⟩ := h
    · exact .inl (.inl hnotified)
    · rw [Rereads, hpc] at hrereads
      contradiction
    · right
      refine ⟨now, hnow, ?_⟩
      dsimp only
      split
      · apply signal.matches
      · apply setSlot_matches
  | ended =>
    simp only [Pump.advance, hpc] at hs
    contradiction

end Pump

namespace Bindings

variable {s s' : Bindings V} {signal : SetIfEq V} {a : Action V}

/-- What holds along a run in which nothing is missed. -/
structure Kept (s : Bindings V) : Prop where
  sane : s.sys.Sane
  wired : s.sys.Wired
  /-- The receivers of pumps are attached to the channels of their keys. -/
  attached : ∀ j p, s.pumps.lookup j = some p →
    ∀ rx ∈ p.pc.rx, (s.sys.client.slot p.key).Attached rx
  /-- No waiting call has the receiver of a pump. -/
  apart : ∀ j p, s.pumps.lookup j = some p → ∀ i r, s.sys.runs.lookup i = some r →
    r.query.key.cacheKey = p.key → ∀ rx ∈ p.pc.rx, rx ∉ r.rx
  /-- No two pumps have the same receiver. -/
  distinct : ∀ i j p q, s.pumps.lookup i = some p → s.pumps.lookup j = some q →
    p.key = q.key → ∀ rx ∈ p.pc.rx, rx ∈ q.pc.rx → i = j
  holds : ∀ j p, s.pumps.lookup j = some p → p.Holds s.sys

/-- Replacing a binding by one with its receiver. -/
theorem Kept.setPump
    {j : Nat} {p' : Pump V} (h : s.Kept) (hp' : p'.Holds s.sys)
    (hrx : ∀ rx ∈ p'.pc.rx, ∃ p, s.pumps.lookup j = some p ∧ p.key = p'.key ∧ rx ∈ p.pc.rx) :
  (s.setPump j p').Kept
  := by
  -- the receiver of a binding is that of the binding before
  have before {i : Nat} {q : Pump V} (hq : (s.setPump j p').pumps.lookup i = some q) {rx : Nat}
      (hmem : rx ∈ q.pc.rx) : ∃ p, s.pumps.lookup i = some p ∧ p.key = q.key ∧ rx ∈ p.pc.rx := by
    obtain ⟨rfl, rfl⟩ | ⟨-, hq⟩ := Table.lookup_insert_cases hq
    · apply hrx rx hmem
    · exact ⟨q, hq, rfl, hmem⟩
  constructor
  case sane => apply h.sane
  case wired => apply h.wired
  case attached =>
    intro i q hq rx hmem
    obtain ⟨p, hp, hkey, hmem⟩ := before hq hmem
    rw [← hkey]
    apply h.attached i p hp rx hmem
  case apart =>
    intro i q hq l r hr hkey rx hmem
    obtain ⟨p, hp, hkey', hmem⟩ := before hq hmem
    rw [← hkey'] at hkey
    apply h.apart i p hp l r hr hkey rx hmem
  case distinct =>
    intro i l q q' hq hq' hkey rx hmem hmem'
    obtain ⟨p, hp, hkeyp, hmem⟩ := before hq hmem
    obtain ⟨p', hp', hkeyp', hmem'⟩ := before hq' hmem'
    rw [← hkeyp, ← hkeyp'] at hkey
    apply h.distinct i l p p' hp hp' hkey rx hmem hmem'
  case holds =>
    intro i q hq
    obtain ⟨-, rfl⟩ | ⟨-, hq⟩ := Table.lookup_insert_cases hq
    · apply hp'
    · apply h.holds i q hq

/-- A step of the system is no pump's business. -/
theorem Kept.own_ne
    {a : RsQuery.Action V} {j : Nat} {p : Pump V} (h : s.Kept) (hp : s.pumps.lookup j = some p)
    {rx : Nat} (hrx : rx ∈ p.pc.rx) :
  s.sys.own a p.key ≠ some rx
  := by
  intro hown
  obtain ⟨i, r, hr, hkey, hmem⟩ := Sys.exists_of_own hown
  apply h.apart j p hp i r hr hkey rx hrx hmem

theorem Kept.sys
    {a : RsQuery.Action V} {sys : Sys V} (h : s.Kept) (hok : s.MissesNothing (.sys a))
    (hs : s.sys.step a = some sys) :
  ({ s with sys := sys } : Bindings V).Kept
  := by
  have hi := Sys.informs_step h.sane hs
  constructor
  case sane => apply h.sane.step hs
  case wired => apply h.wired.step hs
  case attached =>
    intro j p hp rx hrx
    obtain ⟨told, hstirs, -⟩ := hi.told p.key
    apply hstirs.attached rx (h.own_ne hp hrx) (h.attached j p hp rx hrx)
  case apart =>
    intro j p hp i r' hr' hkey rx hrx hmem
    obtain ⟨r, hr, hquery, -, hold | ⟨-, hnew⟩⟩ := h.wired.rx_step hs hr' hmem
    · rw [hquery] at hkey
      apply h.apart j p hp i r hr hkey rx hrx hold
    · have hlt := (h.attached j p hp rx hrx).1
      rw [hquery] at hkey
      rw [Run.slotOf, hkey] at hnew
      omega
  case distinct => apply h.distinct
  case holds =>
    intro j p hp
    apply (h.holds j p hp).informs hi
    · exact fun rx hrx => h.own_ne hp hrx
    · apply h.attached j p hp
    · apply hok j p hp

theorem Kept.advance
    {j : Nat} {p p' : Pump V} {sys : Sys V} (h : s.Kept) (hok : s.MissesNothing (.advance j))
    (hp : s.pumps.lookup j = some p) (hs : p.advance signal s.sys = some (sys, p')) :
  ({ s.setPump j p' with sys := sys } : Bindings V).Kept
  := by
  have ha := h.attached j p hp
  have hi := Pump.informs_advance h.sane ha hs
  have hkey : p'.key = p.key := congrArg (fun q => q.key.cacheKey) (Pump.query_advance hs)
  have hrx' {rx : Nat} (hrx : rx ∈ p'.pc.rx) := Pump.rx_advance ha hs hrx
  -- a binding after the step is the one that made it, or another, whose receiver it has not
  have own_ne {i : Nat} {q : Pump V} (hij : i ≠ j) (hq : s.pumps.lookup i = some q) (rx : Nat)
      (hrx : rx ∈ q.pc.rx) : (if q.key = p.key then p.pc.rx else none) ≠ some rx := by
    split
    · next hqp =>
      intro hprx
      apply hij (h.distinct i j q p hq hp hqp rx hrx hprx)
    · exact nofun
  -- no receiver of another binding is new
  have lt {i : Nat} {q : Pump V} (hq : s.pumps.lookup i = some q) (hqp : q.key = p.key) {rx : Nat}
      (hrx : rx ∈ q.pc.rx) : rx < (s.sys.client.slot p.key).nextRx := by
    rw [← hqp]
    apply (h.attached i q hq rx hrx).1
  constructor
  case sane => apply Pump.sane_advance h.sane ha hs
  case wired => apply Pump.wired_advance h.wired ha (h.apart j p hp) hs
  case attached =>
    intro i q hq rx hrx
    obtain ⟨rfl, rfl⟩ | ⟨hij, hq⟩ := Table.lookup_insert_cases hq
    · rw [hkey]
      apply (hrx' hrx).1
    · obtain ⟨told, hstirs, -⟩ := hi.told q.key
      apply hstirs.attached rx (own_ne hij hq rx hrx) (h.attached i q hq rx hrx)
  case apart =>
    intro i q hq l r' hr' hkey' rx hrx hmem
    obtain ⟨r, hr, hquery, hmem⟩ := Pump.runs_advance h.wired ha hs hr' hmem
    rw [hquery] at hkey'
    obtain ⟨rfl, rfl⟩ | ⟨hij, hq⟩ := Table.lookup_insert_cases hq
    · rw [hkey] at hkey'
      obtain ⟨-, hold | hnew⟩ := hrx' hrx
      · apply h.apart i p hp l r hr hkey' rx hold hmem
      · have hlt := (h.wired.attached l r hr rx hmem).1
        rw [Run.slotOf, hkey'] at hlt
        omega
    · apply h.apart i q hq l r hr hkey' rx hrx hmem
  case distinct =>
    intro i l q q' hi hl hqq rx hrx hmem
    obtain ⟨rfl, rfl⟩ | ⟨hij, hq⟩ := Table.lookup_insert_cases hi
    · obtain ⟨rfl, -⟩ | ⟨hlj, hq'⟩ := Table.lookup_insert_cases hl
      · rfl
      · rw [hkey] at hqq
        obtain ⟨-, hold | hnew⟩ := hrx' hrx
        · apply h.distinct i l p q' hp hq' hqq rx hold hmem
        · have hlt := lt hq' hqq.symm hmem
          omega
    · obtain ⟨rfl, rfl⟩ | ⟨hlj, hq'⟩ := Table.lookup_insert_cases hl
      · rw [hkey] at hqq
        obtain ⟨-, hold | hnew⟩ := hrx' hmem
        · apply h.distinct i l q p hq hp hqq rx hrx hold
        · have hlt := lt hq hqq hrx
          omega
      · apply h.distinct i l q q' hq hq' hqq rx hrx hmem
  case holds =>
    intro i q hq
    obtain ⟨rfl, rfl⟩ | ⟨hij, hq⟩ := Table.lookup_insert_cases hq
    · apply (h.holds i p hp).advance ha (hok p hp) hs
    · apply (h.holds i q hq).informs hi
      · apply own_ne hij hq
      · apply h.attached i q hq
      · exact fun rx _ => False.elim

theorem kept_initial :
  (⟨.initial, ∅⟩ : Bindings V).Kept
  := by
  have none (j : Nat) (p : Pump V) (h : (⟨.initial, ∅⟩ : Bindings V).pumps.lookup j = some p) :
      False := by
    simp at h
  constructor
  case sane => apply Sys.sane_initial
  case wired => apply Sys.wired_initial
  case attached => exact fun j p hp => (none j p hp).elim
  case apart => exact fun j p hp => (none j p hp).elim
  case distinct => exact fun i j p q hp => (none i p hp).elim
  case holds => exact fun j p hp => (none j p hp).elim

/-- A step that misses nothing keeps what holds. -/
theorem Kept.step (h : s.Kept) (hok : s.MissesNothing a) (hs : s.step signal a = some s') :
  s'.Kept
  := by
  cases a with
  | sys a =>
    obtain ⟨sys, hsys, hs⟩ := Option.bind_eq_some_iff.mp hs
    obtain rfl := Option.some.inj hs
    exact h.sys hok hsys
  | useQuery j query task =>
    simp only [Bindings.step] at hs
    split at hs
    · contradiction
    · obtain rfl := Option.some.inj hs
      exact h.setPump trivial nofun
  | useQueriesSlot j query task =>
    simp only [Bindings.step] at hs
    split at hs
    · contradiction
    · obtain rfl := Option.some.inj hs
      exact h.setPump trivial nofun
  | advance j =>
    obtain ⟨p, hp, hs⟩ := Option.bind_eq_some_iff.mp hs
    obtain ⟨⟨sys, p'⟩, hadvance, hs⟩ := Option.bind_eq_some_iff.mp hs
    obtain rfl := Option.some.inj hs
    exact h.advance hok hp hadvance
  | stop j =>
    obtain ⟨p, hp, hs⟩ := Option.bind_eq_some_iff.mp hs
    obtain rfl := Option.some.inj hs
    exact h.setPump (h.holds j p hp) fun rx hrx => ⟨p, hp, rfl, hrx⟩

/-- Where nothing was missed every signal is in sync. -/
theorem Kept.synced (h : s.Kept) :
  s.Synced
  := by
  rintro j p hp ⟨rx, hparked, hst, hann⟩
  have hpc : p.pc = .parked rx := by
    unfold Pump.parked at hparked
    split at hparked
    · next hpc => rw [hpc, Option.some.inj hparked]
    · contradiction
  have hholds := h.holds j p hp
  simp only [Pump.Holds, hpc] at hholds
  obtain ((hst' | hann') | hrereads) | hsync := hholds
  · exact absurd hst' hst
  · exact absurd hann' hann
  · rw [Pump.Rereads, hpc] at hrereads
    contradiction
  · apply hsync

/-- Along every run in which nothing is missed, the signal of a pump that is suspended with
nothing to receive holds what is read from the cache. -/
theorem inSync_of_run (signal : SetIfEq V) (h : (machine signal).Run MissesNothing s) :
  s.Synced
  := by
  have hkept : s.Kept := by
    apply h.invariant
    · rintro s rfl
      apply kept_initial
    · exact fun s a s' _ hkept hok hs => hkept.step hok hs
  apply hkept.synced

/-- A signal that is written where the states do not compare equal. -/
def gated : SetIfEq V where
  set := setSlot
  set_matches held fresh := by
    unfold setSlot
    split
    · next h => exact .inr ⟨rfl, .inr (.inl h)⟩
    · exact .inl rfl

/-- A query for `"k"` without initial data and placeholder. -/
def boundK : SeededQuery (String ⊕ Nat) :=
  .unseeded Sys.queryK

/-- The steps of the fetch that is spawned first, up to its last notification. -/
def fetch (data : String) : List (Action (String ⊕ Nat)) :=
  [.next, .next, .next, .next, .next, .next, .ready (.ok (.inl data)), .next, .next, .next].map
    fun o => .sys (.advance 0 o)

/-- A query that is fetched when its pump is suspended already. -/
theorem inSync_of_run_fetched :
  ∃ s : Bindings (String ⊕ Nat), (machine gated).Run MissesNothing s ∧
    (∃ j p, s.pumps.lookup j = some p ∧ (p.Quiet s.sys ∧ p.value = .success (.inl "a"))) ∧
    s.Synced
  := by
  have meets : (machine gated).Meets MissesNothing (⟨.initial, ∅⟩ : Bindings (String ⊕ Nat))
      ([.useQuery 0 boundK 7, .advance 0, .advance 0, .advance 0, .sys (.register 0),
        .advance 0, .advance 0, .advance 0] ++ fetch "a" ++ List.replicate 12 (.advance 0)) := by
    decide +kernel
  obtain ⟨s, hrun, hseen⟩ := Machine.exists_run_of_exec _
    (fun s : Bindings (String ⊕ Nat) => decide (∃ j p, s.pumps.lookup j = some p ∧
      (p.Quiet s.sys ∧ p.value = .success (.inl "a"))))
    true rfl meets (by decide +kernel)
  use s, hrun, of_decide_eq_true hseen, inSync_of_run gated hrun

/-- A signal is out of sync where the fetch was over before the subscription, and where the
client was cleared. -/
theorem not_inSync :
  (∃ s : Bindings (String ⊕ Nat), (machine gated).Reachable s ∧
    (s.sys.client.view "k").isSome = true ∧ ¬ s.Synced) ∧
  ∃ s : Bindings (String ⊕ Nat), (machine gated).Reachable s ∧
    (s.sys.client.view "k").isSome = false ∧ ¬ s.Synced
  := by
  have fails {viewed : Bool} (as : List (Action (String ⊕ Nat)))
      (hexec : ((machine gated).exec (⟨.initial, ∅⟩ : Bindings (String ⊕ Nat)) as).map (fun s =>
        (decide (∃ j p, s.pumps.lookup j = some p ∧ (p.Quiet s.sys ∧ ¬ p.InSync s.sys)),
          (s.sys.client.view "k").isSome)) = some (true, viewed)) :
      ∃ s : Bindings (String ⊕ Nat), (machine gated).Reachable s ∧
        (s.sys.client.view "k").isSome = viewed ∧ ¬ s.Synced := by
    obtain ⟨s, hs, hseen⟩ := Machine.exists_reachable_of_exec as _ _ rfl hexec
    obtain ⟨hquiet, hviewed⟩ := Prod.mk.inj hseen
    obtain ⟨j, p, hp, hquiet, hnot⟩ := of_decide_eq_true hquiet
    use s, hs, hviewed
    exact fun hsynced => hnot (hsynced j p hp hquiet)
  constructor
  · apply fails ([.useQuery 0 boundK 7, .advance 0, .advance 0, .advance 0, .sys (.register 0)] ++
      fetch "a" ++ [.advance 0, .advance 0, .advance 0])
    decide +kernel
  · apply fails [.sys (.call (.setQueryData boundK.key (.inl "a") {})), .useQuery 0 boundK 7,
      .advance 0, .advance 0, .advance 0, .advance 0, .sys (.register 0), .advance 0, .advance 0,
      .advance 0, .sys (.call .clear)]
    decide +kernel

end Bindings

end RsQuery
