import RsQuery.Client
import RsQuery.Lib.Machine

/-!
# The activity hooks

`use_is_fetching` and its siblings read a count of the client into a signal, subscribe to the
activity events, and leave a pump behind that reads the count again with every event.  A
count changes first and its event is sent after that; the steps of the hooks, of the pumps
and of those who change the counts are taken in any order.

The pump receives with `while let Ok(event)`: an overflow of its queue is an error, and ends
it.  Along the runs in which no queue overflows, and no hook misses a change before it has
subscribed, every pump keeps running and a signal shows the count once its pump is parked with
nothing to receive.
-/

namespace RsQuery

variable {V : Type}

namespace QueryClient

/-- Whether any query is fetching. -/
def isFetching (c : QueryClient V) : Bool :=
  decide (c.fetchingCount > 0)

/-- Whether any mutation is in progress. -/
def isMutating (c : QueryClient V) : Bool :=
  decide (c.mutatingCount > 0)

/-- Subscribes to the activity events; the id is the receiver's. -/
def subscribeActivity (c : QueryClient V) : QueryClient V × Nat :=
  let (tx, rx) := Bus.subscribe c.activityTx
  ({ c with activityTx := tx }, rx)

end QueryClient

namespace ActivityPump

/-- What the signal of a hook holds. -/
inductive SignalValue where
  | bool (value : Bool)
  | usize (value : Nat)
deriving DecidableEq, Repr

/-- The hooks with an activity pump. -/
inductive Hook where
  | useIsFetching
  | useIsMutating
  | useFetchingCount
  | useMutatingCount
deriving DecidableEq, Repr

/-- What the signal is created with. -/
def Hook.current (c : QueryClient V) : Hook → SignalValue
  | .useIsFetching => .bool c.isFetching
  | .useIsMutating => .bool c.isMutating
  | .useFetchingCount => .usize c.fetchingCount
  | .useMutatingCount => .usize c.mutatingCount

/-- What the pump recomputes with an event. -/
def Hook.recompute (c : QueryClient V) (_ : ActivityEvent) : Hook → SignalValue
  | .useIsFetching => .bool c.isFetching
  | .useIsMutating => .bool c.isMutating
  | .useFetchingCount => .usize c.fetchingCount
  | .useMutatingCount => .usize c.mutatingCount

/-- `Signal::set_if_eq` of the reactive framework: what a signal holds afterwards. -/
structure Signal where
  setIfEq : SignalValue → SignalValue → SignalValue
  /-- It is the new value, or what the signal held, if that is equal. -/
  setIfEq_eq : ∀ held fresh,
    setIfEq held fresh = fresh ∨ (setIfEq held fresh = held ∧ held = fresh)

/-- The calls that change a count. -/
inductive CountChange where
  | incFetching
  | decFetching
  | incMutating
  | decMutating
deriving DecidableEq, Repr

namespace CountChange

/-- The call. -/
def call (c : QueryClient V) : CountChange → QueryClient V
  | .incFetching => c.incFetching
  | .decFetching => c.decFetching
  | .incMutating => c.incMutating
  | .decMutating => c.decMutating

/-- Its first half, which changes the count. -/
def count (c : QueryClient V) : CountChange → QueryClient V
  | .incFetching => { c with fetchingCount := c.fetchingCount + 1 }
  | .decFetching => { c with fetchingCount := c.fetchingCount - 1 }
  | .incMutating => { c with mutatingCount := c.mutatingCount + 1 }
  | .decMutating => { c with mutatingCount := c.mutatingCount - 1 }

/-- The event its second half sends. -/
def event (c : QueryClient V) : CountChange → ActivityEvent
  | .incFetching => .fetchingCountChanged (c.fetchingCount + 1)
  | .decFetching => .fetchingCountChanged (c.fetchingCount - 1)
  | .incMutating => .mutatingCountChanged (c.mutatingCount + 1)
  | .decMutating => .mutatingCountChanged (c.mutatingCount - 1)

/-- What is counted off was counted. -/
def Counted (c : QueryClient V) : CountChange → Prop
  | .incFetching | .incMutating => True
  | .decFetching => 0 < c.fetchingCount
  | .decMutating => 0 < c.mutatingCount

instance (c : QueryClient V) (change : CountChange) : Decidable (change.Counted c) := by
  unfold Counted
  split
  all_goals infer_instance

/-- The two halves make the call. -/
theorem call_eq (c : QueryClient V) (change : CountChange) :
  change.call c = (change.count c).sendActivity (change.event c)
  := by
  cases change with
  | incFetching => rfl
  | decFetching => rfl
  | incMutating => rfl
  | decMutating => rfl

end CountChange

/-- Where a hook stands: what the thread that calls it does next, and then its pump, which
has the receiver `rx`. -/
inductive Pc where
  /-- Creates the signal. -/
  | create
  | subscribe
  /-- Polls `recv`. -/
  | receive (rx : Nat)
  /-- Suspended in `recv`. -/
  | parked (rx : Nat)
  /-- Reads the client. -/
  | recompute (rx : Nat) (event : ActivityEvent)
  /-- Writes the signal. -/
  | write (rx : Nat) (fresh : SignalValue)
  | ended
deriving DecidableEq, Repr

/-- The receiver of a pump. -/
def Pc.rx : Pc → Option Nat
  | .receive rx | .parked rx | .recompute rx _ | .write rx _ => some rx
  | .create | .subscribe | .ended => none

/-- A hook, the task of its pump, and what its signal holds. -/
structure Pump where
  hook : Hook
  task : Waker
  value : SignalValue
  pc : Pc
deriving DecidableEq, Repr

namespace Pump

/-- One poll of `recv`; an error ends the pump, which drops its receiver. -/
def recvPoll (p : Pump) (c : QueryClient V) (rx : Nat) : QueryClient V × Pc :=
  let (tx, poll) := Bus.recvPoll c.activityTx rx p.task
  match poll with
  | none => ({ c with activityTx := tx }, .parked rx)
  | some (.ok event) => ({ c with activityTx := tx }, .recompute rx event)
  | some (.error _) => ({ c with activityTx := Bus.dropReceiver tx rx }, .ended)

/-- One step of a hook or its pump. -/
def advance (signal : Signal) (p : Pump) (c : QueryClient V) : Option (QueryClient V × Pump) :=
  match p.pc with
  | .create => some (c, { p with value := p.hook.current c, pc := .subscribe })
  | .subscribe =>
    let (c, rx) := c.subscribeActivity
    some (c, { p with pc := .receive rx })
  | .receive rx =>
    let (c, pc) := p.recvPoll c rx
    some (c, { p with pc := pc })
  | .parked rx => some (c, { p with pc := .receive rx })
  | .recompute rx event => some (c, { p with pc := .write rx (p.hook.recompute c event) })
  | .write rx fresh =>
    some (c, { p with value := signal.setIfEq p.value fresh, pc := .receive rx })
  | .ended => none

end Pump

/-- A client, the events of changed counts that are still to be sent, and the pumps. -/
structure Hooked (V : Type) where
  client : QueryClient V
  sends : List ActivityEvent
  pumps : Table Nat Pump

/-- A step. -/
inductive Action where
  /-- A hook is called; its pump is given this number. -/
  | use (j : Nat) (hook : Hook) (task : Waker)
  /-- The first half of a call that changes a count. -/
  | change (change : CountChange)
  /-- The second half of one. -/
  | send (event : ActivityEvent)
  | advance (j : Nat)
deriving DecidableEq, Repr

namespace Hooked

/-- A new client. -/
def initial : Hooked V :=
  ⟨.new, [], ∅⟩

/-- The state after a step. -/
def step (signal : Signal) (s : Hooked V) : Action → Option (Hooked V)
  | .use j hook task =>
    if (s.pumps.lookup j).isSome then none
    else some { s with pumps := s.pumps.insert j ⟨hook, task, hook.current s.client, .create⟩ }
  | .change change =>
    if change.Counted s.client then
      some { s with
        client := change.count s.client
        sends := s.sends ++ [change.event s.client] }
    else none
  | .send event =>
    if event ∈ s.sends then
      some { s with client := s.client.sendActivity event, sends := s.sends.erase event }
    else none
  | .advance j => do
    let p ← s.pumps.lookup j
    let (c, p) ← p.advance signal s.client
    some { s with client := c, pumps := s.pumps.insert j p }

/-- The steps and their interleavings. -/
def machine (signal : Signal) : Machine (Hooked V) Action where
  init s := s = initial
  step := step signal

/-! ### What is asked of a signal -/

/-- Nothing is queued at the receiver, and nothing was dropped from its queue. -/
def Drained (s : Hooked V) (rx : Nat) : Prop :=
  ∃ r ∈ s.client.activityTx.receivers.lookup rx, r.queue = [] ∧ r.missed = 0

/-- The pump is parked with nothing to receive, and no event is still to be sent. -/
def Quiet (s : Hooked V) (p : Pump) : Prop :=
  s.sends = [] ∧ ∃ rx ∈ p.pc.rx, p.pc = .parked rx ∧ s.Drained rx

/-- Every pump runs, and the signals of the quiet ones show what the client has. -/
def Tolerant (s : Hooked V) : Prop :=
  ∀ j p, s.pumps.lookup j = some p →
    p.pc ≠ .ended ∧ (s.Quiet p → p.value = p.hook.current s.client)

/-- The queue of the pump is not full. -/
def HasRoom (s : Hooked V) (p : Pump) : Prop :=
  ∀ rx ∈ p.pc.rx, ∀ r ∈ s.client.activityTx.receivers.lookup rx,
    r.queue.length < s.client.activityTx.capacity

/-- An event is sent while no queue of a pump is full, and a hook subscribes while the client
has what its signal was created with, or an event is still to be sent. -/
def InTime (s : Hooked V) : Action → Prop
  | .send _ => ∀ j p, s.pumps.lookup j = some p → s.HasRoom p
  | .advance j => ∀ p ∈ s.pumps.lookup j, p.pc = .subscribe →
    p.value = p.hook.current s.client ∨ s.sends ≠ []
  | _ => True

instance (s : Hooked V) (rx : Nat) : Decidable (s.Drained rx) :=
  inferInstanceAs (Decidable (∃ r ∈ _, _))

instance (s : Hooked V) (p : Pump) : Decidable (s.Quiet p) :=
  inferInstanceAs (Decidable (_ ∧ ∃ rx ∈ _, _))

instance (s : Hooked V) : Decidable s.Tolerant :=
  inferInstanceAs (Decidable (∀ j p, s.pumps.lookup j = some p → _))

instance (s : Hooked V) (p : Pump) : Decidable (s.HasRoom p) :=
  inferInstanceAs (Decidable (∀ rx ∈ _, ∀ r ∈ _, _))

instance (s : Hooked V) (a : Action) : Decidable (s.InTime a) := by
  unfold InTime
  split
  all_goals infer_instance

/-! ### What is kept -/

/-- A pump that looks at its receiver again will read the client again. -/
def Due (s : Hooked V) (p : Pump) : Prop :=
  s.sends ≠ [] ∨ ∃ rx ∈ p.pc.rx, ∃ r ∈ s.client.activityTx.receivers.lookup rx, r.queue ≠ []

end Hooked

/-- What the signal shows, or is about to show, until the client is read again. -/
def Pump.shown (p : Pump) : Option SignalValue :=
  match p.pc with
  | .receive _ | .parked _ => some p.value
  | .write _ fresh => some fresh
  | _ => none

namespace Hooked

/-- The receiver is one of the channel, and has missed nothing. -/
def Attached (s : Hooked V) (rx : Nat) : Prop :=
  rx < s.client.activityTx.nextId ∧
    ∃ r, s.client.activityTx.receivers.lookup rx = some r ∧ r.alive = true ∧ r.missed = 0

/-- What holds of a pump: it runs, it has missed nothing, and what it shows is what the
client has, unless it will read again. -/
structure Holds (s : Hooked V) (p : Pump) : Prop where
  running : p.pc ≠ .ended
  attached : ∀ rx ∈ p.pc.rx, s.Attached rx
  shows : ∀ value ∈ p.shown, value = p.hook.current s.client ∨ s.Due p

/-- What is kept: the channel is open, what holds of each pump, and no two have the same
receiver. -/
structure Kept (s : Hooked V) : Prop where
  isOpen : s.client.activityTx.sendersAlive = true
  holds : ∀ j p, s.pumps.lookup j = some p → s.Holds p
  distinct : ∀ i j p q, s.pumps.lookup i = some p → s.pumps.lookup j = some q →
    ∀ rx ∈ p.pc.rx, rx ∈ q.pc.rx → i = j

section Step

variable {s s' : Hooked V} {signal : Signal} {a : Action} {p p' : Pump} {c c' : QueryClient V}

/-- The hooks read nothing but the counts. -/
theorem current_congr (hf : c'.fetchingCount = c.fetchingCount)
    (hm : c'.mutatingCount = c.mutatingCount) (hook : Hook) :
  hook.current c' = hook.current c
  := by
  cases hook with
  | useIsFetching => rw [Hook.current, Hook.current, QueryClient.isFetching, hf,
      QueryClient.isFetching]
  | useIsMutating => rw [Hook.current, Hook.current, QueryClient.isMutating, hm,
      QueryClient.isMutating]
  | useFetchingCount => rw [Hook.current, Hook.current, hf]
  | useMutatingCount => rw [Hook.current, Hook.current, hm]

theorem recompute_eq (c : QueryClient V) (event : ActivityEvent) (hook : Hook) :
  hook.recompute c event = hook.current c
  := by
  cases hook with
  | useIsFetching => rfl
  | useIsMutating => rfl
  | useFetchingCount => rfl
  | useMutatingCount => rfl

theorem Signal.setIfEq_fresh (signal : Signal) (held fresh : SignalValue) :
  signal.setIfEq held fresh = fresh
  := by
  rcases signal.setIfEq_eq held fresh with h | ⟨h, rfl⟩
  · apply h
  · apply h

/-- What a step of a pump leaves: the counts, the channel but for its own receiver, and of
the receivers it can get only its own or a new one. -/
structure Goes (p : Pump) (c : QueryClient V) (p' : Pump) (c' : QueryClient V) : Prop where
  fetching : c'.fetchingCount = c.fetchingCount
  mutating : c'.mutatingCount = c.mutatingCount
  isOpen : c'.activityTx.sendersAlive = c.activityTx.sendersAlive
  next : c.activityTx.nextId ≤ c'.activityTx.nextId
  lookup : ∀ rx, rx ∉ p.pc.rx → rx < c.activityTx.nextId →
    c'.activityTx.receivers.lookup rx = c.activityTx.receivers.lookup rx
  rx : ∀ rx ∈ p'.pc.rx, rx ∈ p.pc.rx ∨ c.activityTx.nextId ≤ rx

/-- What holds of a pump after a step of another. -/
theorem Holds.of_goes
    {q q' : Pump} {pumps : Table Nat Pump} (h : s.Holds p) (hgo : Goes q s.client q' c)
    (hne : ∀ rx ∈ p.pc.rx, rx ∉ q.pc.rx) :
  Holds ⟨c, s.sends, pumps⟩ p
  := by
  constructor
  case running => apply h.running
  case attached =>
    intro rx hrx
    obtain ⟨hlt, r, hr, halive⟩ := h.attached rx hrx
    use hlt.trans_le hgo.next, r
    rw [hgo.lookup rx (hne rx hrx) hlt]
    exact ⟨hr, halive⟩
  case shows =>
    intro value hvalue
    rw [current_congr hgo.fetching hgo.mutating]
    apply (h.shows value hvalue).imp_right
    rintro (hsends | ⟨rx, hrx, r, hr, hqueue⟩)
    · left
      apply hsends
    · right
      use rx, hrx, r
      obtain ⟨hlt, -⟩ := h.attached rx hrx
      rw [hgo.lookup rx (hne rx hrx) hlt]
      exact ⟨hr, hqueue⟩

/-- A step of a pump that leaves the client alone. -/
theorem Goes.of_pc {pc : Pc} {value : SignalValue} (hrx : pc.rx = p.pc.rx ∨ pc.rx = none) :
  Goes p c { p with pc := pc, value := value } c
  := by
  refine ⟨rfl, rfl, rfl, Nat.le_refl _, fun _ _ _ => rfl, ?_⟩
  intro rx hmem
  rcases hrx with heq | heq
  · left
    rwa [← heq]
  · simp [heq] at hmem

/-- The client with a receiver of its activity channel as it is now. -/
def setReceiver (c : QueryClient V) (rx : Nat) (r : Bus.RecvState ActivityEvent) :
    QueryClient V :=
  { c with activityTx.receivers := c.activityTx.receivers.insert rx r }

/-- One poll of the receiver of a pump: it takes the first event, or the pump parks. -/
theorem recvPoll_of_attached
    {rx : Nat} (hopen : s.client.activityTx.sendersAlive = true) (h : s.Attached rx) (p : Pump) :
  ∃ r, s.client.activityTx.receivers.lookup rx = some r ∧ r.alive = true ∧ r.missed = 0 ∧
    p.recvPoll s.client rx = match r.queue with
      | event :: queue =>
        (setReceiver s.client rx { r with queue := queue }, .recompute rx event)
      | [] => (setReceiver s.client rx { r with waker := some p.task }, .parked rx)
  := by
  obtain ⟨-, r, hr, halive, hmissed⟩ := h
  use r, hr, halive, hmissed
  rw [Pump.recvPoll, Bus.recvPoll_of_open hr hmissed hopen]
  cases r.queue with
  | nil => rfl
  | cons event queue => rfl

/-- What a poll does to the receiver of a pump. -/
theorem goes_insert
    {rx : Nat} {pc : Pc} (hrx : p.pc.rx = some rx) (hpc : pc.rx = some rx)
    (r : Bus.RecvState ActivityEvent) :
  Goes p c { p with pc := pc } (setReceiver c rx r)
  := by
  refine ⟨rfl, rfl, rfl, Nat.le_refl _, ?_, ?_⟩
  · intro rx' hne _
    apply AList.lookup_insert_ne
    rintro rfl
    apply hne hrx
  · intro rx' hmem
    left
    rw [hrx, ← hpc]
    apply hmem

/-- A pump polls its receiver. -/
theorem Holds.receive
    {rx : Nat} {pumps : Table Nat Pump} (h : s.Holds p)
    (hopen : s.client.activityTx.sendersAlive = true) (hpc : p.pc = .receive rx) :
  Goes p s.client { p with pc := (p.recvPoll s.client rx).2 } (p.recvPoll s.client rx).1 ∧
    Holds ⟨(p.recvPoll s.client rx).1, s.sends, pumps⟩
      { p with pc := (p.recvPoll s.client rx).2 }
  := by
  have hrx : p.pc.rx = some rx := by rw [hpc]; rfl
  have hattached := h.attached rx hrx
  obtain ⟨r, hr, halive, hmissed, hpoll⟩ := recvPoll_of_attached hopen hattached p
  have attached (r' : Bus.RecvState ActivityEvent) (halive : r'.alive = true)
      (hmissed : r'.missed = 0) :
      Attached ⟨setReceiver s.client rx r', s.sends, pumps⟩ rx :=
    ⟨hattached.1, r', AList.lookup_insert _, halive, hmissed⟩
  rw [hpoll]
  rcases hqueue : r.queue with _ | ⟨event, queue⟩
  · -- nothing was there, so what is shown is what the client has or an event is to be sent
    simp only
    use goes_insert hrx rfl _
    constructor
    case running => simp
    case attached =>
      intro rx' hmem
      obtain rfl := Option.some.inj hmem
      exact attached _ halive hmissed
    case shows =>
      intro value hvalue
      have hshown : p.shown = some p.value := by rw [Pump.shown, hpc]
      obtain rfl := Option.some.inj hvalue
      rcases h.shows p.value hshown with heq | hsends | ⟨rx', hmem, r', hr', hne⟩
      · left
        apply heq
      · right
        left
        apply hsends
      · obtain rfl := Option.some.inj (hrx.symm.trans hmem)
        obtain rfl := Option.some.inj (hr.symm.trans hr')
        exact absurd hqueue hne
  · simp only
    use goes_insert hrx rfl _
    constructor
    case running => simp
    case attached =>
      intro rx' hmem
      obtain rfl := Option.some.inj hmem
      exact attached _ halive hmissed
    case shows =>
      intro value hvalue
      contradiction

/-- A step of a pump that leaves the client alone, after which it shows what it showed, or
what the client has. -/
theorem Holds.of_pc
    {pc : Pc} {value : SignalValue} (h : s.Holds p) (pumps : Table Nat Pump) (hpc : pc ≠ .ended)
    (hrx : pc.rx = p.pc.rx ∨ pc.rx = none)
    (hshown : ∀ v ∈ ({ p with pc := pc, value := value } : Pump).shown,
      v = p.hook.current s.client ∨ (v ∈ p.shown ∧ pc.rx = p.pc.rx)) :
  Holds ⟨s.client, s.sends, pumps⟩ { p with pc := pc, value := value }
  := by
  constructor
  case running => apply hpc
  case attached =>
    intro rx hmem
    rcases hrx with heq | heq
    · apply h.attached rx
      rwa [← heq]
    · simp [heq] at hmem
  case shows =>
    intro v hv
    rcases hshown v hv with hcurrent | ⟨hold, heq⟩
    · left
      apply hcurrent
    · have hshows := h.shows v hold
      rw [Due, ← heq] at hshows
      apply hshows

/-- A step of a pump: it goes on, and what holds of it is kept. -/
theorem Holds.advance
    (h : s.Holds p) (hopen : s.client.activityTx.sendersAlive = true)
    (hok : p.pc = .subscribe → p.value = p.hook.current s.client ∨ s.sends ≠ [])
    (pumps : Table Nat Pump) (hs : p.advance signal s.client = some (c, p')) :
  Goes p s.client p' c ∧ Holds ⟨c, s.sends, pumps⟩ p'
  := by
  cases hpc : p.pc with
  | create =>
    simp only [Pump.advance, hpc] at hs
    obtain ⟨rfl, rfl⟩ := Prod.mk.inj (Option.some.inj hs)
    use .of_pc (.inr rfl)
    apply h.of_pc pumps (by simp) (.inr rfl)
    exact fun value hvalue => by contradiction
  | subscribe =>
    simp only [Pump.advance, hpc] at hs
    obtain ⟨rfl, rfl⟩ := Prod.mk.inj (Option.some.inj hs)
    constructor
    · refine ⟨rfl, rfl, rfl, Nat.le_succ _, ?_, ?_⟩
      · intro rx _ hlt
        apply (Bus.subscribe_lookup _ _).trans (if_neg hlt.ne)
      · intro rx hmem
        right
        apply (Option.some.inj hmem).le
    · constructor
      case running => simp
      case attached =>
        intro rx hmem
        obtain rfl := Option.some.inj hmem
        exact ⟨Nat.lt_succ_self _, .fresh, (Bus.subscribe_lookup _ _).trans (if_pos rfl), rfl, rfl⟩
      case shows =>
        intro value hvalue
        obtain rfl := Option.some.inj hvalue
        apply (hok hpc).imp_right .inl
  | receive rx =>
    simp only [Pump.advance, hpc] at hs
    obtain ⟨rfl, rfl⟩ := Prod.mk.inj (Option.some.inj hs)
    apply h.receive hopen hpc
  | parked rx =>
    simp only [Pump.advance, hpc] at hs
    obtain ⟨rfl, rfl⟩ := Prod.mk.inj (Option.some.inj hs)
    have hrx : (Pc.receive rx).rx = p.pc.rx := by rw [hpc]; rfl
    use .of_pc (.inl hrx)
    apply h.of_pc pumps (by simp) (.inl hrx)
    intro value hvalue
    right
    rw [Pump.shown, hpc]
    exact ⟨hvalue, rfl⟩
  | recompute rx event =>
    simp only [Pump.advance, hpc] at hs
    obtain ⟨rfl, rfl⟩ := Prod.mk.inj (Option.some.inj hs)
    have hrx : (Pc.write rx (p.hook.recompute s.client event)).rx = p.pc.rx := by rw [hpc]; rfl
    use .of_pc (.inl hrx)
    apply h.of_pc pumps (by simp) (.inl hrx)
    intro value hvalue
    left
    rw [← Option.some.inj hvalue]
    apply recompute_eq
  | write rx fresh =>
    simp only [Pump.advance, hpc] at hs
    obtain ⟨rfl, rfl⟩ := Prod.mk.inj (Option.some.inj hs)
    have hrx : (Pc.receive rx).rx = p.pc.rx := by rw [hpc]; rfl
    use .of_pc (.inl hrx)
    apply h.of_pc pumps (by simp) (.inl hrx)
    intro value hvalue
    right
    rw [← Option.some.inj hvalue, Pump.shown, hpc, Signal.setIfEq_fresh]
    exact ⟨rfl, rfl⟩
  | ended => exact absurd hpc h.running

/-- A hook is called. -/
theorem Kept.use
    (h : s.Kept) (j : Nat) (hrx : p.pc.rx = none) (hp : s.Holds p) :
  Kept { s with pumps := s.pumps.insert j p }
  := by
  constructor
  case isOpen => apply h.isOpen
  case holds =>
    intro i q hi
    obtain ⟨-, rfl⟩ | ⟨-, hi⟩ := Table.lookup_insert_cases hi
    · exact ⟨hp.running, hp.attached, hp.shows⟩
    · have hq := h.holds i q hi
      exact ⟨hq.running, hq.attached, hq.shows⟩
  case distinct =>
    intro i k q r hi hk rx hq hr
    rw [Table.lookup_insert_eq] at hi hk
    split at hi
    · obtain rfl := Option.some.inj hi
      rw [hrx] at hq
      contradiction
    · split at hk
      · obtain rfl := Option.some.inj hk
        rw [hrx] at hr
        contradiction
      · apply h.distinct i k q r hi hk rx hq hr

/-- A count changes; its event is still to be sent. -/
theorem Kept.change (h : s.Kept) (change : CountChange) :
  Kept { s with
    client := change.count s.client
    sends := s.sends ++ [change.event s.client] }
  := by
  have htx : (change.count s.client).activityTx = s.client.activityTx := by
    cases change with
    | incFetching => rfl
    | decFetching => rfl
    | incMutating => rfl
    | decMutating => rfl
  constructor
  case isOpen =>
    rw [htx]
    apply h.isOpen
  case holds =>
    intro j p hj
    have hp := h.holds j p hj
    constructor
    case running => apply hp.running
    case attached =>
      intro rx hrx
      rw [Attached, htx]
      apply hp.attached rx hrx
    case shows =>
      intro value _
      right
      left
      simp
  case distinct => apply h.distinct

/-- An event is sent, and no queue is full. -/
theorem Kept.send
    (h : s.Kept) (hroom : ∀ j p, s.pumps.lookup j = some p → s.HasRoom p)
    (event : ActivityEvent) :
  Kept { s with client := s.client.sendActivity event, sends := s.sends.erase event }
  := by
  constructor
  case isOpen => apply h.isOpen
  case holds =>
    intro j p hj
    have hp := h.holds j p hj
    -- the event is queued behind what the pump has there
    have hpushed (rx : Nat) (hrx : rx ∈ p.pc.rx) :
        ∃ r : Bus.RecvState ActivityEvent,
          (s.client.sendActivity event).activityTx.receivers.lookup rx
            = some { r with queue := r.queue ++ [event], waker := none } ∧
          r.alive = true ∧ r.missed = 0 := by
      obtain ⟨-, r, hr, halive, hmissed⟩ := hp.attached rx hrx
      use r
      constructor
      · apply (Bus.send_lookup s.client.activityTx event rx).trans
        rw [hr, Option.map_some, Bus.RecvState.push_of_short halive (hroom j p hj rx hrx r hr)]
      · exact ⟨halive, hmissed⟩
    constructor
    case running => apply hp.running
    case attached =>
      intro rx hrx
      obtain ⟨r, hr, halive, hmissed⟩ := hpushed rx hrx
      exact ⟨(hp.attached rx hrx).1, _, hr, halive, hmissed⟩
    case shows =>
      intro value hvalue
      have hsome : ∃ rx, p.pc.rx = some rx := by
        rw [Pump.shown] at hvalue
        split at hvalue
        · next rx hpc => exact ⟨rx, by rw [hpc]; rfl⟩
        · next rx hpc => exact ⟨rx, by rw [hpc]; rfl⟩
        · next rx fresh hpc => exact ⟨rx, by rw [hpc]; rfl⟩
        · contradiction
      obtain ⟨rx, hrx⟩ := hsome
      obtain ⟨r, hr, -⟩ := hpushed rx hrx
      right
      right
      exact ⟨rx, hrx, _, hr, by simp⟩
  case distinct => apply h.distinct

/-- A pump takes a step. -/
theorem Kept.advance
    {j : Nat} (h : s.Kept) (hj : s.pumps.lookup j = some p)
    (hok : p.pc = .subscribe → p.value = p.hook.current s.client ∨ s.sends ≠ [])
    (hs : p.advance signal s.client = some (c, p')) :
  Kept { s with client := c, pumps := s.pumps.insert j p' }
  := by
  obtain ⟨hgo, hholds⟩ :=
    (h.holds j p hj).advance h.isOpen hok (s.pumps.insert j p') hs
  -- the receivers of the others are not the ones it can have now
  have hother (k : Nat) (q : Pump) (hne : k ≠ j) (hk : s.pumps.lookup k = some q) (rx : Nat)
      (hrx : rx ∈ q.pc.rx) : rx ∉ p.pc.rx ∧ rx ∉ p'.pc.rx := by
    have hold : rx ∉ p.pc.rx := fun hmem => hne (h.distinct k j q p hk hj rx hrx hmem)
    use hold
    intro hmem
    rcases hgo.rx rx hmem with hmem | hle
    · apply hold hmem
    · obtain ⟨hlt, -⟩ := (h.holds k q hk).attached rx hrx
      omega
  constructor
  case isOpen =>
    apply hgo.isOpen.trans h.isOpen
  case holds =>
    intro k q hk
    obtain ⟨-, rfl⟩ | ⟨hne, hk⟩ := Table.lookup_insert_cases hk
    · apply hholds
    · apply (h.holds k q hk).of_goes hgo fun rx hrx => (hother k q hne hk rx hrx).1
  case distinct =>
    intro i k q r hi hk rx hq hr
    rw [Table.lookup_insert_eq] at hi hk
    split at hi
    · next hij =>
      split at hk
      · next hkj => rw [hij, hkj]
      · next hne =>
        obtain rfl := Option.some.inj hi
        exact absurd hq (hother k r hne hk rx hr).2
    · next hne =>
      split at hk
      · obtain rfl := Option.some.inj hk
        exact absurd hr (hother i q hne hi rx hq).2
      · apply h.distinct i k q r hi hk rx hq hr

theorem Kept.step (h : s.Kept) (hok : s.InTime a) (hs : s.step signal a = some s') :
  s'.Kept
  := by
  cases a with
  | use j hook task =>
    simp only [Hooked.step] at hs
    split at hs
    · contradiction
    · obtain rfl := Option.some.inj hs
      apply h.use j rfl
      exact ⟨nofun, nofun, nofun⟩
  | change change =>
    simp only [Hooked.step] at hs
    split at hs
    · obtain rfl := Option.some.inj hs
      apply h.change
    · contradiction
  | send event =>
    simp only [Hooked.step] at hs
    split at hs
    · obtain rfl := Option.some.inj hs
      apply h.send hok
    · contradiction
  | advance j =>
    obtain ⟨p, hj, hs⟩ := Option.bind_eq_some_iff.mp hs
    obtain ⟨⟨c, p'⟩, hp, hs⟩ := Option.bind_eq_some_iff.mp hs
    obtain rfl := Option.some.inj hs
    apply h.advance hj (hok p hj) hp

theorem kept_of_run (h : (machine signal).Run InTime s) :
  s.Kept
  := by
  apply h.invariant
  · rintro s rfl
    constructor
    · rfl
    · exact fun j p hj => by contradiction
    · exact fun i j p q hi => by contradiction
  · intro s a s' _ ih hok hs
    apply ih.step hok hs

/-- An event sent at a full queue ends the pump when it is polled. -/
theorem ended_of_full
    {j rx : Nat} {event : ActivityEvent} {r : Bus.RecvState ActivityEvent}
    (hj : s.pumps.lookup j = some p) (hpc : p.pc = .parked rx)
    (hr : s.client.activityTx.receivers.lookup rx = some r) (halive : r.alive = true)
    (hfull : s.client.activityTx.capacity ≤ r.queue.length) (hevent : event ∈ s.sends) :
  ∃ s' p', (machine signal).exec s [.send event, .advance j, .advance j] = some s' ∧
    s'.pumps.lookup j = some p' ∧ p'.pc = .ended
  := by
  let sent : Hooked V :=
    { s with client := s.client.sendActivity event, sends := s.sends.erase event }
  let polled : Hooked V := { sent with pumps := s.pumps.insert j { p with pc := .receive rx } }
  have hsend : (machine signal).step s (.send event) = some sent := if_pos hevent
  have hpoll : (machine signal).step sent (.advance j) = some polled := by
    simp only [machine, Hooked.step, sent, hj, Option.bind_eq_bind, Option.bind_some,
      Pump.advance, hpc, polled]
  -- the oldest event was dropped, and the pump is told so
  obtain ⟨r', hr', hmissed⟩ : ∃ r', polled.client.activityTx.receivers.lookup rx = some r' ∧
      0 < r'.missed := by
    use r.push s.client.activityTx.capacity event
    constructor
    · apply (Bus.send_lookup s.client.activityTx event rx).trans
      rw [hr, Option.map_some]
    · simp [Bus.RecvState.push, halive, hfull]
  let result := ({ p with pc := .receive rx } : Pump).recvPoll polled.client rx
  have hend : (machine signal).step polled (.advance j)
      = some { polled with
          client := result.1
          pumps := polled.pumps.insert j { p with pc := result.2 } } := by
    simp only [machine, Hooked.step, polled, AList.lookup_insert, Option.bind_eq_bind,
      Option.bind_some, Pump.advance, result]
  have hlagged : (Bus.recvPoll polled.client.activityTx rx p.task).2
      = some (.error (.lagged r'.missed)) := by
    simp only [Bus.recvPoll, Bus.pollState, hr', if_pos hmissed]
  refine ⟨_, _, (Machine.exec_cons hsend).trans ((Machine.exec_cons hpoll).trans
    (Machine.exec_cons hend)), AList.lookup_insert _, ?_⟩
  simp only [result, Pump.recvPoll, hlagged]

end Step

/-- Where events are sent and hooks subscribe in time, every pump keeps running, and a signal
shows what the client has once its pump is parked with nothing to receive. -/
theorem tolerant_of_run
    {signal : Signal} {s : Hooked V} (h : (machine signal).Run InTime s) :
  s.Tolerant
  := by
  intro j p hj
  have hp := (kept_of_run h).holds j p hj
  use hp.running
  rintro ⟨hsends, rx, hrx, hpc, r, hr, hqueue, -⟩
  have hshown : p.shown = some p.value := by rw [Pump.shown, hpc]
  rcases hp.shows p.value hshown with heq | hne | ⟨rx', hrx', r', hr', hne⟩
  · apply heq
  · contradiction
  · obtain rfl := Option.some.inj (hrx.symm.trans hrx')
    obtain rfl := Option.some.inj (hr.symm.trans hr')
    contradiction

/-- A signal that always takes the new value. -/
def setting : Signal where
  setIfEq _ fresh := fresh
  setIfEq_eq _ _ := .inl rfl

/-- Two fetches begin while the pump of `use_fetching_count` is parked; it is polled and parks
again. -/
theorem tolerant_of_run_fetching :
  ∃ s : Hooked Nat, (machine setting).Run InTime s ∧
    (s.pumps.lookup 0 = some ⟨.useFetchingCount, 7, .usize 2, .parked 1⟩ ∧
      s.client.fetchingCount = 2) ∧ s.Tolerant
  := by
  have init : (machine setting).init (initial : Hooked Nat) := rfl
  have meets : (machine setting).Meets InTime (initial : Hooked Nat)
      [.use 0 .useFetchingCount 7, .advance 0, .advance 0, .advance 0, .change .incFetching,
        .send (.fetchingCountChanged 1), .change .incFetching, .send (.fetchingCountChanged 2),
        .advance 0, .advance 0, .advance 0, .advance 0, .advance 0, .advance 0, .advance 0,
        .advance 0] := by
    decide +kernel
  obtain ⟨s, hs, hseen⟩ := Machine.exists_run_of_exec _
    (fun s : Hooked Nat => (s.pumps.lookup 0, s.client.fetchingCount))
    (some ⟨.useFetchingCount, 7, .usize 2, .parked 1⟩, 2) init meets (by decide +kernel)
  exact ⟨s, hs, Prod.mk.inj hseen, tolerant_of_run hs⟩

/-- Seventeen fetches begin while the pump of `use_fetching_count` is parked, and it ends
when it is polled. -/
theorem not_tolerant_burst :
  ¬ ∀ (signal : Signal) (s : Hooked Nat), (machine signal).Reachable s → s.Tolerant
  := by
  intro h
  have init : (machine setting).init (initial : Hooked Nat) := rfl
  obtain ⟨s, hs, hseen⟩ := Machine.exists_reachable_of_exec
    (([.use 0 .useFetchingCount 7, .advance 0, .advance 0, .advance 0] : List Action)
      ++ (List.range 17).flatMap (fun n =>
        [.change .incFetching, .send (.fetchingCountChanged (n + 1))])
      ++ [.advance 0, .advance 0])
    (fun s : Hooked Nat => (s.pumps.lookup 0).map Pump.pc) (some .ended) init (by decide +kernel)
  obtain ⟨p, hp, hpc⟩ := Option.map_eq_some_iff.mp hseen
  apply (h setting s hs 0 p hp).1 hpc

end Hooked

end ActivityPump

end RsQuery
