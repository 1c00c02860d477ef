import RsQuery.Broadcast
import RsQuery.BusHandles

/-!
# The broadcast hub

Channels are named in a registry, which any number of subscriptions and publishes share.  A
subscription takes the bus of its channel out of the registry, or puts a new one in, and its
loop receives from that bus until it is told to stop; then it takes the bus out of the
registry if nobody is left.  A publish takes the bus out of the registry, counts who receives
from it, and sends.

The registry, each bus and the flags of a subscription have locks of their own, so these
steps interleave.  Still all subscriptions of a channel receive from one bus, the registered
one, which is open; and what is published after a subscription was made is queued for it.
-/

namespace RsQuery

variable {T : Type}

/-- Where the loop of a subscription stands. -/
inductive ReceivingPc (T : Type) where
  /-- Spawned and not polled yet. -/
  | queued
  /-- Polls the stop signal. -/
  | select
  /-- Polls the receiver. -/
  | recv
  /-- Suspended in the race of the two. -/
  | parked
  /-- Tests the stop flag. -/
  | received (message : T)
  /-- Raises the guard. -/
  | raise (message : T)
  /-- Hydrates the client. -/
  | apply (message : T)
  /-- Lowers the guard. -/
  | lower
  /-- Drops the receiver. -/
  | leave
  /-- Takes the bus out of the registry if nobody is left. -/
  | remove
  | done

/-- A subscription of a channel. -/
structure Subscription (T : Type) where
  channel : String
  bus : Nat
  receiver : Nat
  /-- The call that made it has returned and dropped its sender. -/
  returned : Bool
  unsubscribe : Bool
  /-- The stop signal is sent. -/
  stopped : Bool
  applyingRemote : Bool
  pc : ReceivingPc T

/-- Where a publish stands. -/
inductive PublishPc where
  /-- Counts the receivers. -/
  | count
  | send
  /-- Drops the sender. -/
  | drop
  | done
deriving DecidableEq, Repr

/-- A publish to a channel. -/
structure Publish (T : Type) where
  channel : String
  bus : Nat
  message : T
  pc : PublishPc

/-- The registry, the buses that were ever in it, and who uses them; subscriptions and
publishes are numbered together, in the order they are made. -/
structure Hub (T : Type) where
  registry : Table String Nat
  buses : Table Nat (Bus.Shared T)
  nextBus : Nat
  subscriptions : Table Nat (Subscription T)
  publishes : Table Nat (Publish T)
  next : Nat

namespace Hub

/-- A step of the hub. -/
inductive Action (T : Type) where
  /-- The `channel_entry` of a new subscription. -/
  | subscribe (channel : String)
  /-- The call that made a subscription returns. -/
  | returns (i : Nat)
  /-- The stop flag is set. -/
  | unsubscribe (i : Nat)
  /-- The stop signal is sent. -/
  | stop (i : Nat)
  /-- The loop of a subscription goes on. -/
  | advance (i : Nat)
  /-- The task of a subscription is aborted, so its future is dropped. -/
  | abort (i : Nat)
  /-- A snapshot is taken, and the sender of the channel looked up. -/
  | publish (channel : String) (message : T)
  /-- A publish goes on. -/
  | deliver (p : Nat)

/-- An empty registry. -/
def initial : Hub T :=
  ⟨∅, ∅, 0, ∅, ∅, 0⟩

/-- A bus with one sender and no receiver. -/
def newBus : Bus.Shared T :=
  let (bus, receiver) := Bus.channel channelCapacity
  Bus.dropReceiver bus receiver

/-- The hub with one bus changed. -/
def onBus (s : Hub T) (b : Nat) (f : Bus.Shared T → Bus.Shared T) : Hub T :=
  { s with buses := Table.adjust b f s.buses }

/-- The bus of a channel, put into the registry if there is none. -/
def entry (s : Hub T) (channel : String) : Hub T × Nat :=
  match s.registry.lookup channel with
  | some b => (s, b)
  | none =>
    ({ s with
        registry := s.registry.insert channel s.nextBus
        buses := s.buses.insert s.nextBus newBus
        nextBus := s.nextBus + 1 }, s.nextBus)

/-- Takes the bus of a channel out of the registry if nobody receives from it. -/
def maybeRemoveChannel (s : Hub T) (channel : String) : Hub T :=
  match s.registry.lookup channel with
  | none => s
  | some b =>
    if (s.buses.lookup b).any fun bus => Bus.receiverCount bus = 0 then
      { s with registry := s.registry.erase channel }.onBus b fun bus => (Bus.dropSender bus).1
    else s

def setSubscription (s : Hub T) (i : Nat) (sub : Subscription T) : Hub T :=
  { s with subscriptions := s.subscriptions.insert i sub }

def setPublish (s : Hub T) (p : Nat) (pub : Publish T) : Hub T :=
  { s with publishes := s.publishes.insert p pub }

/-- One poll of the receiver of a subscription; a lag notice is skipped. -/
def recv (s : Hub T) (i : Nat) (sub : Subscription T) (bus : Bus.Shared T) : Hub T :=
  let (bus, poll) := Bus.recvPoll bus sub.receiver i
  let s := { s with buses := s.buses.insert sub.bus bus }
  match poll with
  | some (.ok message) => s.setSubscription i { sub with pc := .received message }
  | some (.error (.lagged _)) => s.setSubscription i { sub with pc := .select }
  | some (.error .closed) => s.setSubscription i { sub with pc := .leave }
  | none => s.setSubscription i { sub with pc := .parked }

/-- One step of the loop of a subscription. -/
def advance (s : Hub T) (i : Nat) (sub : Subscription T) : Option (Hub T) :=
  match sub.pc with
  | .queued | .parked => some (s.setSubscription i { sub with pc := .select })
  | .select =>
    some (s.setSubscription i { sub with pc := if sub.stopped then .leave else .recv })
  | .recv => (s.buses.lookup sub.bus).map (s.recv i sub)
  | .received message =>
    some (s.setSubscription i
      { sub with pc := if sub.unsubscribe then .leave else .raise message })
  | .raise message =>
    some (s.setSubscription i { sub with applyingRemote := true, pc := .apply message })
  | .apply _ => some (s.setSubscription i { sub with pc := .lower })
  | .lower => some (s.setSubscription i { sub with applyingRemote := false, pc := .select })
  | .leave =>
    some ((s.onBus sub.bus fun bus => Bus.dropReceiver bus sub.receiver).setSubscription i
      { sub with pc := .remove })
  | .remove => some ((s.maybeRemoveChannel sub.channel).setSubscription i { sub with pc := .done })
  | .done => none

/-- One step of a publish. -/
def deliver (s : Hub T) (p : Nat) (pub : Publish T) : Option (Hub T) :=
  match pub.pc with
  | .count => do
    let bus ← s.buses.lookup pub.bus
    some (s.setPublish p { pub with pc := if Bus.receiverCount bus = 0 then .drop else .send })
  | .send =>
    some ((s.onBus pub.bus fun bus => (Bus.send bus pub.message).1).setPublish p
      { pub with pc := .drop })
  | .drop =>
    some ((s.onBus pub.bus fun bus => (Bus.dropSender bus).1).setPublish p
      { pub with pc := .done })
  | .done => none

/-- What an action does. -/
def step (s : Hub T) : Action T → Option (Hub T)
  | .subscribe channel => do
    let e := s.entry channel
    let bus ← e.1.buses.lookup e.2
    let r := Bus.subscribe (Bus.cloneSender bus)
    some { { e.1 with buses := e.1.buses.insert e.2 r.1 }.setSubscription e.1.next
        ⟨channel, e.2, r.2, false, false, false, false, .queued⟩ with next := e.1.next + 1 }
  | .returns i => do
    let sub ← s.subscriptions.lookup i
    if sub.returned then none
    else
      some ((s.onBus sub.bus fun bus => (Bus.dropSender bus).1).setSubscription i
        { sub with returned := true })
  | .unsubscribe i => do
    let sub ← s.subscriptions.lookup i
    some (s.setSubscription i { sub with unsubscribe := true })
  | .stop i => do
    let sub ← s.subscriptions.lookup i
    if sub.unsubscribe then some (s.setSubscription i { sub with stopped := true }) else none
  | .advance i => do
    let sub ← s.subscriptions.lookup i
    s.advance i sub
  | .abort i => do
    let sub ← s.subscriptions.lookup i
    match sub.pc with
    | .queued | .parked =>
      some ((s.onBus sub.bus fun bus => Bus.dropReceiver bus sub.receiver).setSubscription i
        { sub with pc := .done })
    | _ => none
  | .publish channel message =>
    let e := s.entry channel
    some { (e.1.onBus e.2 Bus.cloneSender).setPublish e.1.next ⟨channel, e.2, message, .count⟩ with
      next := e.1.next + 1 }
  | .deliver p => do
    let pub ← s.publishes.lookup p
    s.deliver p pub

/-- A hub nobody uses yet, and every step. -/
def machine (T : Type) : Machine (Hub T) (Action T) :=
  ⟨fun s => s = initial, step⟩

end Hub

/-! ### Senders of a bus -/

namespace Bus

open Handles (liveness liveness_pollState)

variable {c : Shared T} {n : Nat}

/-- A bus with so many senders, closed only if it has none. -/
structure Shared.Held (n : Nat) (c : Shared T) : Prop where
  count : c.senderCount = n
  closed : c.sendersAlive = false → n = 0

theorem Shared.Held.sendersAlive (h : c.Held n) (hpos : 0 < n) :
  c.sendersAlive = true
  := by
  rw [← Bool.not_eq_false]
  intro hclosed
  apply hpos.ne' (h.closed hclosed)

theorem Shared.Held.cloneSender (h : c.Held n) (hpos : 0 < n) :
  (cloneSender c).Held (n + 1)
  := by
  constructor
  · rw [Bus.cloneSender, h.count]
  · intro hclosed
    apply absurd (h.closed hclosed) hpos.ne'

theorem Shared.Held.dropSender (h : c.Held (n + 1)) :
  (dropSender c).1.Held n
  := by
  have hcount := h.count
  unfold Bus.dropSender
  dsimp only
  split
  · constructor
    · dsimp only
      omega
    · intro _
      omega
  · constructor
    · dsimp only
      omega
    · intro hclosed
      apply absurd (h.closed hclosed) (Nat.succ_ne_zero n)

theorem Shared.Held.of_same {c' : Shared T} (h : c.Held n)
    (hcount : c'.senderCount = c.senderCount)
    (halive : c'.sendersAlive = c.sendersAlive) :
  c'.Held n
  := by
  refine ⟨hcount.trans h.count, ?_⟩
  rw [halive]
  apply h.closed

theorem nextId_pollState (c : Shared T) (id : Nat) (waker : Option Waker) :
  (pollState c id waker).1.nextId = c.nextId
  := by
  unfold pollState
  repeat' split
  all_goals rfl

theorem nextId_dropSender (c : Shared T) :
  (Bus.dropSender c).1.nextId = c.nextId
  := by
  unfold Bus.dropSender
  dsimp only
  split
  · rfl
  · rfl

theorem liveness_dropReceiver (c : Shared T) (id id' : Nat) :
  liveness (dropReceiver c id) id' = if id' = id then none else liveness c id'
  := by
  rw [liveness, dropReceiver, Table.lookup_erase_eq, apply_ite (Option.map _)]
  rfl

/-- A poll of an open bus leaves its receivers alive. -/
theorem liveness_recvPoll (hopen : c.sendersAlive = true) (id id' : Nat) (waker : Waker) :
  liveness (recvPoll c id waker).1 id' = liveness c id'
  := by
  rw [recvPoll_fst]
  obtain ⟨-, h | ⟨-, -, hclosed⟩⟩ := liveness_pollState c id (some waker) id'
  · apply h
  · rw [hopen] at hclosed
    contradiction

end Bus

/-! ### Who holds a bus open -/

/-- The call that makes a subscription holds a sender of a bus. -/
def Subscription.holds (b : Nat) (sub : Subscription T) : Bool :=
  !sub.returned && decide (sub.bus = b)

/-- A publish holds a sender of a bus. -/
def Publish.holds (b : Nat) (pub : Publish T) : Bool :=
  decide (pub.pc ≠ .done) && decide (pub.bus = b)

namespace Hub

variable {s s' : Hub T} {b : Nat} {i p : Nat}

/-- How many senders of a bus there are. -/
def handles (s : Hub T) (b : Nat) : Nat :=
  Table.count (fun b' => decide (b' = b)) s.registry +
    Table.count (Subscription.holds b) s.subscriptions + Table.count (Publish.holds b) s.publishes

theorem handles_setSubscription (s : Hub T) (i : Nat) (sub : Subscription T) (b : Nat) :
  (s.setSubscription i sub).handles b
      + (s.subscriptions.lookup i).elim 0 (fun old => (old.holds b).toNat)
    = s.handles b + (sub.holds b).toNat
  := by
  have hcount := Table.count_insert (Subscription.holds b) i sub s.subscriptions
  simp only [handles, setSubscription]
  omega

theorem handles_setPublish (s : Hub T) (p : Nat) (pub : Publish T) (b : Nat) :
  (s.setPublish p pub).handles b
      + (s.publishes.lookup p).elim 0 (fun old => (old.holds b).toNat)
    = s.handles b + (pub.holds b).toNat
  := by
  have hcount := Table.count_insert (Publish.holds b) p pub s.publishes
  simp only [handles, setPublish]
  omega

/-- A loop that goes on holds what it held. -/
theorem handles_of_holds {sub sub' : Subscription T} (hsub : s.subscriptions.lookup i = some sub)
    (hreturned : sub'.returned = sub.returned) (hbus : sub'.bus = sub.bus) :
  (s.setSubscription i sub').handles b = s.handles b
  := by
  have hcount := s.handles_setSubscription i sub' b
  rw [hsub, Option.elim_some] at hcount
  simp only [Subscription.holds, hreturned, hbus] at hcount
  omega

theorem handles_of_registered {channel : String} (h : s.registry.lookup channel = some b) :
  0 < s.handles b
  := by
  have hpos : 0 < Table.count (fun b' => decide (b' = b)) s.registry :=
    Table.count_pos h (decide_eq_true rfl)
  unfold handles
  omega

/-- Every bus has as many senders as are held, and is closed only if none is. -/
structure Counted (s : Hub T) : Prop where
  unmade : ∀ b, s.nextBus ≤ b → s.handles b = 0
  held : ∀ b bus, s.buses.lookup b = some bus → bus.Held (s.handles b)

/-- A step that concerns one bus. -/
theorem Counted.of_bus (h : s.Counted) (hnext : s'.nextBus = s.nextBus)
    (hbuses : ∀ b', b' ≠ b → s'.buses.lookup b' = s.buses.lookup b')
    (hhandles : ∀ b', b' ≠ b → s'.handles b' = s.handles b')
    (hmade : s.handles b = 0 → s'.handles b = 0)
    (hheld : ∀ bus', s'.buses.lookup b = some bus' → bus'.Held (s'.handles b)) :
  s'.Counted
  := by
  constructor
  · intro b' hb'
    rw [hnext] at hb'
    obtain rfl | hne := eq_or_ne b' b
    · apply hmade (h.unmade _ hb')
    · rw [hhandles b' hne]
      apply h.unmade b' hb'
  · intro b' bus' hbus'
    obtain rfl | hne := eq_or_ne b' b
    · apply hheld bus' hbus'
    · rw [hbuses b' hne] at hbus'
      rw [hhandles b' hne]
      apply h.held b' bus' hbus'

/-- A step that concerns no bus. -/
theorem Counted.of_same (h : s.Counted) (hnext : s'.nextBus = s.nextBus)
    (hbuses : s'.buses = s.buses) (hhandles : ∀ b, s'.handles b = s.handles b) :
  s'.Counted
  := by
  constructor
  · intro b hb
    rw [hhandles b]
    apply h.unmade b (hnext ▸ hb)
  · intro b bus hbus
    rw [hhandles b]
    apply h.held b bus (hbuses ▸ hbus)

theorem Counted.setSubscription {sub sub' : Subscription T} (h : s.Counted)
    (hsub : s.subscriptions.lookup i = some sub) (hreturned : sub'.returned = sub.returned)
    (hbus : sub'.bus = sub.bus) :
  (s.setSubscription i sub').Counted
  := by
  refine h.of_same rfl rfl fun b => ?_
  apply handles_of_holds hsub hreturned hbus

@[simp]
theorem handles_onBus (s : Hub T) (b b' : Nat) (f : Bus.Shared T → Bus.Shared T) :
  (s.onBus b f).handles b' = s.handles b'
  := rfl

theorem lookup_onBus (s : Hub T) (b b' : Nat) (f : Bus.Shared T → Bus.Shared T) :
  (s.onBus b f).buses.lookup b' =
    if b' = b then (s.buses.lookup b').map f else s.buses.lookup b'
  := by
  apply Table.lookup_adjust

/-- An operation on a bus that leaves its senders alone. -/
theorem Counted.onBus (h : s.Counted) (b : Nat) {f : Bus.Shared T → Bus.Shared T}
    (hcount : ∀ c, (f c).senderCount = c.senderCount)
    (halive : ∀ c, (f c).sendersAlive = c.sendersAlive) :
  (s.onBus b f).Counted
  := by
  refine h.of_bus (b := b) rfl ?_ (fun _ _ => rfl) id ?_
  · intro b' hne
    rw [lookup_onBus, if_neg hne]
  · intro bus' hbus'
    rw [lookup_onBus, if_pos rfl, Option.map_eq_some_iff] at hbus'
    obtain ⟨bus, hbus, rfl⟩ := hbus'
    apply (h.held b bus hbus).of_same (hcount bus) (halive bus)

/-- A sender that is dropped was held. -/
theorem Counted.dropSender (h : s.Counted) (hnext : s'.nextBus = s.nextBus)
    (hbuses : s'.buses = (s.onBus b fun bus => (Bus.dropSender bus).1).buses)
    (hhandles : ∀ b', s'.handles b' + (decide (b = b')).toNat = s.handles b') :
  s'.Counted
  := by
  have hb := hhandles b
  rw [decide_eq_true rfl, Bool.toNat_true] at hb
  apply h.of_bus hnext
  · intro b' hne
    rw [hbuses, lookup_onBus, if_neg hne]
  · intro b' hne
    have hb' := hhandles b'
    rwa [decide_eq_false hne.symm, Bool.toNat_false, Nat.add_zero] at hb'
  · omega
  · intro bus' hbus'
    rw [hbuses, lookup_onBus, if_pos rfl, Option.map_eq_some_iff] at hbus'
    obtain ⟨bus, hbus, rfl⟩ := hbus'
    apply Bus.Shared.Held.dropSender
    rw [hb]
    apply h.held b bus hbus

/-- A channel in the registry has a bus. -/
theorem Counted.entry (h : s.Counted) (channel : String) :
  (s.entry channel).1.Counted ∧
    (s.entry channel).1.registry.lookup channel = some (s.entry channel).2
  := by
  unfold Hub.entry
  split
  · next b hb => exact ⟨h, hb⟩
  · next hnone =>
    refine ⟨?_, AList.lookup_insert _⟩
    have hhandles (b : Nat) : ({ s with
        registry := s.registry.insert channel s.nextBus
        buses := s.buses.insert s.nextBus newBus
        nextBus := s.nextBus + 1 } : Hub T).handles b
          = s.handles b + (decide (s.nextBus = b)).toNat := by
      have hcount := Table.count_insert (fun b' => decide (b' = b)) channel s.nextBus s.registry
      rw [hnone, Option.elim_none] at hcount
      simp only [handles]
      omega
    constructor
    · intro b hb
      rw [hhandles, h.unmade b (Nat.le_of_succ_le hb), decide_eq_false (Nat.ne_of_lt hb)]
      rfl
    · intro b bus hbus
      rw [hhandles]
      obtain ⟨hb, rfl⟩ | ⟨hb, hbus⟩ := Table.lookup_insert_cases hbus
      · rw [h.unmade b (Nat.le_of_eq hb.symm), decide_eq_true hb.symm]
        exact ⟨rfl, nofun⟩
      · rw [decide_eq_false (Ne.symm hb)]
        apply h.held b bus hbus

/-- A bus that is left nobody receives from is taken out with its sender. -/
theorem Counted.maybeRemoveChannel (h : s.Counted) (channel : String) :
  (s.maybeRemoveChannel channel).Counted
  := by
  unfold Hub.maybeRemoveChannel
  split
  · apply h
  · next b hb =>
    split
    · refine h.dropSender (b := b) rfl rfl fun b' => ?_
      have hcount := Table.count_erase (fun b => decide (b = b')) channel s.registry
      rw [hb, Option.elim_some] at hcount
      simp only [handles, Hub.onBus]
      omega
    · apply h

/-- A new sender is held by whoever is new. -/
theorem Counted.cloneSender (h : s.Counted) {channel : String}
    (hb : s.registry.lookup channel = some b) (hnext : s'.nextBus = s.nextBus)
    (hbuses : ∀ b', b' ≠ b → s'.buses.lookup b' = s.buses.lookup b')
    (hbus : ∀ bus', s'.buses.lookup b = some bus' → ∃ bus, s.buses.lookup b = some bus ∧
      bus'.senderCount = bus.senderCount + 1 ∧ bus'.sendersAlive = bus.sendersAlive)
    (hhandles : ∀ b', s'.handles b' = s.handles b' + (decide (b = b')).toNat) :
  s'.Counted
  := by
  have hpos := handles_of_registered hb
  refine h.of_bus (b := b) hnext hbuses (fun b' hne => ?_) (fun hzero => ?_) fun bus' hbus' => ?_
  · rw [hhandles, decide_eq_false hne.symm]
    rfl
  · omega
  · obtain ⟨bus, hbus, hcount, halive⟩ := hbus bus' hbus'
    rw [hhandles, decide_eq_true rfl]
    apply ((h.held b bus hbus).cloneSender hpos).of_same hcount halive

end Hub

/-! ### Who receives from a bus -/

/-- The loop has its receiver. -/
def ReceivingPc.Receives : ReceivingPc T → Prop
  | .remove | .done => False
  | _ => True

namespace Hub

open Bus.Handles (liveness)

variable {s s' : Hub T} {b : Nat} {i p : Nat} {sub sub' : Subscription T} {pub : Publish T}

/-- A subscription receives from the bus that is registered for its channel. -/
def Live (s : Hub T) (sub : Subscription T) : Prop :=
  s.registry.lookup sub.channel = some sub.bus ∧
    ∃ bus, s.buses.lookup sub.bus = some bus ∧ liveness bus sub.receiver = some true

/-- Subscriptions with a receiver are live, each with a receiver of its own, and a publish
has the bus of those made before it. -/
structure Joined (s : Hub T) : Prop where
  numbered : ∀ i sub, s.subscriptions.lookup i = some sub → i < s.next ∧ sub.bus < s.nextBus ∧
    ∀ bus, s.buses.lookup sub.bus = some bus → sub.receiver < bus.nextId
  live : ∀ i sub, s.subscriptions.lookup i = some sub → sub.pc.Receives → s.Live sub
  apart : ∀ i j sub sub', s.subscriptions.lookup i = some sub →
    s.subscriptions.lookup j = some sub' → sub.bus = sub'.bus → sub.receiver = sub'.receiver →
    i = j
  publishes : ∀ p pub, s.publishes.lookup p = some pub → p < s.next
  heard : ∀ p pub i sub, s.publishes.lookup p = some pub → s.subscriptions.lookup i = some sub →
    pub.pc ≠ .done → sub.pc.Receives → i < p → sub.channel = pub.channel → pub.bus = sub.bus

/-- A step that concerns buses and the registry and leaves what is live live. -/
theorem Joined.of_live (h : s.Joined) (hsubs : s'.subscriptions = s.subscriptions)
    (hpubs : s'.publishes = s.publishes) (hnext : s'.next = s.next)
    (hmade : s.nextBus ≤ s'.nextBus)
    (hids : ∀ b < s.nextBus, ∀ bus', s'.buses.lookup b = some bus' →
      ∃ bus, s.buses.lookup b = some bus ∧ bus.nextId ≤ bus'.nextId)
    (hlive : ∀ i sub, s.subscriptions.lookup i = some sub → sub.pc.Receives → s.Live sub →
      s'.Live sub) :
  s'.Joined
  := by
  constructor
  · intro i sub hsub
    rw [hsubs] at hsub
    obtain ⟨hi, hb, hrx⟩ := h.numbered i sub hsub
    rw [hnext]
    refine ⟨hi, Nat.lt_of_lt_of_le hb hmade, fun bus hbus => ?_⟩
    obtain ⟨bus₀, hbus₀, hid⟩ := hids sub.bus hb bus hbus
    apply Nat.lt_of_lt_of_le (hrx bus₀ hbus₀) hid
  · intro i sub hsub hpc
    rw [hsubs] at hsub
    apply hlive i sub hsub hpc (h.live i sub hsub hpc)
  · rw [hsubs]
    apply h.apart
  · rw [hpubs, hnext]
    apply h.publishes
  · rw [hpubs, hsubs]
    apply h.heard

/-- A loop that goes on has the receiver it had, or none. -/
theorem Joined.setSubscription (h : s.Joined) (hsub : s.subscriptions.lookup i = some sub)
    (hchannel : sub'.channel = sub.channel) (hbus : sub'.bus = sub.bus)
    (hreceiver : sub'.receiver = sub.receiver) (hpc : sub'.pc.Receives → sub.pc.Receives) :
  (s.setSubscription i sub').Joined
  := by
  -- what is looked up now is as it was, but for where its loop stands
  have hold (j : Nat) (q' : Subscription T)
      (hq' : (s.setSubscription i sub').subscriptions.lookup j = some q') :
      ∃ q, s.subscriptions.lookup j = some q ∧ q'.channel = q.channel ∧ q'.bus = q.bus ∧
        q'.receiver = q.receiver ∧ (q'.pc.Receives → q.pc.Receives) := by
    obtain ⟨rfl, rfl⟩ | ⟨-, hq'⟩ := Table.lookup_insert_cases hq'
    · exact ⟨sub, hsub, hchannel, hbus, hreceiver, hpc⟩
    · exact ⟨q', hq', rfl, rfl, rfl, id⟩
  constructor
  · intro j q' hq'
    obtain ⟨q, hq, -, hb, hrx, -⟩ := hold j q' hq'
    rw [hb, hrx]
    apply h.numbered j q hq
  · intro j q' hq' hr
    obtain ⟨q, hq, hch, hb, hrx, hr'⟩ := hold j q' hq'
    have hlive := h.live j q hq (hr' hr)
    rw [Live, ← hch, ← hb, ← hrx] at hlive
    apply hlive
  · intro j k q q' hq hq' hb hrx
    obtain ⟨q₀, hq₀, -, hb₀, hrx₀, -⟩ := hold j q hq
    obtain ⟨q₀', hq₀', -, hb₀', hrx₀', -⟩ := hold k q' hq'
    apply h.apart j k q₀ q₀' hq₀ hq₀'
    · rw [← hb₀, ← hb₀', hb]
    · rw [← hrx₀, ← hrx₀', hrx]
  · apply h.publishes
  · intro p pub j q' hpub hq' hdone hr hjp hchannel'
    obtain ⟨q, hq, hch, hb, -, hr'⟩ := hold j q' hq'
    rw [hb]
    apply h.heard p pub j q hpub hq hdone (hr' hr) hjp
    rw [← hch, hchannel']

/-- A publish that goes on has the bus it had. -/
theorem Joined.setPublish {pub' : Publish T} (h : s.Joined)
    (hpub : s.publishes.lookup p = some pub) (hchannel : pub'.channel = pub.channel)
    (hbus : pub'.bus = pub.bus) (hpc : pub.pc ≠ .done) :
  (s.setPublish p pub').Joined
  := by
  have hold (q : Nat) (r' : Publish T)
      (hr' : (s.setPublish p pub').publishes.lookup q = some r') :
      ∃ r, s.publishes.lookup q = some r ∧ r'.channel = r.channel ∧ r'.bus = r.bus ∧
        (r'.pc ≠ .done → r.pc ≠ .done) := by
    obtain ⟨rfl, rfl⟩ | ⟨-, hr'⟩ := Table.lookup_insert_cases hr'
    · exact ⟨pub, hpub, hchannel, hbus, fun _ => hpc⟩
    · exact ⟨r', hr', rfl, rfl, id⟩
  constructor
  · apply h.numbered
  · apply h.live
  · apply h.apart
  · intro q r' hr'
    obtain ⟨r, hr, -⟩ := hold q r' hr'
    apply h.publishes q r hr
  · intro q r' j sub hr' hsub hdone hreceives hjq hch
    obtain ⟨r, hr, hchr, hbr, hpcr⟩ := hold q r' hr'
    rw [hbr]
    apply h.heard q r j sub hr hsub (hpcr hdone) hreceives hjq
    rw [hch, hchr]

theorem nextId_onBus {f : Bus.Shared T → Bus.Shared T} (hid : ∀ c, (f c).nextId = c.nextId)
    (b' : Nat) :
  ∀ bus', (s.onBus b f).buses.lookup b' = some bus' →
    ∃ bus, s.buses.lookup b' = some bus ∧ bus.nextId ≤ bus'.nextId
  := by
  intro bus' hbus'
  rw [lookup_onBus] at hbus'
  split at hbus'
  · obtain ⟨bus, hbus, rfl⟩ := Option.map_eq_some_iff.mp hbus'
    exact ⟨bus, hbus, Nat.le_of_eq (hid bus).symm⟩
  · exact ⟨bus', hbus', Nat.le_refl _⟩

/-- An operation on a bus that gives out no receiver and leaves those of subscriptions. -/
theorem Joined.onBus (h : s.Joined) (b : Nat) {f : Bus.Shared T → Bus.Shared T}
    (hid : ∀ c, (f c).nextId = c.nextId)
    (hlive : ∀ i sub c, s.subscriptions.lookup i = some sub → sub.pc.Receives → sub.bus = b →
      liveness c sub.receiver = some true → liveness (f c) sub.receiver = some true) :
  (s.onBus b f).Joined
  := by
  refine h.of_live rfl rfl rfl (Nat.le_refl _) (fun b' _ => nextId_onBus hid b')
    fun i sub hsub hpc hl => ?_
  · obtain ⟨hregistry, bus, hbus, halive⟩ := hl
    refine ⟨hregistry, ?_⟩
    rw [lookup_onBus]
    split
    · next hb =>
      rw [hbus]
      exact ⟨f bus, rfl, hlive i sub bus hsub hpc hb halive⟩
    · exact ⟨bus, hbus, halive⟩

theorem Counted.lt_of_registered {channel : String} (h : s.Counted)
    (hb : s.registry.lookup channel = some b) :
  b < s.nextBus
  := by
  apply Nat.lt_of_not_le
  intro hle
  apply (handles_of_registered hb).ne' (h.unmade b hle)

theorem Joined.entry (h : s.Joined) (hcounted : s.Counted) (channel : String) :
  (s.entry channel).1.Joined ∧ (s.entry channel).2 < (s.entry channel).1.nextBus
  := by
  unfold Hub.entry
  split
  · next b hb => exact ⟨h, hcounted.lt_of_registered hb⟩
  · next hnone =>
    refine ⟨?_, Nat.lt_succ_self _⟩
    refine h.of_live rfl rfl rfl (Nat.le_succ _) (fun b hb bus' hbus' => ?_)
      fun i sub hsub hpc hl => ?_
    · rw [AList.lookup_insert_ne (Nat.ne_of_lt hb)] at hbus'
      exact ⟨bus', hbus', Nat.le_refl _⟩
    · obtain ⟨hregistry, bus, hbus, halive⟩ := hl
      have hchannel : sub.channel ≠ channel := by
        rintro rfl
        rw [hnone] at hregistry
        contradiction
      refine ⟨(AList.lookup_insert_ne hchannel).trans hregistry, bus, ?_, halive⟩
      have hlt := hcounted.lt_of_registered hregistry
      apply (AList.lookup_insert_ne (Nat.ne_of_lt hlt)).trans hbus

/-- A bus that a subscription receives from is not empty. -/
theorem receiverCount_of_liveness {c : Bus.Shared T} {receiver : Nat}
    (h : liveness c receiver = some true) :
  Bus.receiverCount c ≠ 0
  := by
  obtain ⟨r, hr, halive⟩ := Option.map_eq_some_iff.mp h
  apply Link.receiverCount_ne_zero hr halive

/-- Only a bus nobody receives from is taken out of the registry. -/
theorem Joined.maybeRemoveChannel (h : s.Joined) (channel : String) :
  (s.maybeRemoveChannel channel).Joined
  := by
  unfold Hub.maybeRemoveChannel
  split
  · apply h
  · next b hb =>
    split
    · next hempty =>
      refine h.of_live rfl rfl rfl (Nat.le_refl _)
        (fun b' _ => nextId_onBus (s := s) Bus.nextId_dropSender b') fun i sub hsub hpc hl => ?_
      · obtain ⟨hregistry, bus, hbus, halive⟩ := hl
        have hne : sub.bus ≠ b := by
          rintro rfl
          rw [hbus, Option.any_some, decide_eq_true_eq] at hempty
          apply receiverCount_of_liveness halive hempty
        have hchannel : sub.channel ≠ channel := by
          rintro heq
          rw [heq, hb] at hregistry
          apply hne (Option.some.inj hregistry).symm
        refine ⟨(AList.lookup_erase_ne hchannel).trans hregistry, bus, ?_, halive⟩
        rw [lookup_onBus, if_neg hne]
        apply hbus
    · apply h

/-- A new subscription is live, with a receiver no other has. -/
theorem Joined.newSubscription (h : s.Joined) (hmade : sub.bus < s.nextBus) (hlive : s.Live sub)
    (hid : ∀ bus, s.buses.lookup sub.bus = some bus → sub.receiver < bus.nextId)
    (hfresh : ∀ j q, s.subscriptions.lookup j = some q → q.bus = sub.bus →
      q.receiver ≠ sub.receiver) :
  ({ s.setSubscription s.next sub with next := s.next + 1 } : Hub T).Joined
  := by
  constructor
  · intro j q hq
    obtain ⟨rfl, rfl⟩ | ⟨-, hq⟩ := Table.lookup_insert_cases hq
    · exact ⟨Nat.lt_succ_self _, hmade, hid⟩
    · obtain ⟨hj, hb, hrx⟩ := h.numbered j q hq
      exact ⟨Nat.lt_succ_of_lt hj, hb, hrx⟩
  · intro j q hq hr
    obtain ⟨rfl, rfl⟩ | ⟨-, hq⟩ := Table.lookup_insert_cases hq
    · apply hlive
    · apply h.live j q hq hr
  · intro j k q q' hq hq' hb hrx
    obtain ⟨rfl, rfl⟩ | ⟨-, hj⟩ := Table.lookup_insert_cases hq
    · obtain ⟨rfl, rfl⟩ | ⟨-, hk⟩ := Table.lookup_insert_cases hq'
      · rfl
      · apply absurd hrx.symm (hfresh k q' hk hb.symm)
    · obtain ⟨rfl, rfl⟩ | ⟨-, hk⟩ := Table.lookup_insert_cases hq'
      · apply absurd hrx (hfresh j q hj hb)
      · apply h.apart j k q q' hj hk hb hrx
  · intro p pub hpub
    apply Nat.lt_succ_of_lt (h.publishes p pub hpub)
  · intro p pub j q hpub hq hdone hr hjp hchannel
    obtain ⟨rfl, rfl⟩ | ⟨-, hq⟩ := Table.lookup_insert_cases hq
    · apply absurd (h.publishes p pub hpub) (Nat.lt_asymm hjp)
    · apply h.heard p pub j q hpub hq hdone hr hjp hchannel

/-- A new publish has the registered bus. -/
theorem Joined.newPublish (h : s.Joined) (hb : s.registry.lookup pub.channel = some pub.bus) :
  ({ s.setPublish s.next pub with next := s.next + 1 } : Hub T).Joined
  := by
  constructor
  · intro j q hq
    obtain ⟨hj, hrest⟩ := h.numbered j q hq
    exact ⟨Nat.lt_succ_of_lt hj, hrest⟩
  · apply h.live
  · apply h.apart
  · intro q r hr
    obtain ⟨rfl, rfl⟩ | ⟨-, hr⟩ := Table.lookup_insert_cases hr
    · apply Nat.lt_succ_self
    · apply Nat.lt_succ_of_lt (h.publishes q r hr)
  · intro q r j sub hr hsub hdone hreceives hjq hchannel
    obtain ⟨rfl, rfl⟩ | ⟨-, hr⟩ := Table.lookup_insert_cases hr
    · obtain ⟨hregistry, -⟩ := h.live j sub hsub hreceives
      rw [hchannel, hb] at hregistry
      apply Option.some.inj hregistry
    · apply h.heard q r j sub hr hsub hdone hreceives hjq hchannel

/-! ### Steps of the hub -/

/-- What holds of every state of the hub. -/
structure Kept (s : Hub T) : Prop where
  counted : s.Counted
  joined : s.Joined

/-- The loop of a subscription goes on. -/
theorem Kept.setSubscription (h : s.Kept) (hsub : s.subscriptions.lookup i = some sub)
    (hreturned : sub'.returned = sub.returned) (hchannel : sub'.channel = sub.channel)
    (hbus : sub'.bus = sub.bus) (hreceiver : sub'.receiver = sub.receiver)
    (hpc : sub'.pc.Receives → sub.pc.Receives) :
  (s.setSubscription i sub').Kept
  := ⟨h.counted.setSubscription hsub hreturned hbus,
    h.joined.setSubscription hsub hchannel hbus hreceiver hpc⟩

/-- A poll of a receiver leaves every subscription its own. -/
theorem Kept.poll {bus : Bus.Shared T} (h : s.Kept) (hb : s.buses.lookup b = some bus)
    (hopen : bus.sendersAlive = true) (receiver : Nat) :
  ({ s with buses := s.buses.insert b (Bus.recvPoll bus receiver i).1 } : Hub T).Kept
  := by
  have hfst := Bus.recvPoll_fst bus receiver i
  constructor
  · refine h.counted.of_bus (b := b) rfl (fun b' hne => AList.lookup_insert_ne hne)
      (fun _ _ => rfl) id fun bus' hbus' => ?_
    obtain rfl := Option.some.inj ((AList.lookup_insert _).symm.trans hbus')
    apply (h.counted.held b bus hb).of_same
    · rw [hfst]
      apply Bus.senderCount_pollState
    · rw [hfst]
      apply (Bus.pollState_frame _ _ _).2
  · refine h.joined.of_live rfl rfl rfl (Nat.le_refl _) (fun b' _ bus' hbus' => ?_)
      fun j q hq hr hl => ?_
    · obtain ⟨heq, rfl⟩ | ⟨-, hbus'⟩ := Table.lookup_insert_cases hbus'
      · refine ⟨bus, heq ▸ hb, Nat.le_of_eq ?_⟩
        rw [hfst, Bus.nextId_pollState]
      · exact ⟨bus', hbus', Nat.le_refl _⟩
    · obtain ⟨hregistry, bus₀, hbus₀, halive⟩ := hl
      refine ⟨hregistry, ?_⟩
      rw [Table.lookup_insert_eq]
      split
      · next heq =>
        rw [heq, hb] at hbus₀
        obtain rfl := Option.some.inj hbus₀
        refine ⟨_, rfl, ?_⟩
        rw [Bus.liveness_recvPoll hopen]
        apply halive
      · exact ⟨bus₀, hbus₀, halive⟩

/-- The bus of a subscription with a receiver is open. -/
theorem Kept.sendersAlive {bus : Bus.Shared T} (h : s.Kept)
    (hsub : s.subscriptions.lookup i = some sub) (hpc : sub.pc.Receives)
    (hbus : s.buses.lookup sub.bus = some bus) :
  bus.sendersAlive = true
  := by
  obtain ⟨hregistry, -⟩ := h.joined.live i sub hsub hpc
  apply (h.counted.held _ bus hbus).sendersAlive (handles_of_registered hregistry)

theorem Kept.recv {bus : Bus.Shared T} (h : s.Kept) (hsub : s.subscriptions.lookup i = some sub)
    (hpc : sub.pc = .recv) (hbus : s.buses.lookup sub.bus = some bus) :
  (s.recv i sub bus).Kept
  := by
  have hreceives : sub.pc.Receives := by
    rw [hpc]
    trivial
  have hpoll := h.poll (i := i) hbus (h.sendersAlive hsub hreceives hbus) sub.receiver
  unfold Hub.recv
  dsimp only
  split
  all_goals exact hpoll.setSubscription hsub rfl rfl rfl rfl fun _ => hreceives

/-- A receiver that is dropped is that of no other subscription. -/
theorem Kept.dropReceiver (h : s.Kept) (hsub : s.subscriptions.lookup i = some sub)
    (hpc : ¬ sub.pc.Receives) :
  (s.onBus sub.bus fun bus => Bus.dropReceiver bus sub.receiver).Kept
  := by
  constructor
  · exact h.counted.onBus sub.bus (fun _ => rfl) fun _ => rfl
  · refine h.joined.onBus sub.bus (fun _ => rfl) fun j q c hq hr hb halive => ?_
    rw [Bus.liveness_dropReceiver]
    split
    · next hreceiver =>
      obtain rfl := h.joined.apart j i q sub hq hsub hb hreceiver
      rw [hsub] at hq
      obtain rfl := Option.some.inj hq
      contradiction
    · apply halive

theorem subscriptions_maybeRemoveChannel (s : Hub T) (channel : String) :
  (s.maybeRemoveChannel channel).subscriptions = s.subscriptions
  := by
  unfold Hub.maybeRemoveChannel
  split
  · rfl
  · split
    · rfl
    · rfl

theorem Kept.advance (h : s.Kept) (hsub : s.subscriptions.lookup i = some sub)
    (hs : s.advance i sub = some s') :
  s'.Kept
  := by
  have goes (sub' : Subscription T) (hreturned : sub'.returned = sub.returned)
      (hchannel : sub'.channel = sub.channel) (hbus : sub'.bus = sub.bus)
      (hreceiver : sub'.receiver = sub.receiver) (hpc : sub.pc.Receives) :
      (s.setSubscription i sub').Kept :=
    h.setSubscription hsub hreturned hchannel hbus hreceiver fun _ => hpc
  unfold Hub.advance at hs
  split at hs
  case h_4 hpc =>
    obtain ⟨bus, hbus, rfl⟩ := Option.map_eq_some_iff.mp hs
    apply h.recv hsub hpc hbus
  case h_9 hpc =>
    obtain rfl := Option.some.inj hs
    have hleft : (s.setSubscription i { sub with pc := .remove }).Kept :=
      h.setSubscription hsub rfl rfl rfl rfl nofun
    apply hleft.dropReceiver (AList.lookup_insert _) id
  case h_10 hpc =>
    obtain rfl := Option.some.inj hs
    have hremoved : (s.maybeRemoveChannel sub.channel).Kept :=
      ⟨h.counted.maybeRemoveChannel _, h.joined.maybeRemoveChannel _⟩
    have hsub' : (s.maybeRemoveChannel sub.channel).subscriptions.lookup i = some sub := by
      rw [subscriptions_maybeRemoveChannel, hsub]
    exact hremoved.setSubscription hsub' rfl rfl rfl rfl nofun
  case h_11 => contradiction
  all_goals
    next hpc =>
      obtain rfl := Option.some.inj hs
      refine goes _ rfl rfl rfl rfl ?_
      rw [hpc]
      trivial

theorem handles_of_deliver {pub pub' : Publish T} (hpub : s.publishes.lookup p = some pub)
    (hbus : pub'.bus = pub.bus) (hpc : pub'.pc = .done ↔ pub.pc = .done) :
  (s.setPublish p pub').handles b = s.handles b
  := by
  have hcount := s.handles_setPublish p pub' b
  rw [hpub, Option.elim_some] at hcount
  simp only [Publish.holds, hbus, ne_eq, hpc] at hcount
  omega

/-- A publish goes on. -/
theorem Kept.setPublish {pub' : Publish T} (h : s.Kept) (hpub : s.publishes.lookup p = some pub)
    (hchannel : pub'.channel = pub.channel) (hbus : pub'.bus = pub.bus) (hpc : pub.pc ≠ .done)
    (hpc' : pub'.pc ≠ .done) :
  (s.setPublish p pub').Kept
  := ⟨h.counted.of_same rfl rfl fun b => handles_of_deliver hpub hbus (by simp [hpc, hpc']),
    h.joined.setPublish hpub hchannel hbus hpc⟩

theorem Kept.send (h : s.Kept) (b : Nat) (message : T) :
  (s.onBus b fun bus => (Bus.send bus message).1).Kept
  := by
  constructor
  · exact h.counted.onBus b (fun _ => rfl) fun _ => rfl
  · refine h.joined.onBus b (fun _ => rfl) fun j q c _ _ _ halive => ?_
    rw [Bus.Handles.liveness_send]
    apply halive

theorem Joined.dropSender (h : s.Joined) (b : Nat) :
  (s.onBus b fun bus => (Bus.dropSender bus).1).Joined
  := by
  refine h.onBus b Bus.nextId_dropSender fun j q c _ _ _ halive => ?_
  rw [Bus.Handles.liveness_dropSender]
  apply halive

theorem Kept.deliver (h : s.Kept) (hpub : s.publishes.lookup p = some pub)
    (hs : s.deliver p pub = some s') :
  s'.Kept
  := by
  unfold Hub.deliver at hs
  split at hs
  case h_1 hpc =>
    obtain ⟨bus, hbus, hs⟩ := Option.bind_eq_some_iff.mp hs
    obtain rfl := Option.some.inj hs
    refine h.setPublish hpub rfl rfl ?_ ?_
    · rw [hpc]
      nofun
    · dsimp only
      split
      · nofun
      · nofun
  case h_2 hpc =>
    obtain rfl := Option.some.inj hs
    refine (h.send pub.bus pub.message).setPublish (p := p) hpub rfl rfl ?_ nofun
    rw [hpc]
    nofun
  case h_3 hpc =>
    obtain rfl := Option.some.inj hs
    have hne : pub.pc ≠ .done := by
      rw [hpc]
      nofun
    constructor
    · refine h.counted.dropSender (b := pub.bus) rfl rfl fun b' => ?_
      have hcount := handles_setPublish (s.onBus pub.bus fun bus => (Bus.dropSender bus).1) p
        { pub with pc := .done } b'
      have hpub' : (s.onBus pub.bus fun bus => (Bus.dropSender bus).1).publishes.lookup p
          = some pub := hpub
      rw [hpub', Option.elim_some] at hcount
      simpa [Publish.holds, hpc] using hcount
    · have hleft : (s.setPublish p { pub with pc := .done }).Joined :=
        h.joined.setPublish hpub rfl rfl hne
      apply hleft.dropSender
  case h_4 => contradiction

/-- The call that made a subscription returns. -/
theorem Kept.returns (h : s.Kept) (hsub : s.subscriptions.lookup i = some sub)
    (hreturned : sub.returned = false) :
  ((s.onBus sub.bus fun bus => (Bus.dropSender bus).1).setSubscription i
    { sub with returned := true }).Kept
  := by
  constructor
  · refine h.counted.dropSender (b := sub.bus) rfl rfl fun b' => ?_
    have hcount := handles_setSubscription (s.onBus sub.bus fun bus => (Bus.dropSender bus).1) i
      { sub with returned := true } b'
    have hsub' : (s.onBus sub.bus fun bus => (Bus.dropSender bus).1).subscriptions.lookup i
        = some sub := hsub
    rw [hsub', Option.elim_some] at hcount
    simpa [Subscription.holds, hreturned] using hcount
  · exact (h.joined.dropSender sub.bus).setSubscription (i := i) hsub rfl rfl rfl id

theorem Kept.entry (h : s.Kept) (channel : String) :
  (s.entry channel).1.Kept
  := ⟨(h.counted.entry channel).1, (h.joined.entry h.counted channel).1⟩

theorem lookup_next (h : s.Joined) :
  s.subscriptions.lookup s.next = none ∧ s.publishes.lookup s.next = none
  := by
  constructor
  · cases hsub : s.subscriptions.lookup s.next with
    | none => rfl
    | some sub => apply absurd (h.numbered _ sub hsub).1 (Nat.lt_irrefl _)
  · cases hpub : s.publishes.lookup s.next with
    | none => rfl
    | some pub => apply absurd (h.publishes _ pub hpub) (Nat.lt_irrefl _)

/-- A new subscription of a channel. -/
theorem Kept.subscribe {channel : String} {bus : Bus.Shared T} (h : s.Kept)
    (hb : s.registry.lookup channel = some b) (hbus : s.buses.lookup b = some bus) :
  ({ { s with buses := s.buses.insert b (Bus.subscribe (Bus.cloneSender bus)).1 }.setSubscription
      s.next ⟨channel, b, bus.nextId, false, false, false, false, .queued⟩ with
        next := s.next + 1 } : Hub T).Kept
  := by
  constructor
  · refine h.counted.cloneSender hb rfl (fun b' hne => AList.lookup_insert_ne hne)
      (fun bus' hbus' => ?_) fun b' => ?_
    · obtain rfl := Option.some.inj ((AList.lookup_insert _).symm.trans hbus')
      exact ⟨bus, hbus, rfl, rfl⟩
    · have hcount := s.handles_setSubscription s.next
        ⟨channel, b, bus.nextId, false, false, false, false, .queued⟩ b'
      rw [(lookup_next h.joined).1, Option.elim_none] at hcount
      apply hcount
  · have hleft : ({ s with
        buses := s.buses.insert b (Bus.subscribe (Bus.cloneSender bus)).1 } : Hub T).Joined := by
      refine h.joined.of_live rfl rfl rfl (Nat.le_refl _) (fun b' _ bus' hbus' => ?_)
        fun j q hq hr hl => ?_
      · obtain ⟨heq, rfl⟩ | ⟨-, hbus'⟩ := Table.lookup_insert_cases hbus'
        · exact ⟨bus, heq ▸ hbus, Nat.le_succ _⟩
        · exact ⟨bus', hbus', Nat.le_refl _⟩
      · obtain ⟨hregistry, bus₀, hbus₀, halive⟩ := hl
        refine ⟨hregistry, ?_⟩
        rw [Table.lookup_insert_eq]
        split
        · next heq =>
          rw [heq, hbus] at hbus₀
          obtain rfl := Option.some.inj hbus₀
          refine ⟨_, rfl, ?_⟩
          rw [Bus.Handles.liveness_subscribe]
          split
          · rfl
          · apply halive
        · exact ⟨bus₀, hbus₀, halive⟩
    apply hleft.newSubscription
    · apply h.counted.lt_of_registered hb
    · refine ⟨hb, _, AList.lookup_insert _, ?_⟩
      rw [Bus.Handles.liveness_subscribe]
      apply if_pos rfl
    · intro bus' hbus'
      obtain rfl := Option.some.inj ((AList.lookup_insert _).symm.trans hbus')
      apply Nat.lt_succ_self
    · intro j q hq hqb
      apply Nat.ne_of_lt
      apply (h.joined.numbered j q hq).2.2 bus
      rw [hqb]
      apply hbus

/-- A new publish to a channel. -/
theorem Kept.publish {channel : String} {message : T} (h : s.Kept)
    (hb : s.registry.lookup channel = some b) :
  ({ (s.onBus b Bus.cloneSender).setPublish s.next ⟨channel, b, message, .count⟩ with
    next := s.next + 1 } : Hub T).Kept
  := by
  constructor
  · refine h.counted.cloneSender hb rfl (fun b' hne => ?_) (fun bus' hbus' => ?_) fun b' => ?_
    · apply (lookup_onBus s b b' _).trans (if_neg hne)
    · obtain ⟨bus, hbus, rfl⟩ := Option.map_eq_some_iff.mp
        (((lookup_onBus s b b _).trans (if_pos rfl)).symm.trans hbus')
      exact ⟨bus, hbus, rfl, rfl⟩
    · have hcount := s.handles_setPublish s.next ⟨channel, b, message, .count⟩ b'
      rw [(lookup_next h.joined).2, Option.elim_none] at hcount
      apply hcount
  · have hleft : (s.onBus b Bus.cloneSender).Joined :=
      h.joined.onBus b (fun _ => rfl) fun _ _ _ _ _ _ halive => halive
    apply hleft.newPublish hb

theorem Kept.step {a : Action T} (h : s.Kept) (hs : s.step a = some s') :
  s'.Kept
  := by
  cases a with
  | subscribe channel =>
    obtain ⟨bus, hbus, hs⟩ := Option.bind_eq_some_iff.mp hs
    obtain rfl := Option.some.inj hs
    apply (h.entry channel).subscribe (h.counted.entry channel).2 hbus
  | returns i =>
    obtain ⟨sub, hsub, hs⟩ := Option.bind_eq_some_iff.mp hs
    split at hs
    · contradiction
    · next hreturned =>
      obtain rfl := Option.some.inj hs
      apply h.returns hsub (Bool.of_not_eq_true hreturned)
  | unsubscribe i =>
    obtain ⟨sub, hsub, hs⟩ := Option.bind_eq_some_iff.mp hs
    obtain rfl := Option.some.inj hs
    exact h.setSubscription hsub rfl rfl rfl rfl id
  | stop i =>
    obtain ⟨sub, hsub, hs⟩ := Option.bind_eq_some_iff.mp hs
    split at hs
    · obtain rfl := Option.some.inj hs
      exact h.setSubscription hsub rfl rfl rfl rfl id
    · contradiction
  | advance i =>
    obtain ⟨sub, hsub, hs⟩ := Option.bind_eq_some_iff.mp hs
    apply h.advance hsub hs
  | abort i =>
    obtain ⟨sub, hsub, hs⟩ := Option.bind_eq_some_iff.mp hs
    split at hs
    case h_3 => contradiction
    all_goals
      obtain rfl := Option.some.inj hs
      have hleft : (s.setSubscription i { sub with pc := .done }).Kept :=
        h.setSubscription hsub rfl rfl rfl rfl nofun
      apply hleft.dropReceiver (AList.lookup_insert _) id
  | publish channel message =>
    obtain rfl := Option.some.inj hs
    apply (h.entry channel).publish (h.counted.entry channel).2
  | deliver p =>
    obtain ⟨pub, hpub, hs⟩ := Option.bind_eq_some_iff.mp hs
    apply h.deliver hpub hs

theorem kept_of_reachable (h : (machine T).Reachable s) :
  s.Kept
  := by
  apply h.invariant
  · rintro s rfl
    refine ⟨⟨fun _ _ => rfl, fun b bus hbus => ?_⟩, ?_⟩
    · simp [initial] at hbus
    · constructor
      all_goals simp [initial]
  · exact fun s a s' _ hkept _ hs => hkept.step hs

end Hub

end RsQuery
