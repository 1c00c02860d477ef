import Mathlib.Data.Finset.Basic
import RsQuery.Bus
import RsQuery.Lib.LossyQueue
import RsQuery.Lib.Machine

/-!
# The handles of a bus

A bus together with its sender and receiver handles and the tasks suspended in `recv`.
Each call takes the lock of the bus once and is one step; a sender wakes the wakers it
has taken after it has released the lock, one by one and in any order.  What each
receiver has been sent since its subscription and what it was given is kept beside.

With a sender left and no clones of receivers, a receiver is given what it was sent, in
order and with every value accounted for.  A clone of a receiver goes through a sender
that was never counted and is dropped again, so the bus may close under a live sender.
-/

namespace RsQuery

namespace Bus

open LossyQueue (Receipt Accounts values lost)

/-- The queue of a receiver, and what it missed. -/
def RecvState.lossy {T : Type} (r : RecvState T) : LossyQueue.Queue T :=
  ⟨r.queue, r.missed⟩

/-- A bus with its handles: how many senders there are, which receivers, the tasks
suspended in `recv` that have not been woken, and the wakers taken and still to be woken;
and what every receiver was sent and given. -/
structure Handles (T : Type) where
  shared : Shared T
  senders : Nat
  receivers : Finset Nat
  parked : Table Nat Waker
  hand : List Waker
  sent : Nat → List T
  got : Nat → List (Receipt T)

namespace Handles

variable {T : Type}

/-- A step of the system. -/
inductive Action (T : Type) where
  | subscribe
  | cloneSender
  | dropSender
  | cloneReceiver (id : Nat)
  | dropReceiver (id : Nat)
  | send (value : T)
  /-- A sender wakes one of the wakers taken. -/
  | wake (w : Waker)
  | tryRecv (id : Nat)
  /-- The task of `w` polls `recv`. -/
  | recv (id : Nat) (w : Waker)
  /-- The future of `recv` is dropped. -/
  | dropRecv (id : Nat)

/-- A new bus, with one sender and one receiver. -/
def initial (capacity : Nat) : Handles T where
  shared := (channel capacity).1
  senders := 1
  receivers := {(channel (T := T) capacity).2}
  parked := ∅
  hand := []
  sent _ := []
  got _ := []

/-- What a receive gives its caller, if anything. -/
def receipt : Except TryRecvError T → Option (Receipt T)
  | .ok value => some (.value value)
  | .error (.lagged n) => some (.lagged n)
  | .error _ => none

/-- A new receiver handle. -/
def addReceiver (s : Handles T) (shared : Shared T) (id : Nat) : Handles T :=
  { s with
    shared := shared
    receivers := insert id s.receivers
    sent := Function.update s.sent id []
    got := Function.update s.got id [] }

/-- What a receive does that gives a result. -/
def receive (s : Handles T) (id : Nat) (shared : Shared T) (result : Except TryRecvError T) :
    Handles T :=
  { s with
    shared := shared
    parked := s.parked.erase id
    got := Function.update s.got id (s.got id ++ (receipt result).toList) }

/-- The state after an action, if it is enabled. -/
def step (s : Handles T) : Action T → Option (Handles T)
  | .subscribe =>
    if s.senders = 0 then none
    else
      let (shared, id) := Bus.subscribe s.shared
      some (s.addReceiver shared id)
  | .cloneSender =>
    if s.senders = 0 then none
    else some { s with shared := Bus.cloneSender s.shared, senders := s.senders + 1 }
  | .dropSender =>
    if s.senders = 0 then none
    else
      let (shared, wakers) := Bus.dropSender s.shared
      some { s with shared := shared, senders := s.senders - 1, hand := wakers ++ s.hand }
  | .cloneReceiver id =>
    if id ∈ s.receivers then
      let (shared, id, wakers) := Bus.cloneReceiver s.shared
      some { s.addReceiver shared id with hand := wakers ++ s.hand }
    else none
  | .dropReceiver id =>
    if id ∈ s.receivers then
      some { s with
        shared := Bus.dropReceiver s.shared id
        receivers := s.receivers.erase id
        parked := s.parked.erase id }
    else none
  | .send value =>
    if s.senders = 0 then none
    else
      let (shared, wakers) := Bus.send s.shared value
      some { s with
        shared := shared
        hand := wakers ++ s.hand
        sent := fun id => s.sent id ++ [value] }
  | .wake w =>
    if w ∈ s.hand then
      some { s with
        hand := s.hand.erase w
        parked := Table.retain (fun _ w' => w' ≠ w) s.parked }
    else none
  | .tryRecv id =>
    if id ∈ s.receivers then
      let (shared, result) := Bus.tryRecv s.shared id
      some (s.receive id shared result)
    else none
  | .recv id w =>
    if id ∈ s.receivers then
      match recvPoll s.shared id w with
      | (shared, none) => some { s with shared := shared, parked := s.parked.insert id w }
      | (shared, some (.ok value)) => some (s.receive id shared (.ok value))
      | (shared, some (.error (.lagged n))) => some (s.receive id shared (.error (.lagged n)))
      | (shared, some (.error .closed)) => some (s.receive id shared (.error .closed))
    else none
  | .dropRecv id => some { s with parked := s.parked.erase id }

/-- A new bus of this capacity, and every step. -/
def machine (T : Type) (capacity : Nat) : Machine (Handles T) (Action T) :=
  ⟨fun s => s = initial capacity, step⟩

variable {s s' : Handles T} {a : Action T} {id : Nat} {w : Waker}

/-! ### Receiving -/

/-- A poll takes what is next, or finds the bus closed, or leaves the waker. -/
theorem pollState_cases
    {c : Shared T} {r : RecvState T} (hr : c.receivers.lookup id = some r) (waker : Option Waker) :
  (∃ rc q, r.lossy.take = some (rc, q) ∧ receipt (pollState c id waker).2 = some rc ∧
    (pollState c id waker).1 = { c with
      receivers := c.receivers.insert id { r with queue := q.queue, missed := q.missed } }) ∨
  (r.queue = [] ∧ r.missed = 0 ∧ c.sendersAlive = false ∧
    pollState c id waker = ({ c with
      receivers := c.receivers.insert id { r with alive := false } }, .error .closed)) ∨
  (r.queue = [] ∧ r.missed = 0 ∧ c.sendersAlive = true ∧
    (pollState c id waker).2 = .error .empty ∧
    (pollState c id waker).1 = waker.elim c fun w => { c with
      receivers := c.receivers.insert id { r with waker := some w } })
  := by
  simp only [pollState, hr]
  cases hm : r.missed with
  | succ n =>
    left
    refine ⟨.lagged (n + 1), ⟨r.queue, 0⟩, ?_, ?_, ?_⟩
    · simp [RecvState.lossy, LossyQueue.Queue.take, hm]
    · rfl
    · simp
  | zero =>
    cases hq : r.queue with
    | cons value queue =>
      left
      refine ⟨.value value, ⟨queue, 0⟩, ?_, ?_, ?_⟩
      · simp [RecvState.lossy, LossyQueue.Queue.take, hm, hq]
      · rfl
      · simp [← hm]
    | nil =>
      right
      cases ho : c.sendersAlive with
      | false => exact .inl ⟨rfl, rfl, rfl, by simp⟩
      | true =>
        right
        cases waker with
        | none => exact ⟨rfl, rfl, rfl, by simp, by simp⟩
        | some w => exact ⟨rfl, rfl, rfl, by simp, by simp⟩

/-- A poll of `recv` that is ready is a receive. -/
theorem step_recv (h : s.step (.recv id w) = some s') :
  id ∈ s.receivers ∧
    ((pollState s.shared id (some w)).2 = .error .empty ∧
      s' = { s with
        shared := (pollState s.shared id (some w)).1
        parked := s.parked.insert id w } ∨
    (pollState s.shared id (some w)).2 ≠ .error .empty ∧
      s' = s.receive id (pollState s.shared id (some w)).1 (pollState s.shared id (some w)).2)
  := by
  simp only [step] at h
  split at h
  · next hid =>
    refine ⟨hid, ?_⟩
    unfold recvPoll at h
    generalize pollState s.shared id (some w) = p at h ⊢
    obtain ⟨shared, result⟩ := p
    cases result with
    | ok value => exact .inr ⟨nofun, (Option.some.inj h).symm⟩
    | error e =>
      cases e with
      | empty => exact .inl ⟨rfl, (Option.some.inj h).symm⟩
      | closed => exact .inr ⟨nofun, (Option.some.inj h).symm⟩
      | lagged n => exact .inr ⟨nofun, (Option.some.inj h).symm⟩
  · contradiction

/-! ### With a sender left, and no clones of receivers -/

/-- A sender is left, and no receiver is cloned. -/
def KeepsSender (s : Handles T) : Action T → Prop
  | .dropSender => 1 < s.senders
  | .cloneReceiver _ => False
  | _ => True

instance (s : Handles T) (a : Action T) : Decidable (s.KeepsSender a) := by
  unfold KeepsSender
  split
  all_goals infer_instance

/-- A receiver of a bus that is open: it queues within the capacity, and what it was given
accounts for what it was sent. -/
structure Fits (capacity : Nat) (r : RecvState T) (got : List (Receipt T)) (sent : List T) :
    Prop where
  alive : r.alive = true
  bounded : r.queue.length ≤ max capacity 1
  keeps : r.lossy.Keeps got sent

/-- The bus counts its senders, is open, and fits every receiver; a task suspended in
`recv` is being woken, or has left its waker and nothing is queued. -/
structure Kept (capacity : Nat) (s : Handles T) : Prop where
  sized : s.shared.capacity = max capacity 1
  counted : s.shared.senderCount = s.senders
  isOpen : s.shared.sendersAlive = true
  entry : ∀ id, id ∈ s.receivers ↔ (s.shared.receivers.lookup id).isSome
  fresh : ∀ id r, s.shared.receivers.lookup id = some r → id < s.shared.nextId
  fits : ∀ id r, s.shared.receivers.lookup id = some r →
    Fits capacity r (s.got id) (s.sent id)
  parked : ∀ id w, s.parked.lookup id = some w → ∃ r, s.shared.receivers.lookup id = some r ∧
    (w ∈ s.hand ∨ r.queue = [] ∧ r.missed = 0 ∧ r.waker = some w)

variable {capacity : Nat} {r : RecvState T} {got : List (Receipt T)} {sent : List T}

theorem kept_initial (capacity : Nat) :
  (initial capacity : Handles T).Kept capacity
  := by
  have hlookup (id : Nat) (r : RecvState T)
      (h : (initial capacity : Handles T).shared.receivers.lookup id = some r) :
      id = 0 ∧ r = .fresh := by
    simp only [initial, channel, Table.lookup_insert_eq] at h
    split at h
    · next hid => exact ⟨hid, (Option.some.inj h).symm⟩
    · simp at h
  constructor
  · rfl
  · rfl
  · rfl
  · intro id
    simp only [initial, channel, Table.lookup_insert_eq, Finset.mem_singleton]
    split
    · next hid => simp [hid]
    · next hid => simp [hid]
  · intro id r h
    rw [(hlookup id r h).1]
    apply Nat.one_pos
  · intro id r h
    rw [(hlookup id r h).2]
    exact ⟨rfl, Nat.zero_le _, [], rfl, .nil []⟩
  · intro id w h
    simp [initial] at h

theorem push_of_alive (h : r.alive = true) (value : T) :
  r.push capacity value = { r with
    queue := (r.lossy.push capacity value).queue
    missed := (r.lossy.push capacity value).missed
    waker := none }
  := by
  by_cases hfull : capacity ≤ r.queue.length
  · simp [RecvState.push, LossyQueue.Queue.push, RecvState.lossy, h, hfull]
  · simp [RecvState.push, LossyQueue.Queue.push, RecvState.lossy, h, hfull]

theorem Fits.push (h : Fits capacity r got sent) (value : T) :
  Fits capacity (r.push (max capacity 1) value) got (sent ++ [value])
  := by
  have hc : 0 < max capacity 1 := Nat.lt_of_lt_of_le Nat.one_pos (Nat.le_max_right _ _)
  rw [push_of_alive h.alive]
  constructor
  · apply h.alive
  · apply LossyQueue.Queue.length_push hc h.bounded value
  · apply h.keeps.push hc value

theorem Kept.subscribe (h : s.Kept capacity) :
  (s.addReceiver (Bus.subscribe s.shared).1 (Bus.subscribe s.shared).2).Kept capacity
  := by
  have hnew (id : Nat) (hne : id ≠ s.shared.nextId) :
      (s.addReceiver (Bus.subscribe s.shared).1 (Bus.subscribe s.shared).2).sent id = s.sent id ∧
      (s.addReceiver (Bus.subscribe s.shared).1 (Bus.subscribe s.shared).2).got id = s.got id :=
    ⟨Function.update_of_ne hne .., Function.update_of_ne hne ..⟩
  constructor
  · apply h.sized
  · apply h.counted
  · apply h.isOpen
  · intro id
    simp only [addReceiver, subscribe_lookup, Finset.mem_insert, h.entry id]
    by_cases hid : id = s.shared.nextId
    · simp [hid, Bus.subscribe]
    · simp [hid, Bus.subscribe]
  · intro id r hr
    simp only [addReceiver, subscribe_lookup] at hr
    split at hr
    · next hid =>
      rw [hid]
      apply Nat.lt_succ_self _
    · apply Nat.lt_succ_of_lt (h.fresh id r hr)
  · intro id r hr
    simp only [addReceiver, subscribe_lookup] at hr
    split at hr
    · next hid =>
      cases hr
      rw [hid]
      refine ⟨rfl, Nat.zero_le _, [], rfl, ?_⟩
      simp only [addReceiver, Bus.subscribe, Function.update_self]
      exact .nil []
    · next hid =>
      obtain ⟨hsent, hgot⟩ := hnew id hid
      rw [hsent, hgot]
      apply h.fits id r hr
  · intro id w hp
    obtain ⟨r, hr, hw⟩ := h.parked id w hp
    refine ⟨r, ?_, hw⟩
    have hid : id ≠ s.shared.nextId := Nat.ne_of_lt (h.fresh id r hr)
    simpa [addReceiver, hid] using hr

theorem Kept.send (h : s.Kept capacity) (value : T) :
  Kept capacity { s with
    shared := (Bus.send s.shared value).1
    hand := (Bus.send s.shared value).2 ++ s.hand
    sent := fun id => s.sent id ++ [value] }
  := by
  constructor
  · apply h.sized
  · apply h.counted
  · apply h.isOpen
  · intro id
    simp [h.entry id]
  · intro id r hr
    rw [send_lookup] at hr
    obtain ⟨r, hr', rfl⟩ := Option.map_eq_some_iff.mp hr
    apply h.fresh id r hr'
  · intro id r hr
    rw [send_lookup, h.sized] at hr
    obtain ⟨r, hr', rfl⟩ := Option.map_eq_some_iff.mp hr
    apply (h.fits id r hr').push value
  · intro id w hp
    obtain ⟨r, hr, hw⟩ := h.parked id w hp
    refine ⟨_, by rw [send_lookup, hr]; rfl, ?_⟩
    left
    rw [List.mem_append]
    obtain hw | ⟨-, -, hw⟩ := hw
    · exact .inr hw
    · left
      simp only [Bus.send, List.mem_filterMap]
      exact ⟨r, Table.mem_values_iff.mpr ⟨id, hr⟩, by simp [(h.fits id r hr).alive, hw]⟩

theorem Fits.take
    {rc : Receipt T} {q : LossyQueue.Queue T} (h : Fits capacity r got sent)
    (ht : r.lossy.take = some (rc, q)) :
  Fits capacity { r with queue := q.queue, missed := q.missed } (got ++ [rc]) sent
  := by
  constructor
  · apply h.alive
  · apply Nat.le_trans (LossyQueue.Queue.length_take ht) h.bounded
  · apply h.keeps.take ht

/-- One receiver is given something, or leaves its waker. -/
theorem Kept.of_insert
    {r' : RecvState T} {parked : Table Nat Waker} {got : Nat → List (Receipt T)}
    (h : s.Kept capacity) (hr : s.shared.receivers.lookup id = some r)
    (hgot : ∀ id', id' ≠ id → got id' = s.got id')
    (hfits : Fits capacity r' (got id) (s.sent id))
    (hparked : ∀ id' w, parked.lookup id' = some w →
      id' = id ∧ r'.queue = [] ∧ r'.missed = 0 ∧ r'.waker = some w ∨
        id' ≠ id ∧ s.parked.lookup id' = some w) :
  Kept capacity { s with
    shared := { s.shared with receivers := s.shared.receivers.insert id r' }
    parked := parked
    got := got }
  := by
  constructor
  · apply h.sized
  · apply h.counted
  · apply h.isOpen
  · intro id'
    simp only [Table.lookup_insert_eq, h.entry id']
    split
    · next hid =>
      rw [hid, hr]
      rfl
    · rfl
  · intro id' f hf
    simp only [Table.lookup_insert_eq] at hf
    split at hf
    · next hid =>
      rw [hid]
      apply h.fresh id r hr
    · apply h.fresh id' f hf
  · intro id' f hf
    simp only [Table.lookup_insert_eq] at hf
    split at hf
    · next hid =>
      cases hf
      rw [hid]
      apply hfits
    · next hid =>
      dsimp only
      rw [hgot id' hid]
      apply h.fits id' f hf
  · intro id' w hp
    simp only [Table.lookup_insert_eq]
    obtain ⟨rfl, hw⟩ | ⟨hne, hp⟩ := hparked id' w hp
    · exact ⟨r', if_pos rfl, .inr hw⟩
    · rw [if_neg hne]
      apply h.parked id' w hp

/-- A receive that gives a result, or does not wait for one. -/
theorem Kept.receive
    {waker : Option Waker} (h : s.Kept capacity) (hid : id ∈ s.receivers)
    (hresult : (pollState s.shared id waker).2 ≠ .error .empty ∨ waker = none) :
  (s.receive id (pollState s.shared id waker).1 (pollState s.shared id waker).2).Kept capacity
  := by
  obtain ⟨r, hr⟩ := Option.isSome_iff_exists.mp ((h.entry id).mp hid)
  obtain ⟨rc, q, ht, hrc, hc⟩ | ⟨-, -, hclosed, -⟩ | ⟨-, -, -, hempty, hc⟩ :=
    pollState_cases hr waker
  · unfold Handles.receive
    rw [hrc, hc]
    apply h.of_insert hr
    · exact fun id' hne => Function.update_of_ne hne ..
    · rw [Function.update_self]
      apply (h.fits id r hr).take ht
    · exact fun id' w hp => .inr (Table.lookup_of_erase hp)
  · rw [h.isOpen] at hclosed
    contradiction
  · obtain hne | rfl := hresult
    · contradiction
    · unfold Handles.receive
      rw [hempty, hc]
      simp only [receipt, Option.toList_none, List.append_nil, Function.update_eq_self,
        Option.elim_none]
      exact { h with parked := fun id' w hp => h.parked id' w (Table.lookup_of_erase hp).2 }

theorem Kept.park (h : s.Kept capacity) (hid : id ∈ s.receivers)
    (hempty : (pollState s.shared id (some w)).2 = .error .empty) :
  Kept capacity { s with
    shared := (pollState s.shared id (some w)).1
    parked := s.parked.insert id w }
  := by
  obtain ⟨r, hr⟩ := Option.isSome_iff_exists.mp ((h.entry id).mp hid)
  obtain ⟨rc, q, -, hrc, -⟩ | ⟨-, -, hclosed, -⟩ | ⟨hq, hm, -, -, hc⟩ :=
    pollState_cases hr (some w)
  · rw [hempty] at hrc
    contradiction
  · rw [h.isOpen] at hclosed
    contradiction
  · rw [hc]
    apply h.of_insert hr
    · exact fun _ _ => rfl
    · obtain ⟨halive, hbounded, hkeeps⟩ := h.fits id r hr
      exact ⟨halive, hbounded, hkeeps⟩
    · intro id' w' hp
      obtain ⟨hid, rfl⟩ | hp := Table.lookup_insert_cases hp
      · exact .inl ⟨hid, hq, hm, rfl⟩
      · exact .inr hp

theorem Kept.dropReceiver (h : s.Kept capacity) (id : Nat) :
  Kept capacity { s with
    shared := Bus.dropReceiver s.shared id
    receivers := s.receivers.erase id
    parked := s.parked.erase id }
  := by
  constructor
  · apply h.sized
  · apply h.counted
  · apply h.isOpen
  · intro id'
    simp only [Bus.dropReceiver, Table.lookup_erase_eq, Finset.mem_erase, h.entry id']
    split
    · next hid => simp [hid]
    · next hid => simp [hid]
  · exact fun id' r hr => h.fresh id' r (Table.lookup_of_erase hr).2
  · exact fun id' r hr => h.fits id' r (Table.lookup_of_erase hr).2
  · intro id' w hp
    obtain ⟨hne, hp⟩ := Table.lookup_of_erase hp
    obtain ⟨r, hr, hw⟩ := h.parked id' w hp
    refine ⟨r, ?_, hw⟩
    simp [Bus.dropReceiver, hne, hr]

theorem Kept.wake (h : s.Kept capacity) (w : Waker) :
  Kept capacity { s with
    hand := s.hand.erase w
    parked := Table.retain (fun _ w' => w' ≠ w) s.parked }
  := by
  refine { h with parked := fun id w' hp => ?_ }
  simp only [Table.lookup_retain, Option.filter_eq_some_iff, decide_eq_true_eq] at hp
  obtain ⟨r, hr, hw⟩ := h.parked id w' hp.1
  exact ⟨r, hr, hw.imp_left (List.mem_erase_of_ne hp.2).mpr⟩

theorem Kept.step (h : s.Kept capacity) (hok : s.KeepsSender a) (hs : s.step a = some s') :
  s'.Kept capacity
  := by
  cases a with
  | subscribe =>
    simp only [Handles.step] at hs
    split at hs
    · contradiction
    · cases hs
      apply h.subscribe
  | cloneSender =>
    simp only [Handles.step] at hs
    split at hs
    · contradiction
    · cases hs
      exact { h with counted := congrArg (· + 1) h.counted }
  | dropSender =>
    have hok : 1 < s.senders := hok
    simp only [Handles.step] at hs
    split at hs
    · contradiction
    · have hcount : ¬ s.shared.senderCount - 1 = 0 := by
        rw [h.counted]
        omega
      simp only [Bus.dropSender, if_neg hcount] at hs
      cases hs
      exact { h with counted := congrArg (· - 1) h.counted }
  | cloneReceiver id => apply hok.elim
  | dropReceiver id =>
    simp only [Handles.step] at hs
    split at hs
    · cases hs
      apply h.dropReceiver id
    · contradiction
  | send value =>
    simp only [Handles.step] at hs
    split at hs
    · contradiction
    · cases hs
      apply h.send value
  | wake w =>
    simp only [Handles.step] at hs
    split at hs
    · cases hs
      apply h.wake w
    · contradiction
  | tryRecv id =>
    simp only [Handles.step] at hs
    split at hs
    · next hid =>
      cases hs
      apply h.receive hid (.inr rfl)
    · contradiction
  | recv id w =>
    obtain ⟨hid, ⟨hempty, rfl⟩ | ⟨hne, rfl⟩⟩ := step_recv hs
    · apply h.park hid hempty
    · apply h.receive hid (.inl hne)
  | dropRecv id =>
    cases hs
    refine { h with parked := fun id' w hp => h.parked id' w ?_ }
    obtain ⟨-, hp⟩ := Table.lookup_of_erase hp
    apply hp

/-- What every receiver was given accounts for what it was sent: the queue is within the
capacity; every value sent was delivered, reported as missed, is missed or is queued;
the values delivered are in order, and every notice of a lag stands for the values that
come next; and nothing is there for a task suspended in `recv` that is not being woken. -/
structure Accounted (capacity : Nat) (s : Handles T) : Prop where
  entry : ∀ id ∈ s.receivers, (s.shared.receivers.lookup id).isSome
  bounded : ∀ id r, s.shared.receivers.lookup id = some r → r.queue.length ≤ max capacity 1
  count : ∀ id r, s.shared.receivers.lookup id = some r → (s.sent id).length =
    (values (s.got id)).length + lost (s.got id) + r.missed + r.queue.length
  sublist : ∀ id ∈ s.receivers, (values (s.got id)).Sublist (s.sent id)
  accounts : ∀ id r, s.shared.receivers.lookup id = some r →
    ∃ skipped, skipped.length = r.missed ∧ Accounts (s.got id) (s.sent id) (skipped ++ r.queue)
  parked : ∀ id w, s.parked.lookup id = some w → w ∉ s.hand →
    ∃ r, s.shared.receivers.lookup id = some r ∧ r.queue = [] ∧ r.missed = 0

/-- Along every run with a sender left and no clones of receivers, everything sent is
accounted for. -/
theorem accounted_of_run (h : (machine T capacity).Run KeepsSender s) :
  s.Accounted capacity
  := by
  have hkept : s.Kept capacity := by
    apply h.invariant
    · rintro s rfl
      apply kept_initial capacity
    · exact fun s a s' _ hkept hok hs => hkept.step hok hs
  constructor
  · exact fun id hid => (hkept.entry id).mp hid
  · exact fun id r hr => (hkept.fits id r hr).bounded
  · intro id r hr
    obtain ⟨skipped, hlen, hacc⟩ := (hkept.fits id r hr).keeps
    have hlength := hacc.length
    simp only [List.length_append, hlen, RecvState.lossy] at hlength
    omega
  · intro id hid
    obtain ⟨r, hr⟩ := Option.isSome_iff_exists.mp ((hkept.entry id).mp hid)
    obtain ⟨skipped, -, hacc⟩ := (hkept.fits id r hr).keeps
    apply hacc.sublist
  · exact fun id r hr => (hkept.fits id r hr).keeps
  · intro id w hp hw
    obtain ⟨r, hr, hhand | ⟨hq, hm, -⟩⟩ := hkept.parked id w hp
    · contradiction
    · exact ⟨r, hr, hq, hm⟩

/-- A receiver is told of one value it missed, takes the others and waits. -/
theorem accounted_of_run_lagged :
  ∃ s, (machine Nat 2).Run KeepsSender s ∧ s.got 0 = [.lagged 1, .value 2, .value 3] ∧
    s.parked.lookup 0 = some 7 ∧ s.Accounted 2
  := by
  have meets : (machine Nat 2).Meets KeepsSender (initial 2)
      [.send 1, .send 2, .send 3, .tryRecv 0, .recv 0 7, .tryRecv 0, .recv 0 7] := by
    decide +kernel
  obtain ⟨s, hrun, hv⟩ := Machine.exists_run_of_exec _
    (fun s : Handles Nat => (s.got 0, s.parked.lookup 0))
    ([.lagged 1, .value 2, .value 3], some 7) rfl meets (by decide +kernel)
  simp only [Prod.mk.injEq] at hv
  exact ⟨s, hrun, hv.1, hv.2, accounted_of_run hrun⟩

/-! ### When the bus closes -/

/-- A receive says that the bus is closed only when no sender is left, and a value sent
while there is one is queued for every receiver. -/
structure ClosesLast (s : Handles T) : Prop where
  closed : ∀ id ∈ s.receivers, ∀ w, (pollState s.shared id w).2 = .error .closed → s.senders = 0
  reaches : 0 < s.senders → ∀ value, ∀ id ∈ s.receivers, ∃ r,
    (Bus.send s.shared value).1.receivers.lookup id = some r ∧ r.queue.getLast? = some value

/-- The bus with a log of the receivers that were cloned. -/
def cloning (T : Type) (capacity : Nat) : Machine (Handles T × List Nat) (Action T) :=
  (machine T capacity).noting fun _ a _ =>
    match a with
    | .cloneReceiver id => [id]
    | _ => []

/-- Where a sender is dropped or a receiver cloned, no sender is left after it, or more of them
than receivers were cloned. -/
def OutnumbersClones (t : Handles T × List Nat) : Action T → Prop
  | .dropSender => t.1.senders - 1 = 0 ∨ t.2.length < t.1.senders - 1
  | .cloneReceiver _ => t.1.senders = 0 ∨ t.2.length + 1 < t.1.senders
  | _ => True

instance (t : Handles T × List Nat) (a : Action T) : Decidable (OutnumbersClones t a) := by
  unfold OutnumbersClones
  split
  all_goals infer_instance

/-- The sender count reaches zero only when no sender is left. -/
def CountsSenders (s : Handles T) : Action T → Prop
  | .dropSender => s.shared.senderCount ≤ 1 → s.senders = 1
  | .cloneReceiver _ => s.shared.senderCount ≤ 1 → s.senders = 0
  | _ => True

/-- Whether a receiver is alive, if there is such a receiver. -/
def liveness (c : Shared T) (id : Nat) : Option Bool :=
  (c.receivers.lookup id).map (·.alive)

/-- No sender is left once the bus is closed, and only a closed bus has dead receivers. -/
structure Counted (s : Handles T) : Prop where
  closes : s.shared.sendersAlive = false → s.senders = 0
  entry : ∀ id, id ∈ s.receivers ↔ (liveness s.shared id).isSome
  dead : ∀ id, liveness s.shared id = some false → s.shared.sendersAlive = false

theorem liveness_subscribe (c : Shared T) (id : Nat) :
  liveness (Bus.subscribe c).1 id =
    if id = (Bus.subscribe c).2 then some true else liveness c id
  := by
  rw [liveness, subscribe_lookup, apply_ite (Option.map _)]
  rfl

theorem liveness_send (c : Shared T) (value : T) (id : Nat) :
  liveness (Bus.send c value).1 id = liveness c id
  := by
  have hpush : (fun r : RecvState T => (r.push c.capacity value).alive) = (·.alive) := by
    funext r
    unfold RecvState.push
    split
    · rfl
    · split
      · rfl
      · rfl
  simp [liveness, Function.comp_def, hpush]

theorem dropSender_cases (c : Shared T) :
  c.senderCount ≤ 1 ∧ (Bus.dropSender c).1.sendersAlive = false ∨
    1 < c.senderCount ∧ (Bus.dropSender c).1.sendersAlive = c.sendersAlive
  := by
  unfold Bus.dropSender
  dsimp only
  split
  · exact .inl ⟨by omega, rfl⟩
  · exact .inr ⟨by omega, rfl⟩

theorem liveness_dropSender (c : Shared T) (id : Nat) :
  liveness (Bus.dropSender c).1 id = liveness c id
  := by
  unfold Bus.dropSender liveness
  dsimp only
  split
  · simp [Function.comp_def]
  · rfl

/-- A receive closes its receiver where the bus is closed, and does nothing else to any. -/
theorem liveness_pollState (c : Shared T) (id : Nat) (waker : Option Waker) (id' : Nat) :
  (pollState c id waker).1.sendersAlive = c.sendersAlive ∧
    (liveness (pollState c id waker).1 id' = liveness c id' ∨
      (liveness c id').isSome ∧ liveness (pollState c id waker).1 id' = some false ∧
        c.sendersAlive = false)
  := by
  cases hr : c.receivers.lookup id with
  | none =>
    simp [pollState, hr]
  | some r =>
    have same (r' : RecvState T) (h : r'.alive = r.alive) :
        liveness { c with receivers := c.receivers.insert id r' } id' = liveness c id' := by
      simp only [liveness, Table.lookup_insert_eq]
      split
      · next hid =>
        rw [hid, hr]
        apply congrArg some h
      · rfl
    obtain ⟨rc, q, -, -, hc⟩ | ⟨-, -, hclosed, hc⟩ | ⟨-, -, -, -, hc⟩ := pollState_cases hr waker
    · rw [hc]
      exact ⟨rfl, .inl (same _ rfl)⟩
    · rw [hc]
      refine ⟨rfl, ?_⟩
      obtain rfl | hid := eq_or_ne id' id
      · right
        simp [liveness, hr, hclosed]
      · left
        simp [liveness, AList.lookup_insert_ne hid]
    · rw [hc]
      cases waker with
      | none => exact ⟨rfl, .inl rfl⟩
      | some w => exact ⟨rfl, .inl (same _ rfl)⟩

theorem Counted.addReceiver (h : s.Counted) :
  (s.addReceiver (Bus.subscribe s.shared).1 (Bus.subscribe s.shared).2).Counted
  := by
  constructor
  · apply h.closes
  · intro id
    simp only [Handles.addReceiver, Finset.mem_insert, h.entry id, liveness_subscribe]
    split
    · next hid => simp [hid]
    · next hid => simp [hid]
  · intro id hdead
    simp only [Handles.addReceiver, liveness_subscribe] at hdead
    split at hdead
    · contradiction
    · apply h.dead id hdead

/-- A sender is dropped, with its handle or without. -/
theorem Counted.dropSender
    {senders : Nat} {hand : List Waker} (h : s.Counted)
    (hok : s.shared.senderCount ≤ 1 → senders = 0) (hle : senders ≤ s.senders) :
  Counted { s with shared := (Bus.dropSender s.shared).1, senders := senders, hand := hand }
  := by
  constructor
  · intro hclosed
    obtain ⟨hcount, -⟩ | ⟨-, hsame⟩ := dropSender_cases s.shared
    · apply hok hcount
    · have hnone := h.closes (hsame.symm.trans hclosed)
      apply Nat.eq_zero_of_le_zero (hnone ▸ hle)
  · intro id
    dsimp only
    rw [liveness_dropSender]
    apply h.entry id
  · intro id hdead
    dsimp only at hdead ⊢
    rw [liveness_dropSender] at hdead
    obtain ⟨-, hclosed⟩ | ⟨-, hsame⟩ := dropSender_cases s.shared
    · apply hclosed
    · rw [hsame]
      apply h.dead id hdead

theorem Counted.poll
    {waker : Option Waker} {s' : Handles T} (h : s.Counted)
    (hshared : s'.shared = (pollState s.shared id waker).1) (hsenders : s'.senders = s.senders)
    (hreceivers : s'.receivers = s.receivers) :
  s'.Counted
  := by
  have hpoll := liveness_pollState s.shared id waker
  constructor
  · intro hclosed
    rw [hsenders]
    apply h.closes
    rw [← (hpoll id).1, ← hshared]
    apply hclosed
  · intro id'
    rw [hreceivers, hshared, h.entry id']
    obtain ⟨-, hsame | ⟨hsome, hdead, -⟩⟩ := hpoll id'
    · rw [hsame]
    · simp [hsome, hdead]
  · intro id' hdead
    rw [hshared] at hdead ⊢
    rw [(hpoll id').1]
    obtain ⟨-, hsame | ⟨-, -, hclosed⟩⟩ := hpoll id'
    · rw [hsame] at hdead
      apply h.dead id' hdead
    · apply hclosed

theorem Counted.step (h : s.Counted) (hok : s.CountsSenders a) (hs : s.step a = some s') :
  s'.Counted
  := by
  cases a with
  | subscribe =>
    simp only [Handles.step] at hs
    split at hs
    · contradiction
    · cases hs
      exact h.addReceiver
  | cloneSender =>
    simp only [Handles.step] at hs
    split at hs
    · contradiction
    · next hsome =>
      cases hs
      refine ⟨fun hclosed => ?_, h.entry, h.dead⟩
      exact absurd (h.closes hclosed) hsome
  | dropSender =>
    simp only [Handles.step] at hs
    split at hs
    · contradiction
    · cases hs
      apply h.dropSender
      · intro hcount
        rw [hok hcount]
      · exact Nat.sub_le ..
  | cloneReceiver id =>
    simp only [Handles.step] at hs
    split at hs
    · cases hs
      exact h.addReceiver.dropSender hok (Nat.le_refl _)
    · contradiction
  | dropReceiver id =>
    simp only [Handles.step] at hs
    split at hs
    · cases hs
      refine ⟨h.closes, ?_, ?_⟩
      · intro id'
        simp only [liveness, Bus.dropReceiver, Table.lookup_erase_eq, Finset.mem_erase, h.entry id']
        split
        · next hid => simp [hid]
        · next hid => simp [hid]
      · intro id' hdead
        simp only [liveness, Bus.dropReceiver, Table.lookup_erase_eq] at hdead
        split at hdead
        · contradiction
        · exact h.dead id' hdead
    · contradiction
  | send value =>
    simp only [Handles.step] at hs
    split at hs
    · contradiction
    · cases hs
      refine ⟨h.closes, fun id => ?_, fun id hdead => ?_⟩
      · dsimp only
        rw [liveness_send]
        exact h.entry id
      · dsimp only at hdead
        rw [liveness_send] at hdead
        exact h.dead id hdead
  | wake w =>
    simp only [Handles.step] at hs
    split at hs
    · cases hs
      exact ⟨h.closes, h.entry, h.dead⟩
    · contradiction
  | tryRecv id =>
    simp only [Handles.step] at hs
    split at hs
    · cases hs
      exact h.poll rfl rfl rfl
    · contradiction
  | recv id w =>
    obtain ⟨-, ⟨-, rfl⟩ | ⟨-, rfl⟩⟩ := step_recv hs
    · exact h.poll rfl rfl rfl
    · exact h.poll rfl rfl rfl
  | dropRecv id =>
    cases hs
    exact ⟨h.closes, h.entry, h.dead⟩

theorem Counted.lookup (h : s.Counted) (hid : id ∈ s.receivers) :
  ∃ r, s.shared.receivers.lookup id = some r
  := by
  have hsome := (h.entry id).mp hid
  rw [liveness, Option.isSome_map] at hsome
  apply Option.isSome_iff_exists.mp hsome

theorem Counted.closesLast (h : s.Counted) :
  s.ClosesLast
  := by
  constructor
  · intro id hid w hresult
    obtain ⟨r, hr⟩ := h.lookup hid
    obtain ⟨rc, q, -, hrc, -⟩ | ⟨-, -, hclosed, -⟩ | ⟨-, -, -, hempty, -⟩ := pollState_cases hr w
    · rw [hresult] at hrc
      contradiction
    · apply h.closes hclosed
    · rw [hresult] at hempty
      cases hempty
  · intro hsome value id hid
    obtain ⟨r, hr⟩ := h.lookup hid
    have halive : r.alive = true := by
      cases hdead : r.alive with
      | true => rfl
      | false =>
        have hnone := h.closes (h.dead id (by rw [liveness, hr]; exact congrArg some hdead))
        omega
    refine ⟨r.push s.shared.capacity value, by rw [send_lookup, hr]; rfl, ?_⟩
    rw [push_of_alive halive]
    unfold LossyQueue.Queue.push
    split
    · simp
    · simp

/-- While a sender is left, the sender count is short of the senders by the receivers that
were cloned, and not zero. -/
def Tallied (t : Handles T × List Nat) : Prop :=
  0 < t.1.senders → t.1.shared.senderCount + t.2.length = t.1.senders ∧ t.2.length < t.1.senders

/-- Senders outnumber the clones of receivers exactly when the sender count does not reach
zero before they are gone. -/
theorem Tallied.outnumbersClones_iff {t : Handles T × List Nat} (h : Tallied t)
    (hs : t.1.step a = some s') :
  OutnumbersClones t a ↔ t.1.CountsSenders a
  := by
  cases a with
  | dropSender =>
    simp only [Handles.step] at hs
    split at hs
    · contradiction
    · next hsome =>
      obtain ⟨hcount, hlt⟩ := h (Nat.pos_of_ne_zero hsome)
      simp only [OutnumbersClones, CountsSenders]
      omega
  | cloneReceiver id =>
    simp only [OutnumbersClones, CountsSenders]
    by_cases hsome : t.1.senders = 0
    · simp [hsome]
    · obtain ⟨hcount, hlt⟩ := h (Nat.pos_of_ne_zero hsome)
      omega
  | _ => exact Iff.rfl

theorem senderCount_dropSender (c : Shared T) :
  (Bus.dropSender c).1.senderCount = c.senderCount - 1
  := by
  unfold Bus.dropSender
  dsimp only
  split
  · rfl
  · rfl

theorem Tallied.step {t t' : Handles T × List Nat} (h : Tallied t) (hok : OutnumbersClones t a)
    (hs : (cloning T capacity).step t a = some t') :
  Tallied t'
  := by
  obtain ⟨s', log⟩ := t'
  obtain ⟨hstep, hlog⟩ := Machine.step_noting hs
  have same (hcount : s'.shared.senderCount = t.1.shared.senderCount)
      (hsenders : s'.senders = t.1.senders) (hsame : log = t.2) : Tallied (s', log) := by
    simp only [Tallied, hcount, hsenders, hsame]
    apply h
  cases a with
  | subscribe =>
    simp only [machine, Handles.step] at hstep
    split at hstep
    · contradiction
    · cases hstep
      exact same rfl rfl (hlog.trans (List.append_nil _))
  | cloneSender =>
    simp only [machine, Handles.step] at hstep
    split at hstep
    · contradiction
    · next hsome =>
      cases hstep
      obtain rfl : log = t.2 := hlog.trans (List.append_nil _)
      intro _
      obtain ⟨hcount, hlt⟩ := h (Nat.pos_of_ne_zero hsome)
      simp only [Bus.cloneSender]
      omega
  | dropSender =>
    simp only [machine, Handles.step] at hstep
    split at hstep
    · contradiction
    · next hsome =>
      cases hstep
      obtain rfl : log = t.2 := hlog.trans (List.append_nil _)
      obtain ⟨hcount, hlt⟩ := h (Nat.pos_of_ne_zero hsome)
      simp only [Tallied, senderCount_dropSender]
      simp only [OutnumbersClones] at hok
      omega
  | cloneReceiver id =>
    simp only [machine, Handles.step] at hstep
    split at hstep
    · cases hstep
      obtain rfl : log = t.2 ++ [id] := hlog
      simp only [Tallied, Handles.addReceiver, Bus.cloneReceiver, senderCount_dropSender,
        List.length_append, List.length_singleton]
      intro hsome
      obtain ⟨hcount, hlt⟩ := h hsome
      simp only [OutnumbersClones] at hok
      have hsame : (Bus.subscribe t.1.shared).1.senderCount = t.1.shared.senderCount := rfl
      omega
    · contradiction
  | dropReceiver id =>
    simp only [machine, Handles.step] at hstep
    split at hstep
    · cases hstep
      exact same rfl rfl (hlog.trans (List.append_nil _))
    · contradiction
  | send value =>
    simp only [machine, Handles.step] at hstep
    split at hstep
    · contradiction
    · cases hstep
      exact same rfl rfl (hlog.trans (List.append_nil _))
  | wake w =>
    simp only [machine, Handles.step] at hstep
    split at hstep
    · cases hstep
      exact same rfl rfl (hlog.trans (List.append_nil _))
    · contradiction
  | tryRecv id =>
    simp only [machine, Handles.step] at hstep
    split at hstep
    · cases hstep
      exact same (senderCount_pollState _ _ _) rfl (hlog.trans (List.append_nil _))
    · contradiction
  | recv id w =>
    have hlog := hlog.trans (List.append_nil _)
    obtain ⟨-, ⟨-, rfl⟩ | ⟨-, rfl⟩⟩ := step_recv hstep
    · exact same (senderCount_pollState _ _ _) rfl hlog
    · exact same (senderCount_pollState _ _ _) rfl hlog
  | dropRecv id =>
    cases hstep
    exact same rfl rfl (hlog.trans (List.append_nil _))

/-- Along a run in which the senders outnumber the clones of receivers, the senders are
tallied, and the bus closes with the last of them. -/
theorem counted_of_run {t : Handles T × List Nat} (h : (cloning T capacity).Run OutnumbersClones t) :
  t.1.Counted ∧ Tallied t
  := by
  apply h.invariant
  · rintro ⟨s, log⟩ ⟨rfl, rfl⟩
    have hkept := kept_initial (T := T) capacity
    refine ⟨⟨fun hclosed => ?_, ?_, ?_⟩, ?_⟩
    · have hopen := hkept.isOpen.symm.trans hclosed
      contradiction
    · intro id
      rw [liveness, Option.isSome_map]
      apply hkept.entry id
    · intro id hdead
      obtain ⟨r, hr, halive⟩ := Option.map_eq_some_iff.mp hdead
      rw [(hkept.fits id r hr).alive] at halive
      contradiction
    · exact fun _ => ⟨rfl, Nat.one_pos⟩
  · intro t a t' _ ⟨hcounted, htallied⟩ hok hs
    obtain ⟨hstep, -⟩ := Machine.step_noting hs
    have hcounts := (htallied.outnumbersClones_iff hstep).mp hok
    exact ⟨hcounted.step hcounts hstep, htallied.step hok hs⟩

/-- Along every run in which, wherever a sender is dropped or a receiver cloned, the senders
left outnumber the receivers that were cloned, or there are none, the bus closes only when
no sender is left. -/
theorem closesLast_of_run
    {t : Handles T × List Nat} (h : (cloning T capacity).Run OutnumbersClones t) :
  t.1.ClosesLast
  := (counted_of_run h).1.closesLast

/-- A bus that is closed under a live sender says so to the next receiver. -/
theorem not_closesLast_subscribe
    (hclosed : s.shared.sendersAlive = false) (hsome : 0 < s.senders) :
  ∃ s', s.step .subscribe = some s' ∧ ¬ s'.ClosesLast
  := by
  refine ⟨_, if_neg (Nat.ne_of_gt hsome), ?_⟩
  intro h
  have hresult : (pollState (Bus.subscribe s.shared).1 (Bus.subscribe s.shared).2 none).2 =
      .error .closed := by
    simp [pollState, Bus.subscribe, RecvState.fresh, hclosed]
  have hnone := h.closed _ (Finset.mem_insert_self ..) none hresult
  exact absurd hnone (Nat.ne_of_gt hsome)

/-- Where the bus goes on to close only with the last sender, its sender count reaches
zero only then. -/
theorem countsSenders_of_closesLast
    (h : s.step a = some s') (hlast : ∀ s'', s'.step .subscribe = some s'' → s''.ClosesLast) :
  s.CountsSenders a
  := by
  have hcloses : s'.shared.sendersAlive = false → s'.senders = 0 := by
    intro hclosed
    by_contra hsome
    obtain ⟨s'', hs, hnot⟩ := not_closesLast_subscribe hclosed (Nat.pos_of_ne_zero hsome)
    apply hnot (hlast s'' hs)
  cases a with
  | dropSender =>
    intro hcount
    simp only [Handles.step] at h
    split at h
    · contradiction
    · cases h
      obtain ⟨-, hclosed⟩ | ⟨hmany, -⟩ := dropSender_cases s.shared
      · have hnone : s.senders - 1 = 0 := hcloses hclosed
        omega
      · omega
  | cloneReceiver id =>
    intro hcount
    simp only [Handles.step] at h
    split at h
    · cases h
      obtain ⟨-, hclosed⟩ | ⟨hmany, -⟩ := dropSender_cases (Bus.subscribe s.shared).1
      · apply hcloses hclosed
      · exact absurd hcount (Nat.not_le_of_lt hmany)
    · contradiction
  | _ => trivial

/-- A step after which the bus goes on to close only with the last sender is one where the
senders left outnumber the clones. -/
theorem outnumbersClones_of_closesLast
    {t : Handles T × List Nat} (h : (cloning T capacity).Run OutnumbersClones t)
    (hs : t.1.step a = some s') (hlast : ∀ s'', s'.step .subscribe = some s'' → s''.ClosesLast) :
  OutnumbersClones t a
  := by
  apply ((counted_of_run h).2.outnumbersClones_iff hs).mpr
  apply countsSenders_of_closesLast hs hlast

/-- A receiver is cloned while there are three senders, and sends go on reaching it while two
are left; without clones the bus closes after its second sender is dropped too. -/
theorem closesLast_of_run_dropped :
  (∃ t, (cloning Nat 4).Run OutnumbersClones t ∧ t.1.senders = 2 ∧ t.2 = [0] ∧
      (pollState t.1.shared 1 none).2 = .ok 7 ∧ t.1.ClosesLast) ∧
    ∃ t, (cloning Nat 4).Run OutnumbersClones t ∧ t.1.senders = 0 ∧
      (pollState t.1.shared 0 none).2 = .error .closed ∧ t.1.ClosesLast
  := by
  constructor
  · have meets : (cloning Nat 4).Meets OutnumbersClones (initial 4, [])
        [.cloneSender, .cloneSender, .cloneReceiver 0, .dropSender, .send 7] := by
      decide +kernel
    have init : (cloning Nat 4).init (initial 4, []) := ⟨rfl, rfl⟩
    obtain ⟨t, hrun, hv⟩ := Machine.exists_run_of_exec _
      (fun t : Handles Nat × List Nat => (t.1.senders, t.2,
        decide ((pollState t.1.shared 1 none).2 = .ok 7)))
      (2, [0], true) init meets (by decide +kernel)
    simp only [Prod.mk.injEq, decide_eq_true_eq] at hv
    exact ⟨t, hrun, hv.1, hv.2.1, hv.2.2, closesLast_of_run hrun⟩
  · have meets : (cloning Nat 4).Meets OutnumbersClones (initial 4, [])
        [.cloneSender, .dropSender, .send 7, .dropSender, .tryRecv 0] := by
      decide +kernel
    have init : (cloning Nat 4).init (initial 4, []) := ⟨rfl, rfl⟩
    obtain ⟨t, hrun, hv⟩ := Machine.exists_run_of_exec _
      (fun t : Handles Nat × List Nat => (t.1.senders,
        decide ((pollState t.1.shared 0 none).2 = .error .closed)))
      (0, true) init meets (by decide +kernel)
    simp only [Prod.mk.injEq, decide_eq_true_eq] at hv
    exact ⟨t, hrun, hv.1, hv.2, closesLast_of_run hrun⟩

/-- A clone of the only receiver closes the bus under its sender. -/
theorem not_closesLast_cloned :
  ¬ ∀ s, (machine Nat 4).Reachable s → s.ClosesLast
  := by
  intro h
  obtain ⟨s, hs, hv⟩ := Machine.exists_reachable_of_exec (M := machine Nat 4) (s := initial 4)
    [.cloneReceiver 0]
    (fun s : Handles Nat => (s.senders, decide (0 ∈ s.receivers),
      decide ((pollState s.shared 0 none).2 = .error .closed)))
    (1, true, true) rfl (by decide +kernel)
  simp only [Prod.mk.injEq, decide_eq_true_eq] at hv
  obtain ⟨hone, hid, hclosed⟩ := hv
  have hnone := (h s hs).closed 0 hid none hclosed
  rw [hone] at hnone
  contradiction

end Handles

end Bus

end RsQuery
