import RsQuery.Watch

/-!
# The broadcast bus

`Bus.Shared` is what the handles of a bounded broadcast channel share: the capacity,
the sender count, and for each receiver its queue, its waker and the number of values
it missed.  Each function is the effect one call has on the channel under its lock.
-/

namespace RsQuery

namespace Bus

variable {T : Type}

/-- Errors produced by `try_recv`. -/
inductive TryRecvError where
  | empty
  | closed
  | lagged (missed : Nat)
deriving DecidableEq, Repr

/-- Errors produced by `recv`. -/
inductive RecvError where
  | closed
  | lagged (missed : Nat)
deriving DecidableEq, Repr

/-- One receiver's side of the channel. -/
structure RecvState (T : Type) where
  queue : List T
  waker : Option Waker
  missed : Nat
  alive : Bool

/-- A receiver that has been sent nothing yet. -/
def RecvState.fresh : RecvState T :=
  ⟨[], none, 0, true⟩

/-- The channel shared by all senders and receivers. -/
structure Shared (T : Type) where
  capacity : Nat
  nextId : Nat
  sendersAlive : Bool
  senderCount : Nat
  receivers : Table Nat (RecvState T)

/-- A channel with one sender and the receiver `0`. -/
def channel (capacity : Nat) : Shared T × Nat :=
  (⟨max capacity 1, 1, true, 1, (∅ : Table Nat (RecvState T)).insert 0 .fresh⟩, 0)

/-- Adds an independent receiver starting now; the id is the receiver's. -/
def subscribe (c : Shared T) : Shared T × Nat :=
  ({ c with nextId := c.nextId + 1, receivers := c.receivers.insert c.nextId .fresh }, c.nextId)

/-- What `send` does to one receiver: a dead receiver is skipped, a full queue drops
its oldest value, and the waker is taken. -/
def RecvState.push (capacity : Nat) (value : T) (r : RecvState T) : RecvState T :=
  if !r.alive then r
  else if capacity ≤ r.queue.length then
    { r with queue := r.queue.tail ++ [value], missed := r.missed + 1, waker := none }
  else
    { r with queue := r.queue ++ [value], waker := none }

/-- Queues `value` for every live receiver and returns the wakers taken. -/
def send (c : Shared T) (value : T) : Shared T × List Waker :=
  ({ c with receivers := Table.mapValues (.push c.capacity value) c.receivers },
    (Table.values c.receivers).filterMap fun r => if r.alive then r.waker else none)

/-- Number of live receivers. -/
def receiverCount (c : Shared T) : Nat :=
  ((Table.values c.receivers).filter (·.alive)).length

/-- `Sender::clone`. -/
def cloneSender (c : Shared T) : Shared T :=
  { c with senderCount := c.senderCount + 1 }

/-- `Sender::drop`: the last sender closes the channel and wakes every receiver. -/
def dropSender (c : Shared T) : Shared T × List Waker :=
  let count := c.senderCount - 1
  if count = 0 then
    ({ c with
        senderCount := count
        sendersAlive := false
        receivers := Table.mapValues (fun r => { r with waker := none }) c.receivers },
      (Table.values c.receivers).filterMap (·.waker))
  else
    ({ c with senderCount := count }, [])

/-- `Receiver::drop`. -/
def dropReceiver (c : Shared T) (id : Nat) : Shared T :=
  { c with receivers := c.receivers.erase id }

/-- `Receiver::clone`: a fresh subscription through a temporary sender, which is
dropped again. -/
def cloneReceiver (c : Shared T) : Shared T × Nat × List Waker :=
  let (c, id) := subscribe c
  let (c, wakers) := dropSender c
  (c, id, wakers)

/-- `Receiver::poll_state`: a pending lag notice first, then the queue, then closure;
otherwise the waker, if one is given, is stored. -/
def pollState (c : Shared T) (id : Nat) (waker : Option Waker) :
    Shared T × Except TryRecvError T :=
  match c.receivers.lookup id with
  | none => (c, .error .closed)
  | some r =>
    if r.missed > 0 then
      ({ c with receivers := c.receivers.insert id { r with missed := 0 } },
        .error (.lagged r.missed))
    else
      match r.queue with
      | value :: queue =>
        ({ c with receivers := c.receivers.insert id { r with queue := queue } }, .ok value)
      | [] =>
        if !c.sendersAlive then
          ({ c with receivers := c.receivers.insert id { r with alive := false } },
            .error .closed)
        else
          match waker with
          | some w =>
            ({ c with receivers := c.receivers.insert id { r with waker := some w } },
              .error .empty)
          | none => (c, .error .empty)

/-- Non-blocking receive. -/
def tryRecv (c : Shared T) (id : Nat) : Shared T × Except TryRecvError T :=
  pollState c id none

/-- One poll of `recv` by the task `waker` wakes. -/
def recvPoll (c : Shared T) (id : Nat) (waker : Waker) :
    Shared T × Poll (Except RecvError T) :=
  match pollState c id (some waker) with
  | (c, .ok value) => (c, some (.ok value))
  | (c, .error .empty) => (c, none)
  | (c, .error .closed) => (c, some (.error .closed))
  | (c, .error (.lagged n)) => (c, some (.error (.lagged n)))

/-! ### What is queued -/

@[simp]
theorem send_lookup (c : Shared T) (value : T) (id : Nat) :
  (send c value).1.receivers.lookup id
    = (c.receivers.lookup id).map (.push c.capacity value)
  := by
  simp [send]

@[simp]
theorem subscribe_lookup (c : Shared T) (id : Nat) :
  (subscribe c).1.receivers.lookup id
    = if id = c.nextId then some .fresh else c.receivers.lookup id
  := by
  simp only [subscribe]
  apply Table.lookup_insert_eq

/-- A poll concerns one receiver. -/
theorem pollState_lookup_ne
    {id id' : Nat} (h : id' ≠ id) (c : Shared T) (waker : Option Waker) :
  (pollState c id waker).1.receivers.lookup id' = c.receivers.lookup id' ∧
    (pollState c id waker).1.nextId = c.nextId
  := by
  unfold pollState
  split
  · exact ⟨rfl, rfl⟩
  · repeat' split
    all_goals first
      | exact ⟨AList.lookup_insert_ne h, rfl⟩
      | exact ⟨rfl, rfl⟩

theorem recvPoll_fst (c : Shared T) (id : Nat) (waker : Waker) :
  (recvPoll c id waker).1 = (pollState c id (some waker)).1
  := by
  unfold recvPoll
  split
  all_goals next h => rw [h]

/-- A poll of a receiver fails, takes the first value it has queued, or finds it empty. -/
theorem recvPoll_cases
    {c : Shared T} {id : Nat} {r : RecvState T} (hr : c.receivers.lookup id = some r)
    (waker : Waker) :
  (∃ e, (recvPoll c id waker).2 = some (.error e)) ∨
    (∃ value rest, r.queue = value :: rest ∧ r.missed = 0 ∧
      (recvPoll c id waker).2 = some (.ok value) ∧
      (recvPoll c id waker).1.receivers.lookup id = some { r with queue := rest }) ∨
    (r.queue = [] ∧ (recvPoll c id waker).2 = none ∧
      (recvPoll c id waker).1.receivers.lookup id = some { r with waker := some waker })
  := by
  simp only [recvPoll, pollState, hr]
  by_cases hm : r.missed > 0
  · simp only [hm, if_true]
    exact .inl ⟨_, rfl⟩
  · simp only [hm, if_false]
    cases r.queue with
    | cons value rest =>
      right
      left
      exact ⟨value, rest, rfl, by omega, rfl, AList.lookup_insert _⟩
    | nil =>
      cases c.sendersAlive with
      | false => exact .inl ⟨_, rfl⟩
      | true =>
        right
        right
        exact ⟨rfl, rfl, AList.lookup_insert _⟩

/-- A value sent to a live receiver is queued for it. -/
theorem RecvState.mem_push {capacity : Nat} {value : T} {r : RecvState T} (h : r.alive = true) :
  value ∈ (r.push capacity value).queue
  := by
  unfold RecvState.push
  simp only [h, Bool.not_true, Bool.false_eq_true, ↓reduceIte]
  split
  · simp
  · simp

theorem pollState_frame (c : Shared T) (id : Nat) (waker : Option Waker) :
  (pollState c id waker).1.capacity = c.capacity ∧
    (pollState c id waker).1.sendersAlive = c.sendersAlive
  := by
  unfold pollState
  repeat' split
  all_goals exact ⟨rfl, rfl⟩

theorem RecvState.push_of_short
    {st : RecvState T} {capacity : Nat} (halive : st.alive = true)
    (hshort : st.queue.length < capacity) (value : T) :
  st.push capacity value = { st with queue := st.queue ++ [value], waker := none }
  := by
  have hle : ¬ capacity ≤ st.queue.length := by omega
  simp [push, halive, hle]

/-- A poll of a receiver that missed nothing on an open channel. -/
theorem recvPoll_of_open
    {c : Shared T} {id : Nat} {st : RecvState T} (hst : c.receivers.lookup id = some st)
    (hmissed : st.missed = 0) (hopen : c.sendersAlive = true) (waker : Waker) :
  recvPoll c id waker = match st.queue with
    | value :: rest =>
      ({ c with receivers := c.receivers.insert id { st with queue := rest } }, some (.ok value))
    | [] => ({ c with receivers := c.receivers.insert id { st with waker := some waker } }, none)
  := by
  simp only [recvPoll, pollState, hst, hmissed, hopen]
  cases st.queue with
  | nil => rfl
  | cons value rest => rfl

/-- A poll that finds a receiver empty finds that it missed nothing. -/
theorem recvPoll_none
    {c : Shared T} {id : Nat} {r : RecvState T} {waker : Waker} (hr : c.receivers.lookup id = some r)
    (h : (recvPoll c id waker).2 = none) :
  r.queue = [] ∧ r.missed = 0
  := by
  simp only [recvPoll, pollState, hr] at h
  by_cases hm : r.missed > 0
  · simp [hm] at h
  · simp only [hm, if_false] at h
    cases hq : r.queue with
    | cons value rest => simp [hq] at h
    | nil => exact ⟨rfl, by omega⟩

/-- A poll leaves a live receiver alive, unless it finds the channel closed. -/
theorem recvPoll_alive
    {c : Shared T} {id : Nat} {r : RecvState T} {waker : Waker} (hr : c.receivers.lookup id = some r)
    (ha : r.alive = true) (h : (recvPoll c id waker).2 ≠ some (.error .closed)) :
  ∃ r', (recvPoll c id waker).1.receivers.lookup id = some r' ∧ r'.alive = true
  := by
  simp only [recvPoll, pollState, hr] at h ⊢
  by_cases hm : r.missed > 0
  · simp [hm, ha]
  · simp only [hm, if_false] at h ⊢
    cases hq : r.queue with
    | cons value rest => simp [ha]
    | nil =>
      cases hopen : c.sendersAlive with
      | false => simp [hq, hopen] at h
      | true => simp [ha]

theorem senderCount_pollState (c : Shared T) (id : Nat) (waker : Option Waker) :
  (pollState c id waker).1.senderCount = c.senderCount
  := by
  unfold pollState
  repeat' split
  all_goals rfl

end Bus

end RsQuery
