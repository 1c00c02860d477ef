import RsQuery.Lib.Machine
import RsQuery.Watch

/-!
# The slot of page requests

The observer of an infinite query passes page requests to the task of its loop through a
slot for one request and a watch cell that says when to look at it.  Both sides advance
from one lock section or atomic access to the next.

The receiver subscribes to the cell only after it has found the slot empty and the sender
there, so it misses a request that is announced in between; and the sender announces its
drop before it gives up its reference, so the receiver may look again too early.  Nobody
waits in vain where the receiver subscribes before either has been announced.
-/

namespace RsQuery

/-- A page-fetch request sent from the observer to the loop task. -/
inductive PageRequest where
  | next
  | previous
deriving DecidableEq, Repr

namespace PageRequests

/-- Where the sender stands. -/
inductive SenderPc where
  | idle
  /-- In `try_send`, holds the lock of the slot and has written it. -/
  | notify
  /-- In `try_send`, holds the lock of the slot and has these wakers to wake. -/
  | wake (wakers : List Waker)
  /-- In `drop`, has these wakers to wake. -/
  | dropWake (wakers : List Waker)
  /-- Has given up its reference. -/
  | gone
deriving DecidableEq, Repr

/-- Where the receiver stands. -/
inductive ReceiverPc where
  | idle
  /-- About to take what is in the slot. -/
  | take
  /-- Found the slot empty; about to count the references. -/
  | count
  | subscribe
  /-- About to poll `changed`. -/
  | poll (watcher : Watch.Watcher)
  /-- Suspended in `changed`, and not woken since. -/
  | parked (watcher : Watch.Watcher) (waker : Waker)
  | ended

/-- The wakers taken and still to be woken. -/
def SenderPc.hand : SenderPc → List Waker
  | .wake wakers | .dropWake wakers => wakers
  | _ => []

/-- The sender holds the lock of the slot. -/
def SenderPc.locks : SenderPc → Bool
  | .notify | .wake _ => true
  | _ => false

/-- The sender has announced its drop. -/
def SenderPc.announced : SenderPc → Bool
  | .dropWake _ | .gone => true
  | _ => false

/-- The sender with one waker less to wake. -/
def SenderPc.waken (t : Waker) : SenderPc → SenderPc
  | .wake wakers => .wake (wakers.erase t)
  | .dropWake wakers => .dropWake (wakers.erase t)
  | pc => pc

theorem SenderPc.hand_waken (pc : SenderPc) (t : Waker) :
  (pc.waken t).hand = pc.hand.erase t
  := by
  cases pc with
  | _ => rfl

/-- The receiver when a waker is woken. -/
def ReceiverPc.waken (t : Waker) : ReceiverPc → ReceiverPc
  | .parked watcher t' => if t' = t then .poll watcher else .parked watcher t'
  | pc => pc

/-- A step of the system. -/
inductive Action where
  | trySend (request : PageRequest)
  /-- The sender is dropped. -/
  | drop
  /-- The sender goes on. -/
  | send
  /-- The sender wakes one of the wakers taken. -/
  | wake (t : Waker)
  /-- The receiver starts to wait for a request. -/
  | recv
  /-- The receiver goes on; the task that polls it is the one of `t`. -/
  | receive (t : Waker)
  /-- The receiver is polled without having been woken. -/
  | resume

end PageRequests

/-- The slot and the cell both sides share, and where these stand. -/
structure PageRequests where
  slot : Option PageRequest
  release : Watch.Shared Unit
  sender : PageRequests.SenderPc
  receiver : PageRequests.ReceiverPc

namespace PageRequests

/-- A connected pair. -/
def initial : PageRequests :=
  ⟨none, (Watch.new ()).1, .idle, .idle⟩

/-- The receiver goes on from where it stands. -/
def advance (s : PageRequests) (t : Waker) : ReceiverPc → Option PageRequests
  | .take =>
    if s.sender.locks then none
    else
      match s.slot with
      | some _ => some { s with slot := none, receiver := .idle }
      | none => some { s with receiver := .count }
  | .count => some { s with receiver := if s.sender = .gone then .ended else .subscribe }
  | .subscribe =>
    let (release, watcher) := Watch.subscribe s.release
    some { s with release := release, receiver := .poll watcher }
  | .poll watcher =>
    match Watch.changedPoll s.release watcher t with
    | (release, _, some _) => some { s with release := release, receiver := .take }
    | (release, watcher, none) => some { s with release := release, receiver := .parked watcher t }
  | _ => none

/-- The state after an action, if it is enabled. -/
def step (s : PageRequests) : Action → Option PageRequests
  | .trySend request =>
    match s.sender, s.slot with
    | .idle, some _ => some s
    | .idle, none => some { s with slot := some request, sender := .notify }
    | _, _ => none
  | .drop =>
    match s.sender with
    | .idle =>
      let (release, wakers) := Watch.send s.release ()
      some { s with release := release, sender := .dropWake wakers }
    | _ => none
  | .send =>
    match s.sender with
    | .notify =>
      let (release, wakers) := Watch.send s.release ()
      some { s with release := release, sender := .wake wakers }
    | .wake [] => some { s with sender := .idle }
    | .dropWake [] => some { s with sender := .gone }
    | _ => none
  | .wake t =>
    if t ∈ s.sender.hand then
      some { s with sender := s.sender.waken t, receiver := s.receiver.waken t }
    else none
  | .recv =>
    match s.receiver with
    | .idle => some { s with receiver := .take }
    | _ => none
  | .receive t => s.advance t s.receiver
  | .resume =>
    match s.receiver with
    | .parked watcher _ => some { s with receiver := .poll watcher }
    | _ => none

/-- A connected pair, and every step. -/
def machine : Machine PageRequests Action :=
  ⟨fun s => s = initial, step⟩

/-- The receiver after these wakers are woken. -/
def wakeAll (wakers : List Waker) (receiver : ReceiverPc) : ReceiverPc :=
  wakers.foldl (fun receiver t => receiver.waken t) receiver

/-- The next step of a receiver that is to wait for a request. -/
def receiveStep (s : PageRequests) : Action :=
  match s.receiver with
  | .idle => .recv
  | _ => .receive 0

/-- The receiver has found the slot empty and not yet subscribed. -/
def Between (s : PageRequests) : Prop :=
  (s.receiver matches .count | .subscribe) = true

instance (s : PageRequests) : Decidable s.Between :=
  inferInstanceAs (Decidable (_ = true))

/-- `try_send`, from where it takes the lock of the slot to where it releases it. -/
def trySend (s : PageRequests) (request : PageRequest) : PageRequests :=
  if s.slot.isSome then s
  else
    let (release, wakers) := Watch.send s.release ()
    { s with
      slot := some request
      release := release
      receiver := wakeAll wakers s.receiver }

/-- The drop of the sender goes on: it announces the drop, then gives up its reference. -/
def dropSender (s : PageRequests) : Option PageRequests :=
  match s.sender with
  | .idle =>
    let (release, wakers) := Watch.send s.release ()
    some { s with
      release := release
      sender := .dropWake []
      receiver := wakeAll wakers s.receiver }
  | .dropWake [] => some { s with sender := .gone }
  | _ => none

variable {s s' : PageRequests} {a : Action} {t : Waker} {w : Watch.Watcher}

/-- What a step of a receiver that waits for a request does: it takes the one in the slot,
finds the sender gone, or goes on waiting. -/
theorem receive_cases (hs : s.step a = some s') (ha : a = .recv ∨ a = .receive t) :
  s'.sender = s.sender ∧
    ((∃ request, s.slot = some request ∧ s'.slot = none ∧ s'.receiver = .idle) ∨
      s'.slot = s.slot ∧ s.sender = .gone ∧ s'.receiver = .ended ∨
      s'.slot = s.slot ∧ s'.receiver ≠ .idle ∧ s'.receiver ≠ .ended)
  := by
  obtain rfl | rfl := ha
  · simp only [step] at hs
    split at hs
    · cases hs
      exact ⟨rfl, .inr (.inr ⟨rfl, nofun, nofun⟩)⟩
    · contradiction
  · simp only [step] at hs
    cases hpc : s.receiver with
    | take =>
      simp only [hpc, advance] at hs
      split at hs
      · contradiction
      · split at hs
        · next request hslot =>
          cases hs
          exact ⟨rfl, .inl ⟨request, hslot, rfl, rfl⟩⟩
        · next hslot =>
          cases hs
          exact ⟨rfl, .inr (.inr ⟨rfl, nofun, nofun⟩)⟩
    | count =>
      simp only [hpc, advance] at hs
      cases hs
      use rfl
      split
      · next hgone => exact .inr (.inl ⟨rfl, hgone, rfl⟩)
      · exact .inr (.inr ⟨rfl, nofun, nofun⟩)
    | subscribe =>
      simp only [hpc, advance] at hs
      cases hs
      exact ⟨rfl, .inr (.inr ⟨rfl, nofun, nofun⟩)⟩
    | poll w =>
      simp only [hpc, advance] at hs
      split at hs
      · cases hs
        exact ⟨rfl, .inr (.inr ⟨rfl, nofun, nofun⟩)⟩
      · cases hs
        exact ⟨rfl, .inr (.inr ⟨rfl, nofun, nofun⟩)⟩
    | _ => simp [hpc, advance] at hs

/-- A receiver that is polled without having been woken looks at the cell again. -/
theorem resume_cases (hs : s.step .resume = some s') :
  ∃ w t, s.receiver = .parked w t ∧ s' = { s with receiver := .poll w }
  := by
  simp only [step] at hs
  split at hs
  · next w t hpc => exact ⟨w, t, hpc, (Option.some.inj hs).symm⟩
  · contradiction

/-- A receiver that is parked and not being woken, by a sender that is waking it or is
about to announce its request, has an empty slot and a sender. -/
def NoneMissed (s : PageRequests) : Prop :=
  ∀ w t, s.receiver = .parked w t → t ∉ s.sender.hand → s.sender ≠ .notify →
    s.slot = none ∧ s.sender ≠ .gone

/-- Nothing has been announced since the receiver found the slot empty and the sender
there. -/
def Unannounced (s : PageRequests) : Prop :=
  (s.slot = none ∨ s.sender = .notify) ∧ s.sender.announced = false

instance (s : PageRequests) : Decidable s.Unannounced :=
  inferInstanceAs (Decidable (_ ∧ _))

/-- The receiver subscribes only before a request or the drop has been announced. -/
def SubscribesInTime (s : PageRequests) : Action → Prop
  | .receive _ => s.receiver matches .subscribe → s.Unannounced
  | _ => True

instance (s : PageRequests) (a : Action) : Decidable (s.SubscribesInTime a) := by
  unfold SubscribesInTime
  split
  all_goals infer_instance

/-- The watcher has something to see, or there is nothing it could miss. -/
def Alert (s : PageRequests) (w : Watch.Watcher) : Prop :=
  w.lastSeen < s.release.version ∨ w.lastSeen = s.release.version ∧ s.Unannounced

/-- A receiver that waits is alert, and its waker is registered or about to be woken. -/
structure Kept (s : PageRequests) : Prop where
  alive : s.release.alive = true
  poll : ∀ w, s.receiver = .poll w → s.Alert w
  parked : ∀ w t, s.receiver = .parked w t → s.Alert w ∧
    (t ∈ s.sender.hand ∨ s.release.waiters.lookup w.id = some t ∧ s.Unannounced)

theorem Alert.le (h : s.Alert w) :
  w.lastSeen ≤ s.release.version
  := by
  obtain h | ⟨h, -⟩ := h
  · apply Nat.le_of_lt h
  · apply Nat.le_of_eq h

/-- An announcement alerts whoever is waiting. -/
theorem Kept.announce
    {sender : SenderPc} (h : s.Kept) (hhand : s.sender.hand = [])
    (hsender : sender.hand = (Watch.send s.release ()).2) :
  Kept { s with release := (Watch.send s.release ()).1, sender := sender }
  := by
  have halert (w : Watch.Watcher) (hw : s.Alert w) :
      Alert { s with release := (Watch.send s.release ()).1, sender := sender } w :=
    .inl (Nat.lt_succ_of_le hw.le)
  constructor
  · apply h.alive
  · exact fun w hw => halert w (h.poll w hw)
  · intro w t hw
    obtain ⟨hseen, ht | ⟨ht, -⟩⟩ := h.parked w t hw
    · simp [hhand] at ht
    · refine ⟨halert w hseen, .inl ?_⟩
      dsimp only
      rw [hsender]
      apply Watch.mem_send.mpr ⟨w.id, ht⟩

/-- The sender goes on without announcing anything. -/
theorem Kept.of_sender
    {slot : Option PageRequest} {sender : SenderPc} (h : s.Kept)
    (hquiet : s.Unannounced → Unannounced { s with slot := slot, sender := sender })
    (hhand : s.sender.hand ⊆ sender.hand) :
  Kept { s with slot := slot, sender := sender }
  := by
  have halert (w : Watch.Watcher) (hw : s.Alert w) :
      Alert { s with slot := slot, sender := sender } w :=
    hw.imp_right fun hw => ⟨hw.1, hquiet hw.2⟩
  constructor
  · apply h.alive
  · exact fun w hw => halert w (h.poll w hw)
  · intro w t hw
    obtain ⟨hseen, ht⟩ := h.parked w t hw
    exact ⟨halert w hseen, ht.imp (hhand ·) fun ht => ⟨ht.1, hquiet ht.2⟩⟩

/-- The receiver does not wait. -/
theorem Kept.of_receiver
    {slot : Option PageRequest} {receiver : ReceiverPc} (h : s.Kept)
    (hpoll : ∀ w, receiver ≠ .poll w) (hparked : ∀ w t, receiver ≠ .parked w t) :
  Kept { s with slot := slot, receiver := receiver }
  := ⟨h.alive, fun w hw => absurd hw (hpoll w), fun w t hw => absurd hw (hparked w t)⟩

theorem Unannounced.waken (h : s.Unannounced) (t : Waker) (receiver : ReceiverPc) :
  Unannounced { s with sender := s.sender.waken t, receiver := receiver }
  := by
  obtain ⟨hslot, hannounced⟩ := h
  constructor
  · refine hslot.imp_right fun hnotify => ?_
    dsimp only
    rw [hnotify]
    rfl
  · dsimp only
    cases hpc : s.sender with
    | dropWake wakers => simp [hpc, SenderPc.announced] at hannounced
    | gone => simp [hpc, SenderPc.announced] at hannounced
    | _ => rfl

theorem Kept.wake (h : s.Kept) (t : Waker) :
  Kept { s with sender := s.sender.waken t, receiver := s.receiver.waken t }
  := by
  have halert (w : Watch.Watcher) (hw : s.Alert w) :
      Alert { s with sender := s.sender.waken t, receiver := s.receiver.waken t } w :=
    hw.imp_right fun hw => ⟨hw.1, hw.2.waken t _⟩
  cases hpc : s.receiver with
  | poll w =>
    rw [hpc] at halert
    refine ⟨h.alive, fun w' hw => ?_, nofun⟩
    cases hw
    apply halert w (h.poll w hpc)
  | parked w t' =>
    rw [hpc] at halert
    obtain ⟨hseen, hw⟩ := h.parked w t' hpc
    simp only [ReceiverPc.waken] at halert ⊢
    split at halert
    · next heq =>
      rw [if_pos heq]
      refine ⟨h.alive, fun w' hw' => ?_, nofun⟩
      cases hw'
      apply halert w hseen
    · next hne =>
      rw [if_neg hne]
      refine ⟨h.alive, nofun, fun w' t'' hw' => ?_⟩
      cases hw'
      refine ⟨halert w hseen, hw.imp (fun hw => ?_) fun hw => ⟨hw.1, hw.2.waken t _⟩⟩
      dsimp only
      rw [SenderPc.hand_waken]
      apply (List.mem_erase_of_ne hne).mpr hw
  | _ => exact ⟨h.alive, nofun, nofun⟩

theorem Kept.receive (h : s.Kept) (hok : s.SubscribesInTime (.receive t))
    (hs : s.step (.receive t) = some s') :
  s'.Kept
  := by
  simp only [step] at hs
  cases hpc : s.receiver with
  | take =>
    simp only [hpc, advance] at hs
    split at hs
    · contradiction
    · split at hs
      · cases hs
        exact h.of_receiver nofun nofun
      · cases hs
        exact h.of_receiver nofun nofun
  | count =>
    simp only [hpc, advance] at hs
    cases hs
    split
    · exact h.of_receiver nofun nofun
    · exact h.of_receiver nofun nofun
  | subscribe =>
    simp only [hpc, advance] at hs
    cases hs
    have hquiet : s.Unannounced := hok (by simp [hpc])
    refine ⟨h.alive, fun w hw => ?_, nofun⟩
    cases hw
    exact .inr ⟨rfl, hquiet⟩
  | poll w =>
    simp only [hpc, advance] at hs
    by_cases hv : s.release.version = w.lastSeen
    · rw [Watch.changedPoll_pending hv h.alive] at hs
      cases hs
      have hquiet : s.Unannounced := by
        obtain hlt | ⟨-, hquiet⟩ := h.poll w hpc
        · omega
        · exact hquiet
      refine ⟨h.alive, nofun, fun w' t' hw => ?_⟩
      cases hw
      exact ⟨.inr ⟨hv.symm, hquiet⟩, .inr ⟨AList.lookup_insert _, hquiet⟩⟩
    · rw [Watch.changedPoll_ready hv] at hs
      cases hs
      exact h.of_receiver nofun nofun
  | _ => simp [hpc, advance] at hs

theorem Kept.step (h : s.Kept) (hok : s.SubscribesInTime a) (hs : s.step a = some s') :
  s'.Kept
  := by
  cases a with
  | trySend request =>
    simp only [PageRequests.step] at hs
    split at hs
    · cases hs
      exact h
    · next hpc hslot =>
      cases hs
      apply h.of_sender
      · exact fun _ => ⟨.inr rfl, rfl⟩
      · simp [hpc, SenderPc.hand]
    · contradiction
  | drop =>
    simp only [PageRequests.step] at hs
    split at hs
    · next hpc =>
      cases hs
      exact h.announce (by rw [hpc]; rfl) rfl
    · contradiction
  | send =>
    simp only [PageRequests.step] at hs
    split at hs
    · next hpc =>
      cases hs
      exact h.announce (by rw [hpc]; rfl) rfl
    · next hpc =>
      cases hs
      apply h.of_sender
      · rintro ⟨hslot | hnotify, -⟩
        · exact ⟨.inl hslot, rfl⟩
        · rw [hpc] at hnotify
          contradiction
      · simp [hpc, SenderPc.hand]
    · next hpc =>
      cases hs
      apply h.of_sender
      · rintro ⟨-, hannounced⟩
        rw [hpc] at hannounced
        contradiction
      · simp [hpc, SenderPc.hand]
    · contradiction
  | wake t =>
    simp only [PageRequests.step] at hs
    split at hs
    · cases hs
      exact h.wake t
    · contradiction
  | recv =>
    simp only [PageRequests.step] at hs
    split at hs
    · cases hs
      exact h.of_receiver nofun nofun
    · contradiction
  | receive t => exact h.receive hok hs
  | resume =>
    simp only [PageRequests.step] at hs
    split at hs
    · next w t hpc =>
      cases hs
      refine ⟨h.alive, fun w' hw => ?_, nofun⟩
      cases hw
      exact (h.parked w t hpc).1
    · contradiction

theorem kept_of_run (h : machine.Run SubscribesInTime s) :
  s.Kept
  := by
  apply h.invariant
  · rintro s rfl
    exact ⟨rfl, nofun, nofun⟩
  · exact fun s a s' _ hkept hok hs => hkept.step hok hs

/-- Along every run in which the receiver subscribes before anything is announced, it
misses no request and no drop. -/
theorem noneMissed_of_run (h : machine.Run SubscribesInTime s) :
  s.NoneMissed
  := by
  intro w t hw ht hnotify
  obtain ⟨-, hhand | ⟨-, hslot, hannounced⟩⟩ := (kept_of_run h).parked w t hw
  · contradiction
  · refine ⟨hslot.resolve_right hnotify, ?_⟩
    intro hgone
    rw [hgone] at hannounced
    contradiction

/-! ### The sender's calls as a whole -/

/-- The step is one of the sender. -/
def Action.Sends : Action → Prop
  | .trySend _ | .drop | .send | .wake _ => True
  | _ => False

/-- A run goes on with steps of the sender. -/
theorem Run.send
    {as : List Action} (h : machine.Run SubscribesInTime s) (has : ∀ a ∈ as, a.Sends)
    (hexec : machine.exec s as = some s') :
  machine.Run SubscribesInTime s'
  := by
  refine h.exec (Machine.meets_of_forall ?_ s) hexec
  intro a ha s
  cases a with
  | receive t => exact (has _ ha).elim
  | _ => trivial

/-- The sender wakes one waker after the other. -/
theorem exec_wake
    {hand : List Waker → SenderPc} (hhand : hand = .wake ∨ hand = .dropWake) (wakers : List Waker)
    (hs : s.sender = hand wakers) :
  machine.exec s (wakers.map .wake) =
    some { s with sender := hand [], receiver := wakeAll wakers s.receiver }
  := by
  induction wakers generalizing s with
  | nil =>
    rw [List.map_nil, Machine.exec_nil, ← hs]
    rfl
  | cons t wakers ih =>
    have hstep : machine.step s (.wake t) =
        some { s with sender := hand wakers, receiver := s.receiver.waken t } := by
      obtain rfl | rfl := hhand
      · simp [machine, step, hs, SenderPc.hand, SenderPc.waken]
      · simp [machine, step, hs, SenderPc.hand, SenderPc.waken]
    rw [List.map_cons, Machine.exec_cons hstep, ih rfl]
    rfl

/-- Wakers that are woken set a parked receiver going, or nothing. -/
theorem wakeAll_cases (wakers : List Waker) (receiver : ReceiverPc) :
  wakeAll wakers receiver = receiver ∨
    ∃ w t, receiver = .parked w t ∧ wakeAll wakers receiver = .poll w
  := by
  unfold wakeAll
  induction wakers generalizing receiver with
  | nil => left; rfl
  | cons t wakers ih =>
    rw [List.foldl_cons]
    cases receiver with
    | parked w t' =>
      rw [ReceiverPc.waken]
      split
      · right
        obtain hpoll | ⟨w', t', hparked, -⟩ := ih (.poll w)
        · exact ⟨w, t', rfl, hpoll⟩
        · contradiction
      · apply ih
    | _ =>
      left
      obtain hsame | ⟨w, t', hparked, -⟩ := ih (ReceiverPc.waken t _)
      · exact hsame
      · contradiction

/-- A request that finds the slot empty is put there and announced. -/
theorem trySend_of_empty (request : PageRequest) (hslot : s.slot = none) :
  s.trySend request = { s with
    slot := some request
    release := (Watch.send s.release ()).1
    receiver := wakeAll (Watch.send s.release ()).2 s.receiver }
  := by
  rw [trySend, hslot]
  rfl

/-- The steps of a `try_send`. -/
theorem exists_exec_trySend (hs : s.sender = .idle) (request : PageRequest) :
  ∃ as : List Action, (∀ a ∈ as, a.Sends) ∧ machine.exec s as = some (s.trySend request)
  := by
  cases hslot : s.slot with
  | some pending =>
    refine ⟨[], nofun, ?_⟩
    rw [Machine.exec_nil, trySend, hslot]
    rfl
  | none =>
    let wakers := (Watch.send s.release ()).2
    let sent : PageRequests := { s with
      slot := some request
      release := (Watch.send s.release ()).1
      sender := .wake wakers }
    refine ⟨.trySend request :: .send :: (wakers.map .wake ++ [.send]), ?_, ?_⟩
    · intro a ha
      cases a with
      | recv | receive | resume => simp at ha
      | _ => trivial
    · have hwrite : machine.step s (.trySend request) =
          some { s with slot := some request, sender := .notify } := by
        simp [machine, step, hs, hslot]
      have hannounce : machine.step { s with slot := some request, sender := .notify } .send =
          some sent := rfl
      rw [Machine.exec_cons hwrite, Machine.exec_cons hannounce, Machine.exec_append,
        exec_wake (.inl rfl) wakers rfl]
      simp [Machine.exec, machine, step, trySend, hslot, hs, sent, wakers]

/-- The drop of the sender leaves what is in the slot. -/
theorem slot_dropSender (hs : s.dropSender = some s') :
  s'.slot = s.slot
  := by
  unfold dropSender at hs
  split at hs
  · rw [← Option.some.inj hs]
  · rw [← Option.some.inj hs]
  · contradiction

/-- The steps of the drop of a sender. -/
theorem exists_exec_dropSender (hs : s.dropSender = some s') :
  ∃ as : List Action, (∀ a ∈ as, a.Sends) ∧ machine.exec s as = some s'
  := by
  unfold dropSender at hs
  split at hs
  · next hidle =>
    let wakers := (Watch.send s.release ()).2
    let announced : PageRequests := { s with
      release := (Watch.send s.release ()).1
      sender := .dropWake wakers }
    obtain rfl := Option.some.inj hs
    refine ⟨.drop :: wakers.map .wake, ?_, ?_⟩
    · intro a ha
      cases a with
      | recv | receive | resume => simp at ha
      | _ => trivial
    have hannounce : machine.step s .drop = some announced := by
      simp [machine, step, hidle, announced, wakers]
    rw [Machine.exec_cons hannounce, exec_wake (.inr rfl) wakers rfl]
    rfl
  · next hwoken =>
    refine ⟨[.send], by simp [Action.Sends], ?_⟩
    rw [← hs]
    simp [Machine.exec, machine, step, hwoken]
  · contradiction

/-! ### A receiver that goes on by itself -/

theorem receiveStep_eq (s : PageRequests) :
  s.receiveStep = .recv ∨ s.receiveStep = .receive 0
  := by
  unfold receiveStep
  split
  · left; rfl
  · right; rfl

/-- A receiver whose sender is there subscribes in time if the slot is empty. -/
theorem subscribesInTime_receiveStep
    (hidle : s.sender = .idle) (hempty : s.Between → s.slot = none) :
  s.SubscribesInTime s.receiveStep
  := by
  obtain hstep | hstep := s.receiveStep_eq
  · rw [hstep]
    trivial
  · rw [hstep]
    intro hsubscribe
    constructor
    · left
      apply hempty
      unfold Between
      split at hsubscribe
      · next hpc => rw [hpc]
      · contradiction
    · rw [hidle]
      rfl

/-- A receiver finds the slot empty, or has done so before. -/
theorem slot_of_between
    (hs : s.step s.receiveStep = some s') (hempty : s.Between → s.slot = none)
    (hbetween : s'.Between) :
  s'.slot = none
  := by
  cases hpc : s.receiver with
  | take =>
    simp only [receiveStep, step, advance, hpc] at hs
    split at hs
    · contradiction
    · split at hs
      · cases hs
        contradiction
      · next hslot =>
        cases hs
        exact hslot
  | count =>
    simp only [receiveStep, step, advance, hpc] at hs
    cases hs
    apply hempty
    rw [Between, hpc]
  | poll w =>
    simp only [receiveStep, step, advance, hpc] at hs
    split at hs
    · cases hs
      contradiction
    · cases hs
      contradiction
  | idle =>
    simp only [receiveStep, step, hpc] at hs
    cases hs
    contradiction
  | subscribe =>
    simp only [receiveStep, step, advance, hpc] at hs
    cases hs
    contradiction
  | _ => simp [receiveStep, step, advance, hpc] at hs

/-- With a request in the slot, a receiver that is not about to subscribe comes to take it
in its next step. -/
theorem Kept.take
    {request : PageRequest} (h : s.Kept) (hidle : s.sender = .idle)
    (hslot : s.slot = some request) (hbetween : ¬ s.Between) (hended : s.receiver ≠ .ended) :
  s.receiver = .take ∨ ∃ s', s.step s.receiveStep = some s' ∧ s'.receiver = .take ∧
    s'.slot = s.slot ∧ s'.sender = s.sender
  := by
  have hloud : ¬ s.Unannounced := by
    rintro ⟨hnone | hnotify, -⟩
    · rw [hslot] at hnone
      contradiction
    · rw [hidle] at hnotify
      contradiction
  cases hpc : s.receiver with
  | idle =>
    right
    refine ⟨{ s with receiver := .take }, ?_, rfl, rfl, rfl⟩
    simp only [receiveStep, PageRequests.step, hpc]
  | take => left; rfl
  | poll w =>
    right
    have hv : s.release.version ≠ w.lastSeen := by
      obtain hlt | ⟨-, hquiet⟩ := h.poll w hpc
      · exact Nat.ne_of_gt hlt
      · contradiction
    refine ⟨{ s with receiver := .take }, ?_, rfl, rfl, rfl⟩
    simp only [receiveStep, PageRequests.step, advance, hpc]
    rw [Watch.changedPoll_ready hv]
  | parked w t =>
    obtain ⟨-, hhand | ⟨-, hquiet⟩⟩ := h.parked w t hpc
    · rw [hidle] at hhand
      cases hhand
    · contradiction
  | count | subscribe => exact absurd (by rw [Between, hpc]) hbetween
  | ended => contradiction

/-- The receiver takes the request in the slot. -/
theorem step_take
    {request : PageRequest} (hpc : s.receiver = .take) (hidle : s.sender = .idle)
    (hslot : s.slot = some request) :
  s.step s.receiveStep = some { s with slot := none, receiver := .idle }
  := by
  simp [receiveStep, step, advance, hpc, hidle, hslot, SenderPc.locks]

/-- A receiver on its way to park with a request in the slot. -/
structure Deaf (s : PageRequests) : Prop where
  alive : s.release.alive = true
  idle : s.sender = .idle
  pending : s.slot ≠ none
  receiver : s.Between ∨ (∃ w, s.receiver = .poll w ∧ w.lastSeen = s.release.version) ∨
    ∃ w t, s.receiver = .parked w t

/-- It stays so while nobody else does anything. -/
theorem Deaf.receive (h : s.Deaf) (hs : s.step s.receiveStep = some s') :
  s'.Deaf
  := by
  obtain ⟨halive, hidle, hpending, hpc⟩ := h
  cases hreceiver : s.receiver with
  | count =>
    have hgone : s.sender ≠ .gone := by simp [hidle]
    simp only [receiveStep, step, advance, hreceiver, if_neg hgone] at hs
    cases hs
    exact ⟨halive, hidle, hpending, .inl rfl⟩
  | subscribe =>
    simp only [receiveStep, step, advance, hreceiver] at hs
    cases hs
    exact ⟨halive, hidle, hpending, .inr (.inl ⟨_, rfl, rfl⟩)⟩
  | poll w =>
    have hseen : w.lastSeen = s.release.version := by
      obtain hbetween | ⟨w', hw, hseen⟩ | ⟨w', t', hw⟩ := hpc
      · simp [Between, hreceiver] at hbetween
      · cases hreceiver.symm.trans hw
        exact hseen
      · cases hreceiver.symm.trans hw
    simp only [receiveStep, step, advance, hreceiver] at hs
    rw [Watch.changedPoll_pending hseen.symm halive] at hs
    cases hs
    exact ⟨halive, hidle, hpending, .inr (.inr ⟨_, _, rfl⟩)⟩
  | parked w t => simp [receiveStep, step, advance, hreceiver] at hs
  | _ =>
    obtain hbetween | ⟨w', hw, -⟩ | ⟨w', t', hw⟩ := hpc
    · simp [Between, hreceiver] at hbetween
    · cases hreceiver.symm.trans hw
    · cases hreceiver.symm.trans hw

/-- A receiver that subscribes too late goes on to park. -/
theorem parks_of_subscribe (hpc : s.receiver = .subscribe) (halive : s.release.alive = true) :
  ∃ release w, machine.exec s [.receive t, .receive t] =
    some { s with release := release, receiver := .parked w t }
  := by
  have hfirst : s.step (.receive t) = some { s with
      release := (Watch.subscribe s.release).1
      receiver := .poll (Watch.subscribe s.release).2 } := by
    simp only [step, hpc, advance]
  let release := (Watch.subscribe s.release).1
  let w := (Watch.subscribe s.release).2
  have hpoll : Watch.changedPoll release w t =
      ({ release with waiters := release.waiters.insert w.id t }, w, none) :=
    Watch.changedPoll_pending rfl halive
  use { release with waiters := release.waiters.insert w.id t }, w
  simp only [Machine.exec, machine, hfirst, Option.bind_some]
  simp only [step, advance]
  rw [hpoll]
  rfl

/-- A receiver that subscribes after an announcement can miss it. -/
theorem exists_missed_of_subscribe
    (hpc : s.receiver = .subscribe) (halive : s.release.alive = true)
    (hhand : s.sender.hand = []) (hlate : ¬ s.Unannounced) :
  ∃ as s', machine.exec s as = some s' ∧ ¬ s'.NoneMissed
  := by
  obtain ⟨release, w, hexec⟩ := parks_of_subscribe (t := 0) hpc halive
  have hnotify : s.sender ≠ .notify := fun h => hlate ⟨.inr h, by rw [h]; rfl⟩
  by_cases hslot : s.slot = none
  · cases hsender : s.sender with
    | dropWake wakers =>
      rw [hsender] at hhand
      obtain rfl : wakers = [] := hhand
      refine ⟨[.receive 0, .receive 0] ++ [.send], { s with
        release := release
        sender := .gone
        receiver := .parked w 0 }, ?_, fun h => ?_⟩
      · rw [Machine.exec_append, hexec]
        simp [Machine.exec, machine, step, hsender]
      · apply (h w 0 rfl List.not_mem_nil (by simp)).2 rfl
    | gone =>
      refine ⟨_, _, hexec, fun h => ?_⟩
      apply (h w 0 rfl (by simp [hsender, SenderPc.hand]) hnotify).2 hsender
    | notify => exact absurd hsender hnotify
    | _ => exact absurd ⟨.inl hslot, by rw [hsender]; rfl⟩ hlate
  · refine ⟨_, _, hexec, fun h => ?_⟩
    apply hslot (h w 0 rfl (by simp [hhand]) hnotify).1

/-- The receiver is parked when a request comes, is woken and waits for the next one. -/
theorem noneMissed_of_run_parked :
  ∃ s, machine.Run SubscribesInTime s ∧ (∃ w t, s.receiver = .parked w t ∧
    t ∉ s.sender.hand) ∧ s.sender = .idle ∧ s.NoneMissed
  := by
  have meets : machine.Meets SubscribesInTime initial
      [.recv, .receive 0, .receive 0, .receive 0, .receive 0, .trySend .next, .send, .wake 0,
        .send, .receive 0, .receive 0, .recv, .receive 0, .receive 0, .receive 0, .receive 0] := by
    decide +kernel
  obtain ⟨s, hrun, hv⟩ := Machine.exists_run_of_exec _
    (fun s : PageRequests => (s.receiver matches .parked .., s.sender))
    (true, .idle) rfl meets (by decide +kernel)
  simp only [Prod.mk.injEq] at hv
  obtain ⟨hparked, hidle⟩ := hv
  refine ⟨s, hrun, ?_, hidle, noneMissed_of_run hrun⟩
  cases hpc : s.receiver with
  | parked w t =>
    use w, t, rfl
    rw [hidle]
    apply List.not_mem_nil
  | _ => simp [hpc] at hparked

/-- A request that is announced before the receiver has subscribed is missed. -/
theorem not_noneMissed_announced :
  ¬ ∀ s, machine.Reachable s → s.NoneMissed
  := by
  intro h
  obtain ⟨s, hs, hv⟩ := Machine.exists_reachable_of_exec (M := machine) (s := initial)
    [.recv, .receive 0, .receive 0, .trySend .next, .send, .send, .receive 0, .receive 0]
    (fun s : PageRequests => (s.receiver matches .parked .., s.sender, s.slot))
    (true, .idle, some .next) rfl (by decide +kernel)
  simp only [Prod.mk.injEq] at hv
  obtain ⟨hparked, hidle, hslot⟩ := hv
  cases hpc : s.receiver with
  | parked w t =>
    have hempty := (h s hs w t hpc (by simp [hidle, SenderPc.hand]) (by simp [hidle])).1
    rw [hslot] at hempty
    contradiction
  | _ => simp [hpc] at hparked

/-- A drop that is announced before the receiver has subscribed is missed. -/
theorem not_noneMissed_dropped :
  ¬ ∀ s, machine.Reachable s → s.slot = none → s.NoneMissed
  := by
  intro h
  obtain ⟨s, hs, hv⟩ := Machine.exists_reachable_of_exec (M := machine) (s := initial)
    [.recv, .receive 0, .receive 0, .drop, .receive 0, .receive 0, .send]
    (fun s : PageRequests => (s.receiver matches .parked .., s.sender, s.slot))
    (true, .gone, none) rfl (by decide +kernel)
  simp only [Prod.mk.injEq] at hv
  obtain ⟨hparked, hgone, hslot⟩ := hv
  cases hpc : s.receiver with
  | parked w t =>
    apply (h s hs hslot w t hpc (by simp [hgone, SenderPc.hand]) (by simp [hgone])).2 hgone
  | _ => simp [hpc] at hparked

end PageRequests

end RsQuery
