import RsQuery.BusHandles
import RsQuery.Observer

/-!
# Recovering from a lag

After a lag `try_recv` takes as many further values as were missed and gives the last of
them.  What was missed is as much as was sent beyond the capacity, and what is still queued
is as much as the capacity: so the newest update is given, and none is left, exactly if
twice the capacity was sent (`QueryObserver.tryRecv_newest_iff`).
-/

namespace RsQuery

open LossyQueue (Queue)

variable {V D : Type}

namespace QueryObserver

/-- The channel of the observer's key is open and has the capacity, and the receiver of the
observer has the queue. -/
def Holds (o : QueryObserver D) (c : QueryClient V) (capacity : Nat)
    (q : Queue QueryStateUpdate) : Prop :=
  ∃ sender, c.subscribers.lookup o.key.cacheKey = some sender ∧
    sender.capacity = capacity ∧ sender.sendersAlive = true ∧
    ∃ r, sender.receivers.lookup o.receiver = some r ∧ r.alive = true ∧ r.lossy = q

variable {o : QueryObserver D} {c : QueryClient V} {capacity : Nat}
  {q : Queue QueryStateUpdate}

theorem Holds.congr (h : o.Holds c capacity q) {c' : QueryClient V}
    (hc : c'.subscribers = c.subscribers) :
  o.Holds c' capacity q
  := by
  rw [Holds, hc]
  apply h

/-- A notification of another key does not concern the observer. -/
theorem Holds.notify_ne (h : o.Holds c capacity q) {cacheKey : String}
    (hne : o.key.cacheKey ≠ cacheKey) (variant : QueryStateVariant) :
  o.Holds (c.notifySubscribers cacheKey variant) capacity q
  := by
  obtain ⟨sender, hs, hrest⟩ := h
  refine ⟨sender, ?_, hrest⟩
  rw [QueryClient.notifySubscribers_subscribers, Table.lookup_adjust, if_neg hne, hs]

/-- A notification is put into the queue of the observer. -/
theorem Holds.notify (h : o.Holds c capacity q) (variant : QueryStateVariant) :
  o.Holds (c.notifySubscribers o.key.cacheKey variant) capacity
    (q.push capacity ⟨o.key.cacheKey, variant⟩)
  := by
  obtain ⟨sender, hs, rfl, hopen, r, hr, halive, rfl⟩ := h
  let update : QueryStateUpdate := ⟨o.key.cacheKey, variant⟩
  refine ⟨(Bus.send sender update).1, ?_, rfl, hopen, r.push sender.capacity update, ?_, ?_, ?_⟩
  · rw [QueryClient.notifySubscribers_subscribers, Table.lookup_adjust, if_pos rfl, hs]
    rfl
  · rw [Bus.send_lookup, hr]
    rfl
  · rw [Bus.Handles.push_of_alive halive]
    apply halive
  · rw [Bus.Handles.push_of_alive halive]
    rfl

/-- Notifications of the key are put into the queue one after another. -/
theorem Holds.foldl_notify (h : o.Holds c capacity q) (variants : List QueryStateVariant) :
  o.Holds (variants.foldl (fun c v => c.notifySubscribers o.key.cacheKey v) c) capacity
    ((variants.map (⟨o.key.cacheKey, ·⟩)).foldl (fun q u => q.push capacity u) q)
  := by
  induction variants generalizing c q with
  | nil => apply h
  | cons v variants ih => apply ih (h.notify v)

theorem receive_eq {sender : Bus.Shared QueryStateUpdate}
    (hs : c.subscribers.lookup o.key.cacheKey = some sender) :
  o.receive c =
    ({ c with
        subscribers := c.subscribers.insert o.key.cacheKey
          (Bus.pollState sender o.receiver none).1 },
      (Bus.pollState sender o.receiver none).2)
  := by
  rw [receive, hs]
  rfl

/-- A receive takes what is next in the queue of the observer. -/
theorem Holds.receive (h : o.Holds c capacity q) :
  match q.take with
  | some (.value u, q') => (o.receive c).2 = .ok u ∧ o.Holds (o.receive c).1 capacity q'
  | some (.lagged n, q') =>
    (o.receive c).2 = .error (.lagged n) ∧ o.Holds (o.receive c).1 capacity q'
  | none => (o.receive c).2 = .error .empty ∧ o.Holds (o.receive c).1 capacity q
  := by
  obtain ⟨sender, hs, hcapacity, hopen, r, hr, halive, rfl⟩ := h
  obtain ⟨queue, waker, missed, alive⟩ := r
  -- whatever is taken, the receiver is put back with the rest
  have holds (sender' : Bus.Shared QueryStateUpdate) (r' : Bus.RecvState QueryStateUpdate)
      (hcapacity' : sender'.capacity = sender.capacity)
      (hopen' : sender'.sendersAlive = sender.sendersAlive)
      (hr' : sender'.receivers.lookup o.receiver = some r') (halive' : r'.alive = true) :
      o.Holds { c with subscribers := c.subscribers.insert o.key.cacheKey sender' } capacity
        r'.lossy :=
    ⟨sender', AList.lookup_insert _, hcapacity'.trans hcapacity, hopen'.trans hopen, r', hr',
      halive', rfl⟩
  rw [receive_eq hs]
  simp only [Bus.pollState, hr]
  cases missed with
  | succ n =>
    exact ⟨rfl, holds _ ⟨queue, waker, 0, alive⟩ rfl rfl (AList.lookup_insert _) halive⟩
  | zero =>
    cases queue with
    | cons u queue =>
      exact ⟨rfl, holds _ ⟨queue, waker, 0, alive⟩ rfl rfl (AList.lookup_insert _) halive⟩
    | nil =>
      simp only [hopen]
      exact ⟨rfl, holds sender ⟨[], waker, 0, alive⟩ rfl rfl hr halive⟩

/-- The loop after a lag takes as many updates as it is told, as far as there are some, and
gives the last one it took. -/
theorem Holds.recover {l : List QueryStateUpdate} (h : o.Holds c capacity ⟨l, 0⟩) (n : Nat)
    (last : Option QueryStateUpdate) :
  (o.recover n c last).2 = (l.take n).getLast?.or last ∧
    o.Holds (o.recover n c last).1 capacity ⟨l.drop n, 0⟩
  := by
  induction n generalizing c l last with
  | zero => exact ⟨rfl, h⟩
  | succ n ih =>
    have hreceive := h.receive
    rw [QueryObserver.recover]
    cases l with
    | nil =>
      obtain ⟨hempty, hholds⟩ := hreceive
      rw [← Prod.mk.eta (p := o.receive c), hempty]
      exact ⟨rfl, hholds⟩
    | cons u l =>
      obtain ⟨hok, hholds⟩ := hreceive
      obtain ⟨hlast, hrest⟩ := ih hholds (some u)
      rw [← Prod.mk.eta (p := o.receive c), hok]
      refine ⟨?_, hrest⟩
      rw [hlast, List.take_succ_cons]
      cases h : l.take n with
      | nil => rfl
      | cons v l =>
        rw [List.getLast?_cons_cons, List.getLast?_cons]
        rfl

/-- `try_recv` gives the next update, or after a lag the last of as many as were missed, as
far as there are some. -/
theorem Holds.tryRecv {l : List QueryStateUpdate} {missed : Nat}
    (h : o.Holds c capacity ⟨l, missed⟩) :
  (o.tryRecv c).2 = (if missed = 0 then l.head? else (l.take missed).getLast?) ∧
    o.Holds (o.tryRecv c).1 capacity ⟨if missed = 0 then l.tail else l.drop missed, 0⟩
  := by
  have hreceive := h.receive
  rw [QueryObserver.tryRecv]
  cases missed with
  | succ n =>
    obtain ⟨hlagged, hholds⟩ := hreceive
    obtain ⟨hlast, hrest⟩ := hholds.recover (n + 1) none
    rw [← Prod.mk.eta (p := o.receive c), hlagged]
    exact ⟨hlast.trans Option.or_none, hrest⟩
  | zero =>
    cases l with
    | nil =>
      obtain ⟨hempty, hholds⟩ := hreceive
      rw [← Prod.mk.eta (p := o.receive c), hempty]
      exact ⟨rfl, hholds⟩
    | cons u l =>
      obtain ⟨hok, hholds⟩ := hreceive
      rw [← Prod.mk.eta (p := o.receive c), hok]
      exact ⟨rfl, hholds⟩

/-- More notifications than the channel has room for are recovered from, the newest given
and none left, exactly if with what was queued they are twice as many as that. -/
theorem Holds.newest_iff
    {l : List QueryStateUpdate} (h : o.Holds c capacity ⟨l, 0⟩) (hl : l.length ≤ capacity)
    (hcapacity : 0 < capacity) {variants : List QueryStateVariant}
    (hmore : capacity < variants.length) :
  let c' := variants.foldl (fun c v => c.notifySubscribers o.key.cacheKey v) c
  let c'' := (o.tryRecv c').1
  (o.tryRecv c').2 = variants.getLast?.map (⟨o.key.cacheKey, ·⟩) ∧ (o.tryRecv c'').2 = none ↔
    2 * capacity ≤ l.length + variants.length
  := by
  intro c' c''
  let updates := variants.map fun v => (⟨o.key.cacheKey, v⟩ : QueryStateUpdate)
  let missed := l.length + variants.length - capacity
  have hqueue : o.Holds c' capacity ⟨(l ++ updates).drop missed, missed⟩ := by
    have hfold := h.foldl_notify variants
    rw [LossyQueue.Queue.foldl_push hcapacity hl] at hfold
    simpa [updates, missed] using hfold
  have hmissed : missed ≠ 0 := by omega
  have hlength : (l ++ updates).length = missed + capacity := by
    simp only [updates, List.length_append, List.length_map]
    omega
  obtain ⟨hfirst, hrest⟩ := hqueue.tryRecv
  rw [if_neg hmissed] at hfirst hrest
  obtain ⟨hsecond, -⟩ := hrest.tryRecv
  rw [if_pos rfl, List.drop_drop, List.head?_drop] at hsecond
  have hnone : (o.tryRecv c'').2 = none ↔ capacity ≤ missed := by
    rw [hsecond, List.getElem?_eq_none_iff, hlength]
    omega
  rw [hnone]
  constructor
  · rintro ⟨-, hle⟩
    omega
  · intro htwice
    have hle : capacity ≤ missed := by omega
    refine ⟨?_, hle⟩
    -- the loop gets as far as the end of the queue
    have hall : ((l ++ updates).drop missed).take missed = (l ++ updates).drop missed := by
      apply List.take_of_length_le
      rw [List.length_drop, hlength]
      omega
    have hlast : updates ≠ [] := by
      apply List.ne_nil_of_length_pos
      rw [List.length_map]
      omega
    rw [hfirst, hall, List.getLast?_drop, if_neg (by omega), List.getLast?_append_of_ne_nil _ hlast,
      List.getLast?_map]

/-! ### The history of an observer -/

/-- What happens to an observer's channel. -/
inductive Event where
  | notify (cacheKey : String) (variant : QueryStateVariant)
  | tryRecv

def happen (o : QueryObserver D) (c : QueryClient V) : Event → QueryClient V
  | .notify cacheKey variant => c.notifySubscribers cacheKey variant
  | .tryRecv => (o.tryRecv c).1

/-- The client after one event after another. -/
def after (o : QueryObserver D) (c : QueryClient V) (events : List Event) : QueryClient V :=
  events.foldl o.happen c

/-- How many updates are queued for the observer. -/
def pending (o : QueryObserver D) (c : QueryClient V) : Nat :=
  ((c.subscribers.lookup o.key.cacheKey).bind fun sender =>
    sender.receivers.lookup o.receiver).elim 0 (·.queue.length)

theorem Holds.pending (h : o.Holds c capacity q) :
  o.pending c = q.queue.length
  := by
  obtain ⟨sender, hs, -, -, r, hr, -, rfl⟩ := h
  simp only [QueryObserver.pending, hs, Option.bind_some, hr, Option.elim_some]
  rfl

/-- Every event leaves a queue that fits into the channel; a receive leaves no lag. -/
theorem Holds.happen
    (h : o.Holds c capacity q) (hcapacity : 0 < capacity) (hq : q.queue.length ≤ capacity)
    (e : Event) :
  ∃ q', o.Holds (o.happen c e) capacity q' ∧ q'.queue.length ≤ capacity ∧
    (e = .tryRecv → q'.missed = 0)
  := by
  cases e with
  | notify cacheKey variant =>
    by_cases hkey : o.key.cacheKey = cacheKey
    · subst hkey
      exact ⟨_, h.notify variant, LossyQueue.Queue.length_push hcapacity hq _, nofun⟩
    · exact ⟨q, h.notify_ne hkey variant, hq, nofun⟩
  | tryRecv =>
    obtain ⟨l, missed⟩ := q
    refine ⟨_, h.tryRecv.2, ?_, fun _ => rfl⟩
    have hle : (if missed = 0 then l.tail else l.drop missed).length ≤ l.length := by
      split
      · simp
      · simp
    apply hle.trans hq

theorem Holds.after
    (h : o.Holds c capacity q) (hcapacity : 0 < capacity) (hq : q.queue.length ≤ capacity)
    (events : List Event) :
  ∃ q', o.Holds (o.after c events) capacity q' ∧ q'.queue.length ≤ capacity
  := by
  induction events generalizing c q with
  | nil => exact ⟨q, h, hq⟩
  | cons e events ih =>
    obtain ⟨q', hholds, hq', -⟩ := h.happen hcapacity hq e
    apply ih hholds hq'

/-- The channels of a client are open and have the capacity `subscribe` makes them with. -/
def Channels (c : QueryClient V) : Prop :=
  ∀ cacheKey sender, c.subscribers.lookup cacheKey = some sender →
    sender.capacity = 16 ∧ sender.sendersAlive = true

/-- A subscription starts with nothing queued. -/
theorem holds_subscribe (hc : Channels c)
    (hreceiver : o.receiver = (c.subscribe o.key.cacheKey).2) :
  o.Holds (c.subscribe o.key.cacheKey).1 16 ⟨[], 0⟩
  := by
  let sender := (c.subscribers.lookup o.key.cacheKey).getD (QueryClient.senderOnly 16)
  have hsender : sender.capacity = 16 ∧ sender.sendersAlive = true := by
    cases hs : c.subscribers.lookup o.key.cacheKey with
    | some sender' =>
      simp only [sender, hs, Option.getD_some]
      apply hc _ _ hs
    | none =>
      simp only [sender, hs, Option.getD_none]
      exact ⟨rfl, rfl⟩
  refine ⟨(Bus.subscribe sender).1, AList.lookup_insert _, hsender.1, hsender.2, .fresh, ?_, rfl,
    rfl⟩
  rw [hreceiver, Bus.subscribe_lookup]
  apply if_pos rfl

variable [PartialEqAny V]

/-- A new observer has nothing queued but what the initial data it sets is announced with. -/
theorem holds_mount (hc : Channels c) (now : Instant) (m : Mount V) :
  ∃ l, (mount c now m).2.Holds (mount c now m).1 16 ⟨l, 0⟩ ∧ l.length ≤ 16
  := by
  cases m with
  | new key typeId => exact ⟨[], holds_subscribe hc rfl, Nat.zero_le _⟩
  | withOptions key typeId options => exact ⟨[], holds_subscribe hc rfl, Nat.zero_le _⟩
  | fromQuery query =>
    simp only [mount, fromQuery]
    split
    · exact ⟨[], holds_subscribe hc rfl, Nat.zero_le _⟩
    · refine ⟨[⟨query.key.cacheKey, .success⟩], ?_, by simp⟩
      apply Holds.notify (q := ⟨[], 0⟩)
      apply (holds_subscribe hc rfl).congr
      rfl
    · exact ⟨[], holds_subscribe hc rfl, Nat.zero_le _⟩

/-- After more notifications of its key than the channel has room for, since the last
receive of an observer, `try_recv` gives the newest update and leaves none exactly if with
what was queued then they are twice as many. -/
theorem tryRecv_newest_iff
    (hc : Channels c) (now : Instant) (m : Mount V) (history : List Event)
    (hhistory : history = [] ∨ ∃ before, history = before ++ [.tryRecv])
    (variants : List QueryStateVariant) (hmore : 16 < variants.length) :
  let o := (mount c now m).2
  let received := o.after (mount c now m).1 history
  let sent := o.after received (variants.map (.notify o.key.cacheKey))
  (o.tryRecv sent).2 = variants.getLast?.map (⟨o.key.cacheKey, ·⟩) ∧
      (o.tryRecv (o.tryRecv sent).1).2 = none ↔
    32 ≤ o.pending received + variants.length
  := by
  intro o received sent
  obtain ⟨l, hmount, hl⟩ := holds_mount hc now m
  have hreceived : ∃ l, o.Holds received 16 ⟨l, 0⟩ ∧ l.length ≤ 16 := by
    rcases hhistory with rfl | ⟨before, rfl⟩
    · exact ⟨l, hmount, hl⟩
    · obtain ⟨q, hq, hlength⟩ := hmount.after (by decide) hl before
      obtain ⟨⟨l, missed⟩, hq, hlength, hmissed⟩ := hq.happen (by decide) hlength .tryRecv
      obtain rfl : missed = 0 := hmissed rfl
      refine ⟨l, ?_, hlength⟩
      show o.Holds ((before ++ [Event.tryRecv]).foldl o.happen _) 16 _
      rw [List.foldl_append]
      apply hq
  obtain ⟨l, hreceived, hl⟩ := hreceived
  have hsent : sent = variants.foldl (fun c v => c.notifySubscribers o.key.cacheKey v) received :=
    List.foldl_map
  rw [hsent, hreceived.pending]
  apply hreceived.newest_iff hl (by decide) hmore

theorem channels_new :
  Channels (.new : QueryClient (String ⊕ Nat))
  := by
  intro cacheKey sender h
  contradiction

/-- An observer of the key `"user"`. -/
def user : Mount (String ⊕ Nat) :=
  .new (.new "user") (typeOf (.inl "" : String ⊕ Nat))

/-- A new observer recovers from twice as many notifications as the channel has room for. -/
theorem tryRecv_newest_twice :
  let variants := List.replicate 31 QueryStateVariant.success ++ [.error]
  let o := (mount .new 0 user).2
  let received := o.after (mount .new 0 user).1 []
  let sent := o.after received (variants.map (.notify o.key.cacheKey))
  (o.tryRecv sent).2 = variants.getLast?.map (⟨o.key.cacheKey, ·⟩) ∧
      (o.tryRecv (o.tryRecv sent).1).2 = none ↔
    32 ≤ o.pending received + variants.length
  := tryRecv_newest_iff channels_new 0 user [] (.inl rfl) _ (by decide)

/-- One notification more than the channel has room for leaves all but one of those that are
queued. -/
theorem not_tryRecv_newest :
  ¬ ∀ (c : QueryClient (String ⊕ Nat)) (now : Instant) (m : Mount (String ⊕ Nat))
      (history : List Event) (variants : List QueryStateVariant),
    Channels c → history = [] ∨ (∃ before, history = before ++ [.tryRecv]) →
    16 < variants.length →
    let o := (mount c now m).2
    let received := o.after (mount c now m).1 history
    let sent := o.after received (variants.map (.notify o.key.cacheKey))
    (o.tryRecv sent).2 = variants.getLast?.map (⟨o.key.cacheKey, ·⟩) ∧
      (o.tryRecv (o.tryRecv sent).1).2 = none
  := by
  intro h
  let variants := List.replicate 16 QueryStateVariant.success ++ [.error]
  obtain ⟨hnewest, -⟩ := h .new 0 user [] variants channels_new (.inl rfl) (by decide)
  revert hnewest
  decide +kernel

end QueryObserver

end RsQuery
