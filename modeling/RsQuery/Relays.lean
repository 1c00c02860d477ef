import RsQuery.Waiting

/-!
# What a receiver hears

As long as the channel of a key is open and nobody lags behind, a receiver has queued
what was told on the channel since it subscribed and has not been received, in order.
-/

namespace RsQuery

variable {V : Type}

open QueryClient

namespace Slot

variable {x x' x'' : Slot V} {own : Option Nat} {told told' heard : List QueryStateVariant}
  {rx : Nat}

/-- The channel is open and has the capacity `subscribe` gives it. -/
def Open (x : Slot V) : Prop :=
  ∀ sender ∈ x.sender, sender.capacity = 16 ∧ sender.sendersAlive = true

/-- A live receiver has these updates queued, and missed none. -/
def Hears (x : Slot V) (rx : Nat) (heard : List QueryStateVariant) : Prop :=
  ∃ st ∈ x.receiver rx, st.alive = true ∧ st.missed = 0 ∧
    st.queue.map QueryStateUpdate.stateVariant = heard

/-- The channel stays open, and the receivers but for `own` hear what is told. -/
structure Relays (own : Option Nat) (told : List QueryStateVariant) (x x' : Slot V) : Prop where
  isOpen : x.Open → x'.Open
  nextRx : x.nextRx ≤ x'.nextRx
  heard : ∀ rx heard, own ≠ some rx → rx < x.nextRx → x.Open →
    heard.length + told.length ≤ 16 → x.Hears rx heard → x'.Hears rx (heard ++ told)

theorem Relays.of_sender (h : x'.sender = x.sender) :
  Relays own [] x x'
  := by
  have hrx (rx : Nat) : x'.receiver rx = x.receiver rx := by rw [receiver, receiver, h]
  have hnext : x'.nextRx = x.nextRx := by rw [Slot.nextRx, Slot.nextRx, h]
  refine ⟨?_, hnext.ge, ?_⟩
  · rw [Open, Open, h]
    apply id
  · intro rx heard _ _ _ _ hheard
    rwa [List.append_nil, Hears, hrx]

theorem Relays.trans (h : Relays own told x x') (h' : Relays own told' x' x'') :
  Relays own (told ++ told') x x''
  := by
  refine ⟨fun ho => h'.isOpen (h.isOpen ho), h.nextRx.trans h'.nextRx, ?_⟩
  intro rx heard hne hlt ho hlength hheard
  rw [List.length_append] at hlength
  rw [← List.append_assoc]
  apply h'.heard rx _ hne (hlt.trans_le h.nextRx) (h.isOpen ho)
  · rw [List.length_append]
    omega
  · apply h.heard rx heard hne hlt ho _ hheard
    omega

theorem relays_notify (x : Slot V) (update : QueryStateUpdate) :
  Relays own [update.stateVariant] x (x.notify update)
  := by
  refine ⟨?_, ?_, ?_⟩
  · intro ho sender hsender
    obtain ⟨sender', hsender', rfl⟩ := Option.map_eq_some_iff.mp hsender
    apply ho sender' hsender'
  · simp only [Slot.nextRx, notify]
    cases x.sender with
    | none => apply Nat.le_refl _
    | some sender => apply Nat.le_refl _
  · rintro rx heard - - ho hlength ⟨st, hst, halive, hmissed, hqueue⟩
    obtain ⟨sender, hsender, hst⟩ := Option.bind_eq_some_iff.mp hst
    have hshort : st.queue.length < sender.capacity := by
      rw [← hqueue, List.length_map, List.length_singleton] at hlength
      rw [(ho sender hsender).1]
      omega
    have hpush := Bus.RecvState.push_of_short halive hshort update
    refine ⟨st.push sender.capacity update, ?_, ?_⟩
    · simp only [receiver, notify, hsender]
      simp [hst]
    · rw [hpush]
      exact ⟨halive, hmissed, by simp [hqueue]⟩

theorem relays_subscribe (x : Slot V) :
  Relays own [] x x.subscribe
  := by
  have hfeeds : Feeds own [] x x.subscribe := feeds_traces.subscribe x
  have hnext := hfeeds.nextRx
  refine ⟨?_, hnext, ?_⟩
  · rintro ho sender ⟨⟩
    cases hs : x.sender with
    | none => exact ⟨rfl, rfl⟩
    | some sender => apply ho sender hs
  · rintro rx heard - hlt - - ⟨st, hst, hheard⟩
    rw [List.append_nil]
    refine ⟨st, ?_, hheard⟩
    obtain ⟨sender, hsender, hst⟩ := Option.bind_eq_some_iff.mp hst
    have hne : rx ≠ sender.nextId := by
      simp only [Slot.nextRx, hsender] at hlt
      apply Nat.ne_of_lt hlt
    simp only [receiver, subscribe, hsender]
    simp [hne, hst]

/-- What concerns one receiver only leaves the others as they are. -/
theorem relays_of_others
    {f : Bus.Shared QueryStateUpdate → Bus.Shared QueryStateUpdate}
    (hs : x'.sender = x.sender.map f)
    (hframe : ∀ sender, (f sender).nextId = sender.nextId ∧
      (f sender).capacity = sender.capacity ∧ (f sender).sendersAlive = sender.sendersAlive)
    (hf : ∀ sender rx', rx' ≠ rx → (f sender).receivers.lookup rx' = sender.receivers.lookup rx') :
  Relays (some rx) [] x x'
  := by
  refine ⟨?_, ?_, ?_⟩
  · intro ho sender hsender
    rw [hs] at hsender
    obtain ⟨sender', hsender', rfl⟩ := Option.map_eq_some_iff.mp hsender
    rw [(hframe sender').2.1, (hframe sender').2.2]
    apply ho sender' hsender'
  · rw [Slot.nextRx, Slot.nextRx, hs]
    cases x.sender with
    | none => apply Nat.le_refl _
    | some sender => apply (hframe sender).1.ge
  · rintro rx' heard hne - - - ⟨st, hst, hheard⟩
    rw [List.append_nil]
    refine ⟨st, ?_, hheard⟩
    obtain ⟨sender, hsender, hst⟩ := Option.bind_eq_some_iff.mp hst
    have hrx : rx' ≠ rx := fun heq => hne (congrArg some heq.symm)
    simp only [receiver, hs, hsender, Option.map_some, Option.bind_some, hf sender rx' hrx]
    apply hst

theorem relays_detach (x : Slot V) (rx : Nat) :
  Relays (some rx) [] x (x.detach rx)
  := relays_of_others rfl (fun _ => ⟨rfl, rfl, rfl⟩) fun _ _ h => AList.lookup_erase_ne h

theorem relays_poll (x : Slot V) (rx : Nat) (waker : Waker) :
  Relays (some rx) [] x (x.poll rx waker)
  := by
  refine relays_of_others rfl (fun sender => ?_) fun sender rx' h => ?_
  · rw [Bus.recvPoll_fst]
    exact ⟨(Bus.pollState_lookup_ne (Nat.succ_ne_self rx) sender _).2,
      Bus.pollState_frame sender rx _⟩
  · rw [Bus.recvPoll_fst]
    apply (Bus.pollState_lookup_ne h sender _).1

theorem relays_traces :
  Traces (Relays (V := V))
  := ⟨Relays.of_sender, relays_notify, relays_subscribe, relays_detach, relays_poll, Relays.trans⟩

end Slot

variable [PartialEqAny V]

namespace Run

variable {r : Run V} {i rx : Nat} {c : QueryClient V} {heard : List QueryStateVariant}

/-- A new receiver has heard nothing. -/
theorem hears_subscribe (r : Run V) (c : QueryClient V) :
  ((c.subscribe r.query.key.cacheKey).1.slot r.query.key.cacheKey).Hears
    (c.subscribe r.query.key.cacheKey).2 []
  := by
  refine ⟨.fresh, ?_, rfl, rfl, rfl⟩
  simp [Slot.receiver, slot, QueryClient.subscribe, Bus.subscribe]

/-- A poll takes the first update heard, or parks. -/
theorem recvPoll_of_hears
    (ho : (c.slot r.query.key.cacheKey).Open) (i : Nat)
    (hheard : (c.slot r.query.key.cacheKey).Hears rx heard) :
  ∃ c', r.recvPoll i c rx = (c', .waitForDedup (heard.head?.elim (.parked rx) (.onUpdate rx))) ∧
    (c'.slot r.query.key.cacheKey).Hears rx heard.tail ∧ c'.cache = c.cache
  := by
  obtain ⟨st, hst, halive, hmissed, rfl⟩ := hheard
  obtain ⟨sender, hs, hlookup⟩ := Option.bind_eq_some_iff.mp hst
  have hs : c.subscribers.lookup r.query.key.cacheKey = some sender := hs
  have hpoll := Bus.recvPoll_of_open hlookup hmissed (ho sender hs).2 i
  simp only [recvPoll, hs]
  cases hq : st.queue with
  | nil =>
    rw [hq] at hpoll
    rw [hpoll]
    refine ⟨_, rfl, ⟨{ st with queue := [], waker := some i }, ?_, halive, hmissed, rfl⟩, rfl⟩
    simp [Slot.receiver, slot]
  | cons update rest =>
    rw [hq] at hpoll
    rw [hpoll]
    refine ⟨_, rfl, ⟨{ st with queue := rest }, ?_, halive, hmissed, ?_⟩, rfl⟩
    · simp [Slot.receiver, slot]
    · simp

end Run

end RsQuery
