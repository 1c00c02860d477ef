import RsQuery.Runs

/-!
# What reaches a waiting call

A call in `wait_for_dedup` is released by an update that says an error, by one that says
success or staleness while data of its type is cached, and by having missed updates.
What it has queued stays queued until it takes it, whatever the other steps do: each of
them sends the receivers of a key the updates `Sys.tells` lists and leaves data cached
where `Sys.leavesData` says so.
-/

namespace RsQuery

/-- Whether a waiting call returns on an update of this kind, given whether data of its
type is cached. -/
def QueryStateVariant.releases (data : Bool) : QueryStateVariant → Bool
  | .error => true
  | .success | .stale => data
  | .idle | .loading | .refetching => false

namespace Bus.RecvState

variable {st : RecvState QueryStateUpdate} {data : Bool}

/-- Taking what is queued ends the wait: updates were missed, or one of them releases. -/
def Releases (data : Bool) (st : RecvState QueryStateUpdate) : Prop :=
  (0 < st.missed ∧ st.queue ≠ []) ∨ ∃ u ∈ st.queue, u.stateVariant.releases data = true

instance : Decidable (st.Releases data) :=
  inferInstanceAs (Decidable (_ ∨ _))

/-- An update that is sent does not take away a release. -/
theorem Releases.push (h : st.Releases data) (capacity : Nat) (u : QueryStateUpdate) :
  (st.push capacity u).Releases data
  := by
  unfold RecvState.push
  split
  · apply h
  · split
    · left
      simp
    · obtain ⟨hm, hq⟩ | ⟨v, hv, hr⟩ := h
      · left
        use hm, by simp
      · right
        use v, List.mem_append_left _ hv

/-- An update that releases does so for every live receiver it is sent to. -/
theorem releases_push
    {u : QueryStateUpdate} (ha : st.alive = true) (hu : u.stateVariant.releases data = true)
    (capacity : Nat) :
  (st.push capacity u).Releases data
  := by
  right
  use u, mem_push ha

theorem alive_push (capacity : Nat) (u : QueryStateUpdate) :
  (st.push capacity u).alive = st.alive
  := by
  unfold RecvState.push
  split
  · rfl
  · split
    · rfl
    · rfl

/-- What `P` says of a receiver stays so when updates are sent to it, and becomes so with
those that are `good`. -/
structure Pushed (P : RecvState QueryStateUpdate → Prop) (good : QueryStateVariant → Prop) :
    Prop where
  push : ∀ {st : RecvState QueryStateUpdate}, P st → ∀ capacity u, P (st.push capacity u)
  good : ∀ {st : RecvState QueryStateUpdate} {u : QueryStateUpdate}, st.alive = true →
    good u.stateVariant → ∀ capacity, P (st.push capacity u)

theorem pushed_releases (data : Bool) :
  Pushed (Releases data) fun v => v.releases data = true
  := ⟨Releases.push, releases_push⟩

end Bus.RecvState

namespace Slot

variable {V : Type} {x x' x'' : Slot V} {own : Option Nat}
  {told told' : List QueryStateVariant}

/-- A receiver of the slot's channel. -/
def receiver (x : Slot V) (rx : Nat) : Option (Bus.RecvState QueryStateUpdate) :=
  x.sender.bind fun sender => sender.receivers.lookup rx

/-- The id of the channel's next receiver. -/
def nextRx (x : Slot V) : Nat :=
  (x.sender.map Bus.Shared.nextId).getD 0

/-- The receiver is a live one of the slot's channel. -/
def Attached (x : Slot V) (rx : Nat) : Prop :=
  rx < x.nextRx ∧ ∃ st ∈ x.receiver rx, st.alive = true

/-- What the receiver has queued ends the wait. -/
def Releases (x : Slot V) (data : Bool) (rx : Nat) : Prop :=
  ∃ st ∈ x.receiver rx, st.Releases data

instance (data : Bool) (rx : Nat) : Decidable (x.Releases data rx) :=
  inferInstanceAs (Decidable (∃ st ∈ _, _))

/-! ### What happens on a channel -/

/-- The slot after one of its receivers is dropped. -/
def detach (rx : Nat) (x : Slot V) : Slot V :=
  { x with sender := x.sender.map fun sender => Bus.dropReceiver sender rx }

/-- The slot after one of its receivers is polled by the task `waker` wakes. -/
def poll (rx : Nat) (waker : Waker) (x : Slot V) : Slot V :=
  { x with sender := x.sender.map fun sender => (Bus.recvPoll sender rx waker).1 }

/-- A relation between the slots before and after that what happens on a channel keeps to:
`own` is the receiver that is concerned, and the updates are those that are sent. -/
structure Traces (R : Option Nat → List QueryStateVariant → Slot V → Slot V → Prop) : Prop where
  of_sender : ∀ {own x x'}, x'.sender = x.sender → R own [] x x'
  notify : ∀ {own} x (update : QueryStateUpdate), R own [update.stateVariant] x (x.notify update)
  subscribe : ∀ {own} x, R own [] x x.subscribe
  detach : ∀ x rx, R (some rx) [] x (x.detach rx)
  poll : ∀ x rx waker, R (some rx) [] x (x.poll rx waker)
  trans : ∀ {own told told' x x' x''}, R own told x x' → R own told' x' x'' →
    R own (told ++ told') x x''

/-- The receivers but for `own` stay attached, and keep what `P` says of them or get it with
what is told. -/
structure Carries (P : Bus.RecvState QueryStateUpdate → Prop) (good : QueryStateVariant → Prop)
    (own : Option Nat) (told : List QueryStateVariant) (x x' : Slot V) : Prop where
  nextRx : x.nextRx ≤ x'.nextRx
  attached : ∀ rx, own ≠ some rx → x.Attached rx → x'.Attached rx
  carried : ∀ rx, own ≠ some rx → x.Attached rx →
    ((∃ st ∈ x.receiver rx, P st) ∨ ∃ v ∈ told, good v) → ∃ st ∈ x'.receiver rx, P st

section Carries

variable {P : Bus.RecvState QueryStateUpdate → Prop} {good : QueryStateVariant → Prop}

/-- Nothing happens where the channel is as it was. -/
theorem Carries.of_sender (h : x'.sender = x.sender) :
  Carries P good own [] x x'
  := by
  have hrx (rx : Nat) : x'.receiver rx = x.receiver rx := by rw [receiver, receiver, h]
  have hnext : x'.nextRx = x.nextRx := by rw [Slot.nextRx, Slot.nextRx, h]
  constructor
  · rw [hnext]
  · intro rx _ ha
    rwa [Attached, hrx, hnext]
  · intro rx _ _ hr
    rw [hrx]
    obtain hr | ⟨v, hv, -⟩ := hr
    · apply hr
    · contradiction

theorem Carries.trans
    (h : Carries P good own told x x') (h' : Carries P good own told' x' x'') :
  Carries P good own (told ++ told') x x''
  := by
  constructor
  · apply h.nextRx.trans h'.nextRx
  · exact fun rx hne ha => h'.attached rx hne (h.attached rx hne ha)
  · intro rx hne ha hr
    apply h'.carried rx hne (h.attached rx hne ha)
    obtain hr | ⟨v, hv, hr⟩ := hr
    · exact .inl (h.carried rx hne ha (.inl hr))
    · obtain hv | hv := List.mem_append.mp hv
      · exact .inl (h.carried rx hne ha (.inr ⟨v, hv, hr⟩))
      · exact .inr ⟨v, hv, hr⟩

/-- A notification reaches every receiver. -/
theorem carries_notify
    (hP : Bus.RecvState.Pushed P good) (x : Slot V) (update : QueryStateUpdate) :
  Carries P good own [update.stateVariant] x (x.notify update)
  := by
  have hrx (rx : Nat) : (x.notify update).receiver rx
      = x.sender.bind fun sender =>
          (sender.receivers.lookup rx).map (.push sender.capacity update) := by
    simp only [receiver, notify]
    cases x.sender with
    | none => rfl
    | some sender => simp
  have hnext : (x.notify update).nextRx = x.nextRx := by
    simp only [Slot.nextRx, notify]
    cases x.sender with
    | none => rfl
    | some sender => rfl
  constructor
  · rw [hnext]
  · rintro rx - ⟨hlt, st, hst, ha⟩
    obtain ⟨sender, hs, hst⟩ := Option.bind_eq_some_iff.mp hst
    refine ⟨by rwa [hnext], st.push sender.capacity update, ?_, by rwa [Bus.RecvState.alive_push]⟩
    rw [hrx, hs, Option.bind_some, hst]
    rfl
  · rintro rx - ⟨-, st, hst, ha⟩ hr
    obtain ⟨sender, hs, hst'⟩ := Option.bind_eq_some_iff.mp hst
    refine ⟨st.push sender.capacity update, ?_, ?_⟩
    · rw [hrx, hs, Option.bind_some, hst']
      rfl
    · obtain ⟨st', hst'', hr⟩ | ⟨v, hv, hr⟩ := hr
      · obtain rfl := Option.some.inj (hst.symm.trans hst'')
        apply hP.push hr
      · obtain rfl := List.mem_singleton.mp hv
        apply hP.good ha hr

/-- A subscription leaves the other receivers as they are. -/
theorem carries_subscribe (x : Slot V) :
  Carries P good own [] x x.subscribe
  := by
  have hrx (rx : Nat) (hlt : rx < x.nextRx) : x.subscribe.receiver rx = x.receiver rx := by
    simp only [receiver, subscribe, Slot.nextRx] at hlt ⊢
    cases hs : x.sender with
    | none => simp [hs] at hlt
    | some sender =>
      rw [hs] at hlt
      have hne : rx ≠ sender.nextId := Nat.ne_of_lt hlt
      simp [hne]
  have hnext : x.nextRx < x.subscribe.nextRx := by
    simp only [subscribe, Slot.nextRx]
    cases x.sender with
    | none => apply Nat.succ_pos
    | some sender => apply Nat.lt_succ_self
  constructor
  · apply hnext.le
  · rintro rx - ⟨hlt, ha⟩
    rw [← hrx rx hlt] at ha
    exact ⟨hlt.trans hnext, ha⟩
  · rintro rx - ⟨hlt, -⟩ hr
    rw [hrx rx hlt]
    obtain hr | ⟨v, hv, -⟩ := hr
    · apply hr
    · contradiction

/-- What concerns one receiver only leaves the others as they are. -/
theorem carries_of_others
    {f : Bus.Shared QueryStateUpdate → Bus.Shared QueryStateUpdate} {rx : Nat}
    (hs : x'.sender = x.sender.map f) (hnext : ∀ sender, (f sender).nextId = sender.nextId)
    (hf : ∀ sender rx', rx' ≠ rx → (f sender).receivers.lookup rx' = sender.receivers.lookup rx') :
  Carries P good (some rx) [] x x'
  := by
  have hrx (rx' : Nat) (hne : some rx ≠ some rx') : x'.receiver rx' = x.receiver rx' := by
    rw [receiver, receiver, hs]
    cases x.sender with
    | none => rfl
    | some sender =>
      apply hf
      rintro rfl
      apply hne rfl
  have hnextRx : x'.nextRx = x.nextRx := by
    rw [Slot.nextRx, Slot.nextRx, hs]
    cases x.sender with
    | none => rfl
    | some sender => apply hnext
  constructor
  · rw [hnextRx]
  · intro rx' hne ha
    rwa [Attached, hrx rx' hne, hnextRx]
  · intro rx' hne _ hr
    rw [hrx rx' hne]
    obtain hr | ⟨v, hv, -⟩ := hr
    · apply hr
    · contradiction

theorem carries_detach (x : Slot V) (rx : Nat) :
  Carries P good (some rx) [] x (x.detach rx)
  := carries_of_others rfl (fun _ => rfl) fun _ _ h => AList.lookup_erase_ne h

theorem carries_poll (x : Slot V) (rx : Nat) (waker : Waker) :
  Carries P good (some rx) [] x (x.poll rx waker)
  := by
  refine carries_of_others rfl (fun sender => ?_) fun sender rx' h => ?_
  · rw [Bus.recvPoll_fst]
    apply (Bus.pollState_lookup_ne (Nat.succ_ne_self rx) sender _).2
  · rw [Bus.recvPoll_fst]
    apply (Bus.pollState_lookup_ne h sender _).1

theorem carries_traces (hP : Bus.RecvState.Pushed P good) :
  Traces (Carries (V := V) P good)
  := ⟨Carries.of_sender, carries_notify hP, carries_subscribe, carries_detach, carries_poll,
    Carries.trans⟩

end Carries

/-! ### Releases -/

/-- The receivers but for `own` stay attached and keep their releases, and what is told
reaches them. -/
structure Feeds (own : Option Nat) (told : List QueryStateVariant) (x x' : Slot V) : Prop where
  nextRx : x.nextRx ≤ x'.nextRx
  attached : ∀ rx, own ≠ some rx → x.Attached rx → x'.Attached rx
  released : ∀ rx data, own ≠ some rx → x.Attached rx →
    (x.Releases data rx ∨ ∃ v ∈ told, v.releases data = true) → x'.Releases data rx

/-- Releases are carried, whether data is cached or not. -/
theorem feeds_iff :
  Feeds own told x x' ↔
    ∀ data, Carries (Bus.RecvState.Releases data) (fun v => v.releases data = true) own told x x'
  := by
  constructor
  · exact fun h data => ⟨h.nextRx, h.attached, fun rx => h.released rx data⟩
  · exact fun h => ⟨(h true).nextRx, (h true).attached, fun rx data => (h data).carried rx⟩

theorem feeds_traces :
  Traces (Feeds (V := V))
  := by
  have h (data : Bool) := carries_traces (V := V) (Bus.RecvState.pushed_releases data)
  constructor
  · exact fun hs => feeds_iff.mpr fun data => (h data).of_sender hs
  · exact fun x update => feeds_iff.mpr fun data => (h data).notify x update
  · exact fun x => feeds_iff.mpr fun data => (h data).subscribe x
  · exact fun x rx => feeds_iff.mpr fun data => (h data).detach x rx
  · exact fun x rx waker => feeds_iff.mpr fun data => (h data).poll x rx waker
  · exact fun hf hf' => feeds_iff.mpr fun data =>
      (h data).trans (feeds_iff.mp hf data) (feeds_iff.mp hf' data)

/-- Nothing happens where the channel is as it was. -/
theorem Feeds.of_sender (h : x'.sender = x.sender) :
  Feeds own [] x x'
  := feeds_traces.of_sender h

theorem Feeds.mono (h : Feeds own told x x') (hsub : told' ⊆ told) :
  Feeds own told' x x'
  := by
  constructor
  · apply h.nextRx
  · apply h.attached
  · intro rx data hne ha hr
    apply h.released rx data hne ha
    obtain hr | ⟨v, hv, hr⟩ := hr
    · exact .inl hr
    · exact .inr ⟨v, hsub hv, hr⟩

/-- A notification that comes with a change of entry or registration. -/
theorem feeds_of_notify (update : QueryStateUpdate) (h : x'.sender = (x.notify update).sender) :
  Feeds own [update.stateVariant] x x'
  := feeds_traces.trans (feeds_traces.notify x update) (Feeds.of_sender h)

theorem feeds_cancel (x : Slot V) (k : String) :
  Feeds own (if x.task.isSome then [.error] else []) x (x.cancel k)
  := by
  unfold cancel
  cases x.task with
  | none => apply Feeds.of_sender rfl
  | some task => exact feeds_of_notify ⟨k, .error⟩ rfl

theorem feeds_refresh (x : Slot V) (allows : CacheEntry V → Bool) (k : String) :
  Feeds own (if x.entry.any allows then [.stale] else []) x (x.refresh allows k)
  := by
  unfold refresh
  cases x.entry with
  | none => apply Feeds.of_sender rfl
  | some entry =>
    simp only [Option.any_some]
    split
    · exact feeds_of_notify ⟨k, .stale⟩ rfl
    · apply Feeds.of_sender rfl

theorem feeds_refetch (x : Slot V) (cancelRefetch isStale : Bool) (k : String) :
  Feeds own [] x (x.refetch cancelRefetch isStale k)
  := by
  unfold refetch
  split
  · apply Feeds.of_sender rfl
  · split
    · apply Feeds.of_sender rfl
    · apply (feeds_of_notify ⟨k, .loading⟩ _).mono (List.nil_subset _)
      cases cancelRefetch with
      | false => rfl
      | true => rfl

section Data

variable [PartialEqAny V]

/-- Whether data of the type is cached. -/
def hasData (T : TypeId) (x : Slot V) : Bool :=
  x.entry.any fun e => decide (e.typeId = T) && decide (typeOf e.data = T)

@[simp]
theorem hasData_notify (T : TypeId) (update : QueryStateUpdate) :
  (x.notify update).hasData T = x.hasData T
  := rfl

@[simp]
theorem hasData_withdraw (T : TypeId) :
  x.withdraw.hasData T = x.hasData T
  := rfl

@[simp]
theorem hasData_subscribe (T : TypeId) :
  x.subscribe.hasData T = x.hasData T
  := rfl

@[simp]
theorem hasData_evict (T : TypeId) :
  x.evict.hasData T = false
  := rfl

@[simp]
theorem hasData_markStale (T : TypeId) :
  x.markStale.hasData T = x.hasData T
  := by
  simp only [hasData, markStale]
  cases x.entry with
  | none => rfl
  | some entry => rfl

@[simp]
theorem hasData_invalidate (T : TypeId) (k : String) :
  (x.invalidate k).hasData T = x.hasData T
  := by
  unfold invalidate
  split
  · simp
  · simp

@[simp]
theorem hasData_cancel (T : TypeId) (k : String) :
  (x.cancel k).hasData T = x.hasData T
  := by
  unfold cancel
  split
  · simp
  · rfl

@[simp]
theorem hasData_drop (T : TypeId) (variant : QueryStateVariant) (k : String) :
  (x.drop variant k).hasData T = false
  := rfl

@[simp]
theorem hasData_triggerRefetch (T : TypeId) (k : String) :
  (x.triggerRefetch k).hasData T = x.hasData T
  := by
  simp [triggerRefetch]

@[simp]
theorem hasData_refetch (T : TypeId) (cancelRefetch isStale : Bool) (k : String) :
  (x.refetch cancelRefetch isStale k).hasData T = x.hasData T
  := by
  unfold refetch
  split
  · rfl
  · split
    · rfl
    · cases cancelRefetch with
      | false => simp
      | true => simp

@[simp]
theorem hasData_refresh (T : TypeId) (allows : CacheEntry V → Bool) (k : String) :
  (x.refresh allows k).hasData T = x.hasData T
  := by
  unfold refresh
  split
  · split
    · simp
    · rfl
  · rfl

end Data

end Slot

variable {V : Type} [PartialEqAny V]

open QueryClient

/-- The data a client stores is of the type of the data it is given. -/
theorem hasData_newEntry
    (x : Slot V) (c : QueryClient V) (now : Instant) (key : QueryKey) (data : V)
    (options : QueryOptions) (T : TypeId) :
  (x.store (c.newEntry now key data options)).hasData T = decide (typeOf data = T)
  := by
  have htype : typeOf (c.newEntry now key data options).data = typeOf data := by
    simp only [newEntry]
    cases c.cache.lookup key.cacheKey with
    | none => rfl
    | some entry =>
      simp only
      split
      · next h => apply (PartialEqAny.typeOf_eq_of_eqAny h.2.2).symm
      · rfl
  simp only [Slot.hasData, Slot.store, Option.any_some, htype]
  have htypeId : (c.newEntry now key data options).typeId = typeOf data := rfl
  rw [htypeId, Bool.and_self]

theorem cached_isSome (r : Run V) (c : QueryClient V) :
  (r.cached c).isSome = (c.slot r.query.key.cacheKey).hasData r.query.typeId
  := by
  simp only [Run.cached, getQueryData, Slot.hasData, slot, downcast]
  cases c.cache.lookup r.query.key.cacheKey with
  | none => rfl
  | some entry =>
    simp only [Option.any_some]
    split
    · next h => simp [h]
    · next h =>
      rw [not_not] at h
      split
      · next h' => simp [h, h']
      · next h' => simp [h']

namespace Call

/-- The releasing updates a call sends to the receivers of a key. -/
def tells (call : Call V) (now : Instant) (c : QueryClient V) (k : String) :
    List QueryStateVariant :=
  match call with
  | .setQueryData key _ _ => if k = key.cacheKey then [.success] else []
  | .invalidateQueries pattern => if k ∈ c.keysToInvalidate pattern then [.stale] else []
  | .cancelQuery key =>
    if k = key.cacheKey then if (c.inFlight.lookup k).isSome then [.error] else [] else []
  | .cancelQueries filters =>
    match c.matching now filters k with
    | some _ => if (c.inFlight.lookup k).isSome then [.error] else []
    | none => []
  | .removeQueries filters =>
    match c.matching now filters k with
    | some _ => [.error]
    | none => []
  | .refetchAllStale => if (c.cache.lookup k).any (allowsOnFocus now) then [.stale] else []
  | .handleReconnect => if (c.cache.lookup k).any (allowsOnReconnect now) then [.stale] else []
  | .notifySubscribers cacheKey variant => if k = cacheKey then [variant] else []
  | _ => []

/-- Whether a call leaves data of the type cached under a key. -/
def leavesData (call : Call V) (now : Instant) (c : QueryClient V) (k : String) (T : TypeId) :
    Bool :=
  match call with
  | .setQueryData key data _ =>
    if k = key.cacheKey then decide (typeOf data = T) else (c.slot k).hasData T
  | .clear => false
  | .gc => ((c.slot k).collect now).hasData T
  | .resetQueries filters | .removeQueries filters =>
    match c.matching now filters k with
    | some _ => false
    | none => (c.slot k).hasData T
  | _ => (c.slot k).hasData T

theorem hasData_apply
    (call : Call V) (now : Instant) (c : QueryClient V) (k : String) (T : TypeId) :
  ((call.apply now c).slot k).hasData T = call.leavesData now c k T
  := by
  rw [call.slot_apply]
  cases call with
  | setQueryData key data options =>
    simp only [onSlot, leavesData]
    split
    · rw [Slot.hasData_notify, hasData_newEntry]
    · rfl
  | invalidateQueries pattern =>
    simp only [onSlot, leavesData]
    split
    · simp
    · rfl
  | cancelQuery key =>
    simp only [onSlot, leavesData]
    split
    · simp
    · rfl
  | clear => rfl
  | gc => rfl
  | cancelQueries filters =>
    simp only [onSlot, leavesData]
    split
    · simp
    · rfl
  | resetQueries filters =>
    simp only [onSlot, leavesData]
    cases c.matching now filters k with
    | none => rfl
    | some m => rfl
  | removeQueries filters =>
    simp only [onSlot, leavesData]
    cases c.matching now filters k with
    | none => rfl
    | some m => rfl
  | invalidateQueriesFiltered filters =>
    simp only [onSlot, leavesData]
    split
    · split
      · simp
      · simp
    · rfl
  | refetchQueries filters opts =>
    simp only [onSlot, leavesData]
    split
    · simp
    · rfl
  | refetchAllStale => simp [onSlot, leavesData]
  | handleReconnect => simp [onSlot, leavesData]
  | setDefaultOptions options => rfl
  | setIsRestoring restoring => rfl
  | setOnline online => rfl
  | subscribe cacheKey =>
    simp only [onSlot, leavesData]
    split
    · simp
    · rfl
  | notifySubscribers cacheKey variant =>
    simp only [onSlot, leavesData]
    split
    · simp
    · rfl

theorem feeds_apply
    (call : Call V) (now : Instant) (c : QueryClient V) (k : String) (own : Option Nat) :
  Slot.Feeds own (call.tells now c k) (c.slot k) ((call.apply now c).slot k)
  := by
  have same (x : Slot V) : Slot.Feeds own [] x x := Slot.Feeds.of_sender rfl
  rw [call.slot_apply]
  cases call with
  | setQueryData key data options =>
    simp only [onSlot, tells]
    split
    · exact Slot.feeds_of_notify ⟨key.cacheKey, .success⟩ rfl
    · apply same
  | invalidateQueries pattern =>
    simp only [onSlot, tells]
    split
    · next hk =>
      have hentry : (c.slot k).entry.isSome = true :=
        AList.lookup_isSome.mpr (List.mem_of_mem_filter hk)
      unfold Slot.invalidate
      cases h : (c.slot k).entry with
      | none => simp [h] at hentry
      | some entry => exact Slot.feeds_of_notify ⟨k, .stale⟩ rfl
    · apply same
  | cancelQuery key =>
    simp only [onSlot, tells]
    split
    · apply Slot.feeds_cancel (c.slot k) key.cacheKey
    · apply same
  | clear => exact Slot.Feeds.of_sender rfl
  | gc => exact Slot.Feeds.of_sender rfl
  | cancelQueries filters =>
    simp only [onSlot, tells]
    cases c.matching now filters k with
    | none => apply same
    | some m => apply Slot.feeds_cancel (c.slot k) k
  | resetQueries filters =>
    simp only [onSlot, tells]
    cases c.matching now filters k with
    | none => apply same
    | some m =>
      have h : Slot.Feeds own [.loading] (c.slot k) ((c.slot k).drop .loading k) :=
        Slot.feeds_of_notify ⟨k, .loading⟩ rfl
      apply h.mono (List.nil_subset _)
  | removeQueries filters =>
    simp only [onSlot, tells]
    cases c.matching now filters k with
    | none => apply same
    | some m => exact Slot.feeds_of_notify ⟨k, .error⟩ rfl
  | invalidateQueriesFiltered filters =>
    simp only [onSlot, tells]
    cases c.matching now filters.filters k with
    | none => apply same
    | some m =>
      simp only
      split
      · have h : Slot.Feeds own [.loading] (c.slot k) ((c.slot k).markStale.triggerRefetch k) :=
          Slot.feeds_of_notify ⟨k, .loading⟩ rfl
        apply h.mono (List.nil_subset _)
      · exact Slot.Feeds.of_sender rfl
  | refetchQueries filters opts =>
    simp only [onSlot, tells]
    cases c.matching now filters k with
    | none => apply same
    | some m => apply Slot.feeds_refetch
  | refetchAllStale => apply Slot.feeds_refresh (c.slot k) (allowsOnFocus now) k
  | handleReconnect => apply Slot.feeds_refresh (c.slot k) (allowsOnReconnect now) k
  | setDefaultOptions options => apply same
  | setIsRestoring restoring => apply same
  | setOnline online => apply same
  | subscribe cacheKey =>
    simp only [onSlot, tells]
    split
    · apply Slot.feeds_traces.subscribe
    · apply same
  | notifySubscribers cacheKey variant =>
    simp only [onSlot, tells]
    split
    · apply Slot.feeds_traces.notify (c.slot k) ⟨cacheKey, variant⟩
    · apply same

end Call

/-- The receiver of a waiting call. -/
def WaitPc.rx : WaitPc V → Option Nat
  | .subscribe => none
  | .recheck rx | .judge rx _ | .receive rx | .parked rx | .received rx _ => some rx

omit [PartialEqAny V] in
/-- A subscription gives a new receiver, which is attached. -/
theorem QueryClient.attached_subscribe (c : QueryClient V) (k : String) :
  ((c.subscribe k).1.slot k).Attached (c.subscribe k).2 ∧ (c.slot k).nextRx ≤ (c.subscribe k).2
  := by
  have hslot : (c.subscribe k).1.slot k = (c.slot k).subscribe := by
    rw [slot_subscribe, if_pos rfl]
  rw [hslot]
  constructor
  · exact ⟨Nat.lt_succ_self _, .fresh, AList.lookup_insert _, rfl⟩
  · simp only [Slot.nextRx, slot, QueryClient.subscribe, Bus.subscribe]
    cases c.subscribers.lookup k with
    | none => apply Nat.zero_le
    | some sender => apply le_refl

namespace Slot.Traces

variable {R : Option Nat → List QueryStateVariant → Slot V → Slot V → Prop}
  {c c' : QueryClient V} {key : String} {rx : Nat}

omit [PartialEqAny V] in
/-- Dropping a receiver of one key's channel. -/
theorem dropReceiver
    (hR : Traces R)
    (hc : c'.subscribers
      = Table.adjust key (fun sender => Bus.dropReceiver sender rx) c.subscribers) (k : String) :
  R (if k = key then some rx else none) [] (c.slot k) (c'.slot k)
  := by
  split
  · next hk =>
    have hsender : (c'.slot k).sender = ((c.slot k).detach rx).sender := by
      simp [slot, Slot.detach, hc, hk]
    apply hR.trans (hR.detach _ rx) (hR.of_sender hsender)
  · next hk =>
    apply hR.of_sender
    simp [slot, hc, hk]

omit [PartialEqAny V] in
/-- A poll of a receiver of one key's channel. -/
theorem recvPoll
    (hR : Traces R) {sender : Bus.Shared QueryStateUpdate}
    (hs : c.subscribers.lookup key = some sender) {waker : Waker}
    (hc : c'.subscribers = c.subscribers.insert key (Bus.recvPoll sender rx waker).1)
    (k : String) :
  R (if k = key then some rx else none) [] (c.slot k) (c'.slot k)
  := by
  split
  · next hk =>
    have hsender : (c'.slot k).sender = ((c.slot k).poll rx waker).sender := by
      rw [hk]
      simp [slot, Slot.poll, hs, hc]
    apply hR.trans (hR.poll _ rx waker) (hR.of_sender hsender)
  · next hk =>
    apply hR.of_sender
    simp only [slot, hc]
    apply AList.lookup_insert_ne hk

end Slot.Traces

namespace Run

/-- The receiver an execution waits on. -/
def rx (r : Run V) : Option Nat :=
  match r.pc with
  | .waitForDedup w => w.rx
  | _ => none

/-- A receiver of the execution's key, seen from a key. -/
def ofKey (r : Run V) (k : String) (rx : Option Nat) : Option Nat :=
  if k = r.query.key.cacheKey then rx else none

/-- The updates the next step of an execution sends to the receivers of its key. -/
def notice (r : Run V) : List QueryStateVariant :=
  match r.pc with
  | .fetch .loading => [.loading]
  | .fetch .stored => [.success]
  | .fetch (.notifyError _) => [.error]
  | _ => []

/-- The updates the next step of an execution sends to the receivers of a key. -/
def tells (r : Run V) (k : String) : List QueryStateVariant :=
  if k = r.query.key.cacheKey then r.notice else []

/-- Whether the next step of an execution leaves data of the type cached under a key. -/
def leavesData (r : Run V) (c : QueryClient V) (k : String) (T : TypeId) : Bool :=
  match r.pc with
  | .fetch (.selected data) =>
    if k = r.query.key.cacheKey then decide (typeOf data = T) else (c.slot k).hasData T
  | _ => (c.slot k).hasData T

variable {r : Run V} {i : Nat} {now : Instant} {c c' : QueryClient V} {o : Outcome V} {pc : Pc V}

section Traces

variable {R : Option Nat → List QueryStateVariant → Slot V → Slot V → Prop}

theorem trace_dropReceiver
    (hR : Slot.Traces R) (r : Run V) (c : QueryClient V) (rx : Nat) (k : String) :
  R (r.ofKey k (some rx)) [] (c.slot k) ((r.dropReceiver c rx).slot k)
  := hR.dropReceiver rfl k

/-- A poll concerns one receiver of the key's channel. -/
theorem trace_insert_recvPoll
    (hR : Slot.Traces R) {sender : Bus.Shared QueryStateUpdate}
    (hs : c.subscribers.lookup r.query.key.cacheKey = some sender) (i rx : Nat)
    (hc : c'.subscribers
      = c.subscribers.insert r.query.key.cacheKey (Bus.recvPoll sender rx i).1) (k : String) :
  R (r.ofKey k (some rx)) [] (c.slot k) (c'.slot k)
  := hR.recvPoll hs hc k

/-- A step in `wait_for_dedup` concerns the execution's own receiver only. -/
theorem trace_advanceWait
    (hR : Slot.Traces R) (r : Run V) (i : Nat) (now : Instant) (c : QueryClient V)
    (w : WaitPc V) (k : String) :
  R (r.ofKey k w.rx) [] (c.slot k) ((r.advanceWait i now c w).1.slot k)
  := by
  have same (own : Option Nat) : R own [] (c.slot k) (c.slot k) := hR.of_sender rfl
  cases w with
  | subscribe =>
    simp only [advanceWait, slot_subscribe]
    split
    · apply hR.subscribe
    · apply same
  | recheck rx =>
    simp only [advanceWait]
    cases r.cached c with
    | none => apply same
    | some data => apply same
  | judge rx data => apply trace_dropReceiver hR
  | receive rx =>
    simp only [advanceWait, recvPoll]
    split
    · apply same
    · next sender hs =>
      split
      · apply trace_insert_recvPoll hR hs i rx rfl k
      · apply trace_insert_recvPoll hR hs i rx rfl k
      · apply hR.trans (trace_insert_recvPoll hR hs i rx rfl k) (trace_dropReceiver hR r _ rx k)
  | parked rx => apply same
  | received rx variant =>
    simp only [advanceWait]
    split
    all_goals first
      | apply trace_dropReceiver hR
      | apply same

theorem trace_resume
    (hR : Slot.Traces R) (r : Run V) (i : Nat) (c : QueryClient V) (pc : Pc V) (k : String)
    (own : Option Nat) :
  R own [] (c.slot k) ((r.resume i c pc).1.slot k)
  := by
  unfold resume
  split
  · apply hR.of_sender rfl
  · apply hR.of_sender rfl

/-- A notification of an execution reaches the receivers of its key. -/
theorem trace_notifySubscribers
    (hR : Slot.Traces R) (r : Run V) (c : QueryClient V) (variant : QueryStateVariant)
    (k : String) (own : Option Nat) :
  R own (if k = r.query.key.cacheKey then [variant] else []) (c.slot k)
    ((c.notifySubscribers r.query.key.cacheKey variant).slot k)
  := by
  rw [slot_notifySubscribers]
  split
  · apply hR.notify (c.slot k) ⟨r.query.key.cacheKey, variant⟩
  · apply hR.of_sender rfl

/-- A step of a fetch sends the receivers of its key what it tells. -/
theorem trace_advanceFetch
    (hR : Slot.Traces R) {cancelled : Bool} {f : FetchPc V}
    (h : r.advanceFetch i now c cancelled f o = some (c', pc)) (hr : r.pc = .fetch f)
    (k : String) (own : Option Nat) :
  R own (r.tells k) (c.slot k) (c'.slot k)
  := by
  have resumed {f' : FetchPc V} (h : r.resume i c (.fetch f') = (c', pc)) :
      R own [] (c.slot k) (c'.slot k) := by
    have htrace := trace_resume hR r i c (.fetch f') k own
    rwa [h] at htrace
  cases takes_of_advanceFetch h with
  | resumeFetch h | resumeWait h | resumeSleep h =>
    simp only [tells, notice, hr, ite_self]
    apply resumed h
  | loading | stored | notifyError =>
    simp only [tells, notice, hr]
    apply trace_notifySubscribers hR
  | _ =>
    simp only [tells, notice, hr, ite_self]
    exact hR.of_sender rfl

/-- A step of an execution concerns its own receiver, and sends the receivers of its key
what it tells. -/
theorem trace_advance
    (hR : Slot.Traces R) (h : r.advance i now c o = some (c', pc)) (k : String) :
  R (r.ofKey k r.rx) (r.tells k) (c.slot k) (c'.slot k)
  := by
  cases takes_of_advance h with
  | poll hr h =>
    have htrace := trace_resume hR r i c .start k (r.ofKey k r.rx)
    rw [h] at htrace
    simpa only [tells, notice, hr, ite_self] using htrace
  | @wait w _ _ hr h =>
    have htrace := trace_advanceWait hR r i now c w k
    rw [h] at htrace
    simpa only [tells, notice, rx, hr, ite_self] using htrace
  | fetch hr h => apply trace_advanceFetch hR h hr
  | restoring hr _ | task hr _ _ | direct hr _ _ | join hr _ | alone hr _ | deregister hr _
  | finish hr _ | reply hr =>
    simp only [tells, notice, hr, ite_self]
    exact hR.of_sender rfl

end Traces

/-- What is cached after a step of an execution. -/
theorem hasData_advance (h : r.advance i now c o = some (c', pc)) (k : String) (T : TypeId) :
  (c'.slot k).hasData T = r.leavesData c k T
  := by
  obtain ⟨data, hpc, rfl, -⟩ | ⟨hstore, hcache⟩ := advance_stores h
  · simp only [leavesData, hpc, slot_storeQueryData]
    split
    · apply hasData_newEntry
    · rfl
  · have hsame : (c'.slot k).hasData T = (c.slot k).hasData T := by
      simp only [Slot.hasData, slot, hcache]
    rw [hsame, leavesData]
    split
    · next data hpc => exact absurd hpc (hstore data)
    · rfl

end Run

end RsQuery
