import RsQuery.Observing
import RsQuery.Stranded

/-!
# Changes that are told

Whoever follows the state of a key reads it again when the subscribers of the key are
notified.  A step that changes what is read of a key notifies them, or stores the data of a
fetch that notifies them next, or it is one of the calls that change the cache silently:
`clear`, `gc`, and an `invalidate_queries_filtered` whose refetch type leaves the query out.
-/

namespace RsQuery

/-- What the state of a key is read from. -/
structure EntryView (V : Type) where
  data : V
  typeId : TypeId
  fetchedAt : Instant
  staleTime : Duration
  isStale : Bool
deriving DecidableEq

variable {V : Type}

/-- What is read of an entry. -/
def CacheEntry.view (e : CacheEntry V) : EntryView V :=
  ⟨e.data, e.typeId, e.fetchedAt, e.options.staleTime, e.isStale⟩

/-- What is read of a slot. -/
def Slot.view (x : Slot V) : Option (EntryView V) :=
  x.entry.map CacheEntry.view

/-- What is read under a cache key. -/
def QueryClient.view (c : QueryClient V) (k : String) : Option (EntryView V) :=
  (c.slot k).view

theorem QueryClient.view_congr {c c' : QueryClient V} (h : c'.cache = c.cache) (k : String) :
  c'.view k = c.view k
  := by
  simp only [view, Slot.view, slot, h]

/-! ### What is read -/

namespace QueryClient

variable {c c' : QueryClient V} {key : QueryKey}

theorem isStale_eq_view (c : QueryClient V) (now : Instant) (key : QueryKey) :
  c.isStale now key
    = (c.view key.cacheKey).any fun v =>
        decide (v.staleTime ≠ 0 ∧ Instant.elapsed now v.fetchedAt > v.staleTime) || v.isStale
  := by
  simp only [isStale, view, Slot.view, slot]
  cases c.cache.lookup key.cacheKey with
  | none => rfl
  | some entry => rfl

theorem isStale_congr (h : c'.view key.cacheKey = c.view key.cacheKey) (now : Instant) :
  c'.isStale now key = c.isStale now key
  := by
  rw [isStale_eq_view, isStale_eq_view, h]

theorem getQueryData_eq_view [PartialEqAny V] (c : QueryClient V) (key : QueryKey) (T : TypeId) :
  c.getQueryData key T
    = (c.view key.cacheKey).bind fun v => if v.typeId ≠ T then none else downcast T v.data
  := by
  simp only [getQueryData, view, Slot.view, slot]
  cases c.cache.lookup key.cacheKey with
  | none => rfl
  | some entry => rfl

theorem getQueryData_congr [PartialEqAny V] (h : c'.view key.cacheKey = c.view key.cacheKey)
    (T : TypeId) :
  c'.getQueryData key T = c.getQueryData key T
  := by
  rw [getQueryData_eq_view, getQueryData_eq_view, h]

end QueryClient

/-! ### Receivers with something to receive -/

namespace Bus.RecvState

/-- Something is queued, or was missed. -/
def Stirred (st : RecvState QueryStateUpdate) : Prop :=
  0 < st.missed ∨ st.queue ≠ []

instance (st : RecvState QueryStateUpdate) : Decidable st.Stirred :=
  inferInstanceAs (Decidable (_ ∨ _))

theorem pushed_stirred :
  Pushed Stirred fun _ => True
  := by
  constructor
  · intro st h capacity u
    unfold push
    split
    · apply h
    · split
      · right
        simp
      · right
        simp
  · intro st u ha _ capacity
    right
    apply List.ne_nil_of_mem (mem_push ha)

end Bus.RecvState

namespace Slot

/-- The receiver has something to receive. -/
def Stirred (x : Slot V) (rx : Nat) : Prop :=
  ∃ st ∈ x.receiver rx, st.Stirred

instance (x : Slot V) (rx : Nat) : Decidable (x.Stirred rx) :=
  inferInstanceAs (Decidable (∃ st ∈ _, _))

/-- The receivers but for `own` stay attached and stirred, and what is told stirs them. -/
abbrev Stirs (own : Option Nat) (told : List QueryStateVariant) (x x' : Slot V) : Prop :=
  Carries Bus.RecvState.Stirred (fun _ => True) own told x x'

theorem stirs_traces :
  Traces (Stirs (V := V))
  := carries_traces Bus.RecvState.pushed_stirred

/-- What concerns no receiver leaves all but one as it leaves all. -/
theorem Carries.of_none {P : Bus.RecvState QueryStateUpdate → Prop} {good : QueryStateVariant → Prop}
    {x x' : Slot V} {told : List QueryStateVariant} (h : Carries P good none told x x')
    (own : Option Nat) :
  Carries P good own told x x'
  := ⟨h.nextRx, fun rx _ => h.attached rx nofun, fun rx _ => h.carried rx nofun⟩

/-- A receiver that is not concerned stays stirred. -/
theorem Carries.stirred {x x' : Slot V} {own : Option Nat} {told : List QueryStateVariant}
    {rx : Nat} (h : Stirs own told x x') (hne : own ≠ some rx) (ha : x.Attached rx)
    (hs : x.Stirred rx ∨ told ≠ []) :
  x'.Stirred rx
  := by
  apply h.carried rx hne ha
  obtain hs | hs := hs
  · left
    apply hs
  · right
    obtain ⟨v, hv⟩ := List.exists_mem_of_ne_nil told hs
    use v, hv

end Slot

/-! ### Calls -/

section Tells

variable {R : Option Nat → List QueryStateVariant → Slot V → Slot V → Prop} {x x' : Slot V}
  {silent : Prop}

/-- Receivers are told of what changes, unless it changes silently. -/
def Slot.Tells (R : Option Nat → List QueryStateVariant → Slot V → Slot V → Prop)
    (silent : Prop) (x x' : Slot V) : Prop :=
  ∃ told, R none told x x' ∧ (told = [] → x'.view = x.view ∨ silent)

theorem Slot.Traces.tells_of_view (hR : Traces R) (hs : x'.sender = x.sender)
    (hv : x'.view = x.view) :
  Tells R silent x x'
  := ⟨[], hR.of_sender hs, fun _ => .inl hv⟩

theorem Slot.Traces.tells_of_silent (hR : Traces R) (hs : x'.sender = x.sender) (h : silent) :
  Tells R silent x x'
  := ⟨[], hR.of_sender hs, fun _ => .inr h⟩

theorem Slot.Traces.tells_of_notify (hR : Traces R) (update : QueryStateUpdate)
    (hs : x'.sender = (x.notify update).sender) :
  Tells R silent x x'
  := ⟨_, hR.trans (hR.notify x update) (hR.of_sender hs), nofun⟩

theorem Slot.Traces.tells_cancel (hR : Traces R) (k : String) (x : Slot V) :
  Tells R silent x (x.cancel k)
  := by
  unfold cancel
  split
  · exact hR.tells_of_notify ⟨k, .error⟩ rfl
  · apply hR.tells_of_view rfl rfl

theorem Slot.Traces.tells_refresh
    (hR : Traces R) (allows : CacheEntry V → Bool) (k : String) (x : Slot V) :
  Tells R silent x (x.refresh allows k)
  := by
  unfold refresh
  split
  · split
    · exact hR.tells_of_notify ⟨k, .stale⟩ rfl
    · apply hR.tells_of_view rfl rfl
  · apply hR.tells_of_view rfl rfl

theorem Slot.Traces.tells_refetch
    (hR : Traces R) (cancelRefetch isStale : Bool) (k : String) (x : Slot V) :
  Tells R silent x (x.refetch cancelRefetch isStale k)
  := by
  unfold refetch
  split
  · apply hR.tells_of_view rfl rfl
  · split
    · apply hR.tells_of_view rfl rfl
    · apply hR.tells_of_notify ⟨k, .loading⟩
      cases cancelRefetch with
      | false => rfl
      | true => rfl

end Tells

variable [PartialEqAny V]

namespace Call

/-- A call changes what is read of a key without a notification. -/
def Silent (call : Call V) (now : Instant) (c : QueryClient V) (k : String) : Prop :=
  match call with
  | .clear => (c.cache.lookup k).isSome = true
  | .gc => ∃ entry ∈ c.cache.lookup k,
      ¬ Instant.elapsed now entry.lastAccessed < entry.options.gcTime
  | .invalidateQueriesFiltered filters =>
    ∃ m ∈ c.matching now filters.filters k,
      QueryClient.shouldRefetch filters.refetchType m = false ∧
        ∃ entry ∈ c.cache.lookup k, entry.isStale = false
  | _ => False

instance (call : Call V) (now : Instant) (c : QueryClient V) (k : String) :
    Decidable (call.Silent now c k) := by
  unfold Silent
  rcases call with _ | _ <;> infer_instance

/-- A call tells the receivers of a key of what it changes, or is silent. -/
theorem tells_apply
    {R : Option Nat → List QueryStateVariant → Slot V → Slot V → Prop} (hR : Slot.Traces R)
    (call : Call V) (now : Instant) (c : QueryClient V) (k : String) :
  Slot.Tells R (call.Silent now c k) (c.slot k) ((call.apply now c).slot k)
  := by
  have hslot : (c.slot k).entry = c.cache.lookup k := rfl
  have same : Slot.Tells R (call.Silent now c k) (c.slot k) (c.slot k) :=
    hR.tells_of_view rfl rfl
  rw [call.slot_apply]
  cases call with
  | setQueryData key data options =>
    simp only [onSlot]
    split
    · exact hR.tells_of_notify ⟨key.cacheKey, .success⟩ rfl
    · apply same
  | invalidateQueries pattern =>
    simp only [onSlot]
    split
    · unfold Slot.invalidate
      split
      · exact hR.tells_of_notify ⟨k, .stale⟩ rfl
      · exact hR.tells_of_view rfl rfl
    · apply same
  | cancelQuery key =>
    simp only [onSlot]
    split
    · apply hR.tells_cancel
    · apply same
  | clear =>
    cases hentry : c.cache.lookup k with
    | none =>
      refine hR.tells_of_view rfl ?_
      simp only [onSlot, Slot.view, Slot.evict, Slot.withdraw, hslot, hentry]
    | some entry =>
      refine hR.tells_of_silent rfl ?_
      simp [Silent, hentry]
  | gc =>
    cases hentry : c.cache.lookup k with
    | none =>
      refine hR.tells_of_view rfl ?_
      simp [onSlot, Slot.view, Slot.collect, hslot, hentry]
    | some entry =>
      by_cases hage : Instant.elapsed now entry.lastAccessed < entry.options.gcTime
      · refine hR.tells_of_view rfl ?_
        simp [onSlot, Slot.view, Slot.collect, hslot, hentry, hage, Option.filter]
      · refine hR.tells_of_silent rfl ?_
        simpa [Silent, hentry] using hage
  | cancelQueries filters =>
    simp only [onSlot]
    split
    · apply hR.tells_cancel
    · apply same
  | resetQueries filters =>
    simp only [onSlot]
    split
    · exact hR.tells_of_notify ⟨k, .loading⟩ rfl
    · apply same
  | removeQueries filters =>
    simp only [onSlot]
    split
    · exact hR.tells_of_notify ⟨k, .error⟩ rfl
    · apply same
  | invalidateQueriesFiltered filters =>
    simp only [onSlot]
    cases hm : c.matching now filters.filters k with
    | none => apply same
    | some m =>
      simp only
      split
      · exact hR.tells_of_notify ⟨k, .loading⟩ rfl
      · next hrefetch =>
        cases hentry : c.cache.lookup k with
        | none =>
          refine hR.tells_of_view rfl ?_
          simp [Slot.view, Slot.markStale, hslot, hentry]
        | some entry =>
          cases hstale : entry.isStale with
          | false =>
            refine hR.tells_of_silent rfl ?_
            simpa [Silent, hm, hentry, hstale] using hrefetch
          | true =>
            refine hR.tells_of_view rfl ?_
            simp [Slot.view, Slot.markStale, hslot, hentry, CacheEntry.view, hstale]
  | refetchQueries filters opts =>
    simp only [onSlot]
    split
    · apply hR.tells_refetch
    · apply same
  | refetchAllStale => apply hR.tells_refresh
  | handleReconnect => apply hR.tells_refresh
  | setDefaultOptions options => apply same
  | setIsRestoring restoring => apply same
  | setOnline online => apply same
  | subscribe cacheKey =>
    simp only [onSlot]
    split
    · exact ⟨[], hR.subscribe _, fun _ => .inl rfl⟩
    · apply same
  | notifySubscribers cacheKey variant =>
    simp only [onSlot]
    split
    · apply hR.tells_of_notify ⟨cacheKey, variant⟩ rfl
    · apply same

end Call

/-! ### Steps -/

namespace Sys

variable {s s' : Sys V} {a : Action V} {k : String}

/-- A fetch of the key has stored its data and is to notify. -/
def Announces (s : Sys V) (k : String) : Prop :=
  ∃ i r, s.runs.lookup i = some r ∧ (r.query.key.cacheKey = k ∧ r.HasStored)

instance (s : Sys V) (k : String) : Decidable (s.Announces k) :=
  inferInstanceAs (Decidable (∃ i r, s.runs.lookup i = some r ∧ _))

/-- A step changes what is read of a key without a notification. -/
def Silent (s : Sys V) (a : Action V) (k : String) : Prop :=
  match a with
  | .call call => call.Silent s.now s.client k
  | _ => False

instance (s : Sys V) (a : Action V) (k : String) : Decidable (s.Silent a k) := by
  unfold Silent
  rcases a with _ | _ <;> infer_instance

/-- On the way from `s` to `s'` the receivers but for the `own` ones are told of what
changes, or a fetch is to tell them, unless it changes silently. -/
structure Informs (own : String → Option Nat) (silent : String → Prop) (s s' : Sys V) : Prop where
  now : s.now ≤ s'.now
  told : ∀ k, ∃ told, Slot.Stirs (own k) told (s.client.slot k) (s'.client.slot k) ∧
    (told = [] → (s.Announces k → s'.Announces k) ∧
      (s'.client.view k = s.client.view k ∨ s'.Announces k ∨ silent k))

/-- A fetch goes on to notify until it does. -/
theorem Announces.step
    (h : s.Announces k) (hsane : s.Sane) (hs : s.step a = some s') (ht : s.tells a k = []) :
  s'.Announces k
  := by
  obtain ⟨i, r, hr, hkey, hstored⟩ := h
  have hpc : r.pc = .fetch .stored := by
    unfold Run.HasStored at hstored
    split at hstored
    · next hpc => apply hpc
    · contradiction
  have ha : ¬ a.Moves i := by
    intro ha
    cases a with
    | advance j o =>
      obtain rfl : j = i := ha
      simp [tells, hr, Run.tells, hkey, Run.notice, hpc] at ht
    | dropFuture j =>
      obtain rfl : j = i := ha
      obtain ⟨q, c, hq, -, hc, -⟩ := step_dropFuture hs
      obtain rfl := Option.some.inj (hr.symm.trans hq)
      simp [Run.dropFuture, hpc] at hc
    | _ => contradiction
  obtain ⟨r', hr', hstays⟩ := hsane.stays_step hs hr ha
  refine ⟨i, r', hr', by rw [hstays.query, hkey], ?_⟩
  rw [Run.HasStored, hstays.pc, hpc]
  trivial

/-- An advance leaves what is read of a key, or is that of a fetch that is to notify
next. -/
theorem view_advance {i : Nat} {o : Outcome V} (hs : s.step (.advance i o) = some s') :
  s'.client.view k = s.client.view k ∨ s'.Announces k
  := by
  obtain ⟨r, c, pc, hr, ha, rfl⟩ := step_advance hs
  obtain ⟨data, -, rfl, rfl⟩ | ⟨-, hcache⟩ := Run.advance_stores ha
  · by_cases hkey : r.query.key.cacheKey = k
    · right
      exact ⟨i, _, AList.lookup_insert _, hkey, trivial⟩
    · left
      have hlookup : (s.client.storeQueryData s.now r.query.key data r.query.options).cache.lookup k
          = s.client.cache.lookup k := AList.lookup_insert_ne (Ne.symm hkey)
      simp only [QueryClient.view, Slot.view, QueryClient.slot, hlookup]
  · left
    apply QueryClient.view_congr hcache

/-- A step that is no call leaves what is read of a key, or is that of a fetch that is to
notify next. -/
theorem view_step (hs : s.step a = some s') (hcall : ∀ call, a ≠ .call call) (k : String) :
  s'.client.view k = s.client.view k ∨ s'.Announces k
  := by
  cases a with
  | advance i o => apply view_advance hs
  | call call => exact absurd rfl (hcall call)
  | spawn query =>
    obtain rfl := Option.some.inj hs
    exact .inl (QueryClient.view_congr (s.cache_spawn query) k)
  | register i =>
    obtain ⟨r, -, -, -, rfl⟩ := step_register hs
    exact .inl rfl
  | execute query =>
    obtain rfl := Option.some.inj hs
    exact .inl rfl
  | abort i =>
    obtain ⟨r, -, -, -, rfl⟩ := step_abort hs
    exact .inl rfl
  | detach i =>
    obtain ⟨r, -, -, rfl⟩ := step_detach hs
    exact .inl rfl
  | drop i =>
    obtain ⟨r, -, -, -, rfl⟩ := step_drop hs
    split
    · exact .inl rfl
    · exact .inl rfl
  | dropFuture i =>
    obtain ⟨r, c, -, -, hc, rfl⟩ := step_dropFuture hs
    exact .inl (QueryClient.view_congr (cache_dropFuture hc) k)
  | cancelToken i =>
    obtain ⟨r, -, -, rfl⟩ := step_cancelToken hs
    exact .inl rfl
  | tick n =>
    obtain rfl := Option.some.inj hs
    exact .inl rfl

theorem informs_step (hsane : s.Sane) (hs : s.step a = some s') :
  Informs (s.own a) (s.Silent a) s s'
  := by
  use now_le_of_step hs
  intro k
  by_cases hcall : ∃ call, a = .call call
  · obtain ⟨call, rfl⟩ := hcall
    obtain rfl := Option.some.inj hs
    obtain ⟨told, hstirs, hview⟩ := call.tells_apply Slot.stirs_traces s.now s.client k
    refine ⟨told, hstirs, fun ht => ⟨id, ?_⟩⟩
    obtain hv | hsilent := hview ht
    · exact .inl hv
    · exact .inr (.inr hsilent)
  · have hcall (call : Call V) : a ≠ .call call := fun ha => hcall ⟨call, ha⟩
    use s.tells a k
    constructor
    · apply trace_step Slot.stirs_traces hs
      exact fun call ha => absurd ha (hcall call)
    · intro ht
      use fun h => h.step hsane hs ht
      obtain hv | ha := view_step hs hcall k
      · exact .inl hv
      · exact .inr (.inl ha)

theorem own_eq_none (h : ∀ i, ¬ a.Moves i) (k : String) :
  s.own a k = none
  := by
  cases a with
  | advance i o => exact absurd rfl (h i)
  | dropFuture i => exact absurd rfl (h i)
  | _ => rfl

/-- The receiver a step concerns is that of a run of the key. -/
theorem exists_of_own {rx : Nat} (h : s.own a k = some rx) :
  ∃ i r, s.runs.lookup i = some r ∧ r.query.key.cacheKey = k ∧ rx ∈ r.rx
  := by
  have run (i : Nat) (h : ((s.runs.lookup i).bind fun r => r.ofKey k r.rx) = some rx) :
      ∃ i r, s.runs.lookup i = some r ∧ r.query.key.cacheKey = k ∧ rx ∈ r.rx := by
    obtain ⟨r, hr, h⟩ := Option.bind_eq_some_iff.mp h
    unfold Run.ofKey at h
    split at h
    · next hkey => exact ⟨i, r, hr, hkey.symm, h⟩
    · contradiction
  cases a with
  | advance i o => apply run i h
  | dropFuture i => apply run i h
  | _ => contradiction

/-- A step that moves no run and changes nothing silently informs all receivers. -/
theorem informs_of_plain (hsane : s.Sane) (hs : s.step a = some s') (hm : ∀ i, ¬ a.Moves i)
    (hq : ∀ k, ¬ s.Silent a k) (own : String → Option Nat) :
  Informs own (fun _ => False) s s'
  := by
  have h := informs_step hsane hs
  use h.now
  intro k
  obtain ⟨told, hstirs, htold⟩ := h.told k
  rw [own_eq_none hm] at hstirs
  refine ⟨told, hstirs.of_none (own k), fun ht => ?_⟩
  obtain ⟨hann, hview⟩ := htold ht
  use hann
  obtain hv | ha | hsilent := hview
  · exact .inl hv
  · exact .inr (.inl ha)
  · exact absurd hsilent (hq k)

/-- What concerns channels only, and receivers there only that are `own` ones. -/
theorem informs_of_channels
    {own : String → Option Nat} {subs : Table String (Bus.Shared QueryStateUpdate)}
    (h : ∀ k, Slot.Stirs (own k) [] (s.client.slot k)
      (({ s.client with subscribers := subs } : QueryClient V).slot k)) :
  Informs own (fun _ => False) s { s with client.subscribers := subs }
  := by
  use Nat.le_refl _
  intro k
  exact ⟨[], h k, fun _ => ⟨id, .inl rfl⟩⟩

/-- Sanity does not depend on the channels. -/
theorem Sane.channels (h : s.Sane) (subs : Table String (Bus.Shared QueryStateUpdate)) :
  Sane { s with client.subscribers := subs }
  := ⟨h.numbered, h.registered, h.signalled⟩

/-- The receivers of waiting calls stay where they are, when other receivers are concerned. -/
theorem Wired.channels
    {own : String → Option Nat} {subs : Table String (Bus.Shared QueryStateUpdate)} (hw : s.Wired)
    (h : ∀ k, Slot.Stirs (own k) [] (s.client.slot k)
      (({ s.client with subscribers := subs } : QueryClient V).slot k))
    (hne : ∀ j r, s.runs.lookup j = some r → ∀ rx ∈ r.rx, own r.query.key.cacheKey ≠ some rx) :
  Wired { s with client.subscribers := subs }
  := by
  constructor
  · intro j r hr rx hrx
    apply (h _).attached rx (hne j r hr rx hrx) (hw.attached j r hr rx hrx)
  · apply hw.distinct

/-- A receiver of a key that is not concerned: it is stirred, or a fetch is to notify it,
if that was so before, and unless what is read of the key is as it was or changes
silently. -/
theorem Informs.due {own : String → Option Nat} {silent : String → Prop} {rx : Nat}
    (h : Informs own silent s s') (hne : own k ≠ some rx) (ha : (s.client.slot k).Attached rx) :
  ((s.client.slot k).Stirred rx ∨ s.Announces k →
    (s'.client.slot k).Stirred rx ∨ s'.Announces k) ∧
  ((s'.client.slot k).Stirred rx ∨ s'.Announces k ∨
    s'.client.view k = s.client.view k ∨ silent k)
  := by
  obtain ⟨told, hstirs, htold⟩ := h.told k
  by_cases ht : told = []
  · obtain ⟨hann, hview⟩ := htold ht
    constructor
    · rintro (hst | hst)
      · exact .inl (hstirs.stirred hne ha (.inl hst))
      · exact .inr (hann hst)
    · right
      obtain hv | hann' | hsilent := hview
      · exact .inr (.inl hv)
      · exact .inl hann'
      · exact .inr (.inr hsilent)
  · have hst := hstirs.stirred hne ha (.inr ht)
    exact ⟨fun _ => .inl hst, .inl hst⟩

end Sys

end RsQuery
