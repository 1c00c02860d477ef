import Mathlib.Data.List.TakeWhile
import RsQuery.Observing
import RsQuery.Runs

/-!
# Each key is a register

Whatever executions and calls do in whatever order, what is cached under a key is what was
last written under it, or nothing if it was removed since.  Where data is shared it may be
earlier data in the place of equal data, which was written under the key as well.

What an execution returns was read from the cache.  So it was written under the key of the
query, and it is of the type of the query, although executions of queries of other types
may write under the same key.
-/

namespace RsQuery

variable {V : Type}

open QueryClient

/-! ### What is held under a key -/

namespace Slot

/-- The type and the data of the entry. -/
def held (x : Slot V) : Option (TypeId × V) :=
  x.entry.map fun e => (e.typeId, e.data)

variable (x : Slot V)

@[simp]
theorem held_withdraw :
  x.withdraw.held = x.held
  := rfl

@[simp]
theorem held_notify (update : QueryStateUpdate) :
  (x.notify update).held = x.held
  := rfl

@[simp]
theorem held_subscribe :
  x.subscribe.held = x.held
  := rfl

@[simp]
theorem held_markStale :
  x.markStale.held = x.held
  := by
  simp only [held, markStale, Option.map_map]
  rfl

@[simp]
theorem held_drop (variant : QueryStateVariant) (k : String) :
  (x.drop variant k).held = none
  := rfl

@[simp]
theorem held_triggerRefetch (k : String) :
  (x.triggerRefetch k).held = x.held
  := by
  simp only [triggerRefetch, held_notify, held_markStale, held_withdraw]

@[simp]
theorem held_invalidate (k : String) :
  (x.invalidate k).held = x.held
  := by
  unfold invalidate
  split
  · simp only [held_notify, held_markStale, held_withdraw]
  · rfl

@[simp]
theorem held_cancel (k : String) :
  (x.cancel k).held = x.held
  := by
  unfold cancel
  split
  · rfl
  · rfl

@[simp]
theorem held_refetch (cancelRefetch isStale : Bool) (k : String) :
  (x.refetch cancelRefetch isStale k).held = x.held
  := by
  unfold refetch
  split
  · rfl
  · split
    · rfl
    · cases cancelRefetch with
      | false => apply held_markStale
      | true => apply held_markStale

@[simp]
theorem held_refresh (allows : CacheEntry V → Bool) (k : String) :
  (x.refresh allows k).held = x.held
  := by
  unfold refresh
  split
  · split
    · apply held_markStale
    · rfl
  · rfl

/-- A collection keeps the entry or removes it. -/
theorem held_collect (now : Instant) :
  (x.collect now).held =
    if x.entry.any fun e => e.options.gcTime ≤ Instant.elapsed now e.lastAccessed then none
    else x.held
  := by
  cases h : x.entry with
  | none => simp [held, collect, h]
  | some e =>
    by_cases hage : e.options.gcTime ≤ Instant.elapsed now e.lastAccessed
    · simp [held, collect, h, hage]
    · simp [held, collect, h, hage, Nat.lt_of_not_le hage]

end Slot

/-! ### What is written under a key -/

/-- What happens to the data under a key. -/
inductive Write (V : Type) where
  | stored (data : V)
  | removed

variable [PartialEqAny V]

/-- What a call writes under a key: a gc pass removes an entry not accessed for its gc time,
resets and removals the entries they match. -/
def Call.writes (call : Call V) (now : Instant) (c : QueryClient V) (k : String) :
    List (Write V) :=
  match call with
  | .setQueryData key data _ => if k = key.cacheKey then [.stored data] else []
  | .clear => [.removed]
  | .gc =>
    if (c.slot k).entry.any fun e => e.options.gcTime ≤ Instant.elapsed now e.lastAccessed then
      [.removed]
    else []
  | .resetQueries filters | .removeQueries filters =>
    if (c.matching now filters k).isSome then [.removed] else []
  | _ => []

/-- What the next step of an execution writes under a key. -/
def Run.writes (r : Run V) (k : String) : List (Write V) :=
  match r.pc with
  | .fetch (.selected data) => if k = r.query.key.cacheKey then [.stored data] else []
  | _ => []

/-- What is held under a key after a write: the data, or data equal to it of the entry that
was there. -/
def Write.Leaves (before after : Option (TypeId × V)) : Write V → Prop
  | .stored data => ∃ data', after = some (typeOf data, data') ∧ typeOf data' = typeOf data ∧
      (data' = data ∨ before = some (typeOf data, data') ∧ eqAny data data' = true)
  | .removed => after = none

/-- What is held under a key is as it was, or what a write left. -/
def Writes (writes : List (Write V)) (before after : Option (TypeId × V)) : Prop :=
  (writes = [] ∧ after = before) ∨ ∃ w, writes = [w] ∧ w.Leaves before after

theorem held_newEntry
    (c : QueryClient V) (now : Instant) (key : QueryKey) (data : V) (options : QueryOptions)
    (x : Slot V) :
  (Write.stored data).Leaves (c.slot key.cacheKey).held
    (x.store (c.newEntry now key data options)).held
  := by
  refine ⟨(c.newEntry now key data options).data, rfl, ?_⟩
  simp only [newEntry, Slot.held, slot]
  cases c.cache.lookup key.cacheKey with
  | none => exact ⟨rfl, .inl rfl⟩
  | some old =>
    simp only
    split
    · next h =>
      obtain ⟨-, htype, heq⟩ := h
      refine ⟨(PartialEqAny.typeOf_eq_of_eqAny heq).symm, .inr ⟨?_, heq⟩⟩
      rw [Option.map_some, htype]
    · exact ⟨rfl, .inl rfl⟩

/-- What a call leaves under a key. -/
theorem Call.writes_held (call : Call V) (now : Instant) (c : QueryClient V) (k : String) :
  Writes (call.writes now c k) (c.slot k).held ((call.apply now c).slot k).held
  := by
  rw [slot_apply]
  cases call with
  | setQueryData key data options =>
    simp only [writes, onSlot]
    split
    · next hk =>
      right
      refine ⟨_, rfl, ?_⟩
      rw [Slot.held_notify, hk]
      apply held_newEntry
    · exact .inl ⟨rfl, rfl⟩
  | clear => exact .inr ⟨_, rfl, rfl⟩
  | gc =>
    simp only [writes, onSlot, Slot.held_collect]
    split
    · exact .inr ⟨_, rfl, rfl⟩
    · exact .inl ⟨rfl, rfl⟩
  | resetQueries filters | removeQueries filters =>
    simp only [writes, onSlot]
    cases c.matching now filters k with
    | none => exact .inl ⟨rfl, rfl⟩
    | some m => exact .inr ⟨_, rfl, rfl⟩
  | invalidateQueries pattern =>
    left
    simp only [writes, onSlot, true_and]
    split
    · apply Slot.held_invalidate
    · rfl
  | cancelQuery key =>
    left
    simp only [writes, onSlot, true_and]
    split
    · apply Slot.held_cancel
    · rfl
  | cancelQueries filters =>
    left
    simp only [writes, onSlot, true_and]
    split
    · apply Slot.held_cancel
    · rfl
  | invalidateQueriesFiltered filters =>
    left
    simp only [writes, onSlot, true_and]
    split
    · split
      · rw [Slot.held_triggerRefetch, Slot.held_markStale]
      · apply Slot.held_markStale
    · rfl
  | refetchQueries filters opts =>
    left
    simp only [writes, onSlot, true_and]
    split
    · apply Slot.held_refetch
    · rfl
  | refetchAllStale | handleReconnect =>
    left
    simp only [writes, onSlot, true_and, Slot.held_refresh]
  | subscribe cacheKey =>
    left
    simp only [writes, onSlot, true_and]
    split
    · apply Slot.held_subscribe
    · rfl
  | notifySubscribers cacheKey variant =>
    left
    simp only [writes, onSlot, true_and]
    split
    · apply Slot.held_notify
    · rfl
  | setDefaultOptions options => exact .inl ⟨rfl, rfl⟩
  | setIsRestoring restoring => exact .inl ⟨rfl, rfl⟩
  | setOnline online => exact .inl ⟨rfl, rfl⟩

namespace Sys

variable {s s' : Sys V} {a : Action V} {k : String}

/-- What a step writes under a key. -/
def writes (s : Sys V) (a : Action V) (k : String) : List (Write V) :=
  match a with
  | .advance i _ => (s.runs.lookup i).elim [] fun r => r.writes k
  | .call call => call.writes s.now s.client k
  | _ => []

/-- The system with a log of what is written under a key. -/
def writing (k : String) : Machine (Sys V × List (Write V)) (Action V) :=
  machine.noting fun s a _ => s.writes a k

omit [PartialEqAny V] in
theorem held_of_cache {c c' : QueryClient V} (h : c'.cache = c.cache) :
  (c'.slot k).held = (c.slot k).held
  := by
  simp only [Slot.held, slot, h]

/-- What a step leaves under a key. -/
theorem writes_held (hs : s.step a = some s') (k : String) :
  Writes (s.writes a k) (s.client.slot k).held (s'.client.slot k).held
  := by
  cases a with
  | spawn query =>
    obtain rfl := Option.some.inj hs
    exact .inl ⟨rfl, held_of_cache (s.cache_spawn query)⟩
  | register i =>
    obtain ⟨r, -, -, -, rfl⟩ := step_register hs
    exact .inl ⟨rfl, rfl⟩
  | execute query =>
    obtain rfl := Option.some.inj hs
    exact .inl ⟨rfl, rfl⟩
  | advance i o =>
    obtain ⟨r, c, pc, hr, ha, rfl⟩ := step_advance hs
    simp only [writes, hr, Option.elim_some]
    obtain ⟨data, hpc, rfl, -⟩ | ⟨hpc, hc⟩ := Run.advance_stores ha
    · simp only [Run.writes, hpc, slot_storeQueryData]
      split
      · next hk =>
        right
        refine ⟨_, rfl, ?_⟩
        rw [hk]
        apply held_newEntry
      · exact .inl ⟨rfl, rfl⟩
    · left
      refine ⟨?_, held_of_cache hc⟩
      unfold Run.writes
      split
      · next data hdata => exact absurd hdata (hpc data)
      · rfl
  | abort i =>
    obtain ⟨r, -, -, -, rfl⟩ := step_abort hs
    exact .inl ⟨rfl, rfl⟩
  | detach i =>
    obtain ⟨r, -, -, rfl⟩ := step_detach hs
    exact .inl ⟨rfl, rfl⟩
  | drop i =>
    obtain ⟨r, -, -, -, rfl⟩ := step_drop hs
    left
    split
    · exact ⟨rfl, rfl⟩
    · exact ⟨rfl, rfl⟩
  | dropFuture i =>
    obtain ⟨r, c, -, -, hc, rfl⟩ := step_dropFuture hs
    exact .inl ⟨rfl, held_of_cache (cache_dropFuture hc)⟩
  | cancelToken i =>
    obtain ⟨r, -, -, rfl⟩ := step_cancelToken hs
    exact .inl ⟨rfl, rfl⟩
  | call call =>
    obtain rfl := Option.some.inj hs
    apply call.writes_held
  | tick n =>
    obtain rfl := Option.some.inj hs
    exact .inl ⟨rfl, rfl⟩

end Sys

/-! ### The last write -/

/-- What is held is what was last stored, or equal data stored before; nothing is held if
nothing was stored or what was is removed. -/
structure Register (log : List (Write V)) (held : Option (TypeId × V)) : Prop where
  stored : ∀ data, log.getLast? = some (.stored data) → ∃ data',
    held = some (typeOf data, data') ∧ (data' = data ∨ eqAny data data' = true)
  removed : (∀ data, log.getLast? ≠ some (.stored data)) → held = none
  written : ∀ p ∈ held, typeOf p.2 = p.1 ∧ .stored p.2 ∈ log

theorem Register.concat
    {log ws : List (Write V)} {held held' : Option (TypeId × V)} (h : Register log held)
    (hw : Writes ws held held') :
  Register (log ++ ws) held'
  := by
  obtain ⟨rfl, rfl⟩ | ⟨w, rfl, hw⟩ := hw
  · rwa [List.append_nil]
  · cases w with
    | removed =>
      obtain rfl : held' = none := hw
      constructor
      · simp
      · exact fun _ => rfl
      · nofun
    | stored data =>
      obtain ⟨data', rfl, htype, hdata⟩ := hw
      constructor
      · intro data₀ hlast
        rw [List.getLast?_concat, Option.some.injEq, Write.stored.injEq] at hlast
        subst hlast
        exact ⟨data', rfl, hdata.imp_right And.right⟩
      · intro hlast
        apply absurd (List.getLast?_concat ..) (hlast data)
      · rintro p hp
        obtain rfl := Option.some.inj hp
        refine ⟨htype, ?_⟩
        obtain rfl | ⟨hbefore, -⟩ := hdata
        · simp
        · apply List.mem_append_left _ (h.written _ hbefore).2

/-- What is cached under a key is what was last written under it. -/
theorem Sys.register_of_reachable (k : String) {t : Sys V × List (Write V)}
    (h : (Sys.writing k).Reachable t) :
  Register t.2 (t.1.client.slot k).held
  := by
  apply h.invariant
  · rintro ⟨s, log⟩ ⟨hs, hlog⟩
    obtain rfl : s = initial := hs
    obtain rfl : log = [] := hlog
    constructor
    · nofun
    · exact fun _ => rfl
    · nofun
  · intro t a t' _ hregister _ hs
    obtain ⟨hstep, hlog⟩ := Machine.step_noting hs
    rw [hlog]
    apply hregister.concat (writes_held hstep k)

namespace Sys

/-- Shared data: the second string is equal to the first, and the first is kept. -/
def sharedWrites : List (Action (String ⊕ Nat)) :=
  [.call (.setQueryData (.new "k") (.inl "old") {}), .call .clear,
    .call (.setQueryData (.new "k") (.inl "new") {}), .call (.invalidateQueries (.new "k")),
    .call (.setQueryData (.new "k") (.inl "new") {})]

theorem register_of_reachable_shared :
  ∃ t : Sys (String ⊕ Nat) × List (Write (String ⊕ Nat)), (writing "k").Reachable t ∧
    t.2 = [.stored (.inl "old"), .removed, .stored (.inl "new"), .stored (.inl "new")] ∧
    Register t.2 (t.1.client.slot "k").held
  := by
  obtain ⟨t, ht, hlog⟩ := Machine.exists_reachable_of_exec sharedWrites
    (fun t : Sys (String ⊕ Nat) × List (Write (String ⊕ Nat)) => t.2) _
    (M := writing "k") (s := (initial, [])) ⟨rfl, rfl⟩ rfl
  exact ⟨t, ht, hlog, register_of_reachable "k" ht⟩

end Sys

/-! ### What executions return -/

/-- Data an execution has read from the cache, to be returned or returned. -/
def Pc.shown : Pc V → Option V
  | .waitForDedup (.judge _ data) => some data
  | .finish result | .reply result | .done result => result.data
  | _ => none

omit [PartialEqAny V] in
theorem forall_mem_none {P : V → Prop} :
  ∀ v ∈ (none : Option V), P v
  := by
  simp

namespace Run

variable {r : Run V} {i : Nat} {now : Instant} {c c' : QueryClient V} {o : Outcome V} {pc : Pc V}

theorem shown_resume (r : Run V) (i : Nat) (c : QueryClient V) {pc₀ : Pc V}
    (h : pc₀.shown = none) :
  (r.resume i c pc₀).2.shown = none
  := by
  unfold resume
  split
  · rfl
  · apply h

theorem shown_panicked (r : Run V) (payload : PanicPayload) :
  (r.panicked payload).shown = none
  := by
  unfold panicked
  split
  · rfl
  · rfl

theorem shown_advanceWait (r : Run V) (i : Nat) (now : Instant) (c : QueryClient V)
    (w : WaitPc V) :
  ∀ v ∈ (r.advanceWait i now c w).2.shown, v ∈ (Pc.waitForDedup w).shown ∨ r.cached c = some v
  := by
  cases w with
  | subscribe | parked => apply forall_mem_none
  | recheck rx =>
    simp only [advanceWait]
    cases hcached : r.cached c with
    | none => apply forall_mem_none
    | some data => exact fun v hv => .inr hv
  | judge rx data =>
    simp only [advanceWait, leave]
    intro v hv
    left
    split at hv
    · apply hv
    · apply hv
  | receive rx =>
    simp only [advanceWait, recvPoll]
    split
    · apply forall_mem_none
    · split
      · apply forall_mem_none
      · unfold WaitPc.onUpdate
        split
        all_goals apply forall_mem_none
      · apply forall_mem_none
  | received rx variant =>
    simp only [advanceWait]
    cases hcached : r.cached c with
    | none =>
      cases variant with
      | error => apply forall_mem_none
      | _ => apply forall_mem_none
    | some data =>
      cases variant with
      | success | stale | error => exact fun v hv => .inr hv
      | _ => apply forall_mem_none

/-- Data in hand after a step was in hand before, or is cached now. -/
theorem shown_advance (h : r.advance i now c o = some (c', pc)) :
  ∀ v ∈ pc.shown, v ∈ r.pc.shown ∨ r.cached c = some v
  := by
  have resumed {pc₀ : Pc V} (hnone : pc₀.shown = none) (h : r.resume i c pc₀ = (c', pc)) :
      pc.shown = none := by
    have hshown := r.shown_resume i c hnone
    rwa [h] at hshown
  cases takes_of_advance h with
  | poll hr h =>
    rw [resumed rfl h]
    apply forall_mem_none
  | @wait w _ _ hr h =>
    intro v hv
    have hshown : v ∈ (r.advanceWait i now c w).2.shown := by rwa [h]
    rw [hr]
    apply r.shown_advanceWait i now c w v hshown
  | fetch hr h =>
    cases takes_of_advanceFetch h with
    | resumeFetch h | resumeWait h | resumeSleep h =>
      rw [resumed rfl h]
      apply forall_mem_none
    | panic | selectPanic | gone =>
      rw [shown_panicked]
      apply forall_mem_none
    | readBack hdata =>
      intro v hv
      right
      rwa [← Option.some.inj hv]
    | fail => exact fun v hv => .inr hv
    | _ => apply forall_mem_none
  | restoring | task | direct | join | alone => apply forall_mem_none
  | deregister hr | finish hr | reply hr =>
    intro v hv
    left
    rw [hr]
    apply hv

end Run

/-! ### Data since the start of an execution -/

/-- What a step notes: the run it starts, and what was held under a key when it was taken. -/
structure Sighting (V : Type) where
  started : Option Nat
  held : Option (TypeId × V)

/-- The notes from the start of a run on. -/
def Sighting.since (i : Nat) (log : List (Sighting V)) : List (Sighting V) :=
  log.dropWhile fun e => e.started ≠ some i

omit [PartialEqAny V] in
theorem Sighting.mem_since_concat {i : Nat} {log : List (Sighting V)} {e e' : Sighting V}
    (h : e ∈ since i log) :
  e ∈ since i (log ++ [e'])
  := by
  unfold since at h ⊢
  rw [List.dropWhile_append, if_neg (by rw [List.isEmpty_iff]; apply List.ne_nil_of_mem h)]
  apply List.mem_append_left _ h

omit [PartialEqAny V] in
/-- Once a run is started, every further note is one since its start. -/
theorem Sighting.last_mem_since {i : Nat} {log : List (Sighting V)} (e : Sighting V)
    (h : ∃ e ∈ log, e.started = some i) :
  e ∈ since i (log ++ [e])
  := by
  obtain ⟨e', hmem, hstarted⟩ := h
  have hne : since i log ≠ [] := by
    rw [since, Ne, List.dropWhile_eq_nil_iff]
    intro hall
    simpa [hstarted] using hall e' hmem
  unfold since at hne ⊢
  rw [List.dropWhile_append, if_neg (by rwa [List.isEmpty_iff])]
  apply List.mem_concat_self

namespace Sys

variable {s s' : Sys V} {a : Action V} {k : String}

/-- The run an action starts. -/
def starts (s : Sys V) : Action V → Option Nat
  | .spawn _ | .execute _ => some s.nextRun
  | _ => none

/-- The system with a log of the runs started and of what is held under a key. -/
def seeing (k : String) : Machine (Sys V × List (Sighting V)) (Action V) :=
  machine.noting fun s a _ => [⟨s.starts a, (s.client.slot k).held⟩]

/-- Data of a type was held under the key since a run started. -/
def Seen (log : List (Sighting V)) (i : Nat) (T : TypeId) (v : V) : Prop :=
  typeOf v = T ∧ ∃ e ∈ Sighting.since i log, e.held = some (T, v)

/-- The runs are started, and what the executions of a key have in hand was held since. -/
structure Witnessed (k : String) (s : Sys V) (log : List (Sighting V)) : Prop where
  started : ∀ i < s.nextRun, ∃ e ∈ log, e.started = some i
  shown : ∀ i r, s.runs.lookup i = some r → r.query.key.cacheKey = k → ∀ v ∈ r.pc.shown,
    Seen log i r.query.typeId v

theorem Seen.concat {log : List (Sighting V)} {i : Nat} {T : TypeId} {v : V}
    (h : Seen log i T v) (e : Sighting V) :
  Seen (log ++ [e]) i T v
  := by
  obtain ⟨htype, e', he', hheld⟩ := h
  exact ⟨htype, e', Sighting.mem_since_concat he', hheld⟩

/-- Data read from the cache is held under the key, and is of the type of the query. -/
theorem seen_of_cached {r : Run V} {v : V} {log : List (Sighting V)}
    {e : Sighting V} {i : Nat} (he : e ∈ Sighting.since i log)
    (hheld : e.held = (s.client.slot r.query.key.cacheKey).held)
    (h : r.cached s.client = some v) :
  Seen log i r.query.typeId v
  := by
  simp only [Slot.held, slot, Run.cached, getQueryData] at hheld h
  cases hentry : s.client.cache.lookup r.query.key.cacheKey with
  | none =>
    rw [hentry] at h
    contradiction
  | some entry =>
    simp only [hentry, downcast] at h
    split at h
    · contradiction
    · next htype =>
      rw [Decidable.not_not] at htype
      obtain ⟨hdata, h⟩ := Option.ite_none_right_eq_some.mp h
      obtain rfl := Option.some.inj h
      refine ⟨hdata, e, he, ?_⟩
      rw [hheld, hentry, ← htype]
      rfl

theorem nextRun_of_step (hs : s.step a = some s') :
  s'.nextRun = s.nextRun ∨ (s.starts a = some s.nextRun ∧ s'.nextRun = s.nextRun + 1)
  := by
  cases a with
  | spawn query =>
    obtain rfl := Option.some.inj hs
    obtain ⟨-, -, r, -, -, -, -, hnext⟩ := s.spawn_frame query
    exact .inr ⟨rfl, hnext⟩
  | register i =>
    obtain ⟨r, -, -, -, rfl⟩ := step_register hs
    exact .inl rfl
  | execute query =>
    obtain rfl := Option.some.inj hs
    exact .inr ⟨rfl, rfl⟩
  | advance i o =>
    obtain ⟨r, c, pc, -, -, rfl⟩ := step_advance hs
    exact .inl rfl
  | abort i =>
    obtain ⟨r, -, -, -, rfl⟩ := step_abort hs
    exact .inl rfl
  | detach i =>
    obtain ⟨r, -, -, rfl⟩ := step_detach hs
    exact .inl rfl
  | drop i =>
    obtain ⟨r, -, -, -, rfl⟩ := step_drop hs
    left
    split
    · rfl
    · rfl
  | dropFuture i =>
    obtain ⟨r, c, -, -, -, rfl⟩ := step_dropFuture hs
    exact .inl rfl
  | cancelToken i =>
    obtain ⟨r, -, -, rfl⟩ := step_cancelToken hs
    exact .inl rfl
  | call call =>
    obtain rfl := Option.some.inj hs
    exact .inl rfl
  | tick n =>
    obtain rfl := Option.some.inj hs
    exact .inl rfl

/-- Executions have in hand what was held since they started. -/
theorem Witnessed.step {log : List (Sighting V)} (h : Witnessed k s log) (hsane : s.Sane)
    (hs : s.step a = some s') :
  Witnessed k s' (log ++ [⟨s.starts a, (s.client.slot k).held⟩])
  := by
  constructor
  · intro i hi
    simp only [List.mem_append, List.mem_singleton]
    obtain hnext | ⟨hstarts, hnext⟩ := nextRun_of_step hs
    · rw [hnext] at hi
      obtain ⟨e, he, hstarted⟩ := h.started i hi
      exact ⟨e, .inl he, hstarted⟩
    · rw [hnext] at hi
      obtain hi | rfl := Nat.lt_succ_iff_lt_or_eq.mp hi
      · obtain ⟨e, he, hstarted⟩ := h.started i hi
        exact ⟨e, .inl he, hstarted⟩
      · exact ⟨_, .inr rfl, hstarts⟩
  · intro i r' hr' hk v hv
    cases origin_of_step hs hr' with
    | new hi hpc =>
      rcases hpc with hpc | hpc | hpc
      all_goals
        rw [hpc] at hv
        contradiction
    | dropped hpc =>
      rw [hpc] at hv
      contradiction
    | @stood r hr hquery _ hpc _ =>
      rw [hpc] at hv
      rw [hquery] at hk ⊢
      apply (h.shown i r hr hk v hv).concat
    | @advanced r o hr hquery _ _ hadvance =>
      rw [hquery] at hk ⊢
      obtain hv | hcached := Run.shown_advance hadvance v hv
      · apply (h.shown i r hr hk v hv).concat
      · apply seen_of_cached (Sighting.last_mem_since _ _) _ hcached
        · apply h.started i (hsane.numbered i r hr).1
        · rw [hk]

/-- What an execution returns was in the cache at some time since it began. -/
theorem seen_of_done (k : String) {t : Sys V × List (Sighting V)}
    (h : (seeing k).Reachable t) {i : Nat} {r : Run V} {result : QueryState V}
    (hr : t.1.runs.lookup i = some r) (hk : r.query.key.cacheKey = k)
    (hdone : r.pc = .done result) :
  ∀ v ∈ result.data, Seen t.2 i r.query.typeId v
  := by
  have hseen : t.1.Sane ∧ Witnessed k t.1 t.2 := by
    apply h.invariant
    · rintro ⟨s, log⟩ ⟨hs, hlog⟩
      obtain rfl : s = initial := hs
      refine ⟨sane_initial, fun i hi => absurd hi (Nat.not_lt_zero i), fun i r hr => ?_⟩
      simp [initial] at hr
    · rintro t a t' _ ⟨hsane, hseen⟩ _ hs
      obtain ⟨hstep, hlog⟩ := Machine.step_noting hs
      rw [hlog]
      exact ⟨hsane.step hstep, hseen.step hsane hstep⟩
  intro v hv
  apply hseen.2.shown i r hr hk
  rw [hdone]
  apply hv

/-- Between storing its data and reading it back an execution is overwritten. -/
def overwritten : List (Action (String ⊕ Nat)) :=
  [.execute queryK, .advance 0 .next, .advance 0 .next, .advance 0 .next, .advance 0 .next,
    .advance 0 .next, .advance 0 .next, .advance 0 (.ready (.ok (.inl "mine"))),
    .advance 0 .next, .advance 0 .next, .call (.setQueryData (.new "k") (.inl "theirs") {}),
    .advance 0 .next, .advance 0 .next, .advance 0 .next]

theorem seen_of_done_overwritten :
  ∃ t r, (seeing "k").Reachable t ∧ t.1.runs.lookup 0 = some r ∧
    r.pc = .done (.success (.inl "theirs")) ∧
    Seen t.2 0 r.query.typeId (.inl "theirs" : String ⊕ Nat)
  := by
  obtain ⟨t, ht, hrun⟩ := Machine.exists_reachable_of_exec overwritten
    (fun t : Sys (String ⊕ Nat) × List (Sighting (String ⊕ Nat)) =>
      (t.1.runs.lookup 0).map fun r => (r.query.key.cacheKey, r.pc))
    (some ("k", .done (.success (.inl "theirs")))) (M := seeing "k") (s := (initial, []))
    ⟨rfl, rfl⟩ rfl
  obtain ⟨r, hr, hpc⟩ := Option.map_eq_some_iff.mp hrun
  obtain ⟨hk, hdone⟩ := Prod.mk.inj hpc
  exact ⟨t, r, ht, hr, hdone, seen_of_done "k" ht hr hk hdone _ rfl⟩

end Sys

end RsQuery
