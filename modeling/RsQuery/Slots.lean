import RsQuery.Client

/-!
# The client key by key

What a client holds under one cache key is its slot: the entry, the registered task and
the channel.  A bulk operation runs a loop body on one key after another, each of which
changes the slot of its key only, so the slots after the loop are known from the slots
before it.

`Withdraws` is what every operation has in common as far as registrations go: those that
are gone had their task cancelled and aborted, the others are as they were, and nothing
else was cancelled or aborted.
-/

namespace RsQuery

/-- What a client holds under one cache key. -/
structure Slot (V : Type) where
  entry : Option (CacheEntry V)
  task : Option InFlightTask
  sender : Option (Bus.Shared QueryStateUpdate)

namespace Slot

variable {V : Type}

def withdraw (x : Slot V) : Slot V :=
  { x with task := none }

def markStale (x : Slot V) : Slot V :=
  { x with entry := x.entry.map fun e => { e with isStale := true } }

def evict (x : Slot V) : Slot V :=
  { x with entry := none }

def store (x : Slot V) (entry : CacheEntry V) : Slot V :=
  { x with entry := some entry }

def notify (x : Slot V) (update : QueryStateUpdate) : Slot V :=
  { x with sender := x.sender.map fun sender => (Bus.send sender update).1 }

def subscribe (x : Slot V) : Slot V :=
  { x with sender := some (Bus.subscribe (x.sender.getD (QueryClient.senderOnly 16))).1 }

/-- What `gc` does to a slot. -/
def collect (now : Instant) (x : Slot V) : Slot V :=
  { x with
      entry := x.entry.filter fun e => Instant.elapsed now e.lastAccessed < e.options.gcTime }

/-- What `invalidate_queries` does to the slot of a key it invalidates. -/
def invalidate (k : String) (x : Slot V) : Slot V :=
  match x.entry with
  | some _ => x.withdraw.markStale.notify ⟨k, .stale⟩
  | none => x.withdraw

/-- What `cancel_query` does to the slot of its key. -/
def cancel (k : String) (x : Slot V) : Slot V :=
  match x.task with
  | some _ => x.withdraw.notify ⟨k, .error⟩
  | none => x

/-- What `reset_queries` and `remove_queries` do to the slot of a matching key. -/
def drop (variant : QueryStateVariant) (k : String) (x : Slot V) : Slot V :=
  x.withdraw.evict.notify ⟨k, variant⟩

/-- What triggering a refetch does to the slot of its key. -/
def triggerRefetch (k : String) (x : Slot V) : Slot V :=
  x.withdraw.markStale.notify ⟨k, .loading⟩

/-- What `refetch_queries` does to the slot of a matching key. -/
def refetch (cancelRefetch isStale : Bool) (k : String) (x : Slot V) : Slot V :=
  match x.entry with
  | none => x
  | some entry =>
    if !entry.options.isEnabled || entry.options.staleTimeStatic && !isStale then x
    else (if cancelRefetch then x.withdraw else x).markStale.notify ⟨k, .loading⟩

/-- What a refresh pass does to the slot of a key. -/
def refresh (allows : CacheEntry V → Bool) (k : String) (x : Slot V) : Slot V :=
  match x.entry with
  | some entry => if allows entry then x.markStale.notify ⟨k, .stale⟩ else x
  | none => x

/-! ### What is registered afterwards -/

@[simp]
theorem notify_task (x : Slot V) (update : QueryStateUpdate) :
  (x.notify update).task = x.task
  := rfl

@[simp]
theorem markStale_task (x : Slot V) :
  x.markStale.task = x.task
  := rfl

@[simp]
theorem withdraw_task (x : Slot V) :
  x.withdraw.task = none
  := rfl

@[simp]
theorem evict_task (x : Slot V) :
  x.evict.task = x.task
  := rfl

@[simp]
theorem invalidate_task (k : String) (x : Slot V) :
  (x.invalidate k).task = none
  := by
  unfold invalidate
  split
  · rfl
  · rfl

@[simp]
theorem cancel_task (k : String) (x : Slot V) :
  (x.cancel k).task = none
  := by
  unfold cancel
  split
  · rfl
  · next h => apply h

@[simp]
theorem drop_task (variant : QueryStateVariant) (k : String) (x : Slot V) :
  (x.drop variant k).task = none
  := rfl

@[simp]
theorem triggerRefetch_task (k : String) (x : Slot V) :
  (x.triggerRefetch k).task = none
  := rfl

@[simp]
theorem refresh_task (allows : CacheEntry V → Bool) (k : String) (x : Slot V) :
  (x.refresh allows k).task = x.task
  := by
  unfold refresh
  split
  · split
    · rfl
    · rfl
  · rfl

end Slot

namespace QueryClient

variable {V : Type}

/-- What the client holds under the cache key. -/
def slot (c : QueryClient V) (k : String) : Slot V :=
  ⟨c.cache.lookup k, c.inFlight.lookup k, c.subscribers.lookup k⟩

@[simp]
theorem slot_wake (c : QueryClient V) (wakers : List Waker) (k : String) :
  (c.wake wakers).slot k = c.slot k
  := rfl

@[simp]
theorem slot_cancelTask (c : QueryClient V) (task : InFlightTask) (k : String) :
  (c.cancelTask task).slot k = c.slot k
  := rfl

@[simp]
theorem slot_withdraw (c : QueryClient V) (s k : String) :
  (c.withdraw s).slot k = if k = s then (c.slot k).withdraw else c.slot k
  := by
  unfold withdraw
  split
  · rw [slot_cancelTask]
    simp only [slot, Table.lookup_erase_eq]
    split
    · rfl
    · rfl
  · next h =>
    split
    · next hk =>
      rw [← hk] at h
      simp [slot, Slot.withdraw, h]
    · rfl

@[simp]
theorem slot_markStale (c : QueryClient V) (s k : String) :
  (c.markStale s).slot k = if k = s then (c.slot k).markStale else c.slot k
  := by
  simp only [markStale, slot, Table.lookup_adjust]
  split
  · rfl
  · rfl

@[simp]
theorem slot_evict (c : QueryClient V) (s k : String) :
  (c.evict s).slot k = if k = s then (c.slot k).evict else c.slot k
  := by
  simp only [evict, slot, Table.lookup_erase_eq]
  split
  · rfl
  · rfl

@[simp]
theorem slot_notifySubscribers (c : QueryClient V) (s k : String) (variant : QueryStateVariant) :
  (c.notifySubscribers s variant).slot k
    = if k = s then (c.slot k).notify ⟨s, variant⟩ else c.slot k
  := by
  obtain ⟨hc, hi, -⟩ := c.notifySubscribers_frame s variant
  simp only [slot, hc, hi, notifySubscribers_subscribers, Table.lookup_adjust]
  split
  · rfl
  · rfl

/-! ### Loops -/

/-- A loop body that changes the slot of its item's key only, as `f` says. -/
def Local {β : Type} (key : β → String) (body : QueryClient V → β → QueryClient V × Nat)
    (f : β → Slot V → Slot V) : Prop :=
  ∀ c b k, (body c b).1.slot k = if k = key b then f b (c.slot k) else c.slot k

variable {β : Type} {key : β → String} {body : QueryClient V → β → QueryClient V × Nat}
  {f : β → Slot V → Slot V}

/-- A loop leaves the slots of the keys it does not run on as they are. -/
theorem Local.forEach_of_not_mem
    (h : Local key body f) {k : String} {bs : List β} (hk : k ∉ bs.map key) (c : QueryClient V) :
  (forEach body bs c).1.slot k = c.slot k
  := by
  induction bs generalizing c with
  | nil => rfl
  | cons b bs ih =>
    simp only [List.map_cons, List.mem_cons, not_or] at hk
    rw [forEach, ih hk.2, h, if_neg hk.1]

/-- A loop over distinct keys changes the slot of each as its body does. -/
theorem Local.forEach_of_mem
    (h : Local key body f) {bs : List β} (hnd : (bs.map key).Nodup) {b : β} (hb : b ∈ bs)
    (c : QueryClient V) :
  (forEach body bs c).1.slot (key b) = f b (c.slot (key b))
  := by
  induction bs generalizing c with
  | nil => contradiction
  | cons b' bs ih =>
    rw [List.map_cons, List.nodup_cons] at hnd
    obtain rfl | hb := List.mem_cons.mp hb
    · rw [forEach, h.forEach_of_not_mem hnd.1, h, if_pos rfl]
    · have hne : key b ≠ key b' := by
        intro heq
        apply hnd.1
        rw [← heq]
        apply List.mem_map_of_mem hb
      rw [forEach, ih hnd.2 hb, h, if_neg hne]

/-! ### What is withdrawn -/

/-- The registrations gone from `c` to `c'` had their tasks cancelled and aborted, the
others are as they were, and nothing else was cancelled or aborted. -/
structure Withdraws (c c' : QueryClient V) : Prop where
  kept : ∀ k, c'.inFlight.lookup k = none ∨ c'.inFlight.lookup k = c.inFlight.lookup k
  cancelled : ∀ t, t ∈ c'.signals.cancelled ↔ t ∈ c.signals.cancelled ∨
    ∃ k task, c.inFlight.lookup k = some task ∧ c'.inFlight.lookup k = none ∧
      task.cancelToken = t
  aborted : ∀ t, t ∈ c'.signals.aborted ↔ t ∈ c.signals.aborted ∨
    ∃ k task, c.inFlight.lookup k = some task ∧ c'.inFlight.lookup k = none ∧ task.abort = t

namespace Withdraws

/-- Nothing is withdrawn when registrations, tokens and tasks are as they were. -/
theorem of_eq
    {c c' : QueryClient V} (hi : c'.inFlight = c.inFlight)
    (hc : c'.signals.cancelled = c.signals.cancelled)
    (ha : c'.signals.aborted = c.signals.aborted) :
  Withdraws c c'
  := by
  have none_gone (k : String) (task : InFlightTask) (h : c.inFlight.lookup k = some task) :
      c'.inFlight.lookup k ≠ none := by
    simp [hi, h]
  constructor
  · intro k
    right
    rw [hi]
  · intro t
    rw [hc]
    constructor
    · apply Or.inl
    · rintro (h | ⟨k, task, h, h', -⟩)
      · apply h
      · exact absurd h' (none_gone k task h)
  · intro t
    rw [ha]
    constructor
    · apply Or.inl
    · rintro (h | ⟨k, task, h, h', -⟩)
      · apply h
      · exact absurd h' (none_gone k task h)

theorem refl (c : QueryClient V) :
  Withdraws c c
  := of_eq rfl rfl rfl

theorem trans {c c' c'' : QueryClient V} (h : Withdraws c c') (h' : Withdraws c' c'') :
  Withdraws c c''
  := by
  have gone (k : String) (hk : c'.inFlight.lookup k = none) : c''.inFlight.lookup k = none := by
    obtain h | h := h'.kept k
    · apply h
    · rw [h, hk]
  have kept (k : String) (task : InFlightTask) (hk : c'.inFlight.lookup k = some task) :
      c.inFlight.lookup k = some task := by
    obtain h | h := h.kept k
    · simp [h] at hk
    · rw [← h, hk]
  -- a registration gone in two operations is gone in one of them
  have split (f : InFlightTask → Nat) (t : Nat) :
      (∃ k task, c.inFlight.lookup k = some task ∧ c''.inFlight.lookup k = none ∧ f task = t) ↔
        (∃ k task, c.inFlight.lookup k = some task ∧ c'.inFlight.lookup k = none ∧ f task = t) ∨
        ∃ k task, c'.inFlight.lookup k = some task ∧ c''.inFlight.lookup k = none ∧
          f task = t := by
    constructor
    · rintro ⟨k, task, hk, hk'', ht⟩
      obtain h | h := h.kept k
      · exact .inl ⟨k, task, hk, h, ht⟩
      · exact .inr ⟨k, task, h.trans hk, hk'', ht⟩
    · rintro (⟨k, task, hk, hk', ht⟩ | ⟨k, task, hk, hk', ht⟩)
      · exact ⟨k, task, hk, gone k hk', ht⟩
      · exact ⟨k, task, kept k task hk, hk', ht⟩
  constructor
  · intro k
    obtain h' | h' := h'.kept k
    · left
      apply h'
    · rw [h']
      apply h.kept
  · intro t
    rw [h'.cancelled, h.cancelled, split, or_assoc]
  · intro t
    rw [h'.aborted, h.aborted, split, or_assoc]

end Withdraws

/-- The registrations, tokens and aborts of two clients are the same. -/
structure Frame (c c' : QueryClient V) : Prop where
  inFlight : c'.inFlight = c.inFlight
  cancelled : c'.signals.cancelled = c.signals.cancelled
  aborted : c'.signals.aborted = c.signals.aborted

theorem Frame.withdraws {c c' : QueryClient V} (h : Frame c c') :
  Withdraws c c'
  := Withdraws.of_eq h.inFlight h.cancelled h.aborted

theorem frame_notifySubscribers (c : QueryClient V) (k : String) (v : QueryStateVariant) :
  Frame c (c.notifySubscribers k v)
  := by
  obtain ⟨-, hi, -, -, -, hc, ha⟩ := c.notifySubscribers_frame k v
  exact ⟨hi, hc, ha⟩

theorem withdraws_notifySubscribers (c : QueryClient V) (k : String) (v : QueryStateVariant) :
  Withdraws c (c.notifySubscribers k v)
  := (frame_notifySubscribers c k v).withdraws

theorem withdraws_withdraw (c : QueryClient V) (k : String) :
  Withdraws c (c.withdraw k)
  := by
  unfold withdraw
  split
  case h_2 => apply Withdraws.refl
  case h_1 task hk =>
    -- the erased registration is the only one that is gone
    have gone (f : InFlightTask → Nat) (t : Nat) :
        (∃ k' task', c.inFlight.lookup k' = some task' ∧
          (c.inFlight.erase k).lookup k' = none ∧ f task' = t) ↔ t = f task := by
      constructor
      · rintro ⟨k', task', h, h', rfl⟩
        by_cases hkk : k' = k
        · rw [hkk, hk] at h
          rw [Option.some.inj h]
        · rw [AList.lookup_erase_ne hkk, h] at h'
          contradiction
      · rintro rfl
        use k, task, hk, AList.lookup_erase _ _
    constructor
    · intro k'
      rw [cancelTask, Table.lookup_erase_eq]
      split
      · left
        rfl
      · right
        rfl
    · intro t
      simp only [cancelTask, Finset.mem_insert, gone]
      apply or_comm
    · intro t
      simp only [cancelTask, Finset.mem_insert, gone]
      apply or_comm

theorem withdraws_markStale (c : QueryClient V) (k : String) :
  Withdraws c (c.markStale k)
  := Withdraws.of_eq rfl rfl rfl

theorem withdraws_evict (c : QueryClient V) (k : String) :
  Withdraws c (c.evict k)
  := Withdraws.of_eq rfl rfl rfl

/-- A loop withdraws what its body does. -/
theorem withdraws_forEach
    (h : ∀ c b, Withdraws c (body c b).1) (bs : List β) (c : QueryClient V) :
  Withdraws c (forEach body bs c).1
  := by
  induction bs generalizing c with
  | nil => apply Withdraws.refl
  | cons b bs ih => apply (h c b).trans (ih _)

/-! ### The operations -/

theorem withdraw_cache (c : QueryClient V) (k : String) :
  (c.withdraw k).cache = c.cache
  := by
  unfold withdraw
  split
  · rfl
  · rfl

theorem local_invalidateKey :
  Local id (uncounted invalidateKey) (Slot.invalidate (V := V))
  := by
  intro c s k
  simp only [uncounted, invalidateKey, withdraw_cache, id]
  split
  · next entry h =>
    simp only [slot_notifySubscribers, slot_markStale, slot_withdraw]
    split
    · next hk =>
      rw [← hk] at h
      simp [Slot.invalidate, slot, h]
    · rfl
  · next h =>
    rw [slot_withdraw]
    split
    · next hk =>
      rw [← hk] at h
      simp [Slot.invalidate, slot, h]
    · rfl

theorem slot_cancelKey (c : QueryClient V) (s k : String) :
  (c.cancelKey s).1.slot k = if k = s then (c.slot k).cancel s else c.slot k
  := by
  unfold cancelKey
  split
  · next task h =>
    simp only [slot_notifySubscribers, slot_withdraw]
    split
    · next hk =>
      rw [← hk] at h
      simp [Slot.cancel, slot, h]
    · rfl
  · next h =>
    split
    · next hk =>
      rw [← hk] at h
      simp [Slot.cancel, slot, h]
    · rfl

theorem slot_dropKey (c : QueryClient V) (variant : QueryStateVariant) (s k : String) :
  (c.dropKey variant s).1.slot k = if k = s then (c.slot k).drop variant s else c.slot k
  := by
  simp only [dropKey, slot_notifySubscribers, slot_evict, slot_withdraw]
  split
  · rfl
  · rfl

theorem slot_triggerRefetch (c : QueryClient V) (s k : String) :
  (c.triggerRefetch s).slot k = if k = s then (c.slot k).triggerRefetch s else c.slot k
  := by
  simp only [triggerRefetch, slot_notifySubscribers, slot_markStale, slot_withdraw]
  split
  · rfl
  · rfl

theorem slot_refetchKey (c : QueryClient V) (cancelRefetch isStale : Bool) (s k : String) :
  (c.refetchKey cancelRefetch isStale s).1.slot k
    = if k = s then (c.slot k).refetch cancelRefetch isStale s else c.slot k
  := by
  unfold refetchKey
  split
  · next h =>
    split
    · next hk =>
      rw [← hk] at h
      simp [Slot.refetch, slot, h]
    · rfl
  · next entry h =>
    by_cases hk : k = s
    · have hentry : (c.slot s).entry = some entry := h
      simp only [hk, if_true, Slot.refetch]
      rw [hentry]
      simp only
      split
      · rfl
      · cases cancelRefetch with
        | false => simp
        | true => simp
    · simp only [if_neg hk]
      split
      · rfl
      · cases cancelRefetch with
        | false => simp [hk]
        | true => simp [hk]

theorem slot_refreshKey (c : QueryClient V) (allows : CacheEntry V → Bool) (s k : String) :
  (c.refreshKey allows s).slot k = if k = s then (c.slot k).refresh allows s else c.slot k
  := by
  unfold refreshKey
  split
  · next entry h =>
    by_cases hk : k = s
    · have hentry : (c.slot s).entry = some entry := h
      simp only [hk, if_true, Slot.refresh]
      rw [hentry]
      simp only
      split
      · simp
      · rfl
    · simp only [if_neg hk]
      split
      · simp [hk]
      · rfl
  · next h =>
    split
    · next hk =>
      rw [← hk] at h
      simp [Slot.refresh, slot, h]
    · rfl

theorem slot_clear (c : QueryClient V) (k : String) :
  c.clear.slot k = (c.slot k).withdraw.evict
  := by
  have fold (tasks : List InFlightTask) :
      ∀ c : QueryClient V, (tasks.foldl cancelTask c).subscribers = c.subscribers := by
    induction tasks with
    | nil => exact fun c => rfl
    | cons task tasks ih => exact fun c => ih (c.cancelTask task)
  simp only [clear, slot, fold]
  rfl

theorem slot_gc (c : QueryClient V) (now : Instant) (k : String) :
  (c.gc now).slot k = (c.slot k).collect now
  := by
  simp [gc, slot, Slot.collect]

theorem slot_storeQueryData
    [PartialEqAny V] (c : QueryClient V) (now : Instant) (key : QueryKey) (data : V)
    (options : QueryOptions) (k : String) :
  (c.storeQueryData now key data options).slot k
    = if k = key.cacheKey then (c.slot k).store (c.newEntry now key data options) else c.slot k
  := by
  simp only [storeQueryData, slot, Table.lookup_insert_eq]
  split
  · rfl
  · rfl

theorem slot_subscribe (c : QueryClient V) (s k : String) :
  (c.subscribe s).1.slot k = if k = s then (c.slot k).subscribe else c.slot k
  := by
  simp only [subscribe, slot, Table.lookup_insert_eq]
  split
  · next h =>
    rw [h]
    rfl
  · rfl

theorem nodup_keysToInvalidate (c : QueryClient V) (pattern : QueryKey) :
  (c.keysToInvalidate pattern).Nodup
  := by
  apply List.Nodup.filter
  apply AList.keys_nodup

/-- `invalidate_queries` changes the slots of the keys it invalidates. -/
theorem slot_invalidateQueries (c : QueryClient V) (pattern : QueryKey) (k : String) :
  (c.invalidateQueries pattern).slot k
    = if k ∈ c.keysToInvalidate pattern then (c.slot k).invalidate k else c.slot k
  := by
  have hnd : ((c.keysToInvalidate pattern).map id).Nodup := by
    rw [List.map_id]
    apply nodup_keysToInvalidate
  unfold invalidateQueries
  split
  · next hk => apply local_invalidateKey.forEach_of_mem hnd hk
  · next hk =>
    apply local_invalidateKey.forEach_of_not_mem
    rwa [List.map_id]

theorem mem_matchingEntries
    {c : QueryClient V} {now : Instant} {filters : QueryFilters} {m : String × QuerySnapshot} :
  m ∈ c.matchingEntries now filters ↔ ∃ entry, c.cache.lookup m.1 = some entry ∧
    m.2 = entrySnapshot now m.1 entry (c.inFlight.lookup m.1).isSome ∧
    matchQuery m.2 filters = true
  := by
  simp only [matchingEntries, List.mem_filterMap, Option.ite_none_right_eq_some]
  constructor
  · rintro ⟨⟨k, entry⟩, he, hm, heq⟩
    obtain rfl := Option.some.inj heq
    use entry, AList.mem_lookup_iff.mpr he, rfl, hm
  · rintro ⟨entry, he, hs, hm⟩
    use ⟨m.1, entry⟩, AList.mem_lookup_iff.mp he
    rw [← hs]
    use hm

theorem nodup_matchingEntries (c : QueryClient V) (now : Instant) (filters : QueryFilters) :
  ((c.matchingEntries now filters).map Prod.fst).Nodup
  := by
  apply List.Nodup.sublist _ (AList.keys_nodup c.cache)
  simp only [matchingEntries, AList.keys, List.keys]
  induction c.cache.entries with
  | nil => simp
  | cons e es ih =>
    rw [List.filterMap_cons, List.map_cons]
    split
    · apply ih.cons
    · next b hb =>
      obtain rfl : (e.1, _) = b := by simpa using (Option.ite_none_right_eq_some.mp hb).2
      apply ih.cons_cons

/-- The snapshot of the entry under a cache key, if there is one and it matches. -/
def matching (c : QueryClient V) (now : Instant) (filters : QueryFilters) (k : String) :
    Option QuerySnapshot :=
  ((c.cache.lookup k).map fun entry =>
    entrySnapshot now k entry (c.inFlight.lookup k).isSome).filter (matchQuery · filters)

theorem matching_eq_some
    {c : QueryClient V} {now : Instant} {filters : QueryFilters} {k : String} {m : QuerySnapshot} :
  c.matching now filters k = some m ↔ (k, m) ∈ c.matchingEntries now filters
  := by
  simp only [matching, Option.filter_eq_some_iff, Option.map_eq_some_iff, mem_matchingEntries]
  constructor
  · rintro ⟨⟨entry, he, hm⟩, hmatch⟩
    use entry, he, hm.symm, hmatch
  · rintro ⟨entry, he, hm, hmatch⟩
    use ⟨entry, he, hm.symm⟩, hmatch

theorem matching_eq_none
    {c : QueryClient V} {now : Instant} {filters : QueryFilters} {k : String} :
  c.matching now filters k = none ↔ k ∉ (c.matchingEntries now filters).map Prod.fst
  := by
  simp only [Option.eq_none_iff_forall_ne_some, ne_eq, matching_eq_some, List.mem_map, Prod.exists,
    exists_and_right, exists_eq_right, not_exists]

/-- A loop over the matching entries changes the slots of their keys. -/
theorem Local.matchingEntries
    {body : QueryClient V → String × QuerySnapshot → QueryClient V × Nat}
    {f : String × QuerySnapshot → Slot V → Slot V} (h : Local Prod.fst body f)
    (c : QueryClient V) (now : Instant) (filters : QueryFilters) (k : String) :
  (forEach body (c.matchingEntries now filters) c).1.slot k
    = match c.matching now filters k with
      | some m => f (k, m) (c.slot k)
      | none => c.slot k
  := by
  split
  · next m hm =>
    apply h.forEach_of_mem (nodup_matchingEntries c now filters) (matching_eq_some.mp hm) c
  · next hk => apply h.forEach_of_not_mem (matching_eq_none.mp hk)

theorem slot_cancelQueries
    (c : QueryClient V) (now : Instant) (filters : QueryFilters) (k : String) :
  (c.cancelQueries now filters).1.slot k
    = match c.matching now filters k with
      | some _ => (c.slot k).cancel k
      | none => c.slot k
  := Local.matchingEntries (f := fun m x => x.cancel m.1)
      (fun c m k => slot_cancelKey c m.1 k) c now filters k

theorem slot_resetQueries
    (c : QueryClient V) (now : Instant) (filters : QueryFilters) (k : String) :
  (c.resetQueries now filters).1.slot k
    = match c.matching now filters k with
      | some _ => (c.slot k).drop .loading k
      | none => c.slot k
  := Local.matchingEntries (f := fun m x => x.drop .loading m.1)
      (fun c m k => slot_dropKey c .loading m.1 k) c now filters k

theorem slot_removeQueries
    (c : QueryClient V) (now : Instant) (filters : QueryFilters) (k : String) :
  (c.removeQueries now filters).1.slot k
    = match c.matching now filters k with
      | some _ => (c.slot k).drop .error k
      | none => c.slot k
  := Local.matchingEntries (f := fun m x => x.drop .error m.1)
      (fun c m k => slot_dropKey c .error m.1 k) c now filters k

theorem slot_refetchQueries
    (c : QueryClient V) (now : Instant) (filters : QueryFilters) (opts : RefetchQueryFilters)
    (k : String) :
  (c.refetchQueries now filters opts).1.slot k
    = match c.matching now filters k with
      | some m => (c.slot k).refetch opts.cancelRefetch m.isStale k
      | none => c.slot k
  := Local.matchingEntries (f := fun m x => x.refetch opts.cancelRefetch m.2.isStale m.1)
      (fun c m k => slot_refetchKey c opts.cancelRefetch m.2.isStale m.1 k) c now filters k

/-- A filtered invalidation marks the matching entries stale, and triggers the refetch of
those of the refetch type. -/
theorem slot_invalidateQueriesFiltered
    (c : QueryClient V) (now : Instant) (filters : InvalidateQueryFilters) (k : String) :
  (c.invalidateQueriesFiltered now filters).1.slot k
    = match c.matching now filters.filters k with
      | some m =>
        if shouldRefetch filters.refetchType m then (c.slot k).markStale.triggerRefetch k
        else (c.slot k).markStale
      | none => c.slot k
  := by
  have marks : Local Prod.fst (uncounted fun c (m : String × QuerySnapshot) => c.markStale m.1)
      (fun _ (x : Slot V) => x.markStale) :=
    fun c m k => slot_markStale c m.1 k
  have mark := marks.matchingEntries c now filters.filters k
  have trigger : Local Prod.fst
      (uncounted fun c (m : String × QuerySnapshot) => c.triggerRefetch m.1)
      (fun m (x : Slot V) => x.triggerRefetch m.1) :=
    fun c m k => slot_triggerRefetch c m.1 k
  have hnd := nodup_matchingEntries c now filters.filters
  have hsub (p : String × QuerySnapshot → Bool) :
      (((c.matchingEntries now filters.filters).filter p).map Prod.fst).Sublist
        ((c.matchingEntries now filters.filters).map Prod.fst) :=
    List.filter_sublist.map _
  split
  · next m hm =>
    rw [hm] at mark
    simp only at mark
    have hmem := matching_eq_some.mp hm
    split
    · next hr =>
      rw [← mark]
      apply trigger.forEach_of_mem (hnd.sublist (hsub _)) (List.mem_filter.mpr ⟨hmem, hr⟩) _
    · next hr =>
      rw [← mark]
      apply trigger.forEach_of_not_mem
      intro h
      obtain ⟨m', hm', heq⟩ := List.mem_map.mp h
      apply hr
      obtain ⟨hm', hr'⟩ := List.mem_filter.mp hm'
      rw [List.inj_on_of_nodup_map hnd hm' hmem heq] at hr'
      apply hr'
  · next hk =>
    rw [hk] at mark
    simp only at mark
    rw [← mark]
    apply trigger.forEach_of_not_mem
    intro h
    apply matching_eq_none.mp hk ((hsub _).subset h)

/-- A filtered invalidation marks the matching entries stale and leaves the others as
they are, whatever is refetched. -/
theorem entry_invalidateQueriesFiltered
    (c : QueryClient V) (now : Instant) (filters : InvalidateQueryFilters) (k : String) :
  ((c.invalidateQueriesFiltered now filters).1.slot k).entry
    = if k ∈ (c.matchingEntries now filters.filters).map Prod.fst then
        (c.slot k).markStale.entry
      else (c.slot k).entry
  := by
  rw [slot_invalidateQueriesFiltered]
  split
  · next m hm =>
    rw [if_pos (List.mem_map_of_mem (matching_eq_some.mp hm))]
    split
    · simp [Slot.triggerRefetch, Slot.notify, Slot.markStale, Slot.withdraw, Function.comp_def]
    · rfl
  · next hk => rw [if_neg (matching_eq_none.mp hk)]

/-- A refresh pass refreshes the slot of every key. -/
theorem slot_refreshKeys (c : QueryClient V) (allows : CacheEntry V → Bool) (k : String) :
  (forEach (uncounted fun c key => c.refreshKey allows key) c.cache.keys c).1.slot k
    = (c.slot k).refresh allows k
  := by
  have hlocal : Local id (uncounted fun (c : QueryClient V) key => c.refreshKey allows key)
      (fun k x => x.refresh allows k) := fun c s k => slot_refreshKey c allows s k
  by_cases hk : k ∈ c.cache.keys
  · apply hlocal.forEach_of_mem _ hk
    rw [List.map_id]
    apply AList.keys_nodup
  · rw [hlocal.forEach_of_not_mem (by rwa [List.map_id])]
    have hnone : (c.slot k).entry = none := AList.lookup_eq_none.mpr hk
    unfold Slot.refresh
    rw [hnone]

/-! ### What the operations withdraw -/

theorem withdraws_invalidateKey (c : QueryClient V) (k : String) :
  Withdraws c (c.invalidateKey k)
  := by
  unfold invalidateKey
  apply (withdraws_withdraw c k).trans
  simp only
  split
  · apply (withdraws_markStale _ _).trans (withdraws_notifySubscribers _ _ _)
  · apply Withdraws.refl

theorem withdraws_cancelKey (c : QueryClient V) (k : String) :
  Withdraws c (c.cancelKey k).1
  := by
  unfold cancelKey
  split
  · apply (withdraws_withdraw c k).trans (withdraws_notifySubscribers _ _ _)
  · apply Withdraws.refl

theorem withdraws_dropKey (c : QueryClient V) (variant : QueryStateVariant) (k : String) :
  Withdraws c (c.dropKey variant k).1
  := by
  apply (withdraws_withdraw c k).trans
  apply (withdraws_evict _ _).trans (withdraws_notifySubscribers _ _ _)

theorem withdraws_triggerRefetch (c : QueryClient V) (k : String) :
  Withdraws c (c.triggerRefetch k)
  := by
  apply (withdraws_withdraw c k).trans
  apply (withdraws_markStale _ _).trans (withdraws_notifySubscribers _ _ _)

theorem withdraws_refetchKey (c : QueryClient V) (cancelRefetch isStale : Bool) (k : String) :
  Withdraws c (c.refetchKey cancelRefetch isStale k).1
  := by
  unfold refetchKey
  split
  · apply Withdraws.refl
  · simp only
    split
    · apply Withdraws.refl
    · apply Withdraws.trans _ (withdraws_notifySubscribers _ _ _)
      apply Withdraws.trans _ (withdraws_markStale _ _)
      split
      · apply withdraws_withdraw
      · apply Withdraws.refl

theorem withdraws_refreshKey (c : QueryClient V) (allows : CacheEntry V → Bool) (k : String) :
  Withdraws c (c.refreshKey allows k)
  := by
  unfold refreshKey
  split
  · split
    · apply (withdraws_markStale _ _).trans (withdraws_notifySubscribers _ _ _)
    · apply Withdraws.refl
  · apply Withdraws.refl

theorem withdraws_invalidateQueries (c : QueryClient V) (pattern : QueryKey) :
  Withdraws c (c.invalidateQueries pattern)
  := withdraws_forEach (fun c k => withdraws_invalidateKey c k) _ _

theorem withdraws_cancelQueries (c : QueryClient V) (now : Instant) (filters : QueryFilters) :
  Withdraws c (c.cancelQueries now filters).1
  := withdraws_forEach (fun c (m : String × QuerySnapshot) => withdraws_cancelKey c m.1) _ _

theorem withdraws_resetQueries (c : QueryClient V) (now : Instant) (filters : QueryFilters) :
  Withdraws c (c.resetQueries now filters).1
  := withdraws_forEach (fun c (m : String × QuerySnapshot) => withdraws_dropKey c .loading m.1) _ _

theorem withdraws_removeQueries (c : QueryClient V) (now : Instant) (filters : QueryFilters) :
  Withdraws c (c.removeQueries now filters).1
  := withdraws_forEach (fun c (m : String × QuerySnapshot) => withdraws_dropKey c .error m.1) _ _

theorem withdraws_invalidateQueriesFiltered
    (c : QueryClient V) (now : Instant) (filters : InvalidateQueryFilters) :
  Withdraws c (c.invalidateQueriesFiltered now filters).1
  := by
  have mark (ms : List (String × QuerySnapshot)) (c : QueryClient V) :
      Withdraws c (forEach (uncounted fun c m => c.markStale m.1) ms c).1 :=
    withdraws_forEach (fun c m => withdraws_markStale c m.1) ms c
  apply (mark _ c).trans
  apply withdraws_forEach
  exact fun c m => withdraws_triggerRefetch c m.1

theorem withdraws_refetchQueries
    (c : QueryClient V) (now : Instant) (filters : QueryFilters) (opts : RefetchQueryFilters) :
  Withdraws c (c.refetchQueries now filters opts).1
  := withdraws_forEach (fun c (m : String × QuerySnapshot) => withdraws_refetchKey c _ _ m.1) _ _

theorem withdraws_clear (c : QueryClient V) :
  Withdraws c c.clear
  := by
  -- the loop cancels and aborts every task it is given
  have fold (tasks : List InFlightTask) : ∀ c : QueryClient V,
      (∀ t, t ∈ (tasks.foldl cancelTask c).signals.cancelled ↔
        t ∈ c.signals.cancelled ∨ ∃ task ∈ tasks, task.cancelToken = t) ∧
      ∀ t, t ∈ (tasks.foldl cancelTask c).signals.aborted ↔
        t ∈ c.signals.aborted ∨ ∃ task ∈ tasks, task.abort = t := by
    induction tasks with
    | nil => simp
    | cons task tasks ih =>
      intro c
      obtain ⟨hc, ha⟩ := ih (c.cancelTask task)
      constructor
      · intro t
        rw [List.foldl_cons, hc]
        simp only [cancelTask, Finset.mem_insert, List.exists_mem_cons_iff, ← or_assoc]
        rw [or_comm (a := t = _), eq_comm]
      · intro t
        rw [List.foldl_cons, ha]
        simp only [cancelTask, Finset.mem_insert, List.exists_mem_cons_iff, ← or_assoc]
        rw [or_comm (a := t = _), eq_comm]
  obtain ⟨hc, ha⟩ := fold (Table.values c.inFlight) c
  have values (f : InFlightTask → Nat) (t : Nat) :
      (∃ task ∈ Table.values c.inFlight, f task = t) ↔
        ∃ k task, c.inFlight.lookup k = some task ∧ c.clear.inFlight.lookup k = none ∧
          f task = t := by
    simp only [Table.mem_values_iff]
    constructor
    · rintro ⟨task, ⟨k, hk⟩, ht⟩
      use k, task, hk, rfl
    · rintro ⟨k, task, hk, -, ht⟩
      use task, ⟨k, hk⟩
  constructor
  · intro k
    left
    rfl
  · intro t
    rw [← values]
    apply hc
  · intro t
    rw [← values]
    apply ha

end QueryClient

end RsQuery
