import RsQuery.Executor

/-!
# What the calls do

A call changes the slot of each cache key as `Call.onSlot` says, withdraws the
registrations of the keys it cancels, and registers nothing.
-/

namespace RsQuery

variable {V : Type} [PartialEqAny V]

open QueryClient

namespace Call

/-- What a call made on `c` does to the slot of a cache key. -/
def onSlot (call : Call V) (now : Instant) (c : QueryClient V) (k : String) (x : Slot V) :
    Slot V :=
  match call with
  | .setQueryData key data options =>
    if k = key.cacheKey then
      (x.store (c.newEntry now key data options)).notify ⟨key.cacheKey, .success⟩
    else x
  | .invalidateQueries pattern => if k ∈ c.keysToInvalidate pattern then x.invalidate k else x
  | .cancelQuery key => if k = key.cacheKey then x.cancel key.cacheKey else x
  | .clear => x.withdraw.evict
  | .gc => x.collect now
  | .cancelQueries filters =>
    match c.matching now filters k with
    | some _ => x.cancel k
    | none => x
  | .resetQueries filters =>
    match c.matching now filters k with
    | some _ => x.drop .loading k
    | none => x
  | .removeQueries filters =>
    match c.matching now filters k with
    | some _ => x.drop .error k
    | none => x
  | .invalidateQueriesFiltered filters =>
    match c.matching now filters.filters k with
    | some m =>
      if shouldRefetch filters.refetchType m then x.markStale.triggerRefetch k else x.markStale
    | none => x
  | .refetchQueries filters opts =>
    match c.matching now filters k with
    | some m => x.refetch opts.cancelRefetch m.isStale k
    | none => x
  | .refetchAllStale => x.refresh (allowsOnFocus now) k
  | .handleReconnect => x.refresh (allowsOnReconnect now) k
  | .setDefaultOptions _ | .setIsRestoring _ | .setOnline _ => x
  | .subscribe cacheKey => if k = cacheKey then x.subscribe else x
  | .notifySubscribers cacheKey variant =>
    if k = cacheKey then x.notify ⟨cacheKey, variant⟩ else x

theorem slot_apply (call : Call V) (now : Instant) (c : QueryClient V) (k : String) :
  (call.apply now c).slot k = call.onSlot now c k (c.slot k)
  := by
  cases call with
  | setQueryData key data options =>
    simp only [apply, QueryClient.setQueryData, slot_notifySubscribers, slot_storeQueryData, onSlot]
    split
    · rfl
    · rfl
  | invalidateQueries pattern => apply slot_invalidateQueries
  | cancelQuery key => apply slot_cancelKey
  | clear => apply slot_clear
  | gc => apply slot_gc
  | cancelQueries filters => apply slot_cancelQueries
  | resetQueries filters => apply slot_resetQueries
  | removeQueries filters => apply slot_removeQueries
  | invalidateQueriesFiltered filters => apply slot_invalidateQueriesFiltered
  | refetchQueries filters opts => apply slot_refetchQueries
  | refetchAllStale => apply slot_refreshKeys
  | handleReconnect => apply slot_refreshKeys
  | setDefaultOptions options => rfl
  | setIsRestoring restoring => rfl
  | setOnline online => rfl
  | subscribe cacheKey => apply slot_subscribe
  | notifySubscribers cacheKey variant => apply slot_notifySubscribers

/-- The cache keys whose fetch a call cancels when one is in flight. -/
def Cancels (call : Call V) (now : Instant) (c : QueryClient V) (k : String) : Prop :=
  match call with
  | .invalidateQueries pattern => k ∈ c.keysToInvalidate pattern
  | .cancelQuery key => k = key.cacheKey
  | .clear => True
  | .cancelQueries filters | .resetQueries filters | .removeQueries filters =>
    (c.matching now filters k).isSome = true
  | .invalidateQueriesFiltered filters =>
    ∃ m ∈ c.matching now filters.filters k, shouldRefetch filters.refetchType m = true
  | .refetchQueries filters opts =>
    opts.cancelRefetch = true ∧ ∃ m ∈ c.matching now filters k, ∃ entry ∈ c.cache.lookup k,
      entry.options.isEnabled = true ∧ ¬ (entry.options.staleTimeStatic = true ∧ m.isStale = false)
  | _ => False

instance (call : Call V) (now : Instant) (c : QueryClient V) (k : String) :
    Decidable (call.Cancels now c k) := by
  unfold Cancels
  split
  all_goals infer_instance

omit [PartialEqAny V] in
/-- Whether `refetch_queries` triggers the refetch of an entry. -/
theorem task_refetch (cancelRefetch isStale : Bool) (k : String) (x : Slot V) :
  (x.refetch cancelRefetch isStale k).task
    = if cancelRefetch = true ∧ ∃ entry ∈ x.entry, entry.options.isEnabled = true ∧
          ¬ (entry.options.staleTimeStatic = true ∧ isStale = false) then none
      else x.task
  := by
  unfold Slot.refetch
  split
  · next h => simp [h]
  · next entry h =>
    simp only [h, Option.mem_some_iff, exists_eq_left']
    split
    · next hskip =>
      rw [if_neg]
      rintro ⟨-, henabled, hstatic⟩
      simp_all
    · next hskip =>
      simp only [Bool.or_eq_true, Bool.not_eq_true', Bool.and_eq_true, not_or] at hskip
      cases cancelRefetch with
      | false => simp
      | true => simp_all

/-- A call withdraws the registrations of the keys it cancels and leaves the others as
they are. -/
theorem inFlight_apply (call : Call V) (now : Instant) (c : QueryClient V) (k : String) :
  (call.apply now c).inFlight.lookup k
    = if call.Cancels now c k then none else c.inFlight.lookup k
  := by
  have htask : (c.slot k).task = c.inFlight.lookup k := rfl
  apply (congrArg Slot.task (call.slot_apply now c k)).trans
  rw [← htask]
  cases call with
  | invalidateQueries pattern =>
    simp only [onSlot, Cancels]
    split
    · next hk => simp [hk]
    · next hk => simp [hk]
  | cancelQuery key =>
    simp only [onSlot, Cancels]
    split
    · next hk => simp [hk]
    · next hk => simp [hk]
  | cancelQueries filters =>
    simp only [onSlot, Cancels]
    split
    · simp_all
    · simp_all
  | resetQueries filters =>
    simp only [onSlot, Cancels]
    split
    · simp_all
    · simp_all
  | removeQueries filters =>
    simp only [onSlot, Cancels]
    split
    · simp_all
    · simp_all
  | invalidateQueriesFiltered filters =>
    simp only [onSlot, Cancels]
    split
    · next m hm =>
      simp only [hm, Option.mem_some_iff, exists_eq_left']
      split
      · rfl
      · rfl
    · next hm => simp [hm]
  | refetchQueries filters opts =>
    have hentry : (c.slot k).entry = c.cache.lookup k := rfl
    simp only [onSlot, Cancels]
    split
    · next m hm => simp only [hm, task_refetch, hentry, Option.mem_some_iff, exists_eq_left']
    · next hm => simp [hm]
  | refetchAllStale => simp [onSlot, Cancels]
  | handleReconnect => simp [onSlot, Cancels]
  | clear => rfl
  | setQueryData key data options =>
    simp only [onSlot, Cancels]
    split
    · rfl
    · rfl
  | subscribe cacheKey =>
    simp only [onSlot, Cancels]
    split
    · rfl
    · rfl
  | notifySubscribers cacheKey variant =>
    simp only [onSlot, Cancels]
    split
    · rfl
    · rfl
  | gc => rfl
  | setDefaultOptions options => rfl
  | setIsRestoring restoring => rfl
  | setOnline online => rfl

/-- Under the derived default a refetch leaves every fetch in flight, which it does not under
what `new` gives. -/
theorem inFlight_refetchQueries_default
    (filters : QueryFilters) (now : Instant) (c : QueryClient V) (k : String) :
  ((Call.refetchQueries filters .default).apply now c).inFlight.lookup k = c.inFlight.lookup k
  := by
  rw [inFlight_apply, if_neg]
  rintro ⟨hcancel, -⟩
  contradiction

end Call

/-- No call registers anything. -/
theorem Call.withdraws_apply (call : Call V) (now : Instant) (c : QueryClient V) :
  Withdraws c (call.apply now c)
  := by
  cases call with
  | setQueryData key data options =>
    have hstore : Withdraws c (c.storeQueryData now key data options) :=
      Withdraws.of_eq rfl rfl rfl
    apply hstore.trans
    apply withdraws_notifySubscribers
  | invalidateQueries pattern => apply withdraws_invalidateQueries
  | cancelQuery key => apply withdraws_cancelKey
  | clear => apply withdraws_clear
  | gc => exact Withdraws.of_eq rfl rfl rfl
  | cancelQueries filters => apply withdraws_cancelQueries
  | resetQueries filters => apply withdraws_resetQueries
  | removeQueries filters => apply withdraws_removeQueries
  | invalidateQueriesFiltered filters => apply withdraws_invalidateQueriesFiltered
  | refetchQueries filters opts => apply withdraws_refetchQueries
  | refetchAllStale =>
    apply withdraws_forEach
    exact fun c k => withdraws_refreshKey c _ k
  | handleReconnect =>
    apply withdraws_forEach
    exact fun c k => withdraws_refreshKey c _ k
  | setDefaultOptions options => exact Withdraws.of_eq rfl rfl rfl
  | setIsRestoring restoring => exact Withdraws.of_eq rfl rfl rfl
  | setOnline online => exact Withdraws.of_eq rfl rfl rfl
  | subscribe cacheKey => exact Withdraws.of_eq rfl rfl rfl
  | notifySubscribers cacheKey variant => apply withdraws_notifySubscribers

/-! ### What calls leave alone -/

namespace QueryClient

omit [PartialEqAny V]

/-- The connectivity and the counters of activity. -/
def aside (c : QueryClient V) : OnlineManager × Nat × Nat :=
  (c.online, c.fetchingCount, c.mutatingCount)

variable (c : QueryClient V)

theorem aside_notifySubscribers (k : String) (v : QueryStateVariant) :
  (c.notifySubscribers k v).aside = c.aside
  := by
  unfold notifySubscribers
  dsimp only
  split
  · rfl
  · rfl

theorem aside_withdraw (k : String) :
  (c.withdraw k).aside = c.aside
  := by
  unfold withdraw
  split
  · rfl
  · rfl

/-- A loop leaves alone what its body does. -/
theorem aside_forEach
    {β : Type} {body : QueryClient V → β → QueryClient V × Nat}
    (h : ∀ c b, (body c b).1.aside = c.aside) (bs : List β) (c : QueryClient V) :
  (forEach body bs c).1.aside = c.aside
  := by
  induction bs generalizing c with
  | nil => rfl
  | cons b bs ih => apply (ih _).trans (h c b)

theorem aside_invalidateKey (k : String) :
  (c.invalidateKey k).aside = c.aside
  := by
  unfold invalidateKey
  dsimp only
  split
  · apply (aside_notifySubscribers _ _ _).trans
    apply aside_withdraw
  · apply aside_withdraw

theorem aside_invalidateQueries (pattern : QueryKey) :
  (c.invalidateQueries pattern).aside = c.aside
  := aside_forEach (fun c k => c.aside_invalidateKey k) _ c

theorem aside_cancelKey (k : String) :
  (c.cancelKey k).1.aside = c.aside
  := by
  unfold cancelKey
  split
  · apply (aside_notifySubscribers _ _ _).trans (c.aside_withdraw k)
  · rfl

theorem aside_dropKey (variant : QueryStateVariant) (k : String) :
  (c.dropKey variant k).1.aside = c.aside
  := by
  apply (aside_notifySubscribers ((c.withdraw k).evict k) k variant).trans
  apply aside_withdraw

theorem aside_triggerRefetch (k : String) :
  (c.triggerRefetch k).aside = c.aside
  := by
  apply (aside_notifySubscribers _ _ _).trans
  apply aside_withdraw

theorem aside_refetchKey (cancelRefetch isStale : Bool) (k : String) :
  (c.refetchKey cancelRefetch isStale k).1.aside = c.aside
  := by
  unfold refetchKey
  split
  · rfl
  · dsimp only
    split
    · rfl
    · apply (aside_notifySubscribers _ _ _).trans
      cases cancelRefetch with
      | false => rfl
      | true => apply c.aside_withdraw k

theorem aside_refreshKey (allows : CacheEntry V → Bool) (k : String) :
  (c.refreshKey allows k).aside = c.aside
  := by
  unfold refreshKey
  split
  · split
    · apply aside_notifySubscribers
    · rfl
  · rfl

theorem aside_clear :
  c.clear.aside = c.aside
  := by
  have fold (tasks : List InFlightTask) (c : QueryClient V) :
      (tasks.foldl cancelTask c).aside = c.aside := by
    induction tasks generalizing c with
    | nil => rfl
    | cons task tasks ih => apply (ih _).trans rfl
  apply fold

end QueryClient

/-- No call changes the counters, and only `set_online` the connectivity. -/
theorem Call.aside_apply (call : Call V) (now : Instant) (c : QueryClient V)
    (h : ∀ online, call ≠ .setOnline online) :
  (call.apply now c).aside = c.aside
  := by
  cases call with
  | setQueryData key data options => apply aside_notifySubscribers
  | invalidateQueries pattern => apply aside_invalidateQueries
  | cancelQuery key => apply aside_cancelKey
  | clear => apply aside_clear
  | gc => rfl
  | cancelQueries filters =>
    apply aside_forEach (fun c (m : String × QuerySnapshot) => c.aside_cancelKey m.1) _ c
  | resetQueries filters =>
    apply aside_forEach (fun c (m : String × QuerySnapshot) => c.aside_dropKey _ m.1) _ c
  | removeQueries filters =>
    apply aside_forEach (fun c (m : String × QuerySnapshot) => c.aside_dropKey _ m.1) _ c
  | invalidateQueriesFiltered filters =>
    apply (aside_forEach (fun c m => c.aside_triggerRefetch m.1) _ _).trans
    apply aside_forEach
    exact fun c m => rfl
  | refetchQueries filters opts =>
    apply aside_forEach (fun c (m : String × QuerySnapshot) => c.aside_refetchKey _ _ m.1) _ c
  | refetchAllStale => apply aside_forEach (fun c k => c.aside_refreshKey _ k) _ c
  | handleReconnect => apply aside_forEach (fun c k => c.aside_refreshKey _ k) _ c
  | setDefaultOptions options => rfl
  | setIsRestoring restoring => rfl
  | setOnline online => exact absurd rfl (h online)
  | subscribe cacheKey => rfl
  | notifySubscribers cacheKey variant => apply aside_notifySubscribers

end RsQuery
