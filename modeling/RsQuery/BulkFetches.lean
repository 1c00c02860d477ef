import RsQuery.Calls

/-!
# Bulk operations and fetches in flight

`cancel_queries` and `is_fetching_filtered` go through the cached entries and look up
which of them are in flight, so of the fetches in flight they see those whose key is
cached: `QueryClient.bulkFetches_cached` says which of these are cancelled and counted.
-/

namespace RsQuery

variable {V : Type}

namespace QueryFilters

/-- The key criterion, on the key rebuilt from a cache key. -/
def AdmitsKey (filters : QueryFilters) (k : String) : Prop :=
  keyMatches filters.queryKey (.fromSegments (splitSegments k)) filters.exact = true

/-- The fetch status criterion, for a query in flight. -/
def AdmitsFetching (filters : QueryFilters) : Prop :=
  ∀ fetchStatus ∈ filters.fetchStatus, fetchStatus = .fetching

/-- The other criteria, for the entry of a query in flight. -/
structure AdmitsEntry (filters : QueryFilters) (now : Instant) (entry : CacheEntry V) : Prop where
  active : filters.queryType = .active → entry.options.isEnabled = true
  inactive : filters.queryType = .inactive → entry.options.isEnabled = false
  stale : filters.stale = true → QueryClient.entryIsStale now entry = true
  status : ∀ status ∈ filters.status, status = .success

/-- Filters without a predicate match the entry of a query in flight if every criterion
admits it. -/
theorem matchQuery_iff
    {filters : QueryFilters} {now : Instant} {k : String} {entry : CacheEntry V}
    (h : filters.predicate = none) :
  matchQuery (QueryClient.entrySnapshot now k entry true) filters = true ↔
    filters.AdmitsKey k ∧ filters.AdmitsFetching ∧ filters.AdmitsEntry now entry
  := by
  have hany {α : Type} [DecidableEq α] (x : α) (o : Option α) :
      (o.any fun y => decide (x ≠ y)) = true ↔ ¬ ∀ y ∈ o, y = x := by
    cases o with
    | none => simp
    | some y =>
      simp only [Option.any_some, decide_eq_true_eq, Option.mem_some_iff, forall_eq']
      apply not_congr eq_comm
  have hentry : filters.AdmitsEntry now entry ↔
      (filters.queryType = .active → entry.options.isEnabled = true) ∧
      (filters.queryType = .inactive → entry.options.isEnabled = false) ∧
      (filters.stale = true → QueryClient.entryIsStale now entry = true) ∧
      ∀ status ∈ filters.status, status = .success :=
    ⟨fun ⟨ha, hi, hs, ht⟩ => ⟨ha, hi, hs, ht⟩, fun ⟨ha, hi, hs, ht⟩ => ⟨ha, hi, hs, ht⟩⟩
  rw [hentry, matchQuery, h]
  simp only [AdmitsKey, AdmitsFetching, QueryClient.entrySnapshot, hany]
  grind

end QueryFilters

namespace QueryClient

/-- The fetch under the cache key is cancelled: its registration is gone, its token
cancelled and its task aborted. -/
structure Cancelled (c : QueryClient V) (k : String) (task : InFlightTask) : Prop where
  withdrawn : c.inFlight.lookup k = none
  cancelled : task.cancelToken ∈ c.signals.cancelled
  aborted : task.abort ∈ c.signals.aborted

/-- A loop that cancels distinct keys counts those that were in flight. -/
theorem forEach_cancelKey_count {bs : List (String × QuerySnapshot)} (c : QueryClient V)
    (hnd : (bs.map Prod.fst).Nodup) :
  (forEach (fun c m => c.cancelKey m.1) bs c).2 =
    (bs.filter fun m => (c.inFlight.lookup m.1).isSome).length
  := by
  induction bs generalizing c with
  | nil => rfl
  | cons b bs ih =>
    rw [List.map_cons, List.nodup_cons] at hnd
    -- the other keys are in flight as before
    have hrest : bs.filter (fun m => ((c.cancelKey b.1).1.inFlight.lookup m.1).isSome) =
        bs.filter fun m => (c.inFlight.lookup m.1).isSome := by
      apply List.filter_congr
      intro m hm
      have hne : m.1 ≠ b.1 := by
        intro heq
        apply hnd.1
        rw [← heq]
        apply List.mem_map_of_mem hm
      have hslot := congrArg Slot.task (c.slot_cancelKey b.1 m.1)
      rw [if_neg hne] at hslot
      apply congrArg Option.isSome hslot
    have hcons : (forEach (fun c m => c.cancelKey m.1) (b :: bs) c).2 = (c.cancelKey b.1).2 +
        (forEach (fun c m => c.cancelKey m.1) bs (c.cancelKey b.1).1).2 := rfl
    rw [hcons, ih _ hnd.2, hrest, List.filter_cons]
    unfold cancelKey
    split
    · next task htask =>
      rw [htask, Option.isSome_some, if_pos rfl, List.length_cons]
      apply Nat.add_comm
    · next hnone =>
      rw [hnone, Option.isSome_none, if_neg Bool.false_ne_true]
      apply Nat.zero_add

/-- `cancel_queries` cancels as many fetches as `is_fetching_filtered` counts. -/
theorem cancelQueries_count (c : QueryClient V) (now : Instant) (filters : QueryFilters) :
  (c.cancelQueries now filters).2 = c.isFetchingFiltered now filters
  := c.forEach_cancelKey_count (c.nodup_matchingEntries now filters)

/-- With no criterion the fetches of cached queries are counted. -/
theorem isFetchingFiltered_all (c : QueryClient V) (now : Instant) :
  c.isFetchingFiltered now {} =
    (c.inFlight.keys.filter fun k => (c.cache.lookup k).isSome).length
  := by
  unfold isFetchingFiltered
  rw [← List.length_map Prod.fst]
  apply List.Perm.length_eq
  rw [List.perm_ext_iff_of_nodup]
  · intro k
    simp only [List.mem_map, List.mem_filter, mem_matchingEntries, ← AList.mem_keys,
      ← AList.lookup_isSome]
    constructor
    · rintro ⟨m, ⟨⟨entry, hentry, -⟩, hflight⟩, rfl⟩
      use hflight
      rw [hentry]
      rfl
    · rintro ⟨hflight, hcached⟩
      obtain ⟨entry, hentry⟩ := Option.isSome_iff_exists.mp hcached
      use (k, entrySnapshot now k entry (c.inFlight.lookup k).isSome)
      exact ⟨⟨⟨entry, hentry, rfl, rfl⟩, hflight⟩, rfl⟩
  · apply List.Nodup.sublist (List.filter_sublist.map _) (c.nodup_matchingEntries now {})
  · apply (AList.keys_nodup c.inFlight).filter

variable [PartialEqAny V] {c : QueryClient V} {k : String} {task : InFlightTask}
  {entry : CacheEntry V}

/-- Of the fetches of cached queries, those the filters match are cancelled. -/
theorem cancelQueries_cached (now : Instant) (filters : QueryFilters)
    (htask : c.inFlight.lookup k = some task)
    (hentry : c.cache.lookup k = some entry) :
  (matchQuery (entrySnapshot now k entry true) filters = true →
    (c.cancelQueries now filters).1.Cancelled k task) ∧
  (¬ matchQuery (entrySnapshot now k entry true) filters = true →
    (c.cancelQueries now filters).1.inFlight.lookup k = some task)
  := by
  have hflight := (Call.cancelQueries filters).inFlight_apply now c k
  have hmatching : c.matching now filters k =
      (some (entrySnapshot now k entry true)).filter (matchQuery · filters) := by
    rw [matching, hentry, htask]
    rfl
  constructor
  · intro hm
    have hcancels : (Call.cancelQueries filters).Cancels now c k := by
      rw [Call.Cancels, hmatching, Option.filter_some, if_pos hm]
      rfl
    rw [if_pos hcancels] at hflight
    have hw := c.withdraws_cancelQueries now filters
    constructor
    · apply hflight
    · rw [hw.cancelled]
      right
      use k, task, htask, hflight
    · rw [hw.aborted]
      right
      use k, task, htask, hflight
  · intro hm
    have hcancels : ¬ (Call.cancelQueries filters).Cancels now c k := by
      rw [Call.Cancels, hmatching, Option.filter_some, if_neg hm]
      simp
    rw [if_neg hcancels, htask] at hflight
    apply hflight

/-- Every fetch whose key meets the key and the fetch status criterion is cancelled, and
all fetches are counted. -/
structure CoversFetches (c : QueryClient V) (now : Instant) (filters : QueryFilters) : Prop where
  cancels : ∀ k task, c.inFlight.lookup k = some task → filters.AdmitsKey k →
    filters.AdmitsFetching → (c.cancelQueries now filters).1.Cancelled k task
  counts : c.isFetchingFiltered now {} = c.inFlight.keys.length

/-- The fetches of cached queries that meet every criterion are cancelled and no others of
cached queries, and the fetches of cached queries are counted. -/
theorem bulkFetches_cached
    (c : QueryClient V) (now : Instant) (filters : QueryFilters) (h : filters.predicate = none) :
  (∀ k task entry, c.inFlight.lookup k = some task → c.cache.lookup k = some entry →
    (filters.AdmitsKey k → filters.AdmitsFetching → filters.AdmitsEntry now entry →
      (c.cancelQueries now filters).1.Cancelled k task) ∧
    (¬ (filters.AdmitsKey k ∧ filters.AdmitsFetching ∧ filters.AdmitsEntry now entry) →
      (c.cancelQueries now filters).1.inFlight.lookup k = some task)) ∧
  c.isFetchingFiltered now {} =
    (c.inFlight.keys.filter fun k => (c.cache.lookup k).isSome).length
  := by
  constructor
  · intro k task entry htask hentry
    obtain ⟨hcancels, hkeeps⟩ := cancelQueries_cached now filters htask hentry
    rw [QueryFilters.matchQuery_iff h] at hcancels hkeeps
    use fun hkey hfetching hadmits => hcancels ⟨hkey, hfetching, hadmits⟩
  · apply isFetchingFiltered_all

/-- A client whose first fetch is in flight. -/
def firstLoad : QueryClient (String ⊕ Nat) :=
  QueryClient.new.setInFlight (.new "k") ⟨0, 0⟩

/-- A client that fetches anew what it has just cached. -/
def freshFetching : QueryClient (String ⊕ Nat) :=
  (QueryClient.new.setQueryData 0 (.new "k") (.inl "data") {}).setInFlight (.new "k") ⟨0, 0⟩

/-- The refetch of cached data is cancelled by its key, and counted. -/
theorem bulkFetches_cached_freshFetching :
  (freshFetching.cancelQueries 0 (.withKey (.new "k"))).1.Cancelled "k" ⟨0, 0⟩ ∧
    freshFetching.isFetchingFiltered 0 {} = 1
  := by
  obtain ⟨hcancels, hcounts⟩ := bulkFetches_cached freshFetching 0 (.withKey (.new "k")) rfl
  have hcached : (freshFetching.cache.lookup "k").isSome = true := by decide +kernel
  obtain ⟨entry, hentry⟩ := Option.isSome_iff_exists.mp hcached
  constructor
  · apply (hcancels "k" ⟨0, 0⟩ entry (by decide +kernel) hentry).1
    · rw [QueryFilters.AdmitsKey]
      decide +kernel
    · exact fun _ h => nomatch h
    · constructor
      · exact fun h => nomatch h
      · exact fun h => nomatch h
      · exact fun h => nomatch h
      · exact fun _ h => nomatch h
  · rw [hcounts]
    decide +kernel

/-- A first fetch is not cancelled by filters that admit everything, and filters for stale
data leave the fetch of fresh data. -/
theorem not_coversFetches :
  ¬ CoversFetches firstLoad 0 {} ∧ ¬ CoversFetches freshFetching 0 { stale := true }
  := by
  constructor
  · intro h
    have hwithdrawn := (h.cancels "k" ⟨0, 0⟩ (by decide +kernel) rfl fun _ h => nomatch h).withdrawn
    revert hwithdrawn
    decide +kernel
  · intro h
    have hwithdrawn := (h.cancels "k" ⟨0, 0⟩ (by decide +kernel) rfl fun _ h => nomatch h).withdrawn
    revert hwithdrawn
    decide +kernel

end QueryClient

end RsQuery
