import RsQuery.Slots

/-!
# Filtered invalidation

`invalidate_queries_filtered` goes through the entries that match its filters twice: first
it marks every one of them stale, then it triggers the refetch of those the refetch type
admits.  Neither pass changes which entries match or which of them are active, since both
were read before the first.
-/

namespace RsQuery

namespace QueryClient

variable {V : Type} {c : QueryClient V} {now : Instant} {k : String}

/-- There is an entry under the cache key, and it matches the filters. -/
def Matches (c : QueryClient V) (now : Instant) (filters : QueryFilters) (k : String) : Prop :=
  (c.matching now filters k).isSome = true

/-- The entry under the cache key matches, and is one of those the refetch type admits. -/
def InSubset (c : QueryClient V) (now : Instant) (filters : QueryFilters)
    (refetchType : RefetchType) (k : String) : Prop :=
  ∃ m ∈ c.matching now filters k, shouldRefetch refetchType m = true

instance (c : QueryClient V) (now : Instant) (filters : QueryFilters) (k : String) :
    Decidable (c.Matches now filters k) :=
  inferInstanceAs (Decidable (_ = true))

instance (c : QueryClient V) (now : Instant) (filters : QueryFilters) (refetchType : RefetchType)
    (k : String) : Decidable (c.InSubset now filters refetchType k) :=
  inferInstanceAs (Decidable (∃ m ∈ c.matching now filters k, _))

/-- From `c` to `c'` the matching entries are marked stale, and those of the refetch subset
have their fetch withdrawn and cancelled and their subscribers told they are loading;
no other entry, registration or channel changes.  The subsets are as they were in `c`. -/
structure MarksAndTriggers (c : QueryClient V) (now : Instant) (filters : QueryFilters)
    (refetchType : RefetchType) (c' : QueryClient V) : Prop where
  entry : ∀ k, c'.cache.lookup k
    = if c.Matches now filters k then
        (c.cache.lookup k).map fun e => { e with isStale := true }
      else c.cache.lookup k
  task : ∀ k, c'.inFlight.lookup k
    = if c.InSubset now filters refetchType k then none else c.inFlight.lookup k
  cancelled : ∀ t, t ∈ c'.signals.cancelled ↔ t ∈ c.signals.cancelled ∨
    ∃ k, c.InSubset now filters refetchType k ∧
      ∃ task ∈ c.inFlight.lookup k, task.cancelToken = t
  aborted : ∀ t, t ∈ c'.signals.aborted ↔ t ∈ c.signals.aborted ∨
    ∃ k, c.InSubset now filters refetchType k ∧ ∃ task ∈ c.inFlight.lookup k, task.abort = t
  told : ∀ k, c'.subscribers.lookup k
    = if c.InSubset now filters refetchType k then
        (c.subscribers.lookup k).map fun sender => (Bus.send sender ⟨k, .loading⟩).1
      else c.subscribers.lookup k
  toldAll : ∃ ks : List String, ks.Nodup ∧ (∀ k, k ∈ ks ↔ c.InSubset now filters refetchType k) ∧
    c'.allSubscribers
      = ks.foldl (fun all k => (Bus.send all ⟨k, .loading⟩).1) c.allSubscribers

/-! ### The subsets -/

theorem matches_iff {filters : QueryFilters} :
  c.Matches now filters k ↔ k ∈ (c.matchingEntries now filters).map Prod.fst
  := by
  rw [Matches, ← not_iff_not, ← matching_eq_none]
  simp

theorem inSubset_iff {filters : QueryFilters} {refetchType : RefetchType} :
  c.InSubset now filters refetchType k ↔
    k ∈ ((c.matchingEntries now filters).filter
      fun m => shouldRefetch refetchType m.2).map Prod.fst
  := by
  simp [InSubset, matching_eq_some]

/-- The entries that match are those of the subset of all, which the active and the
inactive ones divide; the subset of none is empty. -/
theorem subset_partition
    (c : QueryClient V) (now : Instant) (filters : QueryFilters) (k : String) :
  (c.InSubset now filters .all k ↔ c.Matches now filters k) ∧
    (c.InSubset now filters .all k ↔
      c.InSubset now filters .active k ∨ c.InSubset now filters .inactive k) ∧
    ¬ (c.InSubset now filters .active k ∧ c.InSubset now filters .inactive k) ∧
    ¬ c.InSubset now filters .none k
  := by
  simp only [InSubset, Matches, shouldRefetch]
  cases c.matching now filters k with
  | none => simp
  | some m => cases h : m.isActive with
    | false => simp [h]
    | true => simp [h]

/-- The matches are counted among the cached keys. -/
theorem length_matchingEntries (c : QueryClient V) (now : Instant) (filters : QueryFilters) :
  (c.matchingEntries now filters).length
    = (c.cache.keys.filter fun k => c.Matches now filters k).length
  := by
  rw [← List.length_map Prod.fst]
  apply List.Perm.length_eq
  apply (List.perm_ext_iff_of_nodup (nodup_matchingEntries c now filters)
    ((AList.keys_nodup c.cache).filter _)).mpr
  intro k
  rw [List.mem_filter, decide_eq_true_iff, matches_iff]
  constructor
  · intro h
    refine ⟨?_, h⟩
    obtain ⟨m, hm, rfl⟩ := List.mem_map.mp h
    obtain ⟨entry, hentry, -⟩ := mem_matchingEntries.mp hm
    apply AList.lookup_isSome.mp
    rw [hentry, Option.isSome_some]
  · apply And.right

/-! ### What every subscriber is told -/

theorem notifySubscribers_allSubscribers
    (c : QueryClient V) (k : String) (variant : QueryStateVariant) :
  (c.notifySubscribers k variant).allSubscribers = (Bus.send c.allSubscribers ⟨k, variant⟩).1
  := by
  simp only [notifySubscribers, wake]
  split
  · rfl
  · rfl

theorem withdraw_allSubscribers (c : QueryClient V) (k : String) :
  (c.withdraw k).allSubscribers = c.allSubscribers
  := by
  unfold withdraw
  split
  · rfl
  · rfl

theorem forEach_markStale_allSubscribers (ms : List (String × QuerySnapshot))
    (c : QueryClient V) :
  (forEach (uncounted fun c m => c.markStale m.1) ms c).1.allSubscribers = c.allSubscribers
  := by
  induction ms generalizing c with
  | nil => rfl
  | cons m ms ih => apply ih

theorem forEach_triggerRefetch_allSubscribers (ms : List (String × QuerySnapshot))
    (c : QueryClient V) :
  (forEach (uncounted fun c m => c.triggerRefetch m.1) ms c).1.allSubscribers
    = (ms.map Prod.fst).foldl (fun all k => (Bus.send all ⟨k, .loading⟩).1) c.allSubscribers
  := by
  induction ms generalizing c with
  | nil => rfl
  | cons m ms ih =>
    have hm : (c.triggerRefetch m.1).allSubscribers
        = (Bus.send c.allSubscribers ⟨m.1, .loading⟩).1 := by
      rw [triggerRefetch, notifySubscribers_allSubscribers, markStale, withdraw_allSubscribers]
    rw [List.map_cons, List.foldl_cons, ← hm]
    apply ih

/-! ### The two passes -/

/-- What the marks leave as it is changes for the subset only. -/
theorem subset_invalidateQueriesFiltered {W : Type} (f : Slot V → W)
    (hf : ∀ x : Slot V, f x.markStale = f x)
    (c : QueryClient V) (now : Instant) (filters : InvalidateQueryFilters) (k : String) :
  f ((c.invalidateQueriesFiltered now filters).1.slot k)
    = if c.InSubset now filters.filters filters.refetchType k then
        f ((c.slot k).markStale.triggerRefetch k)
      else f (c.slot k)
  := by
  rw [slot_invalidateQueriesFiltered]
  cases hm : c.matching now filters.filters k with
  | none => simp [InSubset, hm]
  | some m =>
    cases hr : shouldRefetch filters.refetchType m with
    | false => simp [InSubset, hm, hr, hf]
    | true => simp [InSubset, hm, hr]

/-- A filtered invalidation returns the number of matches, marks these stale and triggers
the refetch of the subset, and the active and inactive ones divide all matches. -/
theorem invalidateQueriesFiltered_marksAndTriggers
    (c : QueryClient V) (now : Instant) (filters : InvalidateQueryFilters) :
  (c.invalidateQueriesFiltered now filters).2
      = (c.cache.keys.filter fun k => c.Matches now filters.filters k).length ∧
    c.MarksAndTriggers now filters.filters filters.refetchType
      (c.invalidateQueriesFiltered now filters).1 ∧
    ∀ k, (c.InSubset now filters.filters .all k ↔ c.Matches now filters.filters k) ∧
      (c.InSubset now filters.filters .all k ↔
        c.InSubset now filters.filters .active k ∨ c.InSubset now filters.filters .inactive k) ∧
      ¬ (c.InSubset now filters.filters .active k ∧ c.InSubset now filters.filters .inactive k) ∧
      ¬ c.InSubset now filters.filters .none k
  := by
  refine ⟨length_matchingEntries c now filters.filters, ?_, subset_partition c now filters.filters⟩
  have hw := withdraws_invalidateQueriesFiltered c now filters
  have task (k : String) : (c.invalidateQueriesFiltered now filters).1.inFlight.lookup k
      = if c.InSubset now filters.filters filters.refetchType k then none
        else c.inFlight.lookup k :=
    subset_invalidateQueriesFiltered Slot.task (fun _ => rfl) c now filters k
  -- what is gone is what the subset had in flight
  have withdrawn (f : InFlightTask → Nat) (t : Nat) :
      (∃ k task, c.inFlight.lookup k = some task ∧
        (c.invalidateQueriesFiltered now filters).1.inFlight.lookup k = none ∧ f task = t) ↔
        ∃ k, c.InSubset now filters.filters filters.refetchType k ∧
          ∃ task ∈ c.inFlight.lookup k, f task = t := by
    constructor
    · rintro ⟨k, x, hx, hnone, ht⟩
      refine ⟨k, ?_, x, hx, ht⟩
      by_contra hsub
      rw [task, if_neg hsub, hx] at hnone
      contradiction
    · rintro ⟨k, hsub, x, hx, ht⟩
      refine ⟨k, x, hx, ?_, ht⟩
      rw [task, if_pos hsub]
  constructor
  case entry =>
    intro k
    have hentry := entry_invalidateQueriesFiltered c now filters k
    simp only [matches_iff]
    apply hentry
  case task => apply task
  case cancelled =>
    intro t
    rw [hw.cancelled, withdrawn]
  case aborted =>
    intro t
    rw [hw.aborted, withdrawn]
  case told =>
    intro k
    have hsender := subset_invalidateQueriesFiltered Slot.sender (fun _ => rfl) c now filters k
    apply hsender
  case toldAll =>
    use ((c.matchingEntries now filters.filters).filter
      fun m => shouldRefetch filters.refetchType m.2).map Prod.fst
    refine ⟨?_, fun k => inSubset_iff.symm, ?_⟩
    · apply (nodup_matchingEntries c now filters.filters).sublist (List.filter_sublist.map _)
    · rw [invalidateQueriesFiltered, forEach_triggerRefetch_allSubscribers,
        forEach_markStale_allSubscribers]

end QueryClient

end RsQuery
