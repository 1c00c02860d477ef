import RsQuery.Slots

/-!
# Invalidation and the key hierarchy

`invalidate_queries` compares cache keys as text, `invalidate_queries_filtered` compares
segments.  On keys whose segments have no colon the text of a pattern is a prefix of the
text of a key exactly when the pieces of the pattern run along those of the key, the last
one possibly stopping inside the piece facing it.  So an invalidation follows the key
hierarchy unless some cached key is misjudged, that is unless the pattern stops inside
one of its segments, and the misjudged entry is fresh or in flight.
-/

namespace RsQuery

namespace QueryKey

/-- No segment of the key contains a colon. -/
def ColonFree (k : QueryKey) : Prop :=
  ∀ s ∈ k.segments, ':' ∉ s.toList

/-- The key was not grown from no segments: its pieces are its segments. -/
def Plain (k : QueryKey) : Prop :=
  k.pieces = k.segments

instance (k : QueryKey) : Decidable k.Plain :=
  inferInstanceAs (Decidable (k.pieces = k.segments))

/-- The pieces of the pattern are those the key begins with, except that the last one
may stop inside the piece facing it; the key of no segments counts as an empty piece. -/
def RunsAlong (pattern k : QueryKey) : Prop :=
  pattern.pieces = [] ∨ (pattern.pieces = [""] ∧ k.pieces = []) ∨
    ∃ pre l x rest, pattern.pieces = pre ++ [l] ∧ k.pieces = pre ++ (l ++ x) :: rest

/-- The last segment of the pattern stops strictly inside the segment of the key facing
it, the segments before being the same; an empty segment stops inside no segments. -/
def StopsInside (pattern k : QueryKey) : Prop :=
  (pattern.segments = [""] ∧ k.segments = []) ∨
    ∃ pre l x rest, x ≠ "" ∧ pattern.segments = pre ++ [l] ∧
      k.segments = pre ++ (l ++ x) :: rest

/-- What the cache key of a key without colons is split into. -/
def resplit (k : QueryKey) : List String :=
  if k.pieces = [] then [""] else k.pieces

theorem ColonFree.pieces {k : QueryKey} (h : k.ColonFree) :
  Separator.Free ':' (k.pieces.map String.toList)
  := by
  have segments : Separator.Free ':' (k.segments.map String.toList) := by
    intro s hs
    obtain ⟨t, ht, rfl⟩ := List.mem_map.mp hs
    apply h t ht
  unfold QueryKey.pieces
  split
  · apply segments
  · rw [List.map_cons, Separator.Free.cons]
    use by simp

/-- Keys without colons: the text of the one is a prefix of the text of the other when
the pieces of the one run along those of the other. -/
theorem cacheKey_prefix_iff {pattern k : QueryKey} (hp : pattern.ColonFree) (hk : k.ColonFree) :
  pattern.cacheKey.toList <+: k.cacheKey.toList ↔ pattern.RunsAlong k
  := by
  rw [toList_cacheKey, toList_cacheKey]
  by_cases hp0 : pattern.pieces = []
  · simp [RunsAlong, hp0, Separator.join]
  by_cases hk0 : k.pieces = []
  · -- only the empty text is a prefix of the empty text
    rw [hk0]
    simp only [RunsAlong, hp0, hk0, Separator.join, List.map_nil, List.prefix_nil, false_or,
      and_true]
    constructor
    · intro h
      left
      obtain ⟨s, ss, hs⟩ := List.exists_cons_of_ne_nil hp0
      cases ss with
      | nil =>
        rw [hs]
        simpa [hs, Separator.join] using h
      | cons t ss => simp [hs, Separator.join] at h
    · rintro (h | ⟨pre, l, x, rest, -, h⟩)
      · simp [h, Separator.join]
      · simp at h
  rw [Separator.join_prefix_join_iff (by simpa using hp0) (by simpa using hk0) hp.pieces hk.pieces]
  simp only [RunsAlong, hp0, hk0, false_or, and_false]
  constructor
  · rintro ⟨pre, l, x, rest, h, h'⟩
    have map_ofList (ss : List (List Char)) (ts : List String) (h : ts.map String.toList = ss) :
        ts = ss.map String.ofList := by
      simp [← h]
    use pre.map String.ofList, String.ofList l, String.ofList x, rest.map String.ofList
    rw [map_ofList _ _ h, map_ofList _ _ h']
    simp
  · rintro ⟨pre, l, x, rest, h, h'⟩
    use pre.map String.toList, l.toList, x.toList, rest.map String.toList
    simp [h, h']

/-- Splitting the cache key of a key without colons. -/
theorem splitSegments_cacheKey {k : QueryKey} (hk : k.ColonFree) :
  splitSegments k.cacheKey = k.resplit
  := by
  rw [splitSegments, toList_cacheKey, resplit]
  split
  · next h => rw [h]; rfl
  · next h =>
    rw [Separator.split_join (by simpa using h) hk.pieces]
    simp

/-- Plain keys: the pieces run along without being a prefix exactly when the pattern
stops inside a segment. -/
theorem runsAlong_iff {pattern k : QueryKey} (hp : pattern.Plain) (hk : k.Plain) :
  pattern.RunsAlong k ↔ k.startsWith pattern = true ∨ pattern.StopsInside k
  := by
  rw [startsWith_iff, RunsAlong, StopsInside, hp, hk]
  constructor
  · rintro (h | h | ⟨pre, l, x, rest, h, h'⟩)
    · left
      simp [h]
    · right
      left
      apply h
    · by_cases hx : x = ""
      · left
        rw [h, h', hx, String.append_empty]
        use rest
        simp
      · right
        right
        use pre, l, x, rest
  · rintro (⟨rest, h⟩ | h | ⟨pre, l, x, rest, -, h⟩)
    · obtain h' | ⟨pre, l, h'⟩ := List.eq_nil_or_concat pattern.segments
      · left
        apply h'
      · right
        right
        use pre, l, "", rest
        rw [← h, h']
        simp
    · right
      left
      apply h
    · right
      right
      use pre, l, x, rest

/-- A pattern that stops inside a segment of the key is no prefix of it. -/
theorem StopsInside.not_startsWith {pattern k : QueryKey} (h : pattern.StopsInside k) :
  ¬ k.startsWith pattern = true
  := by
  rw [startsWith_iff]
  rintro ⟨rest', hrest⟩
  obtain ⟨hp, hk⟩ | ⟨pre, l, x, rest, hx, hp, hk⟩ := h
  · simp [hp, hk] at hrest
  · rw [hp, hk, List.append_assoc, List.append_cancel_left_eq] at hrest
    obtain ⟨hl, -⟩ := List.cons_eq_cons.mp hrest
    apply hx
    rw [← String.toList_inj] at hl ⊢
    simpa using hl

/-- The text of the pattern and its segments disagree on the key: on plain keys the
pattern stops inside a segment of the key. -/
def Misjudged (pattern k : QueryKey) : Prop :=
  if pattern.Plain ∧ k.Plain then pattern.StopsInside k
  else ¬ (pattern.RunsAlong k ↔ k.startsWith pattern = true)

/-- The text of the pattern and its segments disagree on the key as it is rebuilt from
its cache key, one of them not being plain. -/
def MisjudgedRebuilt (pattern k : QueryKey) : Prop :=
  ¬ (pattern.Plain ∧ k.Plain) ∧ ¬ (pattern.RunsAlong k ↔ pattern.segments <+: k.resplit)

theorem misjudged_iff {pattern k : QueryKey} :
  pattern.Misjudged k ↔ ¬ (pattern.RunsAlong k ↔ k.startsWith pattern = true)
  := by
  unfold Misjudged
  split
  · next h =>
    rw [runsAlong_iff h.1 h.2]
    constructor
    · intro hs heq
      apply hs.not_startsWith (heq.mp (.inr hs))
    · intro hne
      by_contra hs
      simp [hs] at hne
  · rfl

/-- On plain keys the rebuilt key is misjudged only if the key is. -/
theorem misjudged_of_rebuilt {pattern k : QueryKey} (hp : pattern.Plain) (hk : k.Plain)
    (h : ¬ (pattern.RunsAlong k ↔ pattern.segments <+: k.resplit)) :
  pattern.Misjudged k
  := by
  rw [misjudged_iff, startsWith_iff]
  intro heq
  apply h
  rw [resplit]
  split
  · next hk0 =>
    rw [RunsAlong, hp, hk0]
    constructor
    · rintro (h | ⟨h, -⟩ | ⟨pre, l, x, rest, -, h⟩)
      · simp [h]
      · simp [h]
      · simp at h
    · intro h
      obtain h | ⟨t, h, ht⟩ := List.prefix_cons_iff.mp h
      · left
        apply h
      · right
        left
        rw [List.prefix_nil.mp ht] at h
        use h
  · rw [heq, hk]

end QueryKey

namespace QueryClient

variable {V : Type}

/-- The entries of the client are those written under the keys. -/
def Holds (c : QueryClient V) (keys : List QueryKey) : Prop :=
  ∀ s, (c.cache.lookup s).isSome = true ↔ ∃ k ∈ keys, k.cacheKey = s

/-- The entry of the key has its stale flag set. -/
def FlaggedStale (c : QueryClient V) (k : QueryKey) : Prop :=
  ∀ e ∈ (c.slot k.cacheKey).entry, e.isStale = true

/-- Invalidating the pattern follows the key hierarchy: among the keys of the entries,
those that start with the pattern segment-wise are marked stale and have their fetch
withdrawn, the others are untouched, nothing else is cancelled, and the entries marked
are those a filtered invalidation marks. -/
structure FollowsHierarchy (c : QueryClient V) (now : Instant) (keys : List QueryKey)
    (pattern : QueryKey) : Prop where
  marked : ∀ k ∈ keys, k.startsWith pattern = true →
    ((c.invalidateQueries pattern).slot k.cacheKey).entry = (c.slot k.cacheKey).markStale.entry ∧
      ((c.invalidateQueries pattern).slot k.cacheKey).task = none
  untouched : ∀ k ∈ keys, ¬ k.startsWith pattern = true →
    ((c.invalidateQueries pattern).slot k.cacheKey).entry = (c.slot k.cacheKey).entry ∧
      ((c.invalidateQueries pattern).slot k.cacheKey).task = (c.slot k.cacheKey).task
  uncached : ∀ s, (c.slot s).entry = none →
    ((c.invalidateQueries pattern).slot s).task = (c.slot s).task
  cancelled : ∀ t, t ∈ (c.invalidateQueries pattern).signals.cancelled ↔
    t ∈ c.signals.cancelled ∨ ∃ k ∈ keys, k.startsWith pattern = true ∧
      ∃ task, (c.slot k.cacheKey).task = some task ∧ task.cancelToken = t
  aborted : ∀ t, t ∈ (c.invalidateQueries pattern).signals.aborted ↔
    t ∈ c.signals.aborted ∨ ∃ k ∈ keys, k.startsWith pattern = true ∧
      ∃ task, (c.slot k.cacheKey).task = some task ∧ task.abort = t
  filtered : ∀ refetchType s,
    ((c.invalidateQueries pattern).slot s).entry.map CacheEntry.isStale
      = ((c.invalidateQueriesFiltered now ⟨.withKey pattern, refetchType⟩).1.slot s).entry.map
          CacheEntry.isStale

theorem mem_keysToInvalidate {c : QueryClient V} {pattern : QueryKey} {s : String} :
  s ∈ c.keysToInvalidate pattern ↔
    (c.cache.lookup s).isSome = true ∧ pattern.cacheKey.toList <+: s.toList
  := by
  simp only [keysToInvalidate, List.mem_filter, Bool.or_eq_true, List.isPrefixOf_iff_prefix,
    beq_iff_eq, AList.lookup_isSome]
  constructor
  · rintro ⟨hs, h | rfl⟩
    · exact ⟨hs, h⟩
    · exact ⟨hs, List.prefix_rfl⟩
  · rintro ⟨hs, h⟩
    exact ⟨hs, .inl h⟩

/-- The slot of an entry after an invalidation by text. -/
theorem slot_invalidateQueries_of_holds
    {c : QueryClient V} {keys : List QueryKey} {pattern k : QueryKey} (hkeys : c.Holds keys)
    (hk : k ∈ keys) (hcp : pattern.ColonFree) (hck : k.ColonFree) :
  (pattern.RunsAlong k →
    ((c.invalidateQueries pattern).slot k.cacheKey).entry = (c.slot k.cacheKey).markStale.entry ∧
      ((c.invalidateQueries pattern).slot k.cacheKey).task = none) ∧
  (¬ pattern.RunsAlong k → (c.invalidateQueries pattern).slot k.cacheKey = c.slot k.cacheKey)
  := by
  have hsome := (hkeys k.cacheKey).mpr ⟨k, hk, rfl⟩
  have hmem : k.cacheKey ∈ c.keysToInvalidate pattern ↔ pattern.RunsAlong k := by
    rw [mem_keysToInvalidate, QueryKey.cacheKey_prefix_iff hcp hck]
    simp [hsome]
  rw [slot_invalidateQueries, ← hmem]
  constructor
  · intro h
    obtain ⟨e, he⟩ := Option.isSome_iff_exists.mp hsome
    have hentry : (c.slot k.cacheKey).entry = some e := he
    rw [if_pos h, Slot.invalidate, hentry]
    exact ⟨rfl, rfl⟩
  · intro h
    rw [if_neg h]

/-- The flag of an entry after a filtered invalidation. -/
theorem entry_filtered_of_holds
    {c : QueryClient V} {keys : List QueryKey} {k : QueryKey} (hkeys : c.Holds keys)
    (hk : k ∈ keys) (hck : k.ColonFree) (now : Instant) (pattern : QueryKey)
    (refetchType : RefetchType) :
  ((c.invalidateQueriesFiltered now ⟨.withKey pattern, refetchType⟩).1.slot k.cacheKey).entry
    = if pattern.segments <+: k.resplit then (c.slot k.cacheKey).markStale.entry
      else (c.slot k.cacheKey).entry
  := by
  have hsome := (hkeys k.cacheKey).mpr ⟨k, hk, rfl⟩
  obtain ⟨e, he⟩ := Option.isSome_iff_exists.mp hsome
  have hmem : k.cacheKey ∈ (c.matchingEntries now (.withKey pattern)).map Prod.fst ↔
      pattern.segments <+: k.resplit := by
    have hmatch (snapshot : QuerySnapshot) :
        matchQuery snapshot (.withKey pattern) = snapshot.key.startsWith pattern := by
      simp [matchQuery, QueryFilters.withKey, keyMatches]
    have hkey (inFlight : Bool) :
        (entrySnapshot now k.cacheKey e inFlight).key.segments = k.resplit := by
      rw [entrySnapshot, QueryKey.fromSegments_segments, QueryKey.splitSegments_cacheKey hck]
    rw [List.mem_map]
    constructor
    · rintro ⟨⟨s, snapshot⟩, hm, rfl⟩
      obtain ⟨e', he', hs, hq⟩ := mem_matchingEntries.mp hm
      obtain rfl := Option.some.inj (he.symm.trans he')
      simp only at hs
      rwa [hmatch, hs, QueryKey.startsWith_iff, hkey] at hq
    · intro h
      use (k.cacheKey, entrySnapshot now k.cacheKey e (c.inFlight.lookup k.cacheKey).isSome)
      rw [mem_matchingEntries]
      constructor
      · use e, he, rfl
        rwa [hmatch, QueryKey.startsWith_iff, hkey]
      · rfl
  rw [entry_invalidateQueriesFiltered]
  simp only [hmem]

theorem isInFlight_eq_false {c : QueryClient V} {k : QueryKey} :
  c.isInFlight k = false ↔ (c.slot k.cacheKey).task = none
  := Option.isSome_eq_false_iff.trans Option.isNone_iff_eq_none

theorem markStale_entry_eq_iff {x : Slot V} :
  x.markStale.entry = x.entry ↔ ∀ e ∈ x.entry, e.isStale = true
  := by
  obtain ⟨_ | e, task, sender⟩ := x
  · simp [Slot.markStale]
  · simp only [Slot.markStale, Option.map_some, Option.some.injEq, Option.mem_def, forall_eq']
    constructor
    · intro h
      rw [← h]
    · intro h
      rw [← h]

/-- The conditions of `invalidateQueries_followsHierarchy_iff` are enough. -/
theorem followsHierarchy_of
    {c : QueryClient V} {now : Instant} {keys : List QueryKey} {pattern : QueryKey}
    (hkeys : c.Holds keys) (hcp : pattern.ColonFree) (hck : ∀ k ∈ keys, k.ColonFree)
    (h : ∀ k ∈ keys,
      (pattern.Misjudged k → c.FlaggedStale k ∧ c.isInFlight k = false) ∧
        (pattern.MisjudgedRebuilt k → c.FlaggedStale k)) :
  c.FollowsHierarchy now keys pattern
  := by
  have slots (k : QueryKey) (hk : k ∈ keys) :=
    slot_invalidateQueries_of_holds hkeys hk hcp (hck k hk)
  -- a misjudged entry is as an invalidation would leave it
  have settled (k : QueryKey) (hk : k ∈ keys) (hm : pattern.Misjudged k) :
      (c.slot k.cacheKey).markStale.entry = (c.slot k.cacheKey).entry ∧
        (c.slot k.cacheKey).task = none := by
    obtain ⟨hs, hi⟩ := (h k hk).1 hm
    use markStale_entry_eq_iff.mpr hs, isInFlight_eq_false.mp hi
  have marked (k : QueryKey) (hk : k ∈ keys) (hsw : k.startsWith pattern = true) :
      ((c.invalidateQueries pattern).slot k.cacheKey).entry
          = (c.slot k.cacheKey).markStale.entry ∧
        ((c.invalidateQueries pattern).slot k.cacheKey).task = none := by
    by_cases hr : pattern.RunsAlong k
    · apply (slots k hk).1 hr
    · obtain ⟨he, ht⟩ := settled k hk (QueryKey.misjudged_iff.mpr (by simp [hr, hsw]))
      rw [(slots k hk).2 hr, he]
      use rfl
  have untouched (k : QueryKey) (hk : k ∈ keys) (hsw : ¬ k.startsWith pattern = true) :
      ((c.invalidateQueries pattern).slot k.cacheKey).entry = (c.slot k.cacheKey).entry ∧
        ((c.invalidateQueries pattern).slot k.cacheKey).task = (c.slot k.cacheKey).task := by
    by_cases hr : pattern.RunsAlong k
    · obtain ⟨he, ht⟩ := settled k hk (QueryKey.misjudged_iff.mpr (by simp [hr, hsw]))
      rw [← he, ht]
      apply (slots k hk).1 hr
    · rw [(slots k hk).2 hr]
      exact ⟨rfl, rfl⟩
  have uncached (s : String) (hs : (c.slot s).entry = none) :
      (c.invalidateQueries pattern).slot s = c.slot s := by
    rw [slot_invalidateQueries, if_neg]
    intro hmem
    have hs : c.cache.lookup s = none := hs
    simp [mem_keysToInvalidate, hs] at hmem
  have cached (s : String) : (c.slot s).entry = none ∨ ∃ k ∈ keys, k.cacheKey = s := by
    rw [← hkeys s]
    cases hs : c.cache.lookup s with
    | none => exact .inl hs
    | some e => exact .inr rfl
  -- the registrations withdrawn are those of the keys that start with the pattern
  have withdrawn (f : InFlightTask → Nat) (t : Nat) :
      (∃ s task, c.inFlight.lookup s = some task ∧
        (c.invalidateQueries pattern).inFlight.lookup s = none ∧ f task = t) ↔
        ∃ k ∈ keys, k.startsWith pattern = true ∧
          ∃ task, (c.slot k.cacheKey).task = some task ∧ f task = t := by
    constructor
    · rintro ⟨s, task, hs, hs', ht⟩
      obtain hnone | ⟨k, hk, rfl⟩ := cached s
      · have heq : (c.invalidateQueries pattern).inFlight.lookup s = c.inFlight.lookup s :=
          congrArg Slot.task (uncached s hnone)
        rw [heq, hs] at hs'
        contradiction
      · use k, hk
        constructor
        · by_contra hsw
          have heq : (c.invalidateQueries pattern).inFlight.lookup k.cacheKey
              = c.inFlight.lookup k.cacheKey := (untouched k hk hsw).2
          rw [heq, hs] at hs'
          contradiction
        · use task, hs
    · rintro ⟨k, hk, hsw, task, htask, ht⟩
      use k.cacheKey, task, htask, (marked k hk hsw).2
  have hw := withdraws_invalidateQueries c pattern
  constructor
  case marked => apply marked
  case untouched => apply untouched
  case uncached =>
    intro s hs
    rw [uncached s hs]
  case cancelled =>
    intro t
    rw [hw.cancelled, withdrawn]
  case aborted =>
    intro t
    rw [hw.aborted, withdrawn]
  case filtered =>
    intro refetchType s
    obtain hnone | ⟨k, hk, rfl⟩ := cached s
    · rw [uncached s hnone, entry_invalidateQueriesFiltered]
      simp [Slot.markStale, hnone]
    · rw [entry_filtered_of_holds hkeys hk (hck k hk)]
      have flags_eq (hne : ¬ (pattern.RunsAlong k ↔ pattern.segments <+: k.resplit)) :
          (c.slot k.cacheKey).markStale.entry = (c.slot k.cacheKey).entry := by
        by_cases hplain : pattern.Plain ∧ k.Plain
        · apply (settled k hk (QueryKey.misjudged_of_rebuilt hplain.1 hplain.2 hne)).1
        · apply markStale_entry_eq_iff.mpr ((h k hk).2 ⟨hplain, hne⟩)
      by_cases hr : pattern.RunsAlong k
      · rw [((slots k hk).1 hr).1]
        split
        · rfl
        · next hpre => rw [flags_eq (by simp [hr, hpre])]
      · rw [(slots k hk).2 hr]
        split
        · next hpre => rw [flags_eq (by simp [hr, hpre])]
        · rfl

/-- An invalidation follows the key hierarchy exactly when every entry whose key the
text of the pattern misjudges is stale already and has nothing in flight. -/
theorem invalidateQueries_followsHierarchy_iff
    (c : QueryClient V) (now : Instant) (keys : List QueryKey) (pattern : QueryKey)
    (hkeys : c.Holds keys) (hcp : pattern.ColonFree) (hck : ∀ k ∈ keys, k.ColonFree) :
  c.FollowsHierarchy now keys pattern ↔ ∀ k ∈ keys,
    (pattern.Misjudged k → c.FlaggedStale k ∧ c.isInFlight k = false) ∧
      (pattern.MisjudgedRebuilt k → c.FlaggedStale k)
  := by
  constructor
  case mpr => apply followsHierarchy_of hkeys hcp hck
  intro hf k hk
  obtain ⟨runs, stops⟩ := slot_invalidateQueries_of_holds hkeys hk hcp (hck k hk)
  constructor
  · intro hm
    rw [QueryKey.misjudged_iff] at hm
    suffices h : (c.slot k.cacheKey).markStale.entry = (c.slot k.cacheKey).entry ∧
        (c.slot k.cacheKey).task = none by
      use markStale_entry_eq_iff.mp h.1, isInFlight_eq_false.mpr h.2
    by_cases hr : pattern.RunsAlong k
    · obtain ⟨he, ht⟩ := hf.untouched k hk (by simpa [hr] using hm)
      obtain ⟨he', ht'⟩ := runs hr
      rw [← he, ← ht]
      use he'.symm
    · obtain ⟨he, ht⟩ := hf.marked k hk (by simpa [hr] using hm)
      rw [stops hr] at he ht
      use he.symm
  · rintro ⟨-, hm⟩
    have heq := hf.filtered .all k.cacheKey
    rw [entry_filtered_of_holds hkeys hk (hck k hk)] at heq
    have flagged (h : (c.slot k.cacheKey).markStale.entry.map CacheEntry.isStale
        = (c.slot k.cacheKey).entry.map CacheEntry.isStale) : c.FlaggedStale k := by
      intro e he
      rw [Slot.markStale, Option.mem_def.mp he] at h
      apply (Option.some.inj h).symm
    apply flagged
    by_cases hr : pattern.RunsAlong k
    · rwa [(runs hr).1, if_neg (by simpa [hr] using hm)] at heq
    · rw [stops hr, if_pos (by simpa [hr] using hm)] at heq
      apply heq.symm

theorem Holds.setQueryData {W : Type} [PartialEqAny W] {c : QueryClient W} {keys : List QueryKey}
    (h : c.Holds keys) (now : Instant) (k : QueryKey) (data : W) (options : QueryOptions) :
  (c.setQueryData now k data options).Holds (k :: keys)
  := by
  intro s
  simp only [QueryClient.setQueryData, (notifySubscribers_frame _ _ _).1, storeQueryData,
    Table.lookup_insert_eq, List.mem_cons, exists_eq_or_imp]
  split
  · next hs => simp [hs]
  · next hs => simp [h s, Ne.symm hs]

/-- A client with a fresh entry under each of the keys. -/
def cachedUnder (keys : List QueryKey) : QueryClient (String ⊕ Nat) :=
  keys.foldr (fun k c => c.setQueryData 0 k (.inl "ada") {}) new

theorem cachedUnder_holds (keys : List QueryKey) :
  (cachedUnder keys).Holds keys
  := by
  induction keys with
  | nil =>
    intro s
    simp [cachedUnder, new]
  | cons k keys ih => apply ih.setQueryData

/-- A client with a fresh entry under `"users"`. -/
def usersCached : QueryClient (String ⊕ Nat) :=
  cachedUnder [.new "users"]

/-- The keys of all users, of a user and of his posts, of all posts and of their authors. -/
def blogKeys : List QueryKey :=
  [.new "users", (QueryKey.new "users").withParam "id" 1,
    ((QueryKey.new "users").withParam "id" 1).segment "posts", .new "posts",
    (QueryKey.new "posts").segment "users"]

theorem blogKeys_colonFree :
  ∀ k ∈ blogKeys, k.ColonFree
  := by
  simp only [QueryKey.ColonFree, blogKeys]
  decide

/-- The pattern `"users"` stops inside no segment of the keys. -/
theorem not_misjudged_blogKeys :
  ∀ k ∈ blogKeys, ¬ (QueryKey.new "users").Misjudged k ∧
    ¬ (QueryKey.new "users").MisjudgedRebuilt k
  := by
  have plain : ∀ k ∈ blogKeys, (QueryKey.new "users").Plain ∧ k.Plain := by decide
  have head : ∀ k ∈ blogKeys, k.segments.head? = some "users" ∨ k.segments.head? = some "posts" := by
    decide
  intro k hk
  rw [QueryKey.Misjudged, QueryKey.MisjudgedRebuilt, if_pos (plain k hk)]
  refine ⟨?_, fun h => h.1 (plain k hk)⟩
  rintro (⟨h, -⟩ | ⟨pre, l, x, rest, hx, hp, hsegments⟩)
  · revert h
    decide
  · have hp : [] ++ ["users"] = pre ++ [l] := hp
    obtain ⟨rfl, hl⟩ := List.append_inj' hp rfl
    obtain rfl := List.singleton_inj.mp hl
    have hhead := head k hk
    rw [hsegments] at hhead
    rcases hhead with h | h
    · apply hx
      have heq := congrArg String.toList (Option.some.inj h)
      rw [← String.toList_inj]
      simpa using heq
    · have heq := congrArg String.toList (Option.some.inj h)
      simp at heq

/-- Invalidating `"users"` among the keys of users and posts. -/
theorem invalidateQueries_followsHierarchy_iff_blog :
  (cachedUnder blogKeys).FollowsHierarchy 5 blogKeys (.new "users")
  := by
  have colonFree : (QueryKey.new "users").ColonFree :=
    blogKeys_colonFree _ List.mem_cons_self
  apply (invalidateQueries_followsHierarchy_iff _ _ _ _ (cachedUnder_holds blogKeys) colonFree
    blogKeys_colonFree).mpr
  intro k hk
  obtain ⟨hmisjudged, hrebuilt⟩ := not_misjudged_blogKeys k hk
  exact ⟨fun h => absurd h hmisjudged, fun h => absurd h hrebuilt⟩

/-- Invalidating `"user"` marks `"users"` stale. -/
theorem not_followsHierarchy_user :
  ¬ ∀ (c : QueryClient (String ⊕ Nat)) (now : Instant) (keys : List QueryKey)
      (pattern : QueryKey), c.Holds keys → pattern.ColonFree → (∀ k ∈ keys, k.ColonFree) →
    c.FollowsHierarchy now keys pattern
  := by
  intro h
  have colonFree (s : String) (hs : ':' ∉ s.toList) : (QueryKey.new s).ColonFree := by
    simpa [QueryKey.ColonFree, QueryKey.new] using hs
  have hf := h usersCached 5 [.new "users"] (.new "user") (cachedUnder_holds _)
    (colonFree _ (by decide)) (by simpa using colonFree "users" (by decide))
  obtain ⟨he, -⟩ := hf.untouched (.new "users") (by simp) (by decide)
  have hflag := congrArg (Option.map CacheEntry.isStale) he
  revert hflag
  decide

end QueryClient

end RsQuery
