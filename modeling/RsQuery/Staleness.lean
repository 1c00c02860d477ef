import RsQuery.Slots

/-!
# Staleness by time

Options can tell whether data is stale by time, and know that static data never is.  The
client does not ask them: it writes the test out wherever it needs it, and each copy
compares the stale time and forgets the static flag.  The flag is cleared when a stale time
is set, so the copies go wrong on options that were made static over a stale time.
-/

namespace RsQuery

/-- A call of the builder of `QueryOptions`. -/
inductive OptionCall where
  | staleTime (staleTime : Duration)
  | staleTimeStatic
  | gcTime (gcTime : Duration)
  | retry (retry : RetryConfig)
  | enabled (enabled : Bool)
  | enabledFn (enabledFn : Unit → Bool)
  | refetchOnWindowFocus (trigger : RefetchTrigger)
  | refetchOnReconnect (trigger : RefetchTrigger)
  | refetchOnMount (trigger : RefetchTrigger)
  | refetchInterval (interval : Duration)
  | refetchIntervalInBackground (allow : Bool)
  | structuralSharing (enabled : Bool)
  | networkMode (mode : NetworkMode)
  | retryOnMount (retryOnMount : Bool)
  | throwOnError (throwOnError : Bool)
  | notifyOnChangeProps (props : List String)
  | metadata (key value : String)

/-- The options after the call. -/
def OptionCall.apply (call : OptionCall) (o : QueryOptions) : QueryOptions :=
  match call with
  | .staleTime d => { o with staleTime := d, staleTimeStatic := false }
  | .staleTimeStatic => { o with staleTimeStatic := true }
  | .gcTime d => { o with gcTime := d }
  | .retry config => { o with retry := config }
  | .enabled b => { o with enabled := b }
  | .enabledFn f => { o with enabledFn := some f }
  | .refetchOnWindowFocus trigger => { o with refetchOnWindowFocus := trigger }
  | .refetchOnReconnect trigger => { o with refetchOnReconnect := trigger }
  | .refetchOnMount trigger => { o with refetchOnMount := trigger }
  | .refetchInterval interval => { o with refetchInterval := interval }
  | .refetchIntervalInBackground allow => { o with refetchIntervalInBackground := allow }
  | .structuralSharing b => { o with structuralSharing := b }
  | .networkMode mode => { o with networkMode := mode }
  | .retryOnMount b => { o with retryOnMount := b }
  | .throwOnError b => { o with throwOnError := b }
  | .notifyOnChangeProps props => { o with notifyOnChangeProps := some props }
  | .metadata key value => { o with metadata := o.metadata.insert key value }

namespace QueryOptions

/-- The options that the calls make out of others, one after another. -/
def after (o : QueryOptions) (calls : List OptionCall) : QueryOptions :=
  calls.foldl (fun o call => call.apply o) o

/-- The options that the calls make out of the defaults. -/
def build (calls : List OptionCall) : QueryOptions :=
  after {} calls

/-- Whether data fetched at `fetchedAt` is stale by time. -/
def isStaleByTime (o : QueryOptions) (now fetchedAt : Instant) : Bool :=
  if o.staleTimeStatic then false
  else if o.staleTime = 0 then false
  else Instant.elapsed now fetchedAt > o.staleTime

/-- The calls make options static over the stale time `d`: the last stale time they set is
`d`, and `stale_time_static` comes after it. -/
def StaticOver (calls : List OptionCall) (d : Duration) : Prop :=
  ∃ pre post, calls = pre ++ .staleTime d :: post ∧ (∀ d', .staleTime d' ∉ post) ∧
    .staleTimeStatic ∈ post

/-- Calls that set no stale time keep it, and make the options static if they say so. -/
theorem after_of_not_mem {calls : List OptionCall} (h : ∀ d, .staleTime d ∉ calls)
    (o : QueryOptions) :
  (o.after calls).staleTime = o.staleTime ∧
    ((o.after calls).staleTimeStatic = true ↔
      o.staleTimeStatic = true ∨ .staleTimeStatic ∈ calls)
  := by
  induction calls generalizing o with
  | nil => simp [after]
  | cons call calls ih =>
    have hcalls (d : Duration) : .staleTime d ∉ calls := fun hd => h d (List.mem_cons_of_mem _ hd)
    obtain ⟨htime, hstatic⟩ := ih hcalls (call.apply o)
    rw [after, List.foldl_cons, ← after, htime, hstatic, List.mem_cons]
    cases call with
    | staleTime d => exact absurd List.mem_cons_self (h d)
    | _ => simp [OptionCall.apply]

/-- Calls set no stale time, or there is a last one that they set. -/
theorem exists_last_staleTime (calls : List OptionCall) :
  (∀ d, .staleTime d ∉ calls) ∨
    ∃ d pre post, calls = pre ++ .staleTime d :: post ∧ ∀ d', .staleTime d' ∉ post
  := by
  induction calls with
  | nil =>
    left
    simp
  | cons call calls ih =>
    rcases ih with hno | ⟨d, pre, post, rfl, hpost⟩
    · cases call with
      | staleTime d =>
        right
        use d, [], calls
        exact ⟨rfl, hno⟩
      | _ =>
        left
        simpa using hno
    · right
      use d, call :: pre, post
      exact ⟨rfl, hpost⟩

/-- Which calls make options that are static and have a stale time. -/
theorem staticOver_iff {calls : List OptionCall} {d : Duration} (hd : d ≠ 0) :
  StaticOver calls d ↔ (build calls).staleTimeStatic = true ∧ (build calls).staleTime = d
  := by
  have split {pre post : List OptionCall} {d : Duration} (hpost : ∀ d', .staleTime d' ∉ post) :
      (build (pre ++ .staleTime d :: post)).staleTime = d ∧
        ((build (pre ++ .staleTime d :: post)).staleTimeStatic = true ↔
          .staleTimeStatic ∈ post) := by
    have h := after_of_not_mem hpost ((OptionCall.staleTime d).apply (build pre))
    have hbuild : build (pre ++ .staleTime d :: post)
        = ((OptionCall.staleTime d).apply (build pre)).after post := by
      simp [build, after]
    rw [hbuild]
    simpa [OptionCall.apply] using h
  constructor
  · rintro ⟨pre, post, rfl, hpost, hstatic⟩
    use (split hpost).2.mpr hstatic, (split hpost).1
  · rintro ⟨hstatic, htime⟩
    rcases exists_last_staleTime calls with hno | ⟨d', pre, post, rfl, hpost⟩
    · rw [build, (after_of_not_mem hno {}).1] at htime
      exact absurd htime.symm hd
    · rw [(split hpost).1] at htime
      use pre, post, by rw [htime], hpost, (split hpost).2.mp hstatic

end QueryOptions

namespace QueryClient

variable {V : Type}

/-- The test in `refetch_all_stale`. -/
def staleOnFocus (now : Instant) (entry : CacheEntry V) : Bool :=
  let timeStale := entry.options.staleTime ≠ 0 ∧
    Instant.elapsed now entry.fetchedAt > entry.options.staleTime
  timeStale || entry.isStale

/-- What `refetch_all_stale` does under a cache key is decided by its own test. -/
theorem slot_refetchAllStale (c : QueryClient V) (now : Instant) (k : String) :
  (c.refetchAllStale now).slot k
    = (c.slot k).refresh (fun entry => staleOnFocus now entry &&
        entry.options.refetchOnWindowFocus.allowsRefetch (staleOnFocus now entry)) k
  := slot_refreshKeys c (allowsOnFocus now) k

/-- The rule: the stale flag is set, or the options say that the data is stale by time. -/
def staleByRule (now : Instant) (entry : CacheEntry V) : Bool :=
  entry.isStale || entry.options.isStaleByTime now entry.fetchedAt

/-- The copies of the test decide by the rule on the entry of the key, and so does
`refetch_all_stale`, for which its own copy decides. -/
structure DecidesByRule (c : QueryClient V) (now : Instant) (key : QueryKey)
    (entry : CacheEntry V) : Prop where
  isStale : c.isStale now key = staleByRule now entry
  entryIsStale : entryIsStale now entry = staleByRule now entry
  staleOnFocus : staleOnFocus now entry = staleByRule now entry
  refetchAllStale : (c.refetchAllStale now).slot key.cacheKey
    = (c.slot key.cacheKey).refresh (fun entry => staleByRule now entry &&
        entry.options.refetchOnWindowFocus.allowsRefetch (staleByRule now entry)) key.cacheKey

/-- A copy of the test decides by the rule, unless it counts the stale time of static
options that has run out and nothing else makes the entry stale. -/
theorem entryIsStale_eq_iff (now : Instant) (entry : CacheEntry V) :
  entryIsStale now entry = staleByRule now entry ↔
    ¬ (entry.options.staleTimeStatic = true ∧ entry.options.staleTime ≠ 0 ∧
      Instant.elapsed now entry.fetchedAt > entry.options.staleTime ∧ entry.isStale = false)
  := by
  simp only [entryIsStale, staleByRule, QueryOptions.isStaleByTime]
  cases entry.isStale with
  | true => simp
  | false =>
    cases entry.options.staleTimeStatic with
    | true => simp
    | false => simp [Bool.decide_and, decide_not]

/-- On options that a builder made, the copies decide by the rule exactly when the options
are not static over a stale time that has run out, or the entry has its stale flag set. -/
theorem decidesByRule_iff
    (calls : List OptionCall) (c : QueryClient V) (now : Instant) (key : QueryKey)
    (entry : CacheEntry V) (hentry : c.cache.lookup key.cacheKey = some entry)
    (hoptions : entry.options = .build calls) :
  c.DecidesByRule now key entry ↔ ∀ d, QueryOptions.StaticOver calls d →
    d = 0 ∨ Instant.elapsed now entry.fetchedAt ≤ d ∨ entry.isStale = true
  := by
  have hcopy : c.DecidesByRule now key entry ↔
      entryIsStale now entry = staleByRule now entry := by
    have hisStale : c.isStale now key = entryIsStale now entry := by
      rw [QueryClient.isStale, hentry]
    constructor
    · apply DecidesByRule.entryIsStale
    · intro h
      refine ⟨hisStale.trans h, h, h, ?_⟩
      have hfocus : QueryClient.staleOnFocus now entry = staleByRule now entry := h
      have hslot : (c.slot key.cacheKey).entry = some entry := hentry
      simp only [slot_refetchAllStale, Slot.refresh, hslot, hfocus]
  rw [hcopy, entryIsStale_eq_iff, hoptions]
  constructor
  · intro h d hstatic
    by_cases hd : d = 0
    · left
      apply hd
    obtain ⟨hflag, htime⟩ := (QueryOptions.staticOver_iff hd).mp hstatic
    rw [hflag, htime] at h
    right
    rw [← Nat.not_lt, ← imp_iff_not_or]
    simpa [hd] using h
  · rintro h ⟨hflag, hne, helapsed, hfresh⟩
    rcases h _ ((QueryOptions.staticOver_iff hne).mpr ⟨hflag, rfl⟩) with h0 | hle | hstale
    · apply hne h0
    · exact absurd helapsed (Nat.not_lt.mpr hle)
    · rw [hfresh] at hstale
      contradiction

/-- A client that cached data at the start, under options that were given a stale time of
five seconds and then made static. -/
def staticCached : QueryClient (String ⊕ Nat) :=
  new.setQueryData 0 (.new "users") (.inl "ada")
    (.build [.staleTime (Duration.fromSecs 5), .staleTimeStatic])

/-- The copies decide on the static entry by the rule while its stale time lasts. -/
theorem decidesByRule_iff_static :
  ∃ entry ∈ staticCached.cache.lookup "users",
    (staticCached.DecidesByRule (Duration.fromSecs 5) (.new "users") entry ↔
      ∀ d, QueryOptions.StaticOver [.staleTime (Duration.fromSecs 5), .staleTimeStatic] d →
        d = 0 ∨ Instant.elapsed (Duration.fromSecs 5) entry.fetchedAt ≤ d ∨ entry.isStale = true)
  := by
  refine ⟨_, rfl, ?_⟩
  apply decidesByRule_iff
  · rfl
  · rfl

/-- Static data is found stale six seconds after it was cached. -/
theorem not_decidesByRule :
  ¬ ∀ (calls : List OptionCall) (c : QueryClient (String ⊕ Nat)) (now : Instant)
      (key : QueryKey) (entry : CacheEntry (String ⊕ Nat)),
    c.cache.lookup key.cacheKey = some entry → entry.options = .build calls →
      c.DecidesByRule now key entry
  := by
  intro h
  have decides := h [.staleTime (Duration.fromSecs 5), .staleTimeStatic] staticCached
    (Duration.fromSecs 6) (.new "users") _ rfl rfl
  have heq := decides.entryIsStale
  revert heq
  decide

end QueryClient

end RsQuery
