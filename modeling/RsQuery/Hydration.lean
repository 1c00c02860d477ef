import Mathlib.Data.List.Sort
import RsQuery.Client

/-!
# Hydration

A client is dehydrated into a list of its entries with text for data, and a dehydrated
state is hydrated into a client.  An entry is dated by the monotonic clock of its client;
a dehydrated query carries the wall-clock time its data was fetched, and the state the
wall-clock time it was dehydrated at.  Hydration goes by the difference of the two, the
age the data had when it was dehydrated.

`serde` is the JSON encoding of strings under the `serde` feature, and `none` without it.
-/

namespace RsQuery

/-- A point of the wall clock, in nanoseconds since the UNIX epoch. -/
abbrev SystemTime := Nat

/-- `Instant::checked_sub`. -/
def Instant.checkedSub (i : Instant) (d : Duration) : Option Instant :=
  if d ≤ i then some (i - d) else none

/-- Current wall-clock time as UNIX epoch milliseconds. -/
def unixNowMs (wall : SystemTime) : Nat :=
  Duration.asMillisU64 wall

/-- Erased values with the strings among them. -/
class StringAny (V : Type) extends PartialEqAny V where
  ofString : String → V
  /-- `downcast_ref::<String>`. -/
  asString : V → Option String
  asString_eq_some_iff : ∀ {v : V} {s : String}, asString v = some s ↔ v = ofString s
  /-- Only an equal string compares equal to a string. -/
  eqAny_ofString : ∀ {s : String} {v : V}, eqAny (ofString s) v = true → v = ofString s

export StringAny (ofString asString)

instance : StringAny (String ⊕ Nat) where
  ofString := .inl
  asString := Sum.getLeft?
  asString_eq_some_iff := Sum.getLeft?_eq_some_iff
  eqAny_ofString h := (of_decide_eq_true h).symm

/-- `serde_json::to_string` and `serde_json::from_str::<String>`. -/
structure SerdeJson where
  toString : String → Option String
  fromStr : String → Option String

/-- Every string is read back from its encoding. -/
def SerdeJson.RoundTrips (json : SerdeJson) : Prop :=
  ∀ s, ∃ text, json.toString s = some text ∧ json.fromStr text = some s

/-- `query_type` marker for standard queries. -/
def queryTypeQuery : String :=
  "query"

/-- A single dehydrated query entry. -/
structure DehydratedQuery where
  queryHash : String
  queryKey : List String
  dataJson : Option String
  errorJson : Option String
  fetchedAtMs : Option Nat
  isStale : Bool
  staleTimeMs : Nat
  gcTimeMs : Nat
  metadata : Table String String
  queryType : String

/-- A single dehydrated mutation. -/
structure DehydratedMutation where
  mutationKey : Option (List String)
  dataUpdatedAtMs : Option Nat
  isPaused : Bool

/-- Dehydrated state containing all serializable query cache entries. -/
structure DehydratedState where
  dehydratedAtMs : Nat
  queries : List DehydratedQuery
  mutations : List DehydratedMutation

/-- Only queries whose data is present are dehydrated. -/
def defaultShouldDehydrateQuery (query : DehydratedQuery) : Bool :=
  query.dataJson.isSome

/-- Options for dehydration. -/
structure DehydrateOptions where
  shouldDehydrateQuery : DehydratedQuery → Bool := defaultShouldDehydrateQuery
  shouldRedactErrors : Bool := true
  serializeData : Option (String → String) := none

/-- Options for hydrating the query cache. -/
structure HydrateOptions where
  shouldOverwrite : Bool := true
  shouldHydrate : Option (String → Bool) := none
  defaultOptions : Option QueryOptions := none

/-- Rebuilds a key from a dehydrated entry, the whole hash being its one segment where
the segments do not reproduce it. -/
def queryKeyFromDehydrated (query : DehydratedQuery) : QueryKey :=
  let key := QueryKey.fromSegments query.queryKey
  if key.cacheKey = query.queryHash then key else .new query.queryHash

/-- Serializes the data of an entry; the hook applies to encoded data only. -/
def serializeEntryData (serde : Option SerdeJson) (data : String) (options : DehydrateOptions) :
    String :=
  match serde with
  | some json =>
    let text := (json.toString data).getD data
    match options.serializeData with
    | some hook => hook text
    | none => text
  | none => data

/-- Reads the data of an entry back; text that does not decode is taken as it is. -/
def deserializeEntryData (serde : Option SerdeJson) (dataJson : String) : String :=
  match serde with
  | some json => (json.fromStr dataJson).getD dataJson
  | none => dataJson

/-- With redaction, every error message is that of `QueryError::Redacted`. -/
def redactError (error : Option String) (shouldRedactErrors : Bool) : Option String :=
  match error with
  | some message => some (if shouldRedactErrors then "redacted" else message)
  | none => none

/-- Age of the dehydrated data at dehydrate time, maximal without a fetch time. -/
def dehydratedAgeMs (dehydratedAtMs : Nat) (fetchedAtMs : Option Nat) : Nat :=
  match fetchedAtMs with
  | some fetchedAtMs => dehydratedAtMs - fetchedAtMs
  | none => u64Max

/-- Whether a dehydrated payload is newer than the locally cached entry: the age it was
dehydrated at against the age the local entry has now. -/
def dehydratedIsNewer (now existingFetchedAt : Instant) (dehydratedAtMs : Nat)
    (fetchedAtMs : Option Nat) : Bool :=
  let age := Duration.fromMillis (dehydratedAgeMs dehydratedAtMs fetchedAtMs)
  Instant.elapsed now existingFetchedAt > age

/-- The options stored on a hydrated query. -/
def storedOptionsFor (dehydrated : DehydratedQuery) (options : HydrateOptions) : QueryOptions :=
  { options.defaultOptions.getD {} with
    staleTime := Duration.fromMillis dehydrated.staleTimeMs
    gcTime := Duration.fromMillis dehydrated.gcTimeMs
    metadata := dehydrated.metadata }

variable {V : Type} [StringAny V] (serde : Option SerdeJson)

/-- Dehydrates a single cache entry. -/
def dehydrateCacheEntry (now : Instant) (cacheKey : String) (entry : CacheEntry V)
    (error : Option String) (nowMs : Nat) (options : DehydrateOptions) : DehydratedQuery :=
  let fetchedAgeMs := Duration.asMillisU64 (Instant.elapsed now entry.fetchedAt)
  { queryHash := cacheKey
    queryKey := splitSegments cacheKey
    dataJson := (asString entry.data).map fun data => serializeEntryData serde data options
    errorJson := redactError error options.shouldRedactErrors
    fetchedAtMs := some (nowMs - fetchedAgeMs)
    isStale := entry.isStale
    staleTimeMs := Duration.asMillisU64 entry.options.staleTime
    gcTimeMs := Duration.asMillisU64 entry.options.gcTime
    metadata := entry.options.metadata
    queryType := queryTypeQuery }

/-- Dehydrates the cache of a client at a time of the wall clock, `now` on its own. -/
def dehydrateState (client : QueryClient V) (wall : SystemTime) (now : Instant)
    (options : DehydrateOptions) : DehydratedState :=
  let nowMs := unixNowMs wall
  let queries := client.cache.entries.map fun entry =>
    dehydrateCacheEntry serde now entry.1 entry.2 none nowMs options
  { dehydratedAtMs := nowMs
    queries :=
      (queries.filter options.shouldDehydrateQuery).insertionSort
        fun a b => a.queryHash ≤ b.queryHash
    mutations := [] }

namespace QueryClient

/-- Dehydrates the cache with default options. -/
def dehydrate (client : QueryClient V) (wall : SystemTime) (now : Instant) : DehydratedState :=
  dehydrateState serde client wall now {}

/-- Restores the stale flag and the back-dated fetch time of one hydrated entry. -/
def restoreEntryStaleness (client : QueryClient V) (now : Instant) (queryHash : String)
    (dehydrated : DehydratedQuery) (ageMs : Nat) : QueryClient V :=
  let restore (entry : CacheEntry V) : CacheEntry V :=
    { entry with
      isStale := dehydrated.isStale
      fetchedAt :=
        if ageMs > 0 then (now.checkedSub (Duration.fromMillis ageMs)).getD entry.fetchedAt
        else entry.fetchedAt }
  { client with cache := Table.adjust queryHash restore client.cache }

/-- Whether a payload is restored over the entry there is: any payload where there is
none, and a newer one otherwise. -/
def payloadWins (existing : Option (CacheEntry V)) (now : Instant) (dehydratedAtMs : Nat)
    (options : HydrateOptions) (dehydrated : DehydratedQuery) : Bool :=
  match existing with
  | some existing =>
    options.shouldOverwrite &&
      dehydratedIsNewer now existing.fetchedAt dehydratedAtMs dehydrated.fetchedAtMs
  | none => true

/-- Restores a single dehydrated query into the cache. -/
def hydrateQuery (now : Instant) (dehydratedAtMs : Nat) (options : HydrateOptions)
    (client : QueryClient V) (dehydrated : DehydratedQuery) : QueryClient V :=
  if options.shouldHydrate.any fun filter => !filter dehydrated.queryHash then client
  else
    match dehydrated.dataJson with
    | none => client
    | some dataJson =>
      let data := deserializeEntryData serde dataJson
      let key := queryKeyFromDehydrated dehydrated
      let existing := client.cache.lookup dehydrated.queryHash
      if payloadWins existing now dehydratedAtMs options dehydrated then
        let client :=
          client.setQueryData now key (ofString data) (storedOptionsFor dehydrated options)
        let ageMs := dehydratedAgeMs dehydratedAtMs dehydrated.fetchedAtMs
        client.restoreEntryStaleness now dehydrated.queryHash dehydrated ageMs
      else client

/-- Hydrates a dehydrated state with the given options.  Hydrating its mutations does
nothing. -/
def hydrate (client : QueryClient V) (now : Instant) (state : DehydratedState)
    (options : HydrateOptions) : QueryClient V :=
  state.queries.foldl (hydrateQuery serde now state.dehydratedAtMs options) client

end QueryClient

/-! ### Ages -/

/-- Time since an instant that was counted back from another, if it could be. -/
theorem Instant.elapsed_checkedSub (now : Instant) (d later : Duration) :
  Instant.elapsed (now + later) ((now.checkedSub d).getD now) =
    (if d ≤ now then d else 0) + later
  := by
  simp only [Instant.checkedSub, Instant.elapsed]
  split
  · rw [Option.getD_some]
    dsimp only [Duration, Instant] at *
    omega
  · rw [Option.getD_none]
    dsimp only [Duration, Instant] at *
    omega

/-- A fetch time counted back from the wall clock gives the age again. -/
theorem dehydratedAgeMs_sub (nowMs ageMs : Nat) :
  dehydratedAgeMs nowMs (some (nowMs - ageMs)) = min nowMs ageMs
  := by
  simp only [dehydratedAgeMs]
  omega

theorem unixNowMs_mono {wall wall' : SystemTime} (h : wall ≤ wall') :
  unixNowMs wall ≤ unixNowMs wall'
  := by
  simp only [unixNowMs, Duration.asMillisU64]
  dsimp only [SystemTime] at *
  omega

theorem Instant.checkedSub_getD_le (now : Instant) (d : Duration) :
  (now.checkedSub d).getD now ≤ now
  := by
  rw [checkedSub]
  split
  · apply Nat.sub_le
  · apply Nat.le_refl

theorem Instant.elapsed_checkedSub_now (now : Instant) (d : Duration) :
  now.elapsed ((now.checkedSub d).getD now) = if d ≤ now then d else 0
  := by
  have h := elapsed_checkedSub now d 0
  rwa [Nat.add_zero, Nat.add_zero] at h

theorem Instant.elapsed_checkedSub_le (now : Instant) (d : Duration) :
  now.elapsed ((now.checkedSub d).getD now) ≤ d
  := by
  rw [elapsed_checkedSub_now]
  split
  · apply Nat.le_refl
  · apply Nat.zero_le

/-- Decoding what was encoded. -/
theorem deserializeEntryData_serializeEntryData
    {serde : Option SerdeJson} (h : ∀ json ∈ serde, json.RoundTrips) (s : String) :
  deserializeEntryData serde (serializeEntryData serde s {}) = s
  := by
  cases serde with
  | none => rfl
  | some json =>
    obtain ⟨text, hto, hfrom⟩ := h json rfl s
    simp only [serializeEntryData, deserializeEntryData, hto, Option.getD_some, hfrom]

/-! ### What is dehydrated -/

theorem mem_dehydrateState_iff
    {client : QueryClient V} {wall : SystemTime} {now : Instant} {options : DehydrateOptions}
    {q : DehydratedQuery} :
  q ∈ (dehydrateState serde client wall now options).queries ↔
    ∃ k e, client.cache.lookup k = some e ∧ options.shouldDehydrateQuery q = true ∧
      dehydrateCacheEntry serde now k e none (unixNowMs wall) options = q
  := by
  rw [Table.exists_lookup_iff]
  simp only [dehydrateState, List.mem_insertionSort, List.mem_filter, List.mem_map]
  constructor
  · rintro ⟨⟨e, he, rfl⟩, hq⟩
    exact ⟨e, he, hq, rfl⟩
  · rintro ⟨e, he, hq, rfl⟩
    exact ⟨⟨e, he, rfl⟩, hq⟩

/-- No two dehydrated queries have the same hash. -/
theorem nodup_dehydrateState
    (client : QueryClient V) (wall : SystemTime) (now : Instant) (options : DehydrateOptions) :
  ((dehydrateState serde client wall now options).queries.map (·.queryHash)).Nodup
  := by
  apply ((List.perm_insertionSort _ _).map _).nodup_iff.mpr
  apply List.Nodup.sublist (List.filter_sublist.map _)
  rw [List.map_map]
  apply client.cache.nodupKeys

/-! ### What hydration does to an entry -/

theorem queryKeyFromDehydrated_cacheKey (q : DehydratedQuery) :
  (queryKeyFromDehydrated q).cacheKey = q.queryHash
  := by
  simp only [queryKeyFromDehydrated]
  split
  · assumption
  · rfl

namespace QueryClient

/-- Whether a query is restored over the entry there is. -/
def restores (existing : Option (CacheEntry V)) (now : Instant) (dehydratedAtMs : Nat)
    (options : HydrateOptions) (q : DehydratedQuery) : Bool :=
  options.shouldHydrate.all (fun filter => filter q.queryHash) && q.dataJson.isSome &&
    payloadWins existing now dehydratedAtMs options q

/-- The entry a query is restored to. -/
def restoredEntry (client : QueryClient V) (now : Instant) (dehydratedAtMs : Nat)
    (options : HydrateOptions) (q : DehydratedQuery) : CacheEntry V :=
  let data := deserializeEntryData serde (q.dataJson.getD "")
  let age := Duration.fromMillis (dehydratedAgeMs dehydratedAtMs q.fetchedAtMs)
  { client.newEntry now (queryKeyFromDehydrated q) (ofString data) (storedOptionsFor q options) with
    isStale := q.isStale
    fetchedAt := (now.checkedSub age).getD now }

variable {client : QueryClient V} {now : Instant} {dehydratedAtMs : Nat}
  {options : HydrateOptions} {q : DehydratedQuery}

theorem hydrateQuery_eq :
  hydrateQuery serde now dehydratedAtMs options client q =
    if restores (client.cache.lookup q.queryHash) now dehydratedAtMs options q then
      (client.setQueryData now (queryKeyFromDehydrated q)
        (ofString (deserializeEntryData serde (q.dataJson.getD "")))
        (storedOptionsFor q options)).restoreEntryStaleness now q.queryHash q
          (dehydratedAgeMs dehydratedAtMs q.fetchedAtMs)
    else client
  := by
  unfold hydrateQuery restores
  cases hf : options.shouldHydrate with
  | none =>
    cases q.dataJson with
    | none => rfl
    | some text => simp
  | some filter =>
    cases hq : filter q.queryHash with
    | false => simp [hq]
    | true =>
      cases q.dataJson with
      | none => simp
      | some text => simp [hq]

theorem setQueryData_cache
    {V : Type} [PartialEqAny V] (c : QueryClient V) (now : Instant) (key : QueryKey) (data : V)
    (options : QueryOptions) :
  (c.setQueryData now key data options).cache
    = c.cache.insert key.cacheKey (c.newEntry now key data options)
  := (notifySubscribers_frame _ _ _).1

theorem setQueryData_defaultOptions
    {V : Type} [PartialEqAny V] (c : QueryClient V) (now : Instant) (key : QueryKey) (data : V)
    (options : QueryOptions) :
  (c.setQueryData now key data options).defaultOptions = c.defaultOptions
  := (notifySubscribers_frame _ _ _).2.2.2.2.1

theorem hydrateQuery_defaultOptions :
  (hydrateQuery serde now dehydratedAtMs options client q).defaultOptions = client.defaultOptions
  := by
  rw [hydrateQuery_eq]
  split
  · apply setQueryData_defaultOptions
  · rfl

/-- A hydrated query concerns the entry under its hash. -/
theorem hydrateQuery_lookup (k : String) :
  (hydrateQuery serde now dehydratedAtMs options client q).cache.lookup k =
    if k = q.queryHash ∧
        restores (client.cache.lookup q.queryHash) now dehydratedAtMs options q = true then
      some (client.restoredEntry serde now dehydratedAtMs options q)
    else client.cache.lookup k
  := by
  rw [hydrateQuery_eq]
  split
  · next hr =>
    simp only [restoreEntryStaleness, Table.lookup_adjust, setQueryData_cache,
      queryKeyFromDehydrated_cacheKey, Table.lookup_insert_eq, hr, and_true]
    split
    · simp only [Option.map_some, restoredEntry, newEntry]
      congr 2
      split
      · rfl
      · next h =>
        -- an age of zero is subtracted without effect
        rw [Nat.eq_zero_of_not_pos h]
        rfl
    · rfl
  · next hr => simp [hr]

omit [StringAny V] in
/-- A query with data is restored where there is nothing. -/
theorem restores_none (hfilter : options.shouldHydrate = none) (hdata : q.dataJson.isSome = true) :
  restores (none : Option (CacheEntry V)) now dehydratedAtMs options q = true
  := by
  simp only [restores, hfilter, Option.all_none, hdata, payloadWins, Bool.and_self]

/-- Where there is nothing and the client has no defaults, a query is restored to its own
data, options and stale flag. -/
theorem restoredEntry_of_none
    (hnone : client.cache.lookup q.queryHash = none) (hdefaults : client.defaultOptions = none) :
  let data : V := ofString (deserializeEntryData serde (q.dataJson.getD ""))
  let age := Duration.fromMillis (dehydratedAgeMs dehydratedAtMs q.fetchedAtMs)
  client.restoredEntry serde now dehydratedAtMs options q =
    { data := data
      typeId := typeOf data
      fetchedAt := (now.checkedSub age).getD now
      lastAccessed := now
      options := storedOptionsFor q options
      isStale := q.isStale }
  := by
  unfold restoredEntry newEntry
  rw [queryKeyFromDehydrated_cacheKey, hnone, hdefaults]

/-- What a hydration of several queries keeps apart: the defaults, and the entry of a key. -/
def defaultsAndEntry (client : QueryClient V) (k : String) :
    Option QueryOptions × Option (CacheEntry V) :=
  (client.defaultOptions, client.cache.lookup k)

theorem hydrateQuery_frame (client : QueryClient V) (q : DehydratedQuery) (k : String)
    (h : k ≠ q.queryHash) :
  (hydrateQuery serde now dehydratedAtMs options client q).defaultsAndEntry k =
    client.defaultsAndEntry k
  := by
  simp only [defaultsAndEntry, hydrateQuery_defaultOptions, hydrateQuery_lookup, h, false_and,
    if_false]

theorem hydrateQuery_congr (client client' : QueryClient V) (q : DehydratedQuery)
    (h : client.defaultsAndEntry q.queryHash = client'.defaultsAndEntry q.queryHash) :
  (hydrateQuery serde now dehydratedAtMs options client q).defaultsAndEntry q.queryHash =
    (hydrateQuery serde now dehydratedAtMs options client' q).defaultsAndEntry q.queryHash
  := by
  obtain ⟨hd, he⟩ := Prod.mk.inj h
  have hentry : client.restoredEntry serde now dehydratedAtMs options q
      = client'.restoredEntry serde now dehydratedAtMs options q := by
    unfold restoredEntry newEntry
    rw [queryKeyFromDehydrated_cacheKey, hd, he]
  simp only [defaultsAndEntry, hydrateQuery_defaultOptions, hydrateQuery_lookup, hentry, hd, he]

/-- The entry under the hash of a query that is hydrated among others. -/
theorem hydrate_lookup
    {state : DehydratedState} (hs : (state.queries.map (·.queryHash)).Nodup)
    (hq : q ∈ state.queries) :
  (client.hydrate serde now state options).cache.lookup q.queryHash =
    (hydrateQuery serde now state.dehydratedAtMs options client q).cache.lookup q.queryHash
  := congrArg Prod.snd
      (Table.foldl_look_of_mem defaultsAndEntry _ _ (hydrateQuery_frame serde)
        (hydrateQuery_congr serde) hs hq client)

/-- The entry under a key that is not the hash of a hydrated query. -/
theorem hydrate_lookup_of_not_mem
    {state : DehydratedState} {k : String} (hk : k ∉ state.queries.map (·.queryHash)) :
  (client.hydrate serde now state options).cache.lookup k = client.cache.lookup k
  := congrArg Prod.snd
      (Table.foldl_look_of_not_mem defaultsAndEntry _ (·.queryHash) (hydrateQuery_frame serde)
        hk client)

/-- A hydration leaves the entry of a key, or restores a query with its hash. -/
theorem hydrate_cases
    {state : DehydratedState} (hs : (state.queries.map (·.queryHash)).Nodup) (k : String) :
  (client.hydrate serde now state options).cache.lookup k = client.cache.lookup k ∨
    ∃ q ∈ state.queries, q.queryHash = k ∧
      restores (client.cache.lookup k) now state.dehydratedAtMs options q = true ∧
      (client.hydrate serde now state options).cache.lookup k =
        some (client.restoredEntry serde now state.dehydratedAtMs options q)
  := by
  by_cases hk : k ∈ state.queries.map (·.queryHash)
  · obtain ⟨q, hq, rfl⟩ := List.mem_map.mp hk
    rw [hydrate_lookup serde hs hq, hydrateQuery_lookup]
    split
    · next hr =>
      right
      use q, hq, rfl, hr.2
    · left
      rfl
  · left
    apply hydrate_lookup_of_not_mem serde hk

/-- A string written is the data, also where old data is shared. -/
theorem newEntry_data
    (client : QueryClient V) (now : Instant) (key : QueryKey) (s : String)
    (provided : QueryOptions) :
  (client.newEntry now key (ofString s) provided).data = ofString s
  := by
  unfold newEntry
  cases client.cache.lookup key.cacheKey with
  | none => rfl
  | some old =>
    apply ite_eq_right_iff.mpr
    intro h
    apply StringAny.eqAny_ofString h.2.2

/-- A restored entry holds the string of the query. -/
theorem restoredEntry_data :
  (client.restoredEntry serde now dehydratedAtMs options q).data =
    ofString (deserializeEntryData serde (q.dataJson.getD ""))
  := newEntry_data client now _ _ _

end QueryClient

end RsQuery
