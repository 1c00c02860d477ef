import Mathlib.Tactic.Common
import RsQuery.Hydration

/-!
# From one client to another and back

A client is dehydrated and, after a time in transit, hydrated into an empty client.  The
entries come back with their data, options and stale flag, but each is dated by the age
it had when it was dehydrated: the time in transit is forgotten.
`QueryClient.restored_iff` says when nothing is forgotten.
-/

namespace RsQuery

/-- The clocks at the two ends of a transfer: the wall clock and the monotonic clock of the
first client when it is dehydrated, the time until the second is hydrated, and the
monotonic clock of the second then. -/
structure Trip where
  wall : SystemTime
  departure : Instant
  transit : Duration
  arrival : Instant

variable {V : Type} [StringAny V]

/-- The data of the entry is a string. -/
def CacheEntry.IsString (e : CacheEntry V) : Prop :=
  ∃ s : String, e.data = ofString s ∧ e.typeId = typeOf e.data

/-- The durations of the options that are dehydrated are whole milliseconds. -/
def QueryOptions.WholeMillis (o : QueryOptions) : Prop :=
  1000000 ∣ o.staleTime ∧ 1000000 ∣ o.gcTime

/-- The age of an entry that its dehydration records. -/
def CacheEntry.ageMs (e : CacheEntry V) (now : Instant) : Nat :=
  Duration.asMillisU64 (Instant.elapsed now e.fetchedAt)

namespace Trip

variable (t : Trip) (serde : Option SerdeJson)

/-- The entry `e'` of the second client is the entry `e` of the first under the key `k`. -/
structure Restored (k : String) (e e' : CacheEntry V) : Prop where
  data : e'.data = e.data
  typeId : e'.typeId = e.typeId
  staleTime : e'.options.staleTime = e.options.staleTime
  gcTime : e'.options.gcTime = e.options.gcTime
  metadata : e'.options.metadata = e.options.metadata
  isStale : e'.isStale = e.isStale
  /-- At hydration the two are of the same age, up to a millisecond. -/
  fetchedAt :
    Instant.elapsed t.arrival e'.fetchedAt
        < Instant.elapsed (t.departure + t.transit) e.fetchedAt + Duration.fromMillis 1 ∧
      Instant.elapsed (t.departure + t.transit) e.fetchedAt
        < Instant.elapsed t.arrival e'.fetchedAt + Duration.fromMillis 1
  /-- From the hydration on the two are stale at the same times. -/
  stale : ∀ later : Duration,
    QueryClient.entryIsStale (t.arrival + later) e' =
      QueryClient.entryIsStale (t.departure + t.transit + later) e
  /-- The second client dehydrates the entry with the fetch time the first did. -/
  fetchedAtMs :
    (dehydrateCacheEntry serde t.arrival k e' none (unixNowMs (t.wall + t.transit)) {}).fetchedAtMs
      = (dehydrateCacheEntry serde t.departure k e none (unixNowMs t.wall) {}).fetchedAtMs

/-- The transfer loses nothing of an entry. -/
structure Exact (e : CacheEntry V) : Prop where
  /-- The durations are counted by a `u64` of milliseconds. -/
  staleTime : e.options.staleTime ≤ Duration.fromMillis u64Max
  gcTime : e.options.gcTime ≤ Duration.fromMillis u64Max
  /-- The age is within both clocks. -/
  wall : e.ageMs t.departure ≤ unixNowMs t.wall
  arrival : Duration.fromMillis (e.ageMs t.departure) ≤ t.arrival
  /-- The transit ends within the millisecond the age is rounded to, and within that of
  the wall clock. -/
  transit :
    Instant.elapsed (t.departure + t.transit) e.fetchedAt
      < Duration.fromMillis (e.ageMs t.departure + 1)
  sameMs : unixNowMs (t.wall + t.transit) = unixNowMs t.wall
  /-- Nothing was rounded, or the entry does not turn stale after the hydration. -/
  stale :
    Instant.elapsed (t.departure + t.transit) e.fetchedAt
        = Duration.fromMillis (e.ageMs t.departure) ∨
      e.options.staleTime = 0 ∨ e.isStale = true ∨
      e.options.staleTime < Duration.fromMillis (e.ageMs t.departure)

/-- The entry the second client gets for an entry of the first. -/
def received (e : CacheEntry V) : CacheEntry V :=
  let age := Duration.fromMillis (min (unixNowMs t.wall) (e.ageMs t.departure))
  { data := e.data
    typeId := e.typeId
    fetchedAt := (t.arrival.checkedSub age).getD t.arrival
    lastAccessed := t.arrival
    options :=
      { staleTime := Duration.fromMillis (Duration.asMillisU64 e.options.staleTime)
        gcTime := Duration.fromMillis (Duration.asMillisU64 e.options.gcTime)
        metadata := e.options.metadata }
    isStale := e.isStale }

end Trip

namespace QueryClient

variable {serde : Option SerdeJson} {client fresh : QueryClient V} {t : Trip}

/-- What the second client holds under a key. -/
theorem hydrate_dehydrate_lookup
    (hserde : ∀ json ∈ serde, json.RoundTrips) (hempty : fresh.cache = ∅)
    (hdefaults : fresh.defaultOptions = none) {k : String} {e : CacheEntry V}
    (he : client.cache.lookup k = some e) (hs : e.IsString) :
  (fresh.hydrate serde t.arrival (client.dehydrate serde t.wall t.departure) {}).cache.lookup k
    = some (t.received e)
  := by
  obtain ⟨s, hdata, htype⟩ := hs
  have has : asString e.data = some s := StringAny.asString_eq_some_iff.mpr hdata
  let q := dehydrateCacheEntry serde t.departure k e none (unixNowMs t.wall) {}
  have hjson : q.dataJson = some (serializeEntryData serde s {}) := by
    simp only [q, dehydrateCacheEntry, has, Option.map_some]
  have hsome : q.dataJson.isSome = true := by rw [hjson, Option.isSome_some]
  have hq : q ∈ (client.dehydrate serde t.wall t.departure).queries := by
    apply (mem_dehydrateState_iff serde).mpr
    use k, e, he, hsome
  have hnone : fresh.cache.lookup q.queryHash = none := by rw [hempty, AList.lookup_empty]
  have hnew : (fresh.hydrate serde t.arrival (client.dehydrate serde t.wall t.departure)
      {}).cache.lookup q.queryHash =
        (hydrateQuery serde t.arrival (unixNowMs t.wall) {} fresh q).cache.lookup q.queryHash :=
    hydrate_lookup serde (nodup_dehydrateState serde client t.wall t.departure {}) hq
  rw [hydrateQuery_lookup, hnone, if_pos ⟨rfl, restores_none rfl hsome⟩,
    restoredEntry_of_none serde hnone hdefaults, hjson, Option.getD_some,
    deserializeEntryData_serializeEntryData hserde] at hnew
  have hage : dehydratedAgeMs (unixNowMs t.wall) q.fetchedAtMs
      = min (unixNowMs t.wall) (e.ageMs t.departure) := dehydratedAgeMs_sub _ _
  rw [hage, ← hdata, ← htype] at hnew
  apply hnew

end QueryClient

/-! ### What the transfer loses -/

theorem Duration.fromMillis_asMillisU64_eq_iff {d : Duration} (h : 1000000 ∣ d) :
  Duration.fromMillis (Duration.asMillisU64 d) = d ↔ d ≤ Duration.fromMillis u64Max
  := by
  obtain ⟨n, rfl⟩ := h
  simp only [Duration.fromMillis, Duration.asMillisU64, u64Max]
  dsimp only [Duration] at *
  omega

namespace Trip

variable {t : Trip} {serde : Option SerdeJson}

omit [StringAny V]

/-- The age the received entry has when it is received. -/
def receivedAge (t : Trip) (e : CacheEntry V) : Duration :=
  let age := Duration.fromMillis (min (unixNowMs t.wall) (e.ageMs t.departure))
  if age ≤ t.arrival then age else 0

theorem elapsed_received (e : CacheEntry V) (later : Duration) :
  Instant.elapsed (t.arrival + later) (t.received e).fetchedAt = t.receivedAge e + later
  := Instant.elapsed_checkedSub _ _ _

/-- The two ages agree up to a millisecond when the age is within the clocks and the
transit ends within the millisecond it is rounded to. -/
theorem age_iff {e : CacheEntry V} (hdated : e.fetchedAt ≤ t.departure) :
  let age := Instant.elapsed (t.departure + t.transit) e.fetchedAt
  (t.receivedAge e < age + Duration.fromMillis 1 ∧ age < t.receivedAge e + Duration.fromMillis 1) ↔
    e.ageMs t.departure ≤ unixNowMs t.wall ∧
      Duration.fromMillis (e.ageMs t.departure) ≤ t.arrival ∧
      age < Duration.fromMillis (e.ageMs t.departure + 1)
  := by
  by_cases h : Duration.fromMillis (min (unixNowMs t.wall) (e.ageMs t.departure)) ≤ t.arrival
  · simp only [receivedAge, h, if_true]
    simp only [Duration.fromMillis, CacheEntry.ageMs, Duration.asMillisU64, Instant.elapsed,
      u64Max] at *
    dsimp only [Duration, Instant] at *
    omega
  · -- then both sides fail, the age being a millisecond at least
    simp only [receivedAge, h, if_false]
    simp only [Duration.fromMillis, CacheEntry.ageMs, Duration.asMillisU64, Instant.elapsed,
      u64Max] at *
    dsimp only [Duration, Instant] at *
    omega

/-- An age of whole milliseconds is dehydrated as it is. -/
theorem asMillisU64_fromMillis_ageMs (e : CacheEntry V) (now : Instant) :
  Duration.asMillisU64 (Duration.fromMillis (e.ageMs now)) = e.ageMs now
  := by
  simp only [Duration.asMillisU64, Duration.fromMillis, CacheEntry.ageMs]
  dsimp only [Duration, Instant] at *
  omega

/-- Two entries with the stale time `s`, one of the age `a` and the other of the age `b`,
turn stale together when they are equally old, or when no time is between the two at which
the younger would not be stale. -/
theorem stale_iff {flag : Bool} {s a b : Duration} (hab : a ≤ b) :
  (∀ later, (decide (s ≠ 0 ∧ a + later > s) || flag) = (decide (s ≠ 0 ∧ b + later > s) || flag)) ↔
    b = a ∨ s = 0 ∨ flag = true ∨ s < a
  := by
  constructor
  · intro h
    by_contra hn
    simp only [not_or, not_lt] at hn
    obtain ⟨hne, hs, hf, hle⟩ := hn
    have := h (s - a)
    rw [Bool.eq_false_iff.mpr hf, Bool.or_false, Bool.or_false, decide_eq_decide] at this
    dsimp only [Duration] at *
    omega
  · rintro (rfl | rfl | rfl | h) later
    · rfl
    · simp
    · simp
    · congr 2
      dsimp only [Duration] at *
      simp only [eq_iff_iff, and_congr_right_iff]
      omega

theorem receivedAge_eq
    {e : CacheEntry V} (hwall : e.ageMs t.departure ≤ unixNowMs t.wall)
    (harrival : Duration.fromMillis (e.ageMs t.departure) ≤ t.arrival) :
  t.receivedAge e = Duration.fromMillis (e.ageMs t.departure)
  := by
  rw [receivedAge, Nat.min_eq_right hwall]
  apply if_pos harrival

theorem fromMillis_ageMs_le
    {e : CacheEntry V} (hdated : e.fetchedAt ≤ t.departure) :
  Duration.fromMillis (e.ageMs t.departure) ≤ Instant.elapsed (t.departure + t.transit) e.fetchedAt
  := by
  simp only [Duration.fromMillis, CacheEntry.ageMs, Duration.asMillisU64, Instant.elapsed]
  dsimp only [Duration, Instant] at *
  omega

/-- When the received entry is stale. -/
theorem entryIsStale_received
    {e : CacheEntry V}
    (hs : Duration.fromMillis (Duration.asMillisU64 e.options.staleTime) = e.options.staleTime)
    (later : Duration) :
  QueryClient.entryIsStale (t.arrival + later) (t.received e) =
    (decide (e.options.staleTime ≠ 0 ∧ t.receivedAge e + later > e.options.staleTime) || e.isStale)
  := by
  rw [QueryClient.entryIsStale, elapsed_received]
  simp only [received, hs]

/-- When the entry itself is stale. -/
theorem entryIsStale_later
    {e : CacheEntry V} (hdated : e.fetchedAt ≤ t.departure) (later : Duration) :
  QueryClient.entryIsStale (t.departure + t.transit + later) e =
    (decide (e.options.staleTime ≠ 0 ∧
      Instant.elapsed (t.departure + t.transit) e.fetchedAt + later > e.options.staleTime) ||
        e.isStale)
  := by
  have h : Instant.elapsed (t.departure + t.transit + later) e.fetchedAt
      = Instant.elapsed (t.departure + t.transit) e.fetchedAt + later := by
    simp only [Instant.elapsed]
    dsimp only [Duration, Instant] at *
    omega
  rw [QueryClient.entryIsStale, h]

theorem staleTime_received (e : CacheEntry V) :
  (t.received e).options.staleTime = Duration.fromMillis (Duration.asMillisU64 e.options.staleTime)
  := rfl

theorem gcTime_received (e : CacheEntry V) :
  (t.received e).options.gcTime = Duration.fromMillis (Duration.asMillisU64 e.options.gcTime)
  := rfl

theorem elapsed_received_now (e : CacheEntry V) :
  Instant.elapsed t.arrival (t.received e).fetchedAt = t.receivedAge e
  := Instant.elapsed_checkedSub_now _ _

/-- The received entry is stale when the entry is, exactly when they are equally old or no
time is left between the times they turn stale. -/
theorem stale_received_iff
    {e : CacheEntry V} (hdated : e.fetchedAt ≤ t.departure)
    (hs : Duration.fromMillis (Duration.asMillisU64 e.options.staleTime) = e.options.staleTime)
    (hwall : e.ageMs t.departure ≤ unixNowMs t.wall)
    (harrival : Duration.fromMillis (e.ageMs t.departure) ≤ t.arrival) :
  (∀ later : Duration, QueryClient.entryIsStale (t.arrival + later) (t.received e) =
      QueryClient.entryIsStale (t.departure + t.transit + later) e) ↔
    Instant.elapsed (t.departure + t.transit) e.fetchedAt
        = Duration.fromMillis (e.ageMs t.departure) ∨
      e.options.staleTime = 0 ∨ e.isStale = true ∨
      e.options.staleTime < Duration.fromMillis (e.ageMs t.departure)
  := by
  simp only [entryIsStale_received hs, entryIsStale_later hdated, receivedAge_eq hwall harrival]
  apply stale_iff (fromMillis_ageMs_le hdated)

end Trip

namespace Trip

variable {t : Trip} {serde : Option SerdeJson}

/-- The received entry is dehydrated with the same fetch time when the wall clock still
shows the same millisecond. -/
theorem fetchedAtMs_received_iff
    {k : String} {e : CacheEntry V} (hwall : e.ageMs t.departure ≤ unixNowMs t.wall)
    (harrival : Duration.fromMillis (e.ageMs t.departure) ≤ t.arrival) :
  (dehydrateCacheEntry serde t.arrival k (t.received e) none
      (unixNowMs (t.wall + t.transit)) {}).fetchedAtMs
    = (dehydrateCacheEntry serde t.departure k e none (unixNowMs t.wall) {}).fetchedAtMs ↔
  unixNowMs (t.wall + t.transit) = unixNowMs t.wall
  := by
  have hmono := unixNowMs_mono (Nat.le_add_right t.wall t.transit)
  have hreceived : (dehydrateCacheEntry serde t.arrival k (t.received e) none
      (unixNowMs (t.wall + t.transit)) {}).fetchedAtMs
        = some (unixNowMs (t.wall + t.transit) - e.ageMs t.departure) := by
    simp only [dehydrateCacheEntry, elapsed_received_now, receivedAge_eq hwall harrival,
      asMillisU64_fromMillis_ageMs]
  have hsent : (dehydrateCacheEntry serde t.departure k e none (unixNowMs t.wall) {}).fetchedAtMs
      = some (unixNowMs t.wall - e.ageMs t.departure) := rfl
  rw [hreceived, hsent, Option.some_inj]
  omega

/-- What is received of an entry is the entry exactly when the transfer loses nothing. -/
theorem restored_received_iff
    {k : String} {e : CacheEntry V} (hdated : e.fetchedAt ≤ t.departure)
    (hmillis : e.options.WholeMillis) :
  t.Restored serde k e (t.received e) ↔ t.Exact e
  := by
  have hage := age_iff (t := t) hdated
  have hstaleTime := Duration.fromMillis_asMillisU64_eq_iff hmillis.1
  have hgcTime := Duration.fromMillis_asMillisU64_eq_iff hmillis.2
  constructor
  · intro h
    have hfetchedAt := h.fetchedAt
    rw [elapsed_received_now] at hfetchedAt
    have hs := h.staleTime
    have hg := h.gcTime
    rw [staleTime_received] at hs
    rw [gcTime_received] at hg
    obtain ⟨hwall, harrival, htransit⟩ := hage.mp hfetchedAt
    exact
      { staleTime := hstaleTime.mp hs
        gcTime := hgcTime.mp hg
        wall := hwall
        arrival := harrival
        transit := htransit
        sameMs := (fetchedAtMs_received_iff hwall harrival).mp h.fetchedAtMs
        stale := (stale_received_iff hdated hs hwall harrival).mp h.stale }
  · intro h
    have hs := hstaleTime.mpr h.staleTime
    exact
      { data := by rw [received]
        typeId := by rw [received]
        staleTime := by rw [staleTime_received, hs]
        gcTime := by rw [gcTime_received, hgcTime.mpr h.gcTime]
        metadata := by rw [received]
        isStale := by rw [received]
        fetchedAt := by
          rw [elapsed_received_now]
          apply hage.mpr ⟨h.wall, h.arrival, h.transit⟩
        stale := (stale_received_iff hdated hs h.wall h.arrival).mpr h.stale
        fetchedAtMs := (fetchedAtMs_received_iff h.wall h.arrival).mpr h.sameMs }

end Trip

namespace QueryClient

/-- Every entry of a client is restored in an empty client without defaults exactly when
the transfer loses nothing of any of them. -/
theorem restored_iff
    (serde : Option SerdeJson) (client fresh : QueryClient V) (t : Trip)
    (hserde : ∀ json ∈ serde, json.RoundTrips)
    (hstrings : ∀ k e, client.cache.lookup k = some e → e.IsString)
    (hmillis : ∀ k e, client.cache.lookup k = some e → e.options.WholeMillis)
    (hdated : ∀ k e, client.cache.lookup k = some e → e.fetchedAt ≤ t.departure)
    (hempty : fresh.cache = ∅) (hdefaults : fresh.defaultOptions = none) :
  (∀ k e, client.cache.lookup k = some e →
    ∃ e', (fresh.hydrate serde t.arrival (client.dehydrate serde t.wall t.departure)
        {}).cache.lookup k = some e' ∧ t.Restored serde k e e') ↔
    ∀ k e, client.cache.lookup k = some e → t.Exact e
  := by
  have hreceived {k e} (he : client.cache.lookup k = some e) :=
    hydrate_dehydrate_lookup (t := t) hserde hempty hdefaults he (hstrings k e he)
  have hiff {k e} (he : client.cache.lookup k = some e) :
      t.Restored serde k e (t.received e) ↔ t.Exact e :=
    Trip.restored_received_iff (hdated k e he) (hmillis k e he)
  constructor
  · intro h k e he
    obtain ⟨e', he', hr⟩ := h k e he
    obtain rfl := Option.some.inj ((hreceived he).symm.trans he')
    apply (hiff he).mp hr
  · intro h k e he
    exact ⟨t.received e, hreceived he, (hiff he).mpr (h k e he)⟩

/-- A client that has fetched a user at the start, fresh for a minute. -/
def adaCached : QueryClient (String ⊕ Nat) :=
  new.setQueryData 0 (.new "user") (.inl "ada") { staleTime := Duration.fromSecs 60 }

/-- The entry of that user. -/
def adaEntry : CacheEntry (String ⊕ Nat) where
  data := .inl "ada"
  typeId := 0
  fetchedAt := 0
  lastAccessed := 0
  options := { staleTime := Duration.fromSecs 60 }
  isStale := false

theorem adaCached_lookup (k : String) :
  adaCached.cache.lookup k = if k = "user" then some adaEntry else none
  := by
  rw [adaCached, setQueryData_cache, Table.lookup_insert_eq]
  rfl

theorem forall_adaCached_iff {p : String → CacheEntry (String ⊕ Nat) → Prop} :
  (∀ k e, adaCached.cache.lookup k = some e → p k e) ↔ p "user" adaEntry
  := by
  constructor
  · intro h
    apply h
    rw [adaCached_lookup, if_pos rfl]
  · intro h k e he
    rw [adaCached_lookup] at he
    split at he
    · next hk =>
      obtain rfl := Option.some.inj he
      rwa [hk]
    · contradiction

/-- Dehydrated thirty seconds after the fetch, and hydrated after the time given. -/
def adaTrip (transit : Duration) : Trip where
  wall := Duration.fromSecs 1700000000
  departure := Duration.fromSecs 30
  transit := transit
  arrival := Duration.fromSecs 100

theorem adaEntry_dated :
  adaEntry.IsString ∧ adaEntry.options.WholeMillis ∧ adaEntry.fetchedAt ≤ (adaTrip 0).departure
  := by
  use ⟨"ada", rfl, rfl⟩
  unfold QueryOptions.WholeMillis
  decide

theorem adaEntry_exact :
  (adaTrip 0).Exact adaEntry
  := by
  constructor
  case stale =>
    left
    decide
  all_goals decide

/-- A user hydrated at the moment of the dehydration is restored. -/
theorem restored_iff_ada :
  ∃ e', (new.hydrate none (adaTrip 0).arrival
      (adaCached.dehydrate none (adaTrip 0).wall (adaTrip 0).departure)
      {}).cache.lookup "user" = some e' ∧ (adaTrip 0).Restored none "user" adaEntry e'
  := by
  obtain ⟨hstring, hmillis, hdated⟩ := adaEntry_dated
  have hexact := (forall_adaCached_iff (p := fun _ e => (adaTrip 0).Exact e)).mpr adaEntry_exact
  apply (restored_iff none adaCached new (adaTrip 0) nofun
    (forall_adaCached_iff (p := fun _ e => e.IsString) |>.mpr hstring)
    (forall_adaCached_iff (p := fun _ e => e.options.WholeMillis) |>.mpr hmillis)
    (forall_adaCached_iff (p := fun _ e => e.fetchedAt ≤ (adaTrip 0).departure) |>.mpr hdated)
    rfl rfl).mpr hexact
  rw [adaCached_lookup, if_pos rfl]

/-- After forty seconds in transit a user counts as thirty seconds old, and stays fresh
when a minute has passed since the fetch. -/
theorem not_restored_ada :
  ¬ ∀ (client fresh : QueryClient (String ⊕ Nat)) (t : Trip),
    (∀ k e, client.cache.lookup k = some e → e.IsString) →
    (∀ k e, client.cache.lookup k = some e → e.options.WholeMillis) →
    (∀ k e, client.cache.lookup k = some e → e.fetchedAt ≤ t.departure) →
    fresh.cache = ∅ → fresh.defaultOptions = none →
    ∀ k e, client.cache.lookup k = some e →
      ∃ e', (fresh.hydrate none t.arrival (client.dehydrate none t.wall t.departure)
          {}).cache.lookup k = some e' ∧ t.Restored none k e e'
  := by
  intro h
  obtain ⟨hstring, hmillis, hdated⟩ := adaEntry_dated
  have hada : adaCached.cache.lookup "user" = some adaEntry := by rw [adaCached_lookup, if_pos rfl]
  obtain ⟨e', he', hr⟩ := h adaCached new (adaTrip (Duration.fromSecs 40))
    (forall_adaCached_iff (p := fun _ e => e.IsString) |>.mpr hstring)
    (forall_adaCached_iff (p := fun _ e => e.options.WholeMillis) |>.mpr hmillis)
    (forall_adaCached_iff (p := fun _ e => e.fetchedAt ≤ (adaTrip 0).departure) |>.mpr hdated)
    rfl rfl "user" adaEntry hada
  have hserde : ∀ json ∈ (none : Option SerdeJson), json.RoundTrips := nofun
  rw [hydrate_dehydrate_lookup hserde rfl rfl hada hstring] at he'
  obtain rfl := Option.some.inj he'
  have hstale := hr.stale 0
  revert hstale
  decide

end QueryClient

end RsQuery
