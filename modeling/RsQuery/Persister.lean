import Mathlib.Tactic.Common
import RsQuery.Hydration

/-!
# The query persister

A query is persisted as an entry of its own in a storage, and restored into a client that
has no data for it.  What is persisted is dated at the time it is persisted, and what is
restored at the time it is restored; `QueryPersister.keepsAge_iff` says for which times of
fetch, persist and restore the age of the data can be told nevertheless.

The persister needs the `serde` feature; `PersisterJson` is what it uses of `serde_json`.
The storage returns what was last set.
-/

namespace RsQuery

/-- Data payload of a single persisted query. -/
structure PersistedQueryState where
  dataJson : Option String
  dataUpdatedAtMs : Option Nat
  error : Option String
deriving DecidableEq

/-- A single persisted query entry. -/
structure PersistedQuery where
  buster : String
  queryHash : String
  queryKey : List String
  state : PersistedQueryState
deriving DecidableEq

/-- `serde_json` on strings, on data of the types asked for, and on persisted queries; an
error is its message. -/
structure PersisterJson (V : Type) where
  toString : String → Except String String
  fromStr : TypeId → String → Except String V
  queryToString : PersistedQuery → Except String String
  queryFromStr : String → Except String PersistedQuery

/-- Persisted queries are read back from their encoding. -/
def PersisterJson.RoundTrips {V : Type} (json : PersisterJson V) : Prop :=
  ∀ query text, json.queryToString query = .ok text → json.queryFromStr text = .ok query

/-- What a storage holds under its keys. -/
abbrev QueryStorage := Table String String

/-- Options for the per-query persister. -/
structure QueryPersisterOptions where
  buster : String := ""
  maxAge : Duration := Duration.fromSecs (24 * 60 * 60)
  keyPrefix : String := "rs-query"
  refetchOnRestore : Bool := true
  staleTime : Option Duration := none

namespace QueryPersister

/-- Storage key for a query hash. -/
def storageKey (options : QueryPersisterOptions) (queryHash : String) : String :=
  options.keyPrefix ++ "-" ++ queryHash

/-- Expiry and buster check for a parsed entry. -/
def isExpiredOrBusted (options : QueryPersisterOptions) (query : PersistedQuery) (now : Nat) :
    Bool :=
  if query.buster ≠ options.buster then true
  else
    match query.state.dataUpdatedAtMs with
    | none => true
    | some updatedAt => now - updatedAt > Duration.asMillisU64 options.maxAge

variable {V : Type} [StringAny V] (json : PersisterJson V) (options : QueryPersisterOptions)

/-- Persists a single query entry; queries without string data are skipped. -/
def persistQuery (client : QueryClient V) (storage : QueryStorage) (wall : SystemTime)
    (key : QueryKey) : Except QueryError QueryStorage :=
  match (client.getQueryData key (typeOf (ofString "" : V))).bind asString with
  | none => .ok storage
  | some data =>
    match json.toString data with
    | .error message => .error (.serialization message)
    | .ok dataJson =>
      let persisted : PersistedQuery :=
        { buster := options.buster
          queryHash := key.cacheKey
          queryKey := key.segments
          state :=
            { dataJson := some dataJson
              dataUpdatedAtMs := some (unixNowMs wall)
              error := none } }
      match json.queryToString persisted with
      | .error message => .error (.serialization message)
      | .ok payload => .ok (storage.insert (storageKey options key.cacheKey) payload)

/-- Hydrates restored data into the client; whether it is stale is decided here. -/
def applyRestoredData (client : QueryClient V) (wall : SystemTime) (now : Instant)
    (key : QueryKey) (data : V) (dataUpdatedAtMs : Option Nat) : QueryClient V :=
  let effectiveStaleTime := options.staleTime.getD 0
  let client := client.setQueryData now key data { staleTime := effectiveStaleTime }
  let isStale :=
    options.refetchOnRestore &&
      dataUpdatedAtMs.all fun updatedAt =>
        unixNowMs wall - updatedAt ≥ Duration.asMillisU64 effectiveStaleTime
  if isStale then client.markStale key.cacheKey else client

/-- Reads, validates and hydrates one entry; a corrupted one is removed. -/
def retrieveQuery (client : QueryClient V) (storage : QueryStorage) (wall : SystemTime)
    (now : Instant) (key : QueryKey) (typeId : TypeId) :
    QueryClient V × QueryStorage × Option V :=
  let storageKey := storageKey options key.cacheKey
  match storage.lookup storageKey with
  | none => (client, storage, none)
  | some raw =>
    match json.queryFromStr raw with
    | .error _ => (client, storage.erase storageKey, none)
    | .ok persisted =>
      if isExpiredOrBusted options persisted (unixNowMs wall) then (client, storage, none)
      else
        match persisted.state.dataJson with
        | none => (client, storage, none)
        | some dataJson =>
          match json.fromStr typeId dataJson with
          | .ok data =>
            (applyRestoredData options client wall now key data persisted.state.dataUpdatedAtMs,
              storage, some data)
          | .error _ => (client, storage.erase storageKey, none)

/-- Restores a query from storage, unless the client has data of the type. -/
def restoreQuery (client : QueryClient V) (storage : QueryStorage) (wall : SystemTime)
    (now : Instant) (key : QueryKey) (typeId : TypeId) :
    QueryClient V × QueryStorage × Option V :=
  match client.getQueryData key typeId with
  | some existing => (client, storage, some existing)
  | none => retrieveQuery json options client storage wall now key typeId

/-! ### Persisting and restoring again and again -/

/-- A client persists a query at one time, and another, new one restores it at another,
when its monotonic clock shows `clock`. -/
structure Cycle where
  persister : QueryPersisterOptions
  persistAt : SystemTime
  restorer : QueryPersisterOptions
  restoreAt : SystemTime
  clock : Instant

variable (key : QueryKey) (typeId : TypeId)

/-- The storage after the persist of a cycle; a failed one leaves it. -/
def persisted (s : QueryClient V × QueryStorage) (c : Cycle) : QueryStorage :=
  match persistQuery json c.persister s.1 s.2 c.persistAt key with
  | .ok storage => storage
  | .error _ => s.2

/-- The new client of a cycle, the storage, and what was restored. -/
def restored (storage : QueryStorage) (c : Cycle) : QueryClient V × QueryStorage × Option V :=
  restoreQuery json c.restorer .new storage c.restoreAt c.clock key typeId

/-- A client and the storage after a cycle. -/
def cycle (s : QueryClient V × QueryStorage) (c : Cycle) : QueryClient V × QueryStorage :=
  let r := restored json key typeId (persisted json key s c) c
  (r.1, r.2.1)

/-- What the last of several cycles finds in the storage, which was empty at first. -/
def stored (client : QueryClient V) (earlier : List Cycle) (last : Cycle) : QueryStorage :=
  persisted json key (earlier.foldl (cycle json key typeId) (client, ∅)) last

/-- What a restore finds: the record is in the storage, of the buster asked for, and its data
is of the type. -/
structure Finds (storage : QueryStorage) (c : Cycle) (query : PersistedQuery) (data : V) :
    Prop where
  found : ∃ raw, storage.lookup (storageKey c.restorer key.cacheKey) = some raw ∧
    json.queryFromStr raw = .ok query
  buster : query.buster = c.restorer.buster
  data : ∃ text, query.state.dataJson = some text ∧ json.fromStr typeId text = .ok data

/-- The age of data fetched at the time `fetched` is kept by a restore: it is restored only
from a record of its buster and within its maximal age, and `later` after the restore it is
reported stale when the stale time has passed since the fetch. -/
def KeepsAge (fetched : SystemTime) (storage : QueryStorage) (c : Cycle) (later : Duration) :
    Prop :=
  let r := restored json key typeId storage c
  ∀ data, r.2.2 = some data →
    (∃ query, Finds json key typeId storage c query data) ∧
      unixNowMs c.restoreAt - unixNowMs fetched ≤ Duration.asMillisU64 c.restorer.maxAge ∧
      (c.restorer.refetchOnRestore = true →
        (r.1.isStale (c.clock + later) key = true ↔
          Duration.asMillisU64 (c.restorer.staleTime.getD 0)
            ≤ unixNowMs (c.restoreAt + later) - unixNowMs fetched))

/-- Data fetched at `f` and recorded at `p` is restored at `r` by a persister that counts its
age from the record, and looked at when the wall clock shows `u`, `later` after the restore.
Within the maximal age by the record it is so by the fetch; and then either the stale time had
passed since the record, or it has passed since the restore exactly when it has passed since
the fetch. -/
def AgeTold (options : QueryPersisterOptions) (f p r u : Nat) (later : Duration) : Prop :=
  let maxAge := Duration.asMillisU64 options.maxAge
  let staleTime := options.staleTime.getD 0
  r - p ≤ maxAge → r - f ≤ maxAge ∧
    (options.refetchOnRestore = true →
      Duration.asMillisU64 staleTime ≤ r - p ∨
        (staleTime < later ↔ Duration.asMillisU64 staleTime ≤ u - f))

/-- The record a restore finds tells the age of data fetched at the time `fetched`. -/
def TellsAge (fetched : SystemTime) (storage : QueryStorage) (c : Cycle) (later : Duration) :
    Prop :=
  ∀ query data, Finds json key typeId storage c query data → ∀ p ∈ query.state.dataUpdatedAtMs,
    AgeTold c.restorer (unixNowMs fetched) p (unixNowMs c.restoreAt)
      (unixNowMs (c.restoreAt + later)) later

/-- Every record of the storage is dated at the time one of the cycles persisted it. -/
def Dated (cycles : List Cycle) (storage : QueryStorage) : Prop :=
  ∀ k raw query, storage.lookup k = some raw → json.queryFromStr raw = .ok query →
    ∃ c ∈ cycles, query.state.dataUpdatedAtMs = some (unixNowMs c.persistAt)

/-! ### What is in the storage -/

section Stored

variable {json : PersisterJson V} {key : QueryKey} {typeId : TypeId} {storage : QueryStorage}
  {cycles : List Cycle} {c : Cycle}

/-- What a persist does to the storage: nothing, or it stores a record dated now. -/
theorem persisted_cases (s : QueryClient V × QueryStorage) (c : Cycle) :
  persisted json key s c = s.2 ∨
    ∃ query payload, json.queryToString query = .ok payload ∧
      query.state.dataUpdatedAtMs = some (unixNowMs c.persistAt) ∧
      persisted json key s c = s.2.insert (storageKey c.persister key.cacheKey) payload
  := by
  have hcases : (∃ error, persistQuery json c.persister s.1 s.2 c.persistAt key = .error error) ∨
      persistQuery json c.persister s.1 s.2 c.persistAt key = .ok s.2 ∨
      ∃ query payload, json.queryToString query = .ok payload ∧
        query.state.dataUpdatedAtMs = some (unixNowMs c.persistAt) ∧
        persistQuery json c.persister s.1 s.2 c.persistAt key =
          .ok (s.2.insert (storageKey c.persister key.cacheKey) payload) := by
    unfold persistQuery
    split
    · right; left; rfl
    · split
      · left
        exact ⟨_, rfl⟩
      · dsimp only
        split
        · left
          exact ⟨_, rfl⟩
        · next payload hpayload =>
          right; right
          exact ⟨_, payload, hpayload, rfl, rfl⟩
  obtain ⟨error, h⟩ | h | ⟨query, payload, hpayload, hdate, h⟩ := hcases
  · left
    rw [persisted, h]
  · left
    rw [persisted, h]
  · right
    use query, payload, hpayload, hdate
    rw [persisted, h]

theorem Dated.persisted
    (hjson : json.RoundTrips) (hc : c ∈ cycles) {s : QueryClient V × QueryStorage}
    (h : Dated json cycles s.2) :
  Dated json cycles (persisted json key s c)
  := by
  obtain heq | ⟨query, payload, hpayload, hdate, heq⟩ := persisted_cases s c
  · rwa [heq]
  · rw [heq]
    intro k raw query' hraw hquery
    obtain ⟨-, rfl⟩ | ⟨-, hraw⟩ := Table.lookup_insert_cases hraw
    · rw [hjson query raw hpayload] at hquery
      obtain rfl := Except.ok.inj hquery
      use c, hc, hdate
    · apply h k raw query' hraw hquery

omit [StringAny V] in
theorem Dated.erase {k : String} (h : Dated json cycles storage) :
  Dated json cycles (storage.erase k)
  := by
  intro k' raw query hraw
  obtain ⟨-, hraw⟩ := Table.lookup_of_erase hraw
  apply h k' raw query hraw

/-- A record that passes the check is of the buster asked for, dated, and not expired. -/
theorem valid_iff {options : QueryPersisterOptions} {query : PersistedQuery} {now : Nat} :
  isExpiredOrBusted options query now = false ↔
    query.buster = options.buster ∧ ∃ p ∈ query.state.dataUpdatedAtMs,
      now - p ≤ Duration.asMillisU64 options.maxAge
  := by
  unfold isExpiredOrBusted
  split
  · next h => simp [h]
  · next h =>
    rw [ne_eq, not_not] at h
    cases query.state.dataUpdatedAtMs with
    | none => simp
    | some p => simp [h]

/-- A new client has no data, so a restore goes to the storage. -/
theorem restored_eq :
  restored json key typeId storage c =
    retrieveQuery json c.restorer .new storage c.restoreAt c.clock key typeId
  := rfl

/-- A record that is found is applied when it is not expired. -/
theorem Finds.restored {query : PersistedQuery} {data : V} {p : Nat}
    (h : Finds json key typeId storage c query data) (hp : p ∈ query.state.dataUpdatedAtMs)
    (hmax : unixNowMs c.restoreAt - p ≤ Duration.asMillisU64 c.restorer.maxAge) :
  restored json key typeId storage c =
    (applyRestoredData c.restorer .new c.restoreAt c.clock key data (some p), storage, some data)
  := by
  obtain ⟨⟨raw, hraw, hquery⟩, hbuster, text, htext, hdata⟩ := h
  have hvalid : isExpiredOrBusted c.restorer query (unixNowMs c.restoreAt) = false :=
    valid_iff.mpr ⟨hbuster, p, hp, hmax⟩
  rw [restored_eq]
  simp only [retrieveQuery, hraw, hquery, hvalid, htext, hdata, Option.mem_def.mp hp]
  rfl

/-- What is restored is the data of a record that is found, and not expired. -/
theorem exists_finds {data : V} (h : (restored json key typeId storage c).2.2 = some data) :
  ∃ query p, Finds json key typeId storage c query data ∧ p ∈ query.state.dataUpdatedAtMs ∧
    unixNowMs c.restoreAt - p ≤ Duration.asMillisU64 c.restorer.maxAge
  := by
  rw [restored_eq, retrieveQuery] at h
  split at h
  · contradiction
  · next raw hraw =>
    split at h
    · contradiction
    · next query hquery =>
      split at h
      · contradiction
      · next hvalid =>
        split at h
        · contradiction
        · next text htext =>
          split at h
          · next data' hdata =>
            obtain rfl := Option.some.inj h
            obtain ⟨hbuster, p, hp, hmax⟩ := valid_iff.mp (Bool.eq_false_iff.mpr hvalid)
            exact ⟨query, p, ⟨⟨raw, hraw, hquery⟩, hbuster, text, htext, hdata⟩, hp, hmax⟩
          · contradiction

/-- A restore leaves the storage, or removes a record. -/
theorem restored_storage (json : PersisterJson V) (key : QueryKey) (typeId : TypeId)
    (storage : QueryStorage) (c : Cycle) :
  (restored json key typeId storage c).2.1 = storage ∨
    ∃ k, (restored json key typeId storage c).2.1 = storage.erase k
  := by
  rw [restored_eq, retrieveQuery]
  split
  · left; rfl
  · split
    · right
      exact ⟨_, rfl⟩
    · split
      · left; rfl
      · split
        · left; rfl
        · split
          · left; rfl
          · right
            exact ⟨_, rfl⟩

/-- Records stay dated through a cycle. -/
theorem Dated.cycle
    (hjson : json.RoundTrips) (hc : c ∈ cycles) {s : QueryClient V × QueryStorage}
    (h : Dated json cycles s.2) :
  Dated json cycles (cycle json key typeId s c).2
  := by
  have hp : Dated json cycles (QueryPersister.persisted json key s c) := h.persisted hjson hc
  have hstorage : (QueryPersister.cycle json key typeId s c).2
      = (QueryPersister.restored json key typeId (QueryPersister.persisted json key s c) c).2.1 :=
    rfl
  rw [hstorage]
  obtain heq | ⟨k, heq⟩ := restored_storage json key typeId (QueryPersister.persisted json key s c) c
  · rwa [heq]
  · rw [heq]
    apply hp.erase

/-- Whatever cycles there were, a record is dated at the time it was persisted. -/
theorem dated_stored
    (hjson : json.RoundTrips) (client : QueryClient V) (earlier : List Cycle) (last : Cycle) :
  Dated json (earlier ++ [last]) (stored json key typeId client earlier last)
  := by
  have hempty : Dated json (earlier ++ [last]) (client, (∅ : QueryStorage)).2 := by
    intro k raw query hraw
    rw [AList.lookup_empty] at hraw
    contradiction
  have hsub : ∀ c ∈ earlier, c ∈ earlier ++ [last] := fun c hc => List.mem_append_left _ hc
  have hearlier : Dated json (earlier ++ [last])
      (earlier.foldl (QueryPersister.cycle json key typeId) (client, ∅)).2 := by
    generalize earlier ++ [last] = cycles at hempty hsub
    generalize (client, (∅ : QueryStorage)) = s at hempty
    induction earlier generalizing s with
    | nil => apply hempty
    | cons c earlier ih =>
      rw [List.foldl_cons]
      apply ih
      · intro c' hc'
        apply hsub c' (List.mem_cons_of_mem c hc')
      · apply hempty.cycle hjson (hsub c List.mem_cons_self)
  apply hearlier.persisted hjson
  simp

/-- Whether restored data is marked stale at the restore. -/
def marksStale (options : QueryPersisterOptions) (wall : SystemTime)
    (dataUpdatedAtMs : Option Nat) : Bool :=
  options.refetchOnRestore &&
    dataUpdatedAtMs.all fun updatedAt =>
      unixNowMs wall - updatedAt ≥ Duration.asMillisU64 (options.staleTime.getD 0)

theorem applyRestoredData_eq
    (options : QueryPersisterOptions) (c : QueryClient V) (wall : SystemTime) (now : Instant)
    (key : QueryKey) (data : V) (dataUpdatedAtMs : Option Nat) :
  applyRestoredData options c wall now key data dataUpdatedAtMs =
    if marksStale options wall dataUpdatedAtMs then
      (c.setQueryData now key data { staleTime := options.staleTime.getD 0 }).markStale
        key.cacheKey
    else c.setQueryData now key data { staleTime := options.staleTime.getD 0 }
  := rfl

/-- When restored data is reported stale: its age counts from the restore. -/
theorem isStale_applyRestoredData
    (options : QueryPersisterOptions) (wall : SystemTime) (now : Instant) (data : V)
    (dataUpdatedAtMs : Option Nat) (later : Duration) :
  (applyRestoredData options .new wall now key data dataUpdatedAtMs).isStale (now + later) key =
    (decide (options.staleTime.getD 0 ≠ 0 ∧ later > options.staleTime.getD 0) ||
      marksStale options wall dataUpdatedAtMs)
  := by
  have hage : Instant.elapsed (now + later) now = later := by
    simp only [Instant.elapsed]
    dsimp only [Instant, Duration] at *
    omega
  have hentry : ((QueryClient.new (V := V)).setQueryData now key data
      { staleTime := options.staleTime.getD 0 }).cache.lookup key.cacheKey =
        some
          { data := data
            typeId := typeOf data
            fetchedAt := now
            lastAccessed := now
            options := { staleTime := options.staleTime.getD 0 }
            isStale := false } := by
    rw [QueryClient.setQueryData_cache, AList.lookup_insert]
    rfl
  rw [applyRestoredData_eq]
  cases marksStale options wall dataUpdatedAtMs with
  | true =>
    simp only [if_true, QueryClient.isStale, QueryClient.markStale, Table.lookup_adjust, hentry,
      Option.map_some, QueryClient.entryIsStale, hage, Bool.or_true]
  | false =>
    simp only [Bool.false_eq_true, if_false, QueryClient.isStale, hentry,
      QueryClient.entryIsStale, hage]

/-- Of data fetched at `f` and recorded at `p`, what is reported after a restore at `r` agrees
with its age when it was old enough at `r` already, or else the stale time runs out as late
after the restore as after the fetch. -/
theorem reports_iff {s later : Duration} {f p r u : Nat} (hf : f ≤ p) (hu : r ≤ u) :
  ((decide (s ≠ 0 ∧ later > s) || decide (r - p ≥ Duration.asMillisU64 s)) = true ↔
      Duration.asMillisU64 s ≤ u - f) ↔
    Duration.asMillisU64 s ≤ r - p ∨ (s < later ↔ Duration.asMillisU64 s ≤ u - f)
  := by
  by_cases h : Duration.asMillisU64 s ≤ r - p
  · have : Duration.asMillisU64 s ≤ u - f := by omega
    simp [h, this]
  · have hs : s ≠ 0 := by
      rintro rfl
      apply h
      apply Nat.zero_le
    simp [h, hs]

/-- Whatever cycles there were, the records are dated at the times they were persisted, and
the age of the data is kept by the last restore exactly when the record it finds tells it. -/
theorem keepsAge_iff
    (json : PersisterJson V) (hjson : json.RoundTrips) (client : QueryClient V)
    (key : QueryKey) (typeId : TypeId) (fetched : SystemTime) (earlier : List Cycle)
    (last : Cycle) (hf : ∀ c ∈ earlier ++ [last], fetched ≤ c.persistAt) (later : Duration) :
  let storage := stored json key typeId client earlier last
  Dated json (earlier ++ [last]) storage ∧
    (KeepsAge json key typeId fetched storage last later ↔
      TellsAge json key typeId fetched storage last later)
  := by
  intro storage
  have hdated : Dated json (earlier ++ [last]) storage := dated_stored hjson client earlier last
  use hdated
  generalize storage = storage at hdated
  have hmono := unixNowMs_mono (Nat.le_add_right last.restoreAt later)
  -- what is reported of a record that is found and not expired
  have hreports {query data p} (h : Finds json key typeId storage last query data)
      (hp : p ∈ query.state.dataUpdatedAtMs)
      (hmax : unixNowMs last.restoreAt - p ≤ Duration.asMillisU64 last.restorer.maxAge)
      (hrefetch : last.restorer.refetchOnRestore = true) :
      ((restored json key typeId storage last).1.isStale (last.clock + later) key = true ↔
        Duration.asMillisU64 (last.restorer.staleTime.getD 0)
          ≤ unixNowMs (last.restoreAt + later) - unixNowMs fetched) ↔
      Duration.asMillisU64 (last.restorer.staleTime.getD 0) ≤ unixNowMs last.restoreAt - p ∨
        (last.restorer.staleTime.getD 0 < later ↔
          Duration.asMillisU64 (last.restorer.staleTime.getD 0)
            ≤ unixNowMs (last.restoreAt + later) - unixNowMs fetched) := by
    obtain ⟨raw, hraw, hquery⟩ := h.found
    obtain ⟨c, hc, hdate⟩ := hdated _ _ _ hraw hquery
    rw [Option.mem_def.mp hp] at hdate
    have hfp : unixNowMs fetched ≤ p := by
      rw [Option.some.inj hdate]
      apply unixNowMs_mono (hf c hc)
    rw [h.restored hp hmax, isStale_applyRestoredData]
    simp only [marksStale, hrefetch, Bool.true_and, Option.all_some]
    apply reports_iff hfp hmono
  constructor
  · intro h query data hfinds p hp hmax
    obtain ⟨-, hage, hstale⟩ := h data (by rw [hfinds.restored hp hmax])
    use hage
    intro hrefetch
    apply (hreports hfinds hp hmax hrefetch).mp (hstale hrefetch)
  · intro h data hdata
    obtain ⟨query, p, hfinds, hp, hmax⟩ := exists_finds hdata
    obtain ⟨hage, hstale⟩ := h query data hfinds p hp hmax
    use ⟨query, hfinds⟩, hage
    intro hrefetch
    apply (hreports hfinds hp hmax hrefetch).mpr (hstale hrefetch)

/-! ### A user persisted and restored -/

/-- The record of a user persisted at the time. -/
def adaRecord (persistAt : SystemTime) : PersistedQuery where
  buster := ""
  queryHash := "user"
  queryKey := ["user"]
  state :=
    { dataJson := some "\"ada\""
      dataUpdatedAtMs := some (unixNowMs persistAt)
      error := none }

/-- The encoding of that user and the record. -/
def adaJson (persistAt : SystemTime) : PersisterJson (String ⊕ Nat) where
  toString text := if text = "ada" then .ok "\"ada\"" else .error "unexpected"
  fromStr typeId text :=
    if typeId = 0 ∧ text = "\"ada\"" then .ok (.inl "ada") else .error "unexpected"
  queryToString query := if query = adaRecord persistAt then .ok "record" else .error "unexpected"
  queryFromStr text := if text = "record" then .ok (adaRecord persistAt) else .error "unexpected"

theorem adaJson_roundTrips (persistAt : SystemTime) :
  (adaJson persistAt).RoundTrips
  := by
  intro query text h
  simp only [adaJson] at h ⊢
  split at h
  · next hquery =>
    obtain rfl := Except.ok.inj h
    rw [hquery]
    rfl
  · contradiction

/-- A client that has fetched the user. -/
def adaFetched : QueryClient (String ⊕ Nat) :=
  QueryClient.new.setQueryData 0 (.new "user") (.inl "ada") {}

/-- Persisted and restored with the default options. -/
def adaCycle (persistAt restoreAt : SystemTime) : Cycle where
  persister := {}
  persistAt := persistAt
  restorer := {}
  restoreAt := restoreAt
  clock := 0

theorem stored_ada (persistAt restoreAt : SystemTime) :
  stored (adaJson persistAt) (.new "user") 0 adaFetched [] (adaCycle persistAt restoreAt)
    = (∅ : QueryStorage).insert (storageKey {} "user") "record"
  := by
  have hdata : (adaFetched.getQueryData (.new "user")
      (typeOf (ofString "" : String ⊕ Nat))).bind asString = some "ada" := by
    rw [QueryClient.getQueryData, adaFetched, QueryClient.setQueryData_cache, AList.lookup_insert]
    rfl
  have hjson : (adaJson persistAt).toString "ada" = .ok "\"ada\"" := rfl
  have hrecord : (adaJson persistAt).queryToString (adaRecord persistAt) = .ok "record" :=
    if_pos rfl
  have hpersist : persistQuery (adaJson persistAt) {} adaFetched ∅ persistAt (.new "user")
      = .ok ((∅ : QueryStorage).insert (storageKey {} "user") "record") := by
    rw [persistQuery, hdata]
    dsimp only
    rw [hjson]
    dsimp only
    split
    · next message h =>
      have := hrecord.symm.trans h
      contradiction
    · next payload h =>
      obtain rfl := Except.ok.inj (hrecord.symm.trans h)
      rfl
  rw [stored, List.foldl_nil, persisted]
  simp only [adaCycle, hpersist]

/-- The record is found. -/
theorem finds_ada (persistAt restoreAt : SystemTime) :
  Finds (adaJson persistAt) (.new "user") 0
    (stored (adaJson persistAt) (.new "user") 0 adaFetched [] (adaCycle persistAt restoreAt))
    (adaCycle persistAt restoreAt) (adaRecord persistAt) (.inl "ada")
  := by
  constructor
  case found =>
    use "record"
    constructor
    · rw [stored_ada]
      apply AList.lookup_insert
    · rfl
  case buster => rfl
  case data => exact ⟨"\"ada\"", rfl, rfl⟩

/-- It is restored when it is no more than a day old. -/
theorem restored_ada (persistAt restoreAt : SystemTime)
    (h : unixNowMs restoreAt - unixNowMs persistAt ≤ 86400000) :
  (restored (adaJson persistAt) (.new "user") 0
    (stored (adaJson persistAt) (.new "user") 0 adaFetched [] (adaCycle persistAt restoreAt))
    (adaCycle persistAt restoreAt)).2.2 = some (.inl "ada")
  := by
  have hmax : Duration.asMillisU64 (adaCycle persistAt restoreAt).restorer.maxAge = 86400000 := by
    dsimp only [adaCycle]
    decide
  have hp : unixNowMs persistAt ∈ (adaRecord persistAt).state.dataUpdatedAtMs := rfl
  rw [(finds_ada persistAt restoreAt).restored hp]
  rw [hmax]
  apply h

/-- A user persisted as it is fetched and restored an hour later is restored, and its age
is kept. -/
theorem keepsAge_iff_ada :
  let fetched := Duration.fromSecs 1700000000
  let last := adaCycle fetched (fetched + Duration.fromSecs 3600)
  let storage := stored (adaJson fetched) (.new "user") 0 adaFetched [] last
  (restored (adaJson fetched) (.new "user") 0 storage last).2.2 = some (.inl "ada") ∧
    KeepsAge (adaJson fetched) (.new "user") 0 fetched storage last (Duration.fromSecs 60)
  := by
  intro fetched last storage
  use restored_ada fetched (fetched + Duration.fromSecs 3600) (by decide)
  have hf : ∀ c ∈ [] ++ [last], fetched ≤ c.persistAt := by simp [last, adaCycle]
  obtain ⟨hdated, hiff⟩ := keepsAge_iff (adaJson fetched) (adaJson_roundTrips fetched) adaFetched
    (.new "user") 0 fetched [] last hf (Duration.fromSecs 60)
  apply hiff.mpr
  intro query data h p hp _
  constructor
  · decide
  · intro _
    left
    have hstale : Duration.asMillisU64 (last.restorer.staleTime.getD 0) = 0 := by decide
    rw [hstale]
    apply Nat.zero_le

/-- A user persisted a day after it was fetched and restored an hour later is restored,
though it is older than a day. -/
theorem not_keepsAge_ada :
  ¬ ∀ (json : PersisterJson (String ⊕ Nat)), json.RoundTrips →
    ∀ (client : QueryClient (String ⊕ Nat)) (key : QueryKey) (typeId : TypeId)
      (fetched : SystemTime) (earlier : List Cycle) (last : Cycle),
      (∀ c ∈ earlier ++ [last], fetched ≤ c.persistAt) → ∀ later : Duration,
      KeepsAge json key typeId fetched (stored json key typeId client earlier last) last later
  := by
  intro h
  let fetched := Duration.fromSecs 1700000000
  let persistAt := fetched + Duration.fromSecs 86400
  let last := adaCycle persistAt (persistAt + Duration.fromSecs 3600)
  have hrestored := restored_ada persistAt (persistAt + Duration.fromSecs 3600) (by decide)
  have hkeeps := h (adaJson persistAt) (adaJson_roundTrips persistAt) adaFetched (.new "user") 0
    fetched [] last (by simp [last, adaCycle, persistAt]) 0
  obtain ⟨-, hmax, -⟩ := hkeeps (.inl "ada") hrestored
  revert hmax
  decide

end Stored

end QueryPersister

end RsQuery
