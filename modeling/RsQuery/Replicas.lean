import Mathlib.Tactic.Common
import RsQuery.Hydration
import RsQuery.Lib.Machine

/-!
# Clients that hydrate each other's snapshots

Any number of clients share the wall clock; each has a monotonic clock of its own.  Data is
written to them, snapshots are taken of them, and any snapshot is hydrated into any client
at any later time, its own included.  Beside each entry the birth of its data is kept: when
it was written, and how long it has been in transit since.

A payload wins when it was younger at its dehydration than the local entry is at the
hydration, so it may replace data written while the snapshot was in transit.
`Replicas.born_lt_of_hydrate` bounds how much older than what it replaces it can be.
-/

namespace RsQuery

/-- When the data of an entry was written, and how much later than that the entry may be
dated, for the transits the data has been through. -/
structure Birth where
  fetched : SystemTime
  delay : Duration
deriving DecidableEq

/-- A dehydrated client, with when it was dehydrated and the births of its entries. -/
structure Snapshot where
  state : DehydratedState
  takenAt : SystemTime
  births : Table String Birth

/-- The clients, their clocks, the births of their entries, and the snapshots taken. -/
structure Replicas (ι V : Type) where
  wall : SystemTime
  clock : ι → Instant
  client : ι → QueryClient V
  births : ι → Table String Birth
  snapshots : List Snapshot

variable {ι V : Type}

/-- The age a dehydrated query has by its own account. -/
def DehydratedState.age (state : DehydratedState) (q : DehydratedQuery) : Duration :=
  Duration.fromMillis (dehydratedAgeMs state.dehydratedAtMs q.fetchedAtMs)

namespace Snapshot

/-- The birth of the data of a query when it is hydrated: the transit, and the millisecond
it was rounded to, count as delay.  Where the age is out of the range of a clock, the entry
is dated anew, and the delay counts from the fetch. -/
def born (snapshot : Snapshot) (wall : SystemTime) (now : Instant) (q : DehydratedQuery) :
    Birth :=
  let birth := (snapshot.births.lookup q.queryHash).getD ⟨wall, 0⟩
  if snapshot.state.age q ≤ now ∧ snapshot.takenAt ≤ Duration.fromMillis u64Max then
    { birth with delay := birth.delay + (wall - snapshot.takenAt) + Duration.fromMillis 1 }
  else { birth with delay := wall - birth.fetched }

/-- The birth of the data of a query, where it is restored into the client. -/
def carry (snapshot : Snapshot) (wall : SystemTime) (now : Instant) (client : QueryClient V)
    (births : Table String Birth) (q : DehydratedQuery) : Table String Birth :=
  if QueryClient.restores (client.cache.lookup q.queryHash) now snapshot.state.dehydratedAtMs {} q
  then births.insert q.queryHash (snapshot.born wall now q)
  else births

end Snapshot

namespace Replicas

/-- A step of the system. -/
inductive Action (ι V : Type) where
  /-- Time passes. -/
  | pass (d : Duration)
  | setQueryData (i : ι) (key : QueryKey) (data : V) (options : QueryOptions)
  | dehydrate (i : ι)
  /-- A client hydrates the snapshot with the number `n`. -/
  | hydrate (i : ι) (n : Nat)

variable [DecidableEq ι] [StringAny V] (serde : Option SerdeJson)

/-- Hydrates a snapshot into a client. -/
def apply (s : Replicas ι V) (i : ι) (snapshot : Snapshot) : Replicas ι V :=
  let now := s.clock i
  let client := s.client i
  { s with
    client := Function.update s.client i (client.hydrate serde now snapshot.state {})
    births :=
      Function.update s.births i
        (snapshot.state.queries.foldl (snapshot.carry s.wall now client) (s.births i)) }

/-- What an action does. -/
def step (s : Replicas ι V) : Action ι V → Option (Replicas ι V)
  | .pass d => some { s with wall := s.wall + d, clock := fun i => s.clock i + d }
  | .setQueryData i key data options =>
    some
      { s with
        client :=
          Function.update s.client i ((s.client i).setQueryData (s.clock i) key data options)
        births :=
          Function.update s.births i ((s.births i).insert key.cacheKey ⟨s.wall, 0⟩) }
  | .dehydrate i =>
    let snapshot : Snapshot :=
      { state := (s.client i).dehydrate serde s.wall (s.clock i)
        takenAt := s.wall
        births := s.births i }
    some { s with snapshots := s.snapshots ++ [snapshot] }
  | .hydrate i n => s.snapshots[n]?.map fun snapshot => s.apply serde i snapshot

/-- The system of clients that have nothing cached at first. -/
def machine : Machine (Replicas ι V) (Action ι V) where
  init s := (∀ i, (s.client i).cache = ∅) ∧ s.snapshots = []
  step := step serde

/-! ### How entries are dated -/

/-- An entry is no older by its own account than its data is, and younger by no more than
the delay. -/
structure Dated (wall : SystemTime) (now : Instant) (e : CacheEntry V) (b : Birth) : Prop where
  past : e.fetchedAt ≤ now
  le : b.fetched + Instant.elapsed now e.fetchedAt ≤ wall
  wall_le : wall ≤ b.fetched + Instant.elapsed now e.fetchedAt + b.delay

/-- The queries of a snapshot are of different hashes, and each is dated at the time of the
snapshot as an entry is, but for the millisecond it is rounded to. -/
structure Sound (snapshot : Snapshot) : Prop where
  nodup : (snapshot.state.queries.map (·.queryHash)).Nodup
  dated : ∀ q ∈ snapshot.state.queries, ∃ b, snapshot.births.lookup q.queryHash = some b ∧
    b.fetched + snapshot.state.age q ≤ snapshot.takenAt ∧
      (snapshot.takenAt ≤ Duration.fromMillis u64Max →
        snapshot.takenAt < b.fetched + snapshot.state.age q + b.delay + Duration.fromMillis 1)

/-- What holds of every state: entries are dated by their births, and so are the queries of
every snapshot. -/
structure Kept (s : Replicas ι V) : Prop where
  entry : ∀ i k e, (s.client i).cache.lookup k = some e →
    ∃ b, (s.births i).lookup k = some b ∧ Dated s.wall (s.clock i) e b
  snapshot : ∀ snapshot ∈ s.snapshots, Sound snapshot ∧ snapshot.takenAt ≤ s.wall

omit [DecidableEq ι] [StringAny V]

theorem Dated.pass
    {wall : SystemTime} {now : Instant} {e : CacheEntry V} {b : Birth} (h : Dated wall now e b)
    (d : Duration) :
  Dated (wall + d) (now + d) e b
  := by
  obtain ⟨past, le, wall_le⟩ := h
  have helapsed : Instant.elapsed (now + d) e.fetchedAt = Instant.elapsed now e.fetchedAt + d :=
    Nat.sub_add_comm past
  constructor
  case past => apply Nat.le_add_right_of_le past
  all_goals
    rw [helapsed]
    dsimp only [Instant, Duration, SystemTime] at *
    omega

/-- An entry is born when it is written. -/
theorem Dated.written
    {wall : SystemTime} {now : Instant} {e : CacheEntry V} (h : e.fetchedAt = now) :
  Dated wall now e ⟨wall, 0⟩
  := by
  have helapsed : Instant.elapsed now e.fetchedAt = 0 := by
    rw [h]
    apply Nat.sub_self
  constructor
  case past => apply Nat.le_of_eq h
  case le => rw [helapsed, Nat.add_zero]
  case wall_le =>
    apply Nat.le_trans (Nat.le_add_right _ _) (Nat.le_add_right _ _)

/-- A dehydrated query is as old as the entry, but for a rest of less than a millisecond. -/
theorem Dated.dehydrated
    {wall : SystemTime} {now : Instant} {e : CacheEntry V} {b : Birth} (h : Dated wall now e b) :
  let age := Duration.fromMillis (dehydratedAgeMs (unixNowMs wall)
    (some (unixNowMs wall - Duration.asMillisU64 (Instant.elapsed now e.fetchedAt))))
  b.fetched + age ≤ wall ∧
    (wall ≤ Duration.fromMillis u64Max → wall < b.fetched + age + b.delay + Duration.fromMillis 1)
  := by
  obtain ⟨past, le, wall_le⟩ := h
  simp only [dehydratedAgeMs, unixNowMs, Duration.asMillisU64, Duration.fromMillis]
  generalize Instant.elapsed now e.fetchedAt = age at *
  dsimp only [Instant, Duration, SystemTime] at *
  omega

/-- A hydrated entry is dated by the birth the snapshot carries. -/
theorem Dated.hydrated
    {snapshot : Snapshot} {wall : SystemTime} {now : Instant} {q : DehydratedQuery}
    {e : CacheEntry V} (hsound : Sound snapshot) (htaken : snapshot.takenAt ≤ wall)
    (hq : q ∈ snapshot.state.queries)
    (he : e.fetchedAt = (now.checkedSub (snapshot.state.age q)).getD now) :
  Dated wall now e (snapshot.born wall now q)
  := by
  obtain ⟨b, hb, hle, hlt⟩ := hsound.dated q hq
  have helapsed : Instant.elapsed now e.fetchedAt =
      if snapshot.state.age q ≤ now then snapshot.state.age q else 0 := by
    rw [he]
    apply Instant.elapsed_checkedSub_now
  have hpast : e.fetchedAt ≤ now := by
    rw [he]
    apply Instant.checkedSub_getD_le
  simp only [Snapshot.born, hb, Option.getD_some]
  generalize snapshot.state.age q = age at *
  split at helapsed
  · next hage =>
    split
    · next h =>
      constructor
      case past => apply hpast
      all_goals
        rw [helapsed]
        have := hlt h.2
        dsimp only [Instant, Duration, SystemTime] at *
        omega
    · constructor
      case past => apply hpast
      all_goals
        rw [helapsed]
        dsimp only [Instant, Duration, SystemTime] at *
        omega
  · next hage =>
    rw [if_neg fun h => hage h.1]
    constructor
    case past => apply hpast
    all_goals
      rw [helapsed]
      dsimp only [Instant, Duration, SystemTime] at *
      omega

end Replicas

/-! ### What a snapshot does to a client -/

theorem Snapshot.carry_lookup_ne
    (snapshot : Snapshot) (wall : SystemTime) (now : Instant) (client : QueryClient V)
    (births : Table String Birth) (q : DehydratedQuery) (k : String) (h : k ≠ q.queryHash) :
  (snapshot.carry wall now client births q).lookup k = births.lookup k
  := by
  unfold carry
  split
  · apply AList.lookup_insert_ne h
  · rfl

theorem Snapshot.carry_lookup
    (snapshot : Snapshot) (wall : SystemTime) (now : Instant) (client : QueryClient V)
    (births : Table String Birth) (q : DehydratedQuery) :
  (snapshot.carry wall now client births q).lookup q.queryHash =
    if QueryClient.restores (client.cache.lookup q.queryHash) now snapshot.state.dehydratedAtMs {} q
    then some (snapshot.born wall now q)
    else births.lookup q.queryHash
  := by
  unfold carry
  split
  · apply AList.lookup_insert
  · rfl

section Hydrate

variable [StringAny V] (serde : Option SerdeJson)

/-- A snapshot leaves the entry of a key and its birth, or restores one of its queries. -/
theorem Snapshot.hydrate_cases
    {snapshot : Snapshot} (hs : (snapshot.state.queries.map (·.queryHash)).Nodup)
    (wall : SystemTime) (now : Instant) (client : QueryClient V) (births : Table String Birth)
    (k : String) :
  let client' := client.hydrate serde now snapshot.state {}
  let births' := snapshot.state.queries.foldl (snapshot.carry wall now client) births
  (client'.cache.lookup k = client.cache.lookup k ∧ births'.lookup k = births.lookup k) ∨
    ∃ q ∈ snapshot.state.queries, q.queryHash = k ∧
      QueryClient.restores (client.cache.lookup k) now snapshot.state.dehydratedAtMs {} q = true ∧
      client'.cache.lookup k =
        some (client.restoredEntry serde now snapshot.state.dehydratedAtMs {} q) ∧
      births'.lookup k = some (snapshot.born wall now q)
  := by
  intro client' births'
  have frame := snapshot.carry_lookup_ne wall now client
  by_cases hk : k ∈ snapshot.state.queries.map (·.queryHash)
  · obtain ⟨q, hq, rfl⟩ := List.mem_map.mp hk
    have hclient : client'.cache.lookup q.queryHash = _ := QueryClient.hydrate_lookup serde hs hq
    have hbirths : births'.lookup q.queryHash = _ :=
      Table.foldl_look_of_mem (fun births k => births.lookup k) _ (·.queryHash) frame
        (fun b b' q h => by simp only [carry_lookup, h]) hs hq births
    rw [QueryClient.hydrateQuery_lookup] at hclient
    rw [carry_lookup] at hbirths
    by_cases hr : QueryClient.restores (client.cache.lookup q.queryHash) now
        snapshot.state.dehydratedAtMs {} q = true
    · right
      rw [if_pos ⟨rfl, hr⟩] at hclient
      rw [if_pos hr] at hbirths
      exact ⟨q, hq, rfl, hr, hclient, hbirths⟩
    · left
      rw [if_neg fun h => hr h.2] at hclient
      rw [if_neg hr] at hbirths
      exact ⟨hclient, hbirths⟩
  · left
    use QueryClient.hydrate_lookup_of_not_mem serde hk
    exact Table.foldl_look_of_not_mem (fun (births : Table String Birth) k => births.lookup k) _
      (fun q : DehydratedQuery => q.queryHash) frame hk births

end Hydrate

namespace Replicas

variable [DecidableEq ι] [StringAny V] {serde : Option SerdeJson}

theorem Kept.setQueryData
    {s : Replicas ι V} (h : s.Kept) (i : ι) (key : QueryKey) (data : V) (options : QueryOptions)
    {s' : Replicas ι V} (hs : s.step serde (.setQueryData i key data options) = some s') :
  s'.Kept
  := by
  obtain rfl := Option.some.inj hs
  constructor
  case snapshot => apply h.snapshot
  case entry =>
    intro j k e he
    by_cases hj : j = i
    · subst hj
      simp only [Function.update_self, QueryClient.setQueryData_cache,
        Table.lookup_insert_eq] at he ⊢
      split at he
      · next hk =>
        obtain rfl := Option.some.inj he
        rw [if_pos hk]
        exact ⟨_, rfl, .written rfl⟩
      · next hk =>
        rw [if_neg hk]
        apply h.entry j k e he
    · simp only [Function.update_of_ne hj] at he ⊢
      apply h.entry j k e he

theorem Kept.dehydrate
    {s : Replicas ι V} (h : s.Kept) (i : ι) {s' : Replicas ι V}
    (hs : s.step serde (.dehydrate i) = some s') :
  s'.Kept
  := by
  obtain rfl := Option.some.inj hs
  constructor
  case entry => apply h.entry
  case snapshot =>
    intro snapshot hmem
    obtain hmem | rfl := List.mem_append.mp hmem |>.imp_right List.mem_singleton.mp
    · apply h.snapshot snapshot hmem
    · refine ⟨⟨nodup_dehydrateState serde _ _ _ _, ?_⟩, Nat.le_refl _⟩
      intro q hq
      obtain ⟨k, e, he, -, rfl⟩ := (mem_dehydrateState_iff serde).mp hq
      obtain ⟨b, hb, hdated⟩ := h.entry i k e he
      exact ⟨b, hb, hdated.dehydrated⟩

/-- A restored entry is dated by the birth the snapshot carries. -/
theorem Sound.restored
    {snapshot : Snapshot} {wall : SystemTime} {now : Instant} {q : DehydratedQuery}
    (hsound : Sound snapshot) (htaken : snapshot.takenAt ≤ wall)
    (hq : q ∈ snapshot.state.queries) (client : QueryClient V) :
  Dated wall now (client.restoredEntry serde now snapshot.state.dehydratedAtMs {} q)
    (snapshot.born wall now q)
  := Dated.hydrated hsound htaken hq rfl

theorem Kept.apply
    {s : Replicas ι V} (h : s.Kept) (i : ι) {snapshot : Snapshot} (hmem : snapshot ∈ s.snapshots) :
  (s.apply serde i snapshot).Kept
  := by
  obtain ⟨hsound, htaken⟩ := h.snapshot snapshot hmem
  constructor
  case snapshot => apply h.snapshot
  case entry =>
    intro j k e he
    by_cases hj : j = i
    · subst hj
      simp only [Replicas.apply, Function.update_self] at he ⊢
      obtain ⟨hclient, hbirths⟩ | ⟨q, hq, rfl, -, hclient, hbirths⟩ :=
        Snapshot.hydrate_cases serde hsound.nodup s.wall (s.clock j) (s.client j) (s.births j) k
      · rw [hclient] at he
        rw [hbirths]
        apply h.entry j k e he
      · rw [hclient] at he
        obtain rfl := Option.some.inj he
        exact ⟨_, hbirths, hsound.restored htaken hq _⟩
    · simp only [Replicas.apply, Function.update_of_ne hj] at he ⊢
      apply h.entry j k e he

theorem Kept.step
    {s s' : Replicas ι V} {a : Action ι V} (h : s.Kept) (hs : s.step serde a = some s') :
  s'.Kept
  := by
  cases a with
  | pass d =>
    obtain rfl := Option.some.inj hs
    constructor
    case entry =>
      intro i k e he
      obtain ⟨b, hb, hdated⟩ := h.entry i k e he
      exact ⟨b, hb, hdated.pass d⟩
    case snapshot =>
      intro snapshot hmem
      obtain ⟨hsound, htaken⟩ := h.snapshot snapshot hmem
      exact ⟨hsound, Nat.le_add_right_of_le htaken⟩
  | setQueryData i key data options => apply h.setQueryData i key data options hs
  | dehydrate i => apply h.dehydrate i hs
  | hydrate i n =>
    obtain ⟨snapshot, hn, rfl⟩ := Option.map_eq_some_iff.mp hs
    apply h.apply i (List.mem_of_getElem? hn)

theorem kept_of_reachable
    {s : Replicas ι V} (h : (machine (ι := ι) (V := V) serde).Reachable s) :
  s.Kept
  := by
  apply h.invariant
  · rintro s ⟨hempty, hnone⟩
    constructor
    case entry =>
      intro i k e he
      rw [hempty i, AList.lookup_empty] at he
      contradiction
    case snapshot =>
      rw [hnone]
      apply List.forall_mem_nil
  · intro s a s' _ hk _ hs
    apply hk.step hs

/-- A snapshot that replaces the data of an entry brings data that was fetched later, or
earlier by less than its delay. -/
theorem born_lt_of_hydrate
    {s s' : Replicas ι V} (h : (machine serde).Reachable s) {i : ι} {n : Nat}
    (hs : (machine serde).step s (.hydrate i n) = some s') {k : String} {e e' : CacheEntry V}
    (he : (s.client i).cache.lookup k = some e) (he' : (s'.client i).cache.lookup k = some e') :
  ∃ b b', (s.births i).lookup k = some b ∧ (s'.births i).lookup k = some b' ∧
    (e' = e ∧ b' = b ∨ b.fetched < b'.fetched + b'.delay)
  := by
  have hkept := kept_of_reachable h
  obtain ⟨snapshot, hn, rfl⟩ := Option.map_eq_some_iff.mp hs
  obtain ⟨hsound, htaken⟩ := hkept.snapshot snapshot (List.mem_of_getElem? hn)
  obtain ⟨b, hb, hdated⟩ := hkept.entry i k e he
  simp only [Replicas.apply, Function.update_self] at he' ⊢
  obtain ⟨hclient, hbirths⟩ | ⟨q, hq, rfl, hr, hclient, hbirths⟩ :=
    Snapshot.hydrate_cases serde hsound.nodup s.wall (s.clock i) (s.client i) (s.births i) k
  · refine ⟨b, b, hb, by rw [hbirths, hb], .inl ⟨?_, rfl⟩⟩
    rw [hclient, he] at he'
    apply (Option.some.inj he').symm
  · refine ⟨b, _, hb, hbirths, .inr ?_⟩
    have hrestored : Dated s.wall (s.clock i)
        ((s.client i).restoredEntry serde (s.clock i) snapshot.state.dehydratedAtMs {} q)
        (snapshot.born s.wall (s.clock i) q) := hsound.restored htaken hq _
    have hage : Instant.elapsed (s.clock i)
        ((s.client i).restoredEntry serde (s.clock i) snapshot.state.dehydratedAtMs {} q).fetchedAt
          ≤ snapshot.state.age q := Instant.elapsed_checkedSub_le _ _
    -- the payload is younger by its own account than the entry it replaces
    have hnewer : snapshot.state.age q < Instant.elapsed (s.clock i) e.fetchedAt := by
      simp only [QueryClient.restores, he, QueryClient.payloadWins, Option.all_none, Bool.true_and,
        Bool.and_eq_true, dehydratedIsNewer, decide_eq_true_iff] at hr
      apply hr.2
    have hle := hdated.le
    have hwall := hrestored.wall_le
    dsimp only [Instant, Duration, SystemTime] at *
    omega

/-- One client with nothing cached. -/
def alone : Replicas Unit (String ⊕ Nat) where
  wall := 0
  clock _ := 0
  client _ := .new
  births _ := ∅
  snapshots := []

/-- A snapshot is taken between two writes; ten milliseconds pass before the second write,
and ten after it. -/
def echo : List (Action Unit (String ⊕ Nat)) :=
  [.setQueryData () (.new "user") (.inl "old") {}, .dehydrate (), .pass (Duration.fromMillis 10),
    .setQueryData () (.new "user") (.inl "new") {}, .pass (Duration.fromMillis 10)]

/-- The data of the user and its birth. -/
def user (s : Replicas Unit (String ⊕ Nat)) : Option (String ⊕ Nat) × Option Birth :=
  (((s.client ()).cache.lookup "user").map (·.data), (s.births ()).lookup "user")

/-- Hydrating the snapshot puts the old data in the place of the new. -/
theorem user_echo :
  ∃ s, (machine none).Reachable s ∧ (s.user, (s.step none (.hydrate () 0)).map user) =
    ((some (.inl "new"), some ⟨Duration.fromMillis 10, 0⟩),
      some (some (.inl "old"), some ⟨0, Duration.fromMillis 21⟩))
  := by
  have init : (machine none).init alone := ⟨fun _ => rfl, rfl⟩
  apply Machine.exists_reachable_of_exec echo
    (fun s : Replicas Unit (String ⊕ Nat) => (s.user, (s.step none (.hydrate () 0)).map user)) _
    init (by decide +kernel)

/-- A look at the user, put together from the entry and its birth. -/
theorem lookup_of_user
    {s : Replicas Unit (String ⊕ Nat)} {data : String ⊕ Nat} {b : Birth}
    (h : s.user = (some data, some b)) :
  (∃ e, (s.client ()).cache.lookup "user" = some e ∧ e.data = data) ∧
    (s.births ()).lookup "user" = some b
  := by
  obtain ⟨hdata, hb⟩ := Prod.mk.inj h
  exact ⟨Option.map_eq_some_iff.mp hdata, hb⟩

/-- Data written while a snapshot was in transit is replaced by what the snapshot holds,
which was written before it; the snapshot is the client's own. -/
theorem exists_regress_echo :
  ¬ ∀ (s s' : Replicas Unit (String ⊕ Nat)) (i : Unit) (n : Nat),
    (machine none).Reachable s → (machine none).step s (.hydrate i n) = some s' →
    ∀ k e e' b b', (s.client i).cache.lookup k = some e → (s'.client i).cache.lookup k = some e' →
      (s.births i).lookup k = some b → (s'.births i).lookup k = some b' →
      e'.data = e.data ∨ b.fetched ≤ b'.fetched
  := by
  intro h
  obtain ⟨s, hs, hseen⟩ := user_echo
  obtain ⟨huser, hstep⟩ := Prod.mk.inj hseen
  obtain ⟨s', hs', huser'⟩ := Option.map_eq_some_iff.mp hstep
  obtain ⟨⟨e, he, hdata⟩, hb⟩ := lookup_of_user huser
  obtain ⟨⟨e', he', hdata'⟩, hb'⟩ := lookup_of_user huser'
  obtain hd | hf := h s s' () 0 hs hs' _ e e' _ _ he he' hb hb'
  · rw [hdata, hdata'] at hd
    revert hd
    decide
  · revert hf
    decide

/-- The old data comes back ten milliseconds late, with a delay of twenty-one. -/
theorem born_lt_of_hydrate_echo :
  ∃ s s' : Replicas Unit (String ⊕ Nat), (machine none).Reachable s ∧
    (machine none).step s (.hydrate () 0) = some s' ∧
    ∃ e e', (s.client ()).cache.lookup "user" = some e ∧
      (s'.client ()).cache.lookup "user" = some e' ∧ e'.data ≠ e.data ∧
      ∃ b b', (s.births ()).lookup "user" = some b ∧ (s'.births ()).lookup "user" = some b' ∧
        (e' = e ∧ b' = b ∨ b.fetched < b'.fetched + b'.delay)
  := by
  obtain ⟨s, hs, hseen⟩ := user_echo
  obtain ⟨huser, hstep⟩ := Prod.mk.inj hseen
  obtain ⟨s', hs', huser'⟩ := Option.map_eq_some_iff.mp hstep
  obtain ⟨⟨e, he, hdata⟩, -⟩ := lookup_of_user huser
  obtain ⟨⟨e', he', hdata'⟩, -⟩ := lookup_of_user huser'
  refine ⟨s, s', hs, hs', e, e', he, he', ?_, born_lt_of_hydrate hs hs' he he'⟩
  rw [hdata, hdata']
  decide

end Replicas

end RsQuery
