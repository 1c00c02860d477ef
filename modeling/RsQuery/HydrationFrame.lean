import Mathlib.Tactic.Common
import RsQuery.Hydration

/-!
# What a hydration changes

The queries of a payload are hydrated one after another, and may have any hashes and
segments, the same hash several times among them.  A query without a fetch time counts as
`u64::MAX` milliseconds old, so that it does not replace local data;
`QueryClient.hydrationFrame_iff` says when it does nevertheless.
-/

namespace RsQuery

/-- The query has data and passes `should_hydrate`. -/
def HydrateOptions.Admits (options : HydrateOptions) (q : DehydratedQuery) : Prop :=
  q.dataJson.isSome = true ∧ ∀ filter ∈ options.shouldHydrate, filter q.queryHash = true

variable {V : Type} [StringAny V] (serde : Option SerdeJson)

namespace QueryClient

/-- Hydrates queries one after another, each at its own time. -/
def hydrateQueries (dehydratedAtMs : Nat) (options : HydrateOptions) (client : QueryClient V)
    (queries : List (Instant × DehydratedQuery)) : QueryClient V :=
  queries.foldl (fun client q => client.hydrateQuery serde q.1 dehydratedAtMs options q.2) client

/-- A hydration that takes no time. -/
theorem hydrate_eq_hydrateQueries
    (client : QueryClient V) (now : Instant) (state : DehydratedState) (options : HydrateOptions) :
  client.hydrate serde now state options =
    client.hydrateQueries serde state.dehydratedAtMs options (state.queries.map (now, ·))
  := by
  rw [hydrate, hydrateQueries, List.foldl_map]

variable (client : QueryClient V) (dehydratedAtMs : Nat) (options : HydrateOptions)
  (queries : List (Instant × DehydratedQuery))

/-- A hydration changes only what the payload may change. -/
structure HydrationFrame : Prop where
  /-- An entry is changed only under the hash of a query that is admitted. -/
  admitted : ∀ k,
    (client.hydrateQueries serde dehydratedAtMs options queries).cache.lookup k
      ≠ client.cache.lookup k →
    ∃ q ∈ queries, q.2.queryHash = k ∧ options.Admits q.2
  /-- Without `should_overwrite` the entries there were are kept. -/
  kept : options.shouldOverwrite = false → ∀ k e, client.cache.lookup k = some e →
    (client.hydrateQueries serde dehydratedAtMs options queries).cache.lookup k = some e
  /-- A query without a fetch time changes nothing where there was an entry. -/
  undated : ∀ before q after, queries = before ++ q :: after → q.2.fetchedAtMs = none →
    (client.cache.lookup q.2.queryHash).isSome = true → ∀ k,
      (client.hydrateQueries serde dehydratedAtMs options (before ++ [q])).cache.lookup k
        = (client.hydrateQueries serde dehydratedAtMs options before).cache.lookup k
  /-- Where there was none, the entry of an admitted query is under its hash. -/
  cached : ∀ q ∈ queries, options.Admits q.2 → client.cache.lookup q.2.queryHash = none →
    ∃ e, (client.hydrateQueries serde dehydratedAtMs options queries).cache.lookup q.2.queryHash
        = some e ∧
      ∃ q' ∈ queries, q'.2.queryHash = q.2.queryHash ∧ options.Admits q'.2 ∧
        e.data = ofString (deserializeEntryData serde (q'.2.dataJson.getD ""))

/-- No admitted query without a fetch time meets, under its hash, an entry there was that
is older than it counts. -/
def NoneOlder : Prop :=
  ∀ before q after, queries = before ++ q :: after → q.2.fetchedAtMs = none →
    options.Admits q.2 → options.shouldOverwrite = true →
    (client.cache.lookup q.2.queryHash).isSome = true →
    ∀ e, (client.hydrateQueries serde dehydratedAtMs options before).cache.lookup q.2.queryHash
        = some e →
      Instant.elapsed q.1 e.fetchedAt ≤ Duration.fromMillis u64Max

variable {serde client dehydratedAtMs options queries}

theorem hydrateQueries_append (before after : List (Instant × DehydratedQuery)) :
  client.hydrateQueries serde dehydratedAtMs options (before ++ after) =
    (client.hydrateQueries serde dehydratedAtMs options before).hydrateQueries serde dehydratedAtMs
      options after
  := List.foldl_append

theorem hydrateQueries_concat (before : List (Instant × DehydratedQuery))
    (q : Instant × DehydratedQuery) :
  client.hydrateQueries serde dehydratedAtMs options (before ++ [q]) =
    (client.hydrateQueries serde dehydratedAtMs options before).hydrateQuery serde q.1
      dehydratedAtMs options q.2
  := hydrateQueries_append before [q]

omit [StringAny V] in
/-- Whether a query is restored over an entry: it is admitted, and newer where entries may
be overwritten. -/
theorem restores_eq_true_iff {existing : Option (CacheEntry V)} {now : Instant}
    {q : DehydratedQuery} :
  restores existing now dehydratedAtMs options q = true ↔
    options.Admits q ∧ ∀ e ∈ existing, options.shouldOverwrite = true ∧
      Duration.fromMillis (dehydratedAgeMs dehydratedAtMs q.fetchedAtMs)
        < Instant.elapsed now e.fetchedAt
  := by
  rw [restores, Bool.and_eq_true, Bool.and_eq_true, and_comm (b := q.dataJson.isSome = true)]
  apply and_congr
  · rw [HydrateOptions.Admits]
    cases options.shouldHydrate with
    | none => simp
    | some filter => simp
  · cases existing with
    | none => simp [payloadWins]
    | some e => simp [payloadWins, dehydratedIsNewer]

/-- What holds of a client, and is kept by every query, holds after all of them. -/
theorem hydrateQueries_invariant (P : QueryClient V → Prop) (h : P client)
    (hstep : ∀ c, P c → ∀ q ∈ queries, P (c.hydrateQuery serde q.1 dehydratedAtMs options q.2)) :
  P (client.hydrateQueries serde dehydratedAtMs options queries)
  := List.foldlRecOn queries _ h hstep

/-- Hydration removes no entry. -/
theorem isSome_hydrateQuery {now : Instant} {q : DehydratedQuery} {k : String}
    (h : (client.cache.lookup k).isSome = true) :
  ((client.hydrateQuery serde now dehydratedAtMs options q).cache.lookup k).isSome = true
  := by
  rw [hydrateQuery_lookup]
  split
  · rfl
  · apply h

theorem isSome_hydrateQueries {k : String} (h : (client.cache.lookup k).isSome = true) :
  ((client.hydrateQueries serde dehydratedAtMs options queries).cache.lookup k).isSome = true
  := hydrateQueries_invariant (fun c => (c.cache.lookup k).isSome = true) h
      fun _ hc _ _ => isSome_hydrateQuery hc

/-- An admitted query has an entry under its hash after it. -/
theorem isSome_hydrateQuery_of_admits {now : Instant} {q : DehydratedQuery}
    (h : options.Admits q) :
  ((client.hydrateQuery serde now dehydratedAtMs options q).cache.lookup q.queryHash).isSome = true
  := by
  cases hq : client.cache.lookup q.queryHash with
  | none =>
    have hr : restores (none : Option (CacheEntry V)) now dehydratedAtMs options q = true := by
      apply restores_eq_true_iff.mpr
      use h
      intro e he
      contradiction
    rw [hydrateQuery_lookup, hq, if_pos ⟨rfl, hr⟩, Option.isSome_some]
  | some e =>
    apply isSome_hydrateQuery
    rw [hq]
    rfl

theorem hydrateQueries_admitted {k : String}
    (h : (client.hydrateQueries serde dehydratedAtMs options queries).cache.lookup k
      ≠ client.cache.lookup k) :
  ∃ q ∈ queries, q.2.queryHash = k ∧ options.Admits q.2
  := by
  revert h
  apply hydrateQueries_invariant fun c => c.cache.lookup k ≠ client.cache.lookup k →
    ∃ q ∈ queries, q.2.queryHash = k ∧ options.Admits q.2
  · intro h
    contradiction
  · intro c ih q hq h
    rw [hydrateQuery_lookup] at h
    split at h
    · next hr => exact ⟨q, hq, hr.1.symm, (restores_eq_true_iff.mp hr.2).1⟩
    · apply ih h

theorem hydrateQueries_kept (hover : options.shouldOverwrite = false) {k : String}
    {e : CacheEntry V} (he : client.cache.lookup k = some e) :
  (client.hydrateQueries serde dehydratedAtMs options queries).cache.lookup k = some e
  := by
  apply hydrateQueries_invariant (fun c => c.cache.lookup k = some e) he
  intro c hc q _
  rw [hydrateQuery_lookup]
  split
  · next hr =>
    obtain ⟨hk, hr⟩ := hr
    rw [← hk, hc] at hr
    have := ((restores_eq_true_iff.mp hr).2 e rfl).1
    rw [hover] at this
    contradiction
  · apply hc

theorem hydrateQueries_cached {q : Instant × DehydratedQuery} (hq : q ∈ queries)
    (hadmits : options.Admits q.2) (hnone : client.cache.lookup q.2.queryHash = none) :
  ∃ e, (client.hydrateQueries serde dehydratedAtMs options queries).cache.lookup q.2.queryHash
      = some e ∧
    ∃ q' ∈ queries, q'.2.queryHash = q.2.queryHash ∧ options.Admits q'.2 ∧
      e.data = ofString (deserializeEntryData serde (q'.2.dataJson.getD ""))
  := by
  have hsome : ((client.hydrateQueries serde dehydratedAtMs options queries).cache.lookup
      q.2.queryHash).isSome = true := by
    obtain ⟨before, after, rfl⟩ := List.append_of_mem hq
    rw [List.append_cons, hydrateQueries_append, hydrateQueries_concat]
    apply isSome_hydrateQueries
    apply isSome_hydrateQuery_of_admits hadmits
  obtain ⟨e, he⟩ := Option.isSome_iff_exists.mp hsome
  use e, he
  revert he
  apply hydrateQueries_invariant fun c => c.cache.lookup q.2.queryHash = some e →
    ∃ q' ∈ queries, q'.2.queryHash = q.2.queryHash ∧ options.Admits q'.2 ∧
      e.data = ofString (deserializeEntryData serde (q'.2.dataJson.getD ""))
  · intro he
    rw [hnone] at he
    contradiction
  · intro c ih q' hq' he
    rw [hydrateQuery_lookup] at he
    split at he
    · next hr =>
      obtain rfl := Option.some.inj he
      exact ⟨q', hq', hr.1.symm, (restores_eq_true_iff.mp hr.2).1, restoredEntry_data serde⟩
    · apply ih he

/-- A query without a fetch time changes the entry there is exactly when it is admitted,
entries may be overwritten, and the entry is older than the query counts. -/
theorem hydrateQuery_undated_iff {q : Instant × DehydratedQuery} {e : CacheEntry V}
    (hnone : q.2.fetchedAtMs = none) (he : client.cache.lookup q.2.queryHash = some e) :
  (∀ k, (client.hydrateQuery serde q.1 dehydratedAtMs options q.2).cache.lookup k
      = client.cache.lookup k) ↔
    (options.Admits q.2 → options.shouldOverwrite = true →
      Instant.elapsed q.1 e.fetchedAt ≤ Duration.fromMillis u64Max)
  := by
  have hage : dehydratedAgeMs dehydratedAtMs q.2.fetchedAtMs = u64Max := by
    rw [hnone, dehydratedAgeMs]
  constructor
  · intro h hadmits hover
    by_contra hold
    rw [not_le] at hold
    have hr : restores (some e) q.1 dehydratedAtMs options q.2 = true := by
      apply restores_eq_true_iff.mpr
      use hadmits
      rintro e' ⟨⟩
      rw [hage]
      use hover, hold
    have := h q.2.queryHash
    rw [hydrateQuery_lookup, he, if_pos ⟨rfl, hr⟩] at this
    -- the restored entry is no older than the query counts
    have hfetched : (q.1.checkedSub (Duration.fromMillis
        (dehydratedAgeMs dehydratedAtMs q.2.fetchedAtMs))).getD q.1 = e.fetchedAt :=
      congrArg CacheEntry.fetchedAt (Option.some.inj this)
    rw [← hfetched, hage] at hold
    apply Nat.not_lt_of_le (Instant.elapsed_checkedSub_le _ _) hold
  · intro h k
    rw [hydrateQuery_lookup]
    split
    · next hr =>
      rw [he] at hr
      obtain ⟨hadmits, hnewer⟩ := restores_eq_true_iff.mp hr.2
      obtain ⟨hover, hold⟩ := hnewer e rfl
      rw [hage] at hold
      have := Nat.not_lt_of_le (h hadmits hover)
      contradiction
    · rfl

/-- A hydration changes only what the payload may change, exactly when no admitted query
without a fetch time meets an older entry. -/
theorem hydrationFrame_iff
    (serde : Option SerdeJson) (client : QueryClient V) (dehydratedAtMs : Nat)
    (options : HydrateOptions) (queries : List (Instant × DehydratedQuery)) :
  client.HydrationFrame serde dehydratedAtMs options queries ↔
    client.NoneOlder serde dehydratedAtMs options queries
  := by
  constructor
  · intro h before q after heq hnone hadmits hover hsome e he
    have hundated := h.undated before q after heq hnone hsome
    rw [hydrateQueries_concat] at hundated
    apply (hydrateQuery_undated_iff hnone he).mp hundated hadmits hover
  · intro h
    exact
      { admitted := fun k => hydrateQueries_admitted
        kept := fun hover k e => hydrateQueries_kept hover
        undated := by
          intro before q after heq hnone hsome
          have hsome' : ((client.hydrateQueries serde dehydratedAtMs options before).cache.lookup
              q.2.queryHash).isSome = true := isSome_hydrateQueries hsome
          obtain ⟨e, he⟩ := Option.isSome_iff_exists.mp hsome'
          rw [hydrateQueries_concat]
          apply (hydrateQuery_undated_iff hnone he).mpr
          intro hadmits hover
          apply h before q after heq hnone hadmits hover hsome e he
        cached := fun q => hydrateQueries_cached }

/-- A user without a fetch time. -/
def undatedUser (name : String) : DehydratedQuery where
  queryHash := "user"
  queryKey := ["user"]
  dataJson := some name
  errorJson := none
  fetchedAtMs := none
  isStale := false
  staleTimeMs := 0
  gcTimeMs := 300000
  metadata := ∅
  queryType := queryTypeQuery

/-- A client that has hydrated the user, a second after its clock could show `u64::MAX`
milliseconds. -/
def undatedClient : QueryClient (String ⊕ Nat) :=
  new.hydrateQueries none 0 {}
    [(Duration.fromMillis u64Max + Duration.fromSecs 1, undatedUser "ada")]

/-- The user hydrated again a second later is replaced. -/
theorem not_hydrationFrame_undated :
  ¬ ∀ (client : QueryClient (String ⊕ Nat)) (dehydratedAtMs : Nat) (options : HydrateOptions)
      (queries : List (Instant × DehydratedQuery)),
    client.HydrationFrame none dehydratedAtMs options queries
  := by
  intro h
  let q : Instant × DehydratedQuery :=
    (Duration.fromMillis u64Max + Duration.fromSecs 2, undatedUser "grace")
  have hundated := (h undatedClient 0 {} [q]).undated [] q [] rfl rfl (by decide) "user"
  have hdata := congrArg (Option.map CacheEntry.data) hundated
  revert hdata
  decide

end QueryClient

end RsQuery
