import RsQuery.HydrationFrame
import RsQuery.OptionLayers

/-!
# The options of a hydrated query

Hydration lays the payload of a query over the default options of the hydration, and then
writes the entry with `set_query_data`, which merges a new entry's options with the
defaults of the client.  The merge cannot tell a payload's value that is the crate default
from one that was not set; `QueryClient.hydrateQuery_optionsOf_iff` says when the payload
is stored.
-/

namespace RsQuery

/-- The options are the payload's where the payload has them. -/
structure DehydratedQuery.OptionsOf (q : DehydratedQuery) (options : QueryOptions) : Prop where
  staleTime : options.staleTime = Duration.fromMillis q.staleTimeMs
  gcTime : options.gcTime = Duration.fromMillis q.gcTimeMs
  metadata : options.metadata = q.metadata

/-- Where a value of the payload is the crate default, the client's default is so too. -/
structure DehydratedQuery.Withstands (q : DehydratedQuery) (defaults : QueryOptions) :
    Prop where
  staleTime : q.staleTimeMs = 0 → defaults.staleTime = 0
  gcTime : q.gcTimeMs = 300000 → defaults.gcTime = Duration.fromSecs 300
  metadata : q.metadata = ∅ → defaults.metadata = ∅

theorem Duration.fromMillis_eq_iff {ms ms' : Nat} :
  Duration.fromMillis ms = Duration.fromMillis ms' ↔ ms = ms'
  := Nat.mul_left_inj (by decide)

/-- Payload options merged over defaults are the payload's exactly where the payload
withstands the defaults. -/
theorem DehydratedQuery.optionsOf_mergeOptions_iff
    (q : DehydratedQuery) (defaults : QueryOptions) (options : HydrateOptions) :
  q.OptionsOf (.mergeOptions defaults (storedOptionsFor q options)) ↔ q.Withstands defaults
  := by
  let merged := QueryOptions.mergeOptions defaults (storedOptionsFor q options)
  have staleTime : merged.staleTime = Duration.fromMillis q.staleTimeMs ↔
      (q.staleTimeMs = 0 → defaults.staleTime = 0) := by
    rw [← @Duration.fromMillis_eq_iff _ 0]
    apply override_eq_provided_iff (unsetOnly_ne (0 : Duration))
  have gcTime : merged.gcTime = Duration.fromMillis q.gcTimeMs ↔
      (q.gcTimeMs = 300000 → defaults.gcTime = Duration.fromSecs 300) := by
    rw [← @Duration.fromMillis_eq_iff _ 300000]
    apply override_eq_provided_iff (unsetOnly_ne (Duration.fromSecs 300))
  have metadata : merged.metadata = q.metadata ↔
      (q.metadata = ∅ → defaults.metadata = ∅) := by
    apply override_eq_provided_iff QueryOptions.unsetOnly_metadata
  constructor
  · intro h
    exact ⟨staleTime.mp h.staleTime, gcTime.mp h.gcTime, metadata.mp h.metadata⟩
  · intro h
    exact ⟨staleTime.mpr h.staleTime, gcTime.mpr h.gcTime, metadata.mpr h.metadata⟩

namespace QueryClient

variable {V : Type} [StringAny V] (serde : Option SerdeJson)

variable {client : QueryClient V} {now : Instant} {dehydratedAtMs : Nat}
  {options : HydrateOptions} {q : DehydratedQuery}

/-- The options of an entry that was not there are merged with the client's defaults. -/
theorem restoredEntry_options (hnone : client.cache.lookup q.queryHash = none) :
  (client.restoredEntry serde now dehydratedAtMs options q).options =
    client.defaultOptions.elim (storedOptionsFor q options)
      fun defaults => .mergeOptions defaults (storedOptionsFor q options)
  := by
  unfold restoredEntry newEntry
  rw [queryKeyFromDehydrated_cacheKey, hnone]
  cases client.defaultOptions with
  | none => rfl
  | some defaults => rfl

/-- The entry a hydration creates has the payload's options exactly where the payload
withstands the client's defaults; those of the hydration do not matter. -/
theorem hydrateQuery_optionsOf_iff
    (hnone : client.cache.lookup q.queryHash = none) (hadmits : options.Admits q) :
  ∃ e, (hydrateQuery serde now dehydratedAtMs options client q).cache.lookup q.queryHash
      = some e ∧
    (q.OptionsOf e.options ↔ ∀ defaults ∈ client.defaultOptions, q.Withstands defaults)
  := by
  have hrestores :
      restores (client.cache.lookup q.queryHash) now dehydratedAtMs options q = true := by
    rw [hnone, restores_eq_true_iff]
    refine ⟨hadmits, ?_⟩
    intro e he
    contradiction
  use client.restoredEntry serde now dehydratedAtMs options q
  constructor
  · rw [hydrateQuery_lookup, if_pos ⟨rfl, hrestores⟩]
  · rw [restoredEntry_options serde hnone]
    cases client.defaultOptions with
    | none =>
      constructor
      · intro _ defaults hd
        contradiction
      · intro _
        exact ⟨rfl, rfl, rfl⟩
    | some defaults =>
      rw [Option.elim_some, q.optionsOf_mergeOptions_iff]
      simp

/-- A client whose entries are fresh for a minute by default. -/
def freshByDefault : QueryClient (String ⊕ Nat) :=
  { new with defaultOptions := some { staleTime := Duration.fromSecs 60 } }

/-- A payload that is fresh for five seconds withstands the default. -/
theorem hydrateQuery_optionsOf_fresh :
  let user := { undatedUser "ada" with staleTimeMs := 5000 }
  ∃ e, (hydrateQuery none 0 0 {} freshByDefault user).cache.lookup user.queryHash = some e ∧
    (user.OptionsOf e.options ↔
      ∀ defaults ∈ freshByDefault.defaultOptions, user.Withstands defaults)
  := by
  apply hydrateQuery_optionsOf_iff
  · rfl
  · refine ⟨rfl, ?_⟩
    intro filter hfilter
    contradiction

/-- A payload that is fresh for no time is stored fresh for a minute. -/
theorem not_optionsOf_hydrateQuery :
  ¬ ∀ (client : QueryClient (String ⊕ Nat)) (now : Instant) (dehydratedAtMs : Nat)
      (options : HydrateOptions) (q : DehydratedQuery),
    client.cache.lookup q.queryHash = none → options.Admits q →
    ∃ e, (hydrateQuery none now dehydratedAtMs options client q).cache.lookup q.queryHash
        = some e ∧ q.OptionsOf e.options
  := by
  intro h
  have hadmits : HydrateOptions.Admits {} (undatedUser "ada") := by
    refine ⟨rfl, ?_⟩
    intro filter hfilter
    contradiction
  obtain ⟨e, he, hoptions⟩ := h freshByDefault 0 0 {} (undatedUser "ada") rfl hadmits
  have hstale := congrArg (Option.map (·.options.staleTime)) he
  rw [Option.map_some, hoptions.staleTime] at hstale
  revert hstale
  decide

end QueryClient

end RsQuery
