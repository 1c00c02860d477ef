import RsQuery.Key
import RsQuery.State

/-!
# Filters

Filters select cached queries by what a snapshot of each says.
-/

namespace RsQuery

/-- Which set of queries a bulk operation applies to. -/
inductive QueryType where
  | all
  | active
  | inactive
deriving DecidableEq, Repr

/-- Refetch scope of an invalidation. -/
inductive RefetchType where
  | all
  | active
  | inactive
  | none
deriving DecidableEq, Repr

/-- Snapshot of a cached query used for filter matching. -/
structure QuerySnapshot where
  key : QueryKey
  isActive : Bool
  isStale : Bool
  fetchStatus : FetchStatus
  status : QueryStatus
  hasData : Bool

/-- Filters used to select cached queries. -/
structure QueryFilters where
  queryKey : Option QueryKey := none
  exact : Bool := false
  queryType : QueryType := .all
  stale : Bool := false
  fetchStatus : Option FetchStatus := none
  status : Option QueryStatus := none
  predicate : Option (QuerySnapshot → Bool) := none

/-- Filter by key prefix. -/
def QueryFilters.withKey (key : QueryKey) : QueryFilters :=
  { queryKey := some key }

/-- Filters for `invalidate_queries_filtered`. -/
structure InvalidateQueryFilters where
  filters : QueryFilters := {}
  refetchType : RefetchType := .active

/-- Filters for `refetch_queries`. -/
structure RefetchQueryFilters where
  filters : QueryFilters
  cancelRefetch : Bool
  throwOnError : Bool

namespace RefetchQueryFilters

/-- The derived default. -/
def default : RefetchQueryFilters :=
  ⟨{}, false, false⟩

/-- Unlike the default, a new one cancels fetches in flight. -/
def new : RefetchQueryFilters :=
  { default with cancelRefetch := true }

end RefetchQueryFilters

/-- Key matching used by all filter types: prefix match by default, exact when
requested. -/
def keyMatches (filterKey : Option QueryKey) (candidate : QueryKey) (exact : Bool) : Bool :=
  match filterKey with
  | none => true
  | some filter => if exact then decide (filter = candidate) else candidate.startsWith filter

/-- Whether the snapshot satisfies the filters; a predicate overrides every other
criterion. -/
def matchQuery (snapshot : QuerySnapshot) (filters : QueryFilters) : Bool :=
  match filters.predicate with
  | some predicate => predicate snapshot
  | none =>
    if !keyMatches filters.queryKey snapshot.key filters.exact then false
    else if filters.queryType = .active ∧ !snapshot.isActive then false
    else if filters.queryType = .inactive ∧ snapshot.isActive then false
    else if filters.stale && !snapshot.isStale then false
    else if filters.fetchStatus.any (fun fetchStatus => snapshot.fetchStatus ≠ fetchStatus) then
      false
    else if filters.status.any (fun status => snapshot.status ≠ status) then false
    else true

end RsQuery
