import Mathlib.Algebra.Group.Nat.Defs
import RsQuery.Network

/-!
# Query options

Durations and instants are counted in nanoseconds.  An option that is a function is
compared with nothing in the source, so it is an ordinary function here.
-/

namespace RsQuery

/-- A span of time in nanoseconds. -/
abbrev Duration := Nat

/-- A point of a monotonic clock in nanoseconds. -/
abbrev Instant := Nat

/-- `Duration::from_millis`. -/
def Duration.fromMillis (ms : Nat) : Duration :=
  ms * 1000000

/-- `Duration::from_secs`. -/
def Duration.fromSecs (s : Nat) : Duration :=
  s * 1000000000

/-- `u64::MAX`. -/
def u64Max : Nat :=
  2 ^ 64 - 1

/-- `u64::try_from(d.as_millis()).unwrap_or(u64::MAX)`. -/
def Duration.asMillisU64 (d : Duration) : Nat :=
  min (d / 1000000) u64Max

/-- Time since `at_`, zero when the clock is behind it. -/
def Instant.elapsed (now at_ : Instant) : Duration :=
  now - at_

/-- Configuration for automatic retry behaviour. -/
structure RetryConfig where
  maxRetries : Nat := 3
  baseDelay : Duration := Duration.fromMillis 1000
  exponentialBackoff : Bool := true
  maxDelay : Duration := Duration.fromSecs 30
deriving DecidableEq, Repr

/-- When a refetch trigger may actually refetch. -/
inductive RefetchTrigger where
  | enabled
  | disabled
  | always
deriving DecidableEq, Repr

/-- Whether this trigger would refetch data with the given staleness. -/
def RefetchTrigger.allowsRefetch : RefetchTrigger → Bool → Bool
  | .enabled, isStale => isStale
  | .disabled, _ => false
  | .always, _ => true

/-- Options for query behaviour. -/
structure QueryOptions where
  staleTime : Duration := 0
  staleTimeStatic : Bool := false
  gcTime : Duration := Duration.fromSecs 300
  retry : RetryConfig := {}
  enabled : Bool := true
  enabledFn : Option (Unit → Bool) := none
  refetchOnWindowFocus : RefetchTrigger := .enabled
  refetchOnReconnect : RefetchTrigger := .enabled
  refetchOnMount : RefetchTrigger := .enabled
  refetchInterval : Duration := 0
  refetchIntervalInBackground : Bool := false
  structuralSharing : Bool := true
  networkMode : NetworkMode := .online
  retryOnMount : Bool := true
  throwOnError : Bool := false
  notifyOnChangeProps : Option (List String) := none
  metadata : Table String String := ∅

namespace QueryOptions

/-- Effective enabledness: static flag and function form. -/
def isEnabled (o : QueryOptions) : Bool :=
  o.enabled && o.enabledFn.all fun f => f ()

/-- `merge_options`: every field the caller left at its default is taken from
`defaults`. -/
def mergeOptions (defaults provided : QueryOptions) : QueryOptions :=
  let d : QueryOptions := {}
  { staleTime :=
      if provided.staleTime ≠ d.staleTime then provided.staleTime else defaults.staleTime
    staleTimeStatic :=
      if provided.staleTimeStatic ≠ d.staleTimeStatic then provided.staleTimeStatic
      else defaults.staleTimeStatic
    gcTime := if provided.gcTime ≠ d.gcTime then provided.gcTime else defaults.gcTime
    retry := if provided.retry ≠ d.retry then provided.retry else defaults.retry
    enabled := if provided.enabled ≠ d.enabled then provided.enabled else defaults.enabled
    enabledFn := if provided.enabledFn.isSome then provided.enabledFn else defaults.enabledFn
    refetchOnWindowFocus :=
      if provided.refetchOnWindowFocus ≠ d.refetchOnWindowFocus then
        provided.refetchOnWindowFocus
      else defaults.refetchOnWindowFocus
    refetchOnReconnect :=
      if provided.refetchOnReconnect ≠ d.refetchOnReconnect then provided.refetchOnReconnect
      else defaults.refetchOnReconnect
    refetchOnMount :=
      if provided.refetchOnMount ≠ d.refetchOnMount then provided.refetchOnMount
      else defaults.refetchOnMount
    refetchInterval :=
      if provided.refetchInterval ≠ d.refetchInterval then provided.refetchInterval
      else defaults.refetchInterval
    refetchIntervalInBackground :=
      if provided.refetchIntervalInBackground ≠ d.refetchIntervalInBackground then
        provided.refetchIntervalInBackground
      else defaults.refetchIntervalInBackground
    structuralSharing :=
      if provided.structuralSharing ≠ d.structuralSharing then provided.structuralSharing
      else defaults.structuralSharing
    networkMode :=
      if provided.networkMode ≠ d.networkMode then provided.networkMode
      else defaults.networkMode
    retryOnMount :=
      if provided.retryOnMount ≠ d.retryOnMount then provided.retryOnMount
      else defaults.retryOnMount
    throwOnError :=
      if provided.throwOnError ≠ d.throwOnError then provided.throwOnError
      else defaults.throwOnError
    notifyOnChangeProps :=
      if provided.notifyOnChangeProps.isSome then provided.notifyOnChangeProps
      else defaults.notifyOnChangeProps
    metadata :=
      if !provided.metadata.entries.isEmpty then provided.metadata else defaults.metadata }

end QueryOptions

end RsQuery
