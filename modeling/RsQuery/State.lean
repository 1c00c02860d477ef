import RsQuery.Bus

/-!
# Errors, statuses and states

The errors a query can fail with, the statuses and states reported for it, and the
notifications sent when its state changes.
-/

namespace RsQuery

/-- Errors that can occur during query operations. -/
inductive QueryError where
  | network (msg : String)
  | serialization (msg : String)
  | cancelled (revert silent : Bool)
  | timeout (msg : String)
  | missingQueryFn
  | paused
  | undefinedData
  | redacted
  | custom (msg : String)
deriving DecidableEq, Repr

/-- `true` for cancellation errors of any shape. -/
def QueryError.isCancelled : QueryError → Bool
  | .cancelled .. => true
  | _ => false

/-- Aggregate status of a query. -/
inductive QueryStatus where
  | pending
  | error
  | success
deriving DecidableEq, Repr

/-- Aggregate fetch status of a query. -/
inductive FetchStatus where
  | idle
  | fetching
  | paused
deriving DecidableEq, Repr

/-- The state of a query. -/
inductive QueryState (T : Type) where
  | idle
  | loading
  | loadingWithPlaceholder (data : T)
  | refetching (data : T)
  | success (data : T)
  | stale (data : T)
  | error (error : QueryError) (staleData : Option T)
deriving DecidableEq, Repr

/-- Variant of a query state update, used for notifications. -/
inductive QueryStateVariant where
  | idle
  | loading
  | refetching
  | success
  | stale
  | error
deriving DecidableEq, Repr

/-- The state of a mutation. -/
inductive MutationState (T : Type) where
  | idle
  | loading
  | success (data : T)
  | error (error : QueryError)
deriving DecidableEq, Repr

/-- A state update notification sent to subscribers. -/
structure QueryStateUpdate where
  key : String
  stateVariant : QueryStateVariant
deriving DecidableEq, Repr

end RsQuery
