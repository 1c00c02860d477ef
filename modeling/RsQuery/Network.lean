import RsQuery.Watch

/-!
# Connectivity

How operations depend on connectivity, and the manager that holds it: a flag, and a
watch cell through which changes are observed.
-/

namespace RsQuery

/-- How a query or mutation interacts with network connectivity. -/
inductive NetworkMode where
  | online
  | always
  | offlineFirst
deriving DecidableEq, Repr

/-- Whether a fetch may be started under the given connectivity. -/
def canFetch : NetworkMode → Bool → Bool
  | .online, online => online
  | .always, _ | .offlineFirst, _ => true

/-- Whether a retry may continue under the given connectivity. -/
def canRetry : NetworkMode → Bool → Bool
  | .online, online | .offlineFirst, online => online
  | .always, _ => true

theorem canRetry_online (mode : NetworkMode) :
  canRetry mode true = true
  := by
  cases mode with
  | _ => rfl

theorem canFetch_online (mode : NetworkMode) :
  canFetch mode true = true
  := by
  cases mode with
  | _ => rfl

theorem canRetry_eq_true_iff {mode : NetworkMode} {online : Bool} :
  canRetry mode online = true ↔ mode = .always ∨ online = true
  := by
  cases mode
  all_goals simp [canRetry]

/-- Global connectivity state. -/
structure OnlineManager where
  online : Bool
  tx : Watch.Shared Bool

namespace OnlineManager

/-- A manager that starts in the online state; the first watcher is dropped unused. -/
def new : OnlineManager :=
  ⟨true, (Watch.new true).1⟩

/-- Current connectivity. -/
def isOnline (m : OnlineManager) : Bool :=
  m.online

/-- Updates the connectivity; subscribers are notified only on change. -/
def setOnline (m : OnlineManager) (online : Bool) : OnlineManager × List Waker :=
  if m.isOnline ≠ online then
    let (tx, wakers) := Watch.send m.tx online
    (⟨online, tx⟩, wakers)
  else (m, [])

/-- After an update the connectivity is the one it was called with. -/
theorem isOnline_setOnline (m : OnlineManager) (online : Bool) :
  (m.setOnline online).1.isOnline = online
  := by
  unfold setOnline
  split
  · rfl
  · next h => apply not_not.mp h

end OnlineManager

end RsQuery
