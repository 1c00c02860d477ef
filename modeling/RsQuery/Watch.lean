import RsQuery.Lib.Table

/-!
# The watch cell

`Watch.Shared` is the cell the halves of a watch share: one value, a version
counter, and the wakers of the parked watchers by watcher id.  Each function of this
file is the effect one call has on the cell under its lock; a call that wakes tasks
returns their wakers, which are woken after the lock is released.
-/

namespace RsQuery

/-- A waker, named by the task it wakes. -/
abbrev Waker := Nat

/-- The result of polling a future: `none` while it is pending. -/
abbrev Poll (α : Type) := Option α

namespace Watch

variable {T : Type}

/-- The cell shared by the writing and the observing halves. -/
structure Shared (T : Type) where
  value : T
  version : Nat
  alive : Bool
  nextId : Nat
  waiters : Table Nat Waker

/-- An observing half, without its pointer to the cell. -/
structure Watcher where
  lastSeen : Nat
  id : Nat

/-- Error returned by `changed` once the cell is closed. -/
inductive ChangeError where
  | closed

/-- A cell holding `initial`, and its first watcher. -/
def new (initial : T) : Shared T × Watcher :=
  (⟨initial, 0, true, 2, ∅⟩, ⟨0, 1⟩)

/-- A new independent watcher, up to date with the cell. -/
def subscribe (c : Shared T) : Shared T × Watcher :=
  ({ c with nextId := c.nextId + 1 }, ⟨c.version, c.nextId⟩)

/-- Stores `value`, bumps the version and takes every registered waker. -/
def send (c : Shared T) (value : T) : Shared T × List Waker :=
  ({ c with value := value, version := c.version + 1, waiters := ∅ }, Table.values c.waiters)

/-- The current value, marking the watcher as up to date. -/
def borrow (c : Shared T) (w : Watcher) : Watcher × T :=
  ({ w with lastSeen := c.version }, c.value)

/-- The current value, leaving the watcher as it is. -/
def peek (c : Shared T) : T :=
  c.value

/-- Whether a value newer than the last one observed is there. -/
def hasChanged (c : Shared T) (w : Watcher) : Bool :=
  c.alive && c.version != w.lastSeen

/-- A clone of a watcher: a fresh id, and what the original has seen. -/
def cloneWatcher (c : Shared T) (w : Watcher) : Shared T × Watcher :=
  ({ c with nextId := c.nextId + 1 }, { w with id := c.nextId })

/-- One poll of `changed` by the task `waker` wakes. -/
def changedPoll (c : Shared T) (w : Watcher) (waker : Waker) :
    Shared T × Watcher × Poll (Except ChangeError Unit) :=
  if c.version != w.lastSeen then
    (c, { w with lastSeen := c.version }, some (.ok ()))
  else if !c.alive then
    (c, w, some (.error .closed))
  else
    ({ c with waiters := c.waiters.insert w.id waker }, w, none)

/-- The wakers `send` takes are those of the parked watchers. -/
theorem mem_send {c : Shared T} {value : T} {w : Waker} :
  w ∈ (send c value).2 ↔ ∃ id, c.waiters.lookup id = some w
  := Table.mem_values_iff

/-- A poll that finds nothing newer, on a live cell, leaves the cell as it is but for
the waker it registers. -/
theorem changedPoll_pending
    {c : Shared T} {w : Watcher} {waker : Waker} (hv : c.version = w.lastSeen)
    (ha : c.alive = true) :
  changedPoll c w waker = ({ c with waiters := c.waiters.insert w.id waker }, w, none)
  := by
  simp [changedPoll, hv, ha]

/-- A poll that finds a newer version marks the watcher as up to date and is ready. -/
theorem changedPoll_ready
    {c : Shared T} {w : Watcher} {waker : Waker} (hv : c.version ≠ w.lastSeen) :
  changedPoll c w waker = (c, { w with lastSeen := c.version }, some (.ok ()))
  := by
  simp [changedPoll, hv]

end Watch

end RsQuery
