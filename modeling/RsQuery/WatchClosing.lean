import RsQuery.WatchHandles

/-!
# The writing halves of a cell

A watch cell is written through any number of handles, which are cloned and dropped.
Nothing is done when a handle is dropped, and nothing ever marks a cell as closed.  So a
watcher that has seen all that was sent and awaits a change waits for ever once the last
handle is gone, where `changed` promises an error; only a system that never drops the last
handle over such a watcher keeps the promise.
-/

namespace RsQuery

namespace Watch

/-- A cell with its watchers, and how many writing halves it has. -/
structure Writers (T : Type) where
  handles : Nat
  cell : Handles T

namespace Writers

variable {T : Type}

/-- A step of the system. -/
inductive Action (T : Type) where
  /-- A writing half is cloned. -/
  | cloneWatch
  /-- A writing half is dropped. -/
  | dropWatch
  /-- The future of `changed` is dropped. -/
  | dropChanged (i : Nat)
  | dropWatcher (i : Nat)
  | call (a : Handles.Action T)

/-- The call is made on a writing half. -/
def Calls : Handles.Action T → Bool
  | .send _ | .subscribe _ => true
  | _ => false

/-- A new cell with its writing half and its first watcher. -/
def initial (value : T) : Writers T :=
  ⟨1, .initial value⟩

/-- The state after an action, if it is enabled. -/
def step (s : Writers T) : Action T → Option (Writers T)
  | .cloneWatch => if s.handles = 0 then none else some { s with handles := s.handles + 1 }
  | .dropWatch => if s.handles = 0 then none else some { s with handles := s.handles - 1 }
  | .dropChanged i =>
    some { s with cell := { s.cell with pending := s.cell.pending.erase i } }
  | .dropWatcher i =>
    some { s with cell := { s.cell with
      watchers := s.cell.watchers.erase i
      pending := s.cell.pending.erase i } }
  | .call a =>
    if Calls a ∧ s.handles = 0 then none
    else (s.cell.step a).map fun cell => { s with cell }

/-- A new cell with this value, and every step. -/
def machine (value : T) : Machine (Writers T) (Action T) :=
  ⟨fun s => s = initial value, step⟩

variable {s s' : Writers T} {a : Action T} {value : T} {i : Nat} {t : Waker}

/-! ### Closing -/

/-- The watcher has observed everything that was sent. -/
def UpToDate (s : Writers T) (i : Nat) : Prop :=
  s.cell.observed i = s.cell.sent.length

/-- The cell closes with its last writing half: the watchers that are parked then are being
woken, and a poll of `changed` afterwards that finds nothing unseen errors. -/
def Closes (s : Writers T) (a : Action T) : Prop :=
  match a with
  | .dropWatch => s.handles = 1 →
    ∀ s' ∈ s.step .dropWatch, ∀ i t, s.cell.pending.lookup i = some t → t ∈ s'.cell.hand
  | .call (.changed i t) => s.handles = 0 → s.UpToDate i →
    ∀ w ∈ s.cell.watchers.lookup i, (changedPoll s.cell.cell w t).2.2 = some (.error .closed)
  | _ => True

/-- The last writing half is dropped only when every parked watcher is being woken anyway,
and nobody awaits a change afterwards that has seen everything. -/
def LeavesNobody (s : Writers T) (a : Action T) : Prop :=
  match a with
  | .dropWatch => s.handles = 1 → ∀ i t, s.cell.pending.lookup i = some t → t ∈ s.cell.hand
  | .call (.changed i _) => s.handles = 0 → s.UpToDate i → s.cell.watchers.lookup i = none
  | _ => True

instance (s : Writers T) (a : Action T) : Decidable (s.LeavesNobody a) := by
  unfold LeavesNobody UpToDate
  split
  all_goals infer_instance

/-! ### Nothing closes the cell -/

/-- A task is no longer suspended in `changed`. -/
theorem kept_dropChanged {s : Handles T} (h : s.Kept value) (i : Nat) :
  Handles.Kept value { s with pending := s.pending.erase i }
  := by
  apply h.unpark
  intro j t hp
  obtain ⟨-, hp⟩ := Table.lookup_of_erase hp
  exact ⟨hp, id⟩

theorem kept_dropWatcher {s : Handles T} (h : s.Kept value) (i : Nat) :
  Handles.Kept value { s with watchers := s.watchers.erase i, pending := s.pending.erase i }
  := by
  constructor
  · apply h.version
  · apply h.alive
  · apply h.value
  · intro j w hj
    obtain ⟨hseen, hle, hfresh⟩ := h.sees j w (Table.lookup_of_erase hj).2
    exact ⟨hseen, hle, hfresh⟩
  · intro j k w w' hj hk
    apply h.distinct j k w w' (Table.lookup_of_erase hj).2 (Table.lookup_of_erase hk).2
  · intro j t hp
    simp only [Table.lookup_erase_eq] at hp ⊢
    split at hp
    · contradiction
    · next hne =>
      rw [if_neg hne]
      apply h.pending j t hp

theorem kept_step (h : s.cell.Kept value) (hs : s.step a = some s') :
  s'.cell.Kept value
  := by
  cases a with
  | cloneWatch =>
    obtain ⟨-, hs⟩ := Option.ite_none_left_eq_some.mp hs
    cases hs
    apply h
  | dropWatch =>
    obtain ⟨-, hs⟩ := Option.ite_none_left_eq_some.mp hs
    cases hs
    apply h
  | dropChanged i =>
    cases hs
    apply kept_dropChanged h
  | dropWatcher i =>
    cases hs
    apply kept_dropWatcher h
  | call a =>
    obtain ⟨-, hs⟩ := Option.ite_none_left_eq_some.mp hs
    obtain ⟨cell, hcell, rfl⟩ := Option.map_eq_some_iff.mp hs
    apply h.step hcell

/-- A poll that finds nothing unseen is pending. -/
theorem changedPoll_upToDate {w : Watcher} (h : s.cell.Kept value) (hseen : s.UpToDate i)
    (hw : s.cell.watchers.lookup i = some w) :
  (changedPoll s.cell.cell w t).2.2 = none
  := by
  have hversion : s.cell.cell.version = w.lastSeen := by
    rw [(h.sees i w hw).lastSeen, hseen, h.version]
  rw [changedPoll_pending hversion h.alive]

theorem closes_iff_of_kept (h : s.cell.Kept value) :
  s.Closes a ↔ s.LeavesNobody a
  := by
  cases a with
  | cloneWatch => rfl
  | dropWatch =>
    apply forall_congr'
    intro hlast
    have hstep : s.step .dropWatch = some { s with handles := 0 } := by
      simp [step, hlast]
    simp [hstep]
  | dropChanged i => rfl
  | dropWatcher i => rfl
  | call a =>
    cases a with
    | changed i t =>
      apply forall₂_congr
      intro _ hseen
      cases hw : s.cell.watchers.lookup i with
      | none => simp
      | some w => simp [changedPoll_upToDate h hseen hw]
    | send value => rfl
    | subscribe i => rfl
    | clone i j => rfl
    | borrow i => rfl
    | wake t => rfl

/-- In every run, the cell closes with its last writing half exactly if the last half is
never dropped over a watcher that waits for it to. -/
theorem closes_iff_leavesNobody (value : T) (as : List (Action T)) :
  (machine value).Meets Closes (initial value) as
    ↔ (machine value).Meets LeavesNobody (initial value) as
  := by
  apply Machine.meets_congr (I := fun s => s.cell.Kept value) (Handles.kept_initial value)
  · intro s a hs
    apply closes_iff_of_kept hs
  · intro s a s' hs _ hstep
    apply kept_step hs hstep

/-- A watcher awaits a change after the only writing half is dropped. -/
theorem not_closes_dropped :
  ¬ ∀ (value : Unit) (as : List (Action Unit)),
    (machine value).Meets Closes (initial value) as
  := by
  intro h
  have hmeets := h () [.dropWatch, .call (.changed 0 7)]
  have hclosed := (hmeets.2 _ rfl).1 rfl rfl _ rfl
  contradiction

end Writers

end Watch

end RsQuery
