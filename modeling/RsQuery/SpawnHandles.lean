import Mathlib.Tactic.Common
import RsQuery.Lib.Machine
import RsQuery.Lib.Oneshot
import RsQuery.Watch

/-!
# Handles of spawned tasks

A `SpawnHandle` tells in two ways that its task ran to completion: `is_finished` asks for
it, and the handle polled as a future waits for it.  Both receive it from one oneshot
channel, which the clones of the handle share.  What `is_finished` receives it keeps in a
flag for later calls of its own; a poll neither looks at the flag nor sets it, and a call
that found the flag unset goes on to the channel even if another one has set it by then.
A log of what was done tells in which order: `Spawned.consistent_iff` says when the answers
are those of the task.
-/

namespace RsQuery

variable {C : Type}

/-- What the clones of a handle share. -/
structure SpawnHandle (C : Type) where
  rx : Option C
  /-- The completion was received by `is_finished`. -/
  finished : Bool

namespace SpawnHandle

def new (rx : C) : SpawnHandle C :=
  ⟨some rx, false⟩

/-- What `is_finished` does once it has found the flag unset, under the lock of the
receiver. -/
def tryFinish (o : Oneshot C) (h : SpawnHandle C) : Bool × SpawnHandle C :=
  match h.rx with
  | some rx =>
    let (result, rx) := o.tryRecv rx
    match result with
    | .ok (some ()) => (true, ⟨some rx, true⟩)
    | _ => (false, ⟨some rx, h.finished⟩)
  | none => (false, h)

/-- The handle polled as a future. -/
def poll (o : Oneshot C) (h : SpawnHandle C) : Poll (Except Canceled Unit) × SpawnHandle C :=
  match h.rx with
  | some rx =>
    let (result, rx) := o.poll rx
    (result, { h with rx := some rx })
  | none => (some (.error .canceled), h)

variable {o : Oneshot C} {h : SpawnHandle C} {rx : C}

/-- `is_finished` past the flag answers by the channel, receives from it, and sets the flag
where it answers `true`. -/
theorem tryFinish_spec (hrx : h.rx = some rx) :
  ((h.tryFinish o).1 = true ↔ o.status rx = .sent) ∧
  (∃ rx', (h.tryFinish o).2.rx = some rx' ∧ o.status rx' = (o.status rx).receive) ∧
  ((h.tryFinish o).2.finished = true ↔ h.finished = true ∨ o.status rx = .sent)
  := by
  have hresult := o.tryRecv_eq rx
  have hstatus := o.status_tryRecv rx
  simp only [tryFinish, hrx]
  cases hs : o.status rx with
  | sent =>
    rw [hs] at hresult hstatus
    simp only [hresult, OneshotStatus.tryRecv]
    exact ⟨by simp, ⟨_, rfl, hstatus⟩, by simp⟩
  | waiting =>
    rw [hs] at hresult hstatus
    simp only [hresult, OneshotStatus.tryRecv]
    exact ⟨by simp, ⟨_, rfl, hstatus⟩, by simp⟩
  | received =>
    rw [hs] at hresult hstatus
    simp only [hresult, OneshotStatus.tryRecv]
    exact ⟨by simp, ⟨_, rfl, hstatus⟩, by simp⟩
  | dropped =>
    rw [hs] at hresult hstatus
    simp only [hresult, OneshotStatus.tryRecv]
    exact ⟨by simp, ⟨_, rfl, hstatus⟩, by simp⟩

/-- A poll answers by the channel and receives from it. -/
theorem poll_spec (hrx : h.rx = some rx) :
  ((h.poll o).1 = some (.ok ()) ↔ o.status rx = .sent) ∧
  (∃ rx', (h.poll o).2.rx = some rx' ∧ o.status rx' = (o.status rx).receive) ∧
  (h.poll o).2.finished = h.finished
  := by
  simp only [poll, hrx, o.poll_eq]
  refine ⟨?_, ⟨_, rfl, o.status_poll rx⟩, trivial⟩
  cases o.status rx with
  | sent => simp [OneshotStatus.poll]
  | waiting => simp [OneshotStatus.poll]
  | received => simp [OneshotStatus.poll]
  | dropped => simp [OneshotStatus.poll]

end SpawnHandle

/-- Whether a task has come to its end. -/
inductive TaskState where
  | running
  | completed
  | aborted
deriving DecidableEq

/-- A spawned task with its handle. -/
structure Spawned (C : Type) where
  handle : SpawnHandle C
  /-- The abort handle of the task was used. -/
  aborting : Bool
  task : TaskState
  /-- The calls of `is_finished` that found the flag unset, with the task as it was then. -/
  calls : Table Nat TaskState

namespace Spawned

inductive Action where
  /-- `SpawnHandle::abort` on a clone of the handle. -/
  | abort
  /-- The task runs to its end, where it sends its completion. -/
  | complete
  /-- The abort takes effect: the task is dropped with its sender. -/
  | cancel
  /-- Call `i` of `is_finished` on a clone looks at the flag. -/
  | isFinished (i : Nat)
  /-- Call `i` of `is_finished` asks the channel. -/
  | tryRecv (i : Nat)
  /-- A clone is polled. -/
  | poll

/-- The channel is asked for the completion. -/
def Action.Asks : Action → Prop
  | .tryRecv _ | .poll => True
  | _ => False

def spawn (o : Oneshot C) : Spawned C :=
  ⟨.new o.channel, false, .running, ∅⟩

def step (o : Oneshot C) (s : Spawned C) : Action → Option (Spawned C)
  | .abort => some { s with aborting := true }
  | .complete =>
    if s.task = .running then
      some { s with task := .completed, handle.rx := s.handle.rx.map o.send }
    else none
  | .cancel =>
    if s.task = .running ∧ s.aborting then
      some { s with task := .aborted, handle.rx := s.handle.rx.map o.dropSender }
    else none
  | .isFinished i =>
    if (s.calls.lookup i).isSome then none
    else if s.handle.finished then some s
    else some { s with calls := s.calls.insert i s.task }
  | .tryRecv i =>
    if (s.calls.lookup i).isSome then
      some { s with handle := (s.handle.tryFinish o).2, calls := s.calls.erase i }
    else none
  | .poll => some { s with handle := (s.handle.poll o).2 }

def machine (o : Oneshot C) : Machine (Spawned C) Action where
  init s := s = spawn o
  step := step o

/-- What the handle answers is so of the task: a poll resolves with `Ok` exactly if the task
has run to completion, `true` of `is_finished` says that it has, and `false` that it had not
when the call began. -/
def Consistent (o : Oneshot C) (s : Spawned C) : Action → Prop
  | .isFinished i =>
    s.calls.lookup i = none → s.handle.finished = true → s.task = .completed
  | .tryRecv i => ∀ began ∈ s.calls.lookup i,
    if (s.handle.tryFinish o).1 then s.task = .completed else began ≠ .completed
  | .poll => (s.handle.poll o).1 = some (.ok ()) ↔ s.task = .completed
  | _ => True

/-- The completion was received by a call or a poll before. -/
def Received (o : Oneshot C) (s : Spawned C) : Prop :=
  ∃ rx ∈ s.handle.rx, o.status rx = .received

/-- A spawned task with a log of what was done. -/
def logged (o : Oneshot C) : Machine (Spawned C × List Action) Action :=
  (machine o).noting fun _ a _ => [a]

/-- Since the task completed, the handle was polled. -/
def Polled (log : List Action) : Prop :=
  ∃ before since, log = before ++ .complete :: since ∧ .poll ∈ since

/-- Since the task completed, a call of `is_finished` asked the channel. -/
def Tried (log : List Action) : Prop :=
  ∃ before since i, log = before ++ .complete :: since ∧ .tryRecv i ∈ since

/-- What was done before call `i` of `is_finished` looked at the flag, and since. -/
def Splits (log : List Action) (i : Nat) (before since : List Action) : Prop :=
  log = before ++ .isFinished i :: since ∧ .isFinished i ∉ since

/-- The handle is polled only if it was not polled since the task completed, and no call of
`is_finished` asked the channel since then.  A call that began after the task completed asks
the channel only if the handle was not polled since the task completed, and no other call
asked the channel since this one began. -/
def AsksOnce (t : Spawned C × List Action) : Action → Prop
  | .poll => ¬ Polled t.2 ∧ ¬ Tried t.2
  | .tryRecv i => (t.1.calls.lookup i).isSome = true → ∀ before since,
    Splits t.2 i before since → .complete ∈ before → ¬ Polled t.2 ∧ ∀ j, .tryRecv j ∉ since
  | _ => True

variable {o : Oneshot C} {s s' : Spawned C}

/-- The channel stands where the task has brought it, and what is known of the completion
is so of the task. -/
structure Told (o : Oneshot C) (s : Spawned C) : Prop where
  channel : ∃ rx, s.handle.rx = some rx ∧
    match s.task with
    | .running => o.status rx = .waiting
    | .completed => o.status rx = .sent ∨ o.status rx = .received
    | .aborted => o.status rx = .dropped
  finished : s.handle.finished = true → s.task = .completed
  calls : ∀ i, s.calls.lookup i = some .completed → s.task = .completed

theorem told_spawn (o : Oneshot C) :
  (spawn o).Told o
  := by
  constructor
  · exact ⟨o.channel, rfl, o.status_channel⟩
  · exact nofun
  · exact nofun

/-- Receiving from the channel leaves it where the task has brought it. -/
theorem Told.receive (hs : s.Told o) {h : SpawnHandle C} {rx : C}
    (hrx : s.handle.rx = some rx)
    (hh : ∃ rx', h.rx = some rx' ∧ o.status rx' = (o.status rx).receive)
    (hfinished : h.finished = true → s.task = .completed) :
  Told o { s with handle := h }
  := by
  obtain ⟨rx', hrx', hstatus⟩ := hh
  obtain ⟨rx₁, hrx₁, htask⟩ := hs.channel
  obtain rfl := Option.some.inj (hrx₁.symm.trans hrx)
  refine ⟨⟨rx', hrx', ?_⟩, hfinished, hs.calls⟩
  rw [hstatus]
  show match s.task with
    | .running => _
    | .completed => _
    | .aborted => _
  cases ht : s.task with
  | running =>
    rw [ht] at htask
    rw [htask]
    rfl
  | completed =>
    rw [ht] at htask
    right
    rcases htask with h | h
    · rw [h]
      rfl
    · rw [h]
      rfl
  | aborted =>
    rw [ht] at htask
    rw [htask]
    rfl

/-- The channel has the completion exactly if the task has completed and it was not
received. -/
theorem Told.sent_iff (hs : s.Told o) {rx : C} (hrx : s.handle.rx = some rx) :
  o.status rx = .sent ↔ s.task = .completed ∧ ¬ s.Received o
  := by
  obtain ⟨rx', hrx', htask⟩ := hs.channel
  obtain rfl := Option.some.inj (hrx'.symm.trans hrx)
  have hreceived : s.Received o ↔ o.status rx' = .received := by
    simp [Received, hrx]
  rw [hreceived]
  cases ht : s.task with
  | running =>
    rw [ht] at htask
    simp [htask]
  | completed =>
    rw [ht] at htask
    rcases htask with h | h
    · simp [h]
    · simp [h]
  | aborted =>
    rw [ht] at htask
    simp [htask]

theorem Told.completed_of_received (hs : s.Told o) (h : s.Received o) :
  s.task = .completed
  := by
  obtain ⟨rx, hrx, hreceived⟩ := h
  obtain ⟨rx', hrx', htask⟩ := hs.channel
  obtain rfl := Option.some.inj (hrx'.symm.trans hrx)
  cases ht : s.task with
  | running =>
    rw [ht] at htask
    cases htask.symm.trans hreceived
  | completed => rfl
  | aborted =>
    rw [ht] at htask
    cases htask.symm.trans hreceived

/-- Every step keeps what is told. -/
theorem Told.step (hs : s.Told o) {a : Action} (h : s.step o a = some s') :
  s'.Told o
  := by
  obtain ⟨rx, hrx, htask⟩ := hs.channel
  cases a with
  | abort =>
    obtain rfl := Option.some.inj h
    exact ⟨⟨rx, hrx, htask⟩, hs.finished, hs.calls⟩
  | complete =>
    obtain ⟨ht, h⟩ := Option.ite_none_right_eq_some.mp h
    obtain rfl := Option.some.inj h
    rw [ht] at htask
    refine ⟨⟨o.send rx, ?_, ?_⟩, ?_, ?_⟩
    · simp [hrx]
    · left
      apply o.status_send rx htask
    · intro _
      rfl
    · intro i _
      rfl
  | cancel =>
    obtain ⟨⟨ht, -⟩, h⟩ := Option.ite_none_right_eq_some.mp h
    obtain rfl := Option.some.inj h
    rw [ht] at htask
    -- nothing was told of a task that is still running
    refine ⟨⟨o.dropSender rx, ?_, ?_⟩, ?_, ?_⟩
    · simp [hrx]
    · apply o.status_dropSender rx htask
    · intro hfinished
      cases ht.symm.trans (hs.finished hfinished)
    · intro i hi
      cases ht.symm.trans (hs.calls i hi)
  | isFinished i =>
    obtain ⟨-, h⟩ := Option.ite_none_left_eq_some.mp h
    split at h
    · obtain rfl := Option.some.inj h
      apply hs
    · obtain rfl := Option.some.inj h
      refine ⟨⟨rx, hrx, htask⟩, hs.finished, ?_⟩
      intro j hj
      obtain ⟨-, hunset⟩ | ⟨-, hj⟩ := Table.lookup_insert_cases hj
      · exact hunset.symm
      · apply hs.calls j hj
  | tryRecv i =>
    obtain ⟨-, h⟩ := Option.ite_none_right_eq_some.mp h
    obtain rfl := Option.some.inj h
    obtain ⟨-, hh, hfinished⟩ := SpawnHandle.tryFinish_spec (o := o) hrx
    have htold := hs.receive hrx hh fun hf => by
      rcases hfinished.mp hf with hf | hsent
      · apply hs.finished hf
      · apply ((hs.sent_iff hrx).mp hsent).1
    refine ⟨htold.channel, htold.finished, ?_⟩
    intro j hj
    obtain ⟨-, hj⟩ := Table.lookup_of_erase hj
    apply hs.calls j hj
  | poll =>
    obtain rfl := Option.some.inj h
    obtain ⟨-, hh, hfinished⟩ := SpawnHandle.poll_spec (o := o) hrx
    apply hs.receive hrx hh
    rw [hfinished]
    apply hs.finished

/-! ### The order of calls and polls -/

section Log

variable {log : List Action} {a : Action}

theorem Polled.concat (h : Polled log) (a : Action) :
  Polled (log ++ [a])
  := by
  obtain ⟨before, since, rfl, hpoll⟩ := h
  exact ⟨before, since ++ [a], by simp, List.mem_append_left _ hpoll⟩

theorem Tried.concat (h : Tried log) (a : Action) :
  Tried (log ++ [a])
  := by
  obtain ⟨before, since, i, rfl, htry⟩ := h
  exact ⟨before, since ++ [a], i, by simp, List.mem_append_left _ htry⟩

theorem polled_concat (h : .complete ∈ log) :
  Polled (log ++ [.poll])
  := by
  obtain ⟨before, since, rfl⟩ := List.append_of_mem h
  exact ⟨before, since ++ [.poll], by simp, List.mem_concat_self⟩

theorem tried_concat (h : .complete ∈ log) (i : Nat) :
  Tried (log ++ [.tryRecv i])
  := by
  obtain ⟨before, since, rfl⟩ := List.append_of_mem h
  exact ⟨before, since ++ [.tryRecv i], i, by simp, List.mem_concat_self⟩

theorem Polled.complete_mem (h : Polled log) :
  .complete ∈ log
  := by
  obtain ⟨before, since, rfl, -⟩ := h
  apply List.mem_append_right before List.mem_cons_self

theorem Tried.complete_mem (h : Tried log) :
  .complete ∈ log
  := by
  obtain ⟨before, since, i, rfl, -⟩ := h
  apply List.mem_append_right before List.mem_cons_self

theorem polled_concat_iff (ha : a ≠ .poll) :
  Polled (log ++ [a]) ↔ Polled log
  := by
  constructor
  · rintro ⟨before, since, hlog, hpoll⟩
    obtain ⟨since', rfl, rfl⟩ | ⟨-, -, rfl⟩ := Machine.concat_eq_append_cons hlog
    · refine ⟨before, since', rfl, ?_⟩
      simpa [ha.symm] using hpoll
    · contradiction
  · exact fun h => h.concat a

theorem tried_concat_iff (ha : ∀ i, a ≠ .tryRecv i) :
  Tried (log ++ [a]) ↔ Tried log
  := by
  constructor
  · rintro ⟨before, since, i, hlog, htry⟩
    obtain ⟨since', rfl, rfl⟩ | ⟨-, -, rfl⟩ := Machine.concat_eq_append_cons hlog
    · refine ⟨before, since', i, rfl, ?_⟩
      simpa [(ha i).symm] using htry
    · contradiction
  · exact fun h => h.concat a

theorem splits_concat (log : List Action) (i : Nat) :
  Splits (log ++ [.isFinished i]) i log []
  := ⟨rfl, List.not_mem_nil⟩

theorem Splits.concat
    {i : Nat} {before since : List Action} (h : Splits log i before since)
    (ha : a ≠ .isFinished i) :
  Splits (log ++ [a]) i before (since ++ [a])
  := by
  obtain ⟨rfl, hsince⟩ := h
  refine ⟨by simp, ?_⟩
  simpa [ha.symm] using hsince

/-- A call looked at the flag once last. -/
theorem Splits.eq
    {i : Nat} {before since before' since' : List Action} (h : Splits log i before since)
    (h' : Splits log i before' since') :
  before = before' ∧ since = since'
  := by
  obtain ⟨rfl, hsince⟩ := h
  obtain ⟨heq, hsince'⟩ := h'
  rcases List.append_eq_append_iff.mp heq with ⟨l, rfl, hl⟩ | ⟨l, rfl, hl⟩
  · cases l with
    | nil =>
      obtain ⟨-, rfl⟩ := List.cons.inj hl
      exact ⟨(List.append_nil _).symm, rfl⟩
    | cons b l =>
      obtain ⟨rfl, rfl⟩ := List.cons.inj hl
      apply absurd (List.mem_append_right l List.mem_cons_self) hsince
  · cases l with
    | nil =>
      obtain ⟨-, rfl⟩ := List.cons.inj hl
      exact ⟨List.append_nil _, rfl⟩
    | cons b l =>
      obtain ⟨rfl, rfl⟩ := List.cons.inj hl
      apply absurd (List.mem_append_right l List.mem_cons_self) hsince'

/-- A call that asked the channel did so before call `i` looked at the flag, or since. -/
theorem Splits.tried
    {i : Nat} {before since : List Action} (h : Splits log i before since) (htried : Tried log) :
  Tried before ∨ ∃ j, .tryRecv j ∈ since
  := by
  obtain ⟨rfl, -⟩ := h
  obtain ⟨l₁, l₂, j, heq, hj⟩ := htried
  rcases List.append_eq_append_iff.mp heq with ⟨l, rfl, hl⟩ | ⟨l, rfl, hl⟩
  · right
    use j
    cases l with
    | nil => cases hl
    | cons b l =>
      obtain ⟨-, rfl⟩ := List.cons.inj hl
      apply List.mem_append_right l (List.mem_cons_of_mem _ hj)
  · cases l with
    | nil => cases hl
    | cons b l =>
      obtain ⟨rfl, rfl⟩ := List.cons.inj hl
      obtain hj | hj := List.mem_append.mp hj
      · left
        exact ⟨l₁, l, j, rfl, hj⟩
      · right
        use j
        simpa using hj

/-- A poll before call `i` looked at the flag is one of the whole. -/
theorem Splits.polled
    {i : Nat} {before since : List Action} (h : Splits log i before since)
    (hpolled : Polled before) :
  Polled log
  := by
  obtain ⟨rfl, -⟩ := h
  obtain ⟨l₁, l₂, rfl, hpoll⟩ := hpolled
  exact ⟨l₁, l₂ ++ .isFinished i :: since, by simp, List.mem_append_left _ hpoll⟩

/-- A call that began after the completion, and asked the channel since, asked it since the
completion. -/
theorem Splits.tried_of_mem
    {i j : Nat} {before since : List Action} (h : Splits log i before since)
    (hcomplete : .complete ∈ before) (hj : .tryRecv j ∈ since) :
  Tried log
  := by
  obtain ⟨rfl, -⟩ := h
  obtain ⟨l₁, l₂, rfl⟩ := List.append_of_mem hcomplete
  refine ⟨l₁, l₂ ++ .isFinished i :: since, j, by simp, ?_⟩
  exact List.mem_append_right _ (List.mem_cons_of_mem _ hj)

end Log

/-- What the log says of the state: whether the completion was sent and received, that a call
that asked the channel first set the flag, and which calls found it unset after the
completion. -/
structure Logged (o : Oneshot C) (t : Spawned C × List Action) : Prop where
  told : t.1.Told o
  completed : t.1.task = .completed ↔ .complete ∈ t.2
  received : t.1.Received o ↔ Polled t.2 ∨ Tried t.2
  tried : t.1.handle.finished = false → Tried t.2 → Polled t.2
  call : ∀ i began, t.1.calls.lookup i = some began → ∃ before since,
    Splits t.2 i before since ∧ (began = .completed ↔ .complete ∈ before) ∧
      (Tried before → Polled before)

theorem logged_spawn (o : Oneshot C) :
  Logged o (spawn o, [])
  := by
  constructor
  case told => apply told_spawn
  case completed => exact ⟨nofun, nofun⟩
  case received =>
    constructor
    · intro hreceived
      cases (told_spawn o).completed_of_received hreceived
    · rintro (h | h)
      · cases h.complete_mem
      · cases h.complete_mem
  case tried =>
    intro _ h
    cases h.complete_mem
  case call =>
    intro i began hi
    rw [spawn, AList.lookup_empty] at hi
    contradiction

/-- After the handle has received from the channel, the completion was received if there is
one. -/
theorem Told.received_receive
    (hs : s.Told o) {rx : C} (hrx : s.handle.rx = some rx)
    (hh : ∃ rx', s'.handle.rx = some rx' ∧ o.status rx' = (o.status rx).receive) :
  s'.Received o ↔ s.task = .completed
  := by
  obtain ⟨rx', hrx', hstatus⟩ := hh
  have hreceived : s'.Received o ↔ o.status rx' = .received := by
    simp [Received, hrx']
  obtain ⟨rx₁, hrx₁, htask⟩ := hs.channel
  obtain rfl := Option.some.inj (hrx₁.symm.trans hrx)
  rw [hreceived, hstatus]
  cases ht : s.task with
  | running =>
    rw [ht] at htask
    simp [htask, OneshotStatus.receive]
  | completed =>
    rw [ht] at htask
    rcases htask with h | h
    · simp [h, OneshotStatus.receive]
    · simp [h, OneshotStatus.receive]
  | aborted =>
    rw [ht] at htask
    simp [htask, OneshotStatus.receive]

variable {t t' : Spawned C × List Action} {a : Action}

/-- The calls that are still under way looked at the flag before the last step. -/
theorem Logged.call_concat
    (h : Logged o t) {calls : Table Nat TaskState}
    (hcalls : ∀ i began, calls.lookup i = some began →
      t.1.calls.lookup i = some began ∧ a ≠ .isFinished i)
    {i : Nat} {began : TaskState} (hi : calls.lookup i = some began) :
  ∃ before since, Splits (t.2 ++ [a]) i before since ∧
    (began = .completed ↔ .complete ∈ before) ∧ (Tried before → Polled before)
  := by
  obtain ⟨hi, ha⟩ := hcalls i began hi
  obtain ⟨before, since, hsplits, hbegan⟩ := h.call i began hi
  exact ⟨before, since ++ [a], hsplits.concat ha, hbegan⟩

/-- A step that neither receives nor looks at the flag. -/
theorem Logged.concat
    (h : Logged o t) (htold : s'.Told o) (ha : ¬ a.Asks)
    (hcompleted : s'.task = .completed ↔ t.1.task = .completed ∨ a = .complete)
    (hreceived : s'.Received o ↔ t.1.Received o)
    (hfinished : s'.handle.finished = t.1.handle.finished)
    (hcall : ∀ i began, s'.calls.lookup i = some began → ∃ before since,
      Splits (t.2 ++ [a]) i before since ∧ (began = .completed ↔ .complete ∈ before) ∧
        (Tried before → Polled before)) :
  Logged o (s', t.2 ++ [a])
  := by
  have hpoll : a ≠ .poll := by
    rintro rfl
    apply ha trivial
  have htry (i : Nat) : a ≠ .tryRecv i := by
    rintro rfl
    apply ha trivial
  constructor
  case told => apply htold
  case call => apply hcall
  case completed => simp [hcompleted, h.completed, eq_comm]
  case received => rw [hreceived, h.received, polled_concat_iff hpoll, tried_concat_iff htry]
  case tried =>
    rw [hfinished, polled_concat_iff hpoll, tried_concat_iff htry]
    apply h.tried

/-- A step that receives from the channel. -/
theorem Logged.receive
    (h : Logged o t) (htold : s'.Told o) (ha : a.Asks)
    (htask : s'.task = t.1.task) (hreceived : s'.Received o ↔ t.1.task = .completed)
    (htried : s'.handle.finished = false → Tried (t.2 ++ [a]) → Polled (t.2 ++ [a]))
    (hcalls : ∀ i began, s'.calls.lookup i = some began → t.1.calls.lookup i = some began) :
  Logged o (s', t.2 ++ [a])
  := by
  have hcomplete : a ≠ .complete := by
    rintro rfl
    apply ha
  have hmem : .complete ∈ t.2 ++ [a] ↔ .complete ∈ t.2 := by simp [hcomplete.symm]
  constructor
  case told => apply htold
  case tried => apply htried
  case completed =>
    show _ ↔ .complete ∈ t.2 ++ [a]
    rw [htask, h.completed, hmem]
  case received =>
    rw [hreceived, h.completed]
    constructor
    · intro hsent
      cases a with
      | poll => exact .inl (polled_concat hsent)
      | tryRecv i => exact .inr (tried_concat hsent i)
      | _ => exact ha.elim
    · rintro (h | h)
      · apply hmem.mp h.complete_mem
      · apply hmem.mp h.complete_mem
  case call =>
    intro i began
    apply h.call_concat
    intro i began hi
    refine ⟨hcalls i began hi, ?_⟩
    rintro rfl
    apply ha

/-- The log goes on saying what it says. -/
theorem Logged.step (h : Logged o t) (hs : (logged o).step t a = some t') :
  Logged o t'
  := by
  obtain ⟨s', log⟩ := t'
  obtain ⟨hstep, rfl⟩ := Machine.step_noting hs
  have htold := h.told.step hstep
  obtain ⟨rx, hrx, -⟩ := h.told.channel
  have unreceived (ht : t.1.task = .running) : ¬ t.1.Received o := by
    intro hreceived
    cases ht.symm.trans (h.told.completed_of_received hreceived)
  cases a with
  | abort =>
    obtain rfl := Option.some.inj hstep
    refine h.concat htold id (by simp) Iff.rfl rfl ?_
    intro i began
    exact h.call_concat fun _ _ hi => ⟨hi, by simp⟩
  | complete =>
    obtain ⟨ht, hstep⟩ := Option.ite_none_right_eq_some.mp hstep
    obtain rfl := Option.some.inj hstep
    refine h.concat htold id (by simp) ?_ rfl ?_
    · apply iff_of_false _ (unreceived ht)
      have hw := o.status_send rx
      obtain ⟨rx', hrx', htask⟩ := h.told.channel
      rw [ht] at htask
      obtain rfl := Option.some.inj (hrx'.symm.trans hrx)
      simp [Received, hrx, hw htask]
    · intro i began
      exact h.call_concat fun _ _ hi => ⟨hi, by simp⟩
  | cancel =>
    obtain ⟨⟨ht, -⟩, hstep⟩ := Option.ite_none_right_eq_some.mp hstep
    obtain rfl := Option.some.inj hstep
    refine h.concat htold id (by simp [ht]) ?_ rfl ?_
    · refine iff_of_false ?_ (unreceived ht)
      intro hreceived
      cases htold.completed_of_received hreceived
    · intro i began
      exact h.call_concat fun _ _ hi => ⟨hi, by simp⟩
  | isFinished i =>
    obtain ⟨hnone, hstep⟩ := Option.ite_none_left_eq_some.mp hstep
    have other {j : Nat} {began : TaskState} (hj : t.1.calls.lookup j = some began) :
        Action.isFinished i ≠ .isFinished j := by
      rintro ⟨rfl⟩
      simp [hj] at hnone
    split at hstep
    · obtain rfl := Option.some.inj hstep
      refine h.concat htold id (by simp) Iff.rfl rfl ?_
      intro j began
      exact h.call_concat fun _ _ hj => ⟨hj, other hj⟩
    · next hunset =>
      obtain rfl := Option.some.inj hstep
      refine h.concat htold id (by simp) Iff.rfl rfl ?_
      intro j began hj
      obtain ⟨rfl, rfl⟩ | ⟨-, hj⟩ := Table.lookup_insert_cases hj
      · refine ⟨t.2, [], splits_concat _ _, h.completed, h.tried ?_⟩
        simpa using hunset
      · exact h.call_concat (fun _ _ hj => ⟨hj, other hj⟩) hj
  | tryRecv i =>
    obtain ⟨-, hstep⟩ := Option.ite_none_right_eq_some.mp hstep
    obtain rfl := Option.some.inj hstep
    obtain ⟨-, hh, hfinished⟩ := SpawnHandle.tryFinish_spec (o := o) hrx
    refine h.receive htold trivial rfl (h.told.received_receive hrx hh) ?_ ?_
    · intro hunset htried
      -- The flag would be set now had the completion still been there to be received.
      obtain ⟨hunset', hsent⟩ := not_or.mp (mt hfinished.mpr (ne_true_of_eq_false hunset))
      have hcomplete : .complete ∈ t.2 := by simpa using htried.complete_mem
      have hreceived : t.1.Received o := by
        by_contra hkept
        exact hsent ((h.told.sent_iff hrx).mpr ⟨h.completed.mpr hcomplete, hkept⟩)
      apply Polled.concat
      obtain hpolled | htried := h.received.mp hreceived
      · apply hpolled
      · apply h.tried (by simpa using hunset') htried
    · intro j began hj
      obtain ⟨-, hj⟩ := Table.lookup_of_erase hj
      apply hj
  | poll =>
    obtain rfl := Option.some.inj hstep
    obtain ⟨-, hh, -⟩ := SpawnHandle.poll_spec (o := o) hrx
    refine h.receive htold trivial rfl (h.told.received_receive hrx hh) ?_ fun _ _ hj => hj
    intro _ htried
    apply polled_concat
    simpa using htried.complete_mem

/-- What one step answers is so of the task exactly where the completion is not asked for
again. -/
theorem Logged.answers_iff {t : Spawned C × List Action} (h : Logged o t) (a : Action) :
  Consistent o t.1 a ↔ AsksOnce t a
  := by
  obtain ⟨rx, hrx, -⟩ := h.told.channel
  cases a with
  | abort | complete | cancel => rfl
  | isFinished i =>
    refine iff_of_true ?_ trivial
    intro _
    apply h.told.finished
  | poll =>
    obtain ⟨hanswer, -⟩ := SpawnHandle.poll_spec (o := o) hrx
    rw [Consistent, hanswer, h.told.sent_iff hrx, and_iff_left_iff_imp, h.received, AsksOnce,
      ← not_or]
    constructor
    · intro hkept hreceived
      apply hkept (h.told.completed_of_received (h.received.mpr hreceived)) hreceived
    · intro hasks _
      apply hasks
  | tryRecv i =>
    obtain ⟨hanswer, -⟩ := SpawnHandle.tryFinish_spec (o := o) hrx
    rw [h.told.sent_iff hrx] at hanswer
    cases hi : t.1.calls.lookup i with
    | none => simp [Consistent, AsksOnce, hi]
    | some began =>
      obtain ⟨before, since, hsplits, hbegan, htried⟩ := h.call i began hi
      have hasks : AsksOnce t (.tryRecv i) ↔
          (began = .completed → ¬ Polled t.2 ∧ ∀ j, .tryRecv j ∉ since) := by
        rw [hbegan]
        constructor
        · intro h hcomplete
          apply h (by rw [hi]; rfl) before since hsplits hcomplete
        · intro h _ before' since' hsplits' hcomplete
          obtain ⟨rfl, rfl⟩ := hsplits.eq hsplits'
          apply h hcomplete
      -- what was asked since the completion was asked since the call began, or after a poll
      have hreceived (hcompleted : began = .completed) :
          t.1.Received o ↔ ¬ (¬ Polled t.2 ∧ ∀ j, .tryRecv j ∉ since) := by
        rw [h.received, not_and_or, not_not, not_forall]
        simp only [not_not]
        constructor
        · rintro (hpolled | htried')
          · exact .inl hpolled
          · obtain hbefore | hsince := hsplits.tried htried'
            · exact .inl (hsplits.polled (htried hbefore))
            · exact .inr hsince
        · rintro (hpolled | ⟨j, hj⟩)
          · exact .inl hpolled
          · exact .inr (hsplits.tried_of_mem (hbegan.mp hcompleted) hj)
      have htask (hcompleted : began = .completed) : t.1.task = .completed :=
        h.told.calls i (by rw [hi, hcompleted])
      rw [hasks]
      simp only [Consistent, hi, Option.mem_def, Option.some.injEq, forall_eq']
      by_cases ht : (t.1.handle.tryFinish o).1 = true
      · have hsent := hanswer.mp ht
        rw [if_pos ht, iff_true_left hsent.1]
        intro hcompleted
        by_contra hasked
        exact hsent.2 ((hreceived hcompleted).mpr hasked)
      · rw [if_neg ht]
        apply forall_congr'
        intro hcompleted
        refine iff_of_false id ?_
        intro hasked
        apply ht
        exact hanswer.mpr ⟨htask hcompleted, fun h => (hreceived hcompleted).mp h hasked⟩

/-- The answers of a handle are consistent along a run exactly if the completion is not asked
for again: the handle is not polled once a poll or a call of `is_finished` has asked for it,
and a call of `is_finished` that began after the task completed asks for it neither after a
poll nor after another call that asked while this one was under way. -/
theorem consistent_iff (o : Oneshot C) (as : List Action) :
  (logged o).Meets (fun t => Consistent o t.1) (spawn o, []) as ↔
    (logged o).Meets AsksOnce (spawn o, []) as
  := by
  apply Machine.meets_congr (logged_spawn o)
  · intro t a ht
    apply ht.answers_iff
  · intro t a t' ht _ hs
    apply ht.step hs

/-- A handle that is polled after `is_finished` received the completion resolves with an
error. -/
theorem not_consistent_poll :
  ¬ ∀ as, (machine .ofStatus).Meets (Consistent .ofStatus) (spawn .ofStatus) as
  := by
  intro h
  obtain ⟨-, h⟩ := h [.complete, .isFinished 0, .tryRecv 0, .poll]
  obtain ⟨-, h⟩ := h _ rfl
  obtain ⟨-, h⟩ := h _ rfl
  obtain ⟨h, -⟩ := h _ rfl
  cases h.mpr rfl

end Spawned

end RsQuery
