import RsQuery.MutationObserver
import RsQuery.MutationRuns

/-!
# The mutation hook

`UseMutation` keeps a signal beside its `MutationObserver`.  `mutate` spawns a task that
awaits the handle of the observer's execution and sets the signal to what it yields; `reset`
resets the observer and then sets the signal.  No signal write looks at what the observer
shows.

The signal agrees with the observer where it is written only while the write that belongs to
the observer's latest state is still to come, or the observer is loading:
`UseMutation.mirrors_of_run`.
-/

namespace RsQuery

/-- Where the task stands that `UseMutation::mutate` spawns beside the execution. -/
inductive HookPc where
  /-- Awaits the handle of the execution. -/
  | awaiting
  /-- Has set the signal. -/
  | done
deriving DecidableEq

/-- A hook: its observer, its signal, the tasks of its calls of `mutate`, numbered as the
executions are, and its calls of `reset` that have still to set the signal. -/
structure UseMutation (T : Type) where
  observer : MutationObserver T
  state : MutationState T
  hooks : Table Nat HookPc
  resets : Finset Nat

namespace UseMutation

variable {T : Type}

/-- A new hook. -/
def use_mutation (mutation : Mutation) : UseMutation T :=
  ⟨.new .initial mutation, .idle, ∅, ∅⟩

/-- A step of the system. -/
inductive Action (T : Type) where
  /-- A step of the observer that is no call. -/
  | observer (a : MutationObserver.Action T)
  | mutate (i : Nat)
  /-- The task of a `mutate` call awaits its execution, and sets the signal when that
  resolves. -/
  | poll (i : Nat)
  /-- `reset` resets the observer. -/
  | reset (j : Nat)
  /-- `reset` sets the signal. -/
  | setIdle (j : Nat)

/-- The future of an execution was dropped, by a panic or its owner. -/
def dropped (s : UseMutation T) (i : Nat) : Bool :=
  (s.observer.mutations.execs.lookup i).any fun e => e.pc matches .dropped

/-- What the handle of an execution resolves with: the result once it is sent, and the
fallback when the future was dropped before that. -/
def resolved (s : UseMutation T) (i : Nat) : Option (Except QueryError T) :=
  match s.observer.submissions.lookup i with
  | none => none
  | some sub =>
    match sub.pc with
    | .settled result => some result
    | .running => if s.dropped i then some (.error (.cancelled false false)) else none
    | _ => none

/-- The state after an action, if it is enabled. -/
def step (s : UseMutation T) : Action T → Option (UseMutation T)
  | .observer a =>
    match a with
    | .mutate _ | .reset => none
    | _ => do
      let observer ← s.observer.step a
      some { s with observer := observer }
  | .mutate i => do
    let observer ← s.observer.step (.mutate i)
    some { s with observer := observer, hooks := s.hooks.insert i .awaiting }
  | .poll i => do
    let pc ← s.hooks.lookup i
    match pc with
    | .awaiting => do
      let result ← s.resolved i
      some { s with state := .ofResult result, hooks := s.hooks.insert i .done }
    | .done => none
  | .reset j => do
    if j ∈ s.resets then none
    else
      let observer ← s.observer.step .reset
      some { s with observer := observer, resets := insert j s.resets }
  | .setIdle j =>
    if j ∈ s.resets then some { s with state := .idle, resets := s.resets.erase j } else none

/-- A new hook, and every step. -/
def machine : Machine (UseMutation T) (Action T) where
  init s := ∃ mutation, s = use_mutation mutation
  step := step

/-- What writes the state of the observer. -/
inductive Write where
  | mutate
  | execution (i : Nat)
  | reset (j : Nat)
deriving DecidableEq

/-- The write a step makes. -/
def wrote (_ : UseMutation T) (a : Action T) (_ : UseMutation T) : List Write :=
  match a with
  | .mutate _ => [.mutate]
  | .observer (.write i) => [.execution i]
  | .reset j => [.reset j]
  | _ => []

/-- The signal write that belongs to the observer's latest write has been made; none belongs
to that of `mutate`. -/
def mirrored (s : UseMutation T) (writes : List Write) : Bool :=
  match writes.getLast? with
  | none => true
  | some .mutate => false
  | some (.execution i) => s.hooks.lookup i = some .done
  | some (.reset j) => j ∉ s.resets

/-- The signal is written only where what belongs to the observer's latest write is still to
come, or nothing does. -/
def InOrder (t : UseMutation T × List Write) : Action T → Prop
  | .poll _ | .setIdle _ => t.1.mirrored t.2 = false
  | _ => True

/-- No task of the hook is runnable, and no call is going on: every execution is at its
mutation or settled, and what awaits one has nothing to resolve with. -/
structure Quiet (s : UseMutation T) : Prop where
  executions : ∀ i sub, s.observer.submissions.lookup i = some sub →
    sub.pc.isRunning = true ∨ sub.pc.isSettled = true
  hooks : ∀ i pc, s.hooks.lookup i = some pc → pc = .awaiting → s.resolved i = none
  resets : s.resets = ∅

/-- With no task of the hook runnable, the signal shows what the observer shows, unless that
is loading. -/
def Agrees (s : UseMutation T) : Prop :=
  s.Quiet → s.observer.currentResult ≠ .loading → s.state = s.observer.currentResult

/-! ### Steps -/

variable {s s' : UseMutation T} {a : Action T} {i j : Nat}

theorem step_observer {a : MutationObserver.Action T} (h : s.step (.observer a) = some s') :
  (∀ i, a ≠ .mutate i) ∧ a ≠ .reset ∧
    ∃ observer, s.observer.step a = some observer ∧ s' = { s with observer := observer }
  := by
  simp only [step] at h
  split at h
  · contradiction
  · contradiction
  · next hmutate hreset =>
    obtain ⟨observer, ho, h⟩ := Option.bind_eq_some_iff.mp h
    exact ⟨hmutate, hreset, observer, ho, (Option.some.inj h).symm⟩

theorem step_mutate (h : s.step (.mutate i) = some s') :
  ∃ observer, s.observer.step (.mutate i) = some observer ∧
    s' = { s with observer := observer, hooks := s.hooks.insert i .awaiting }
  := by
  obtain ⟨observer, ho, h⟩ := Option.bind_eq_some_iff.mp h
  exact ⟨observer, ho, (Option.some.inj h).symm⟩

theorem step_poll (h : s.step (.poll i) = some s') :
  ∃ result, s.hooks.lookup i = some .awaiting ∧ s.resolved i = some result ∧
    s' = { s with state := .ofResult result, hooks := s.hooks.insert i .done }
  := by
  obtain ⟨pc, hpc, h⟩ := Option.bind_eq_some_iff.mp h
  split at h
  · obtain ⟨result, hr, h⟩ := Option.bind_eq_some_iff.mp h
    exact ⟨result, hpc, hr, (Option.some.inj h).symm⟩
  · contradiction

theorem step_reset (h : s.step (.reset j) = some s') :
  ∃ observer, s.observer.step .reset = some observer ∧
    s' = { s with observer := observer, resets := insert j s.resets }
  := by
  simp only [step] at h
  split at h
  · contradiction
  · obtain ⟨observer, ho, h⟩ := Option.bind_eq_some_iff.mp h
    exact ⟨observer, ho, (Option.some.inj h).symm⟩

theorem step_setIdle (h : s.step (.setIdle j) = some s') :
  s' = { s with state := .idle, resets := s.resets.erase j }
  := by
  simp only [step] at h
  split at h
  · apply (Option.some.inj h).symm
  · contradiction

/-! ### What holds along a run -/

/-- What the observer shows after the latest write. -/
def Shows (s : UseMutation T) (writes : List Write) : Prop :=
  match writes.getLast? with
  | some .mutate => s.observer.state = .loading
  | some (.execution i) => ∃ sub result, s.observer.submissions.lookup i = some sub ∧
    sub.pc.outcome = some result ∧ s.observer.state = .ofResult result
  | _ => s.observer.state = .idle

/-- A task that has set the signal had its execution settled or dropped. -/
def Finished (s : UseMutation T) (i : Nat) : Prop :=
  ∃ sub, s.observer.submissions.lookup i = some sub ∧
    (sub.pc.isSettled = true ∨ sub.pc = .running ∧ s.dropped i = true)

/-- What holds along a run whose signal writes are in order. -/
structure Kept (s : UseMutation T) (writes : List Write) : Prop where
  mirrored : s.mirrored writes = true → s.state = s.observer.state
  shows : s.Shows writes
  hooked : ∀ i sub, s.observer.submissions.lookup i = some sub → ∃ pc, s.hooks.lookup i = some pc
  finished : ∀ i, s.hooks.lookup i = some .done → s.Finished i

/-- An execution that goes on has its task still waiting. -/
theorem Kept.awaiting {writes : List Write} {sub : Submission T} (h : s.Kept writes)
    (hsub : s.observer.submissions.lookup i = some sub) (hsettled : sub.pc.isSettled = false)
    (hrunning : sub.pc = .running → s.dropped i = false) :
  s.hooks.lookup i = some .awaiting
  := by
  obtain ⟨pc, hpc⟩ := h.hooked i sub hsub
  cases pc with
  | awaiting => apply hpc
  | done =>
    obtain ⟨sub', hsub', hor⟩ := h.finished i hpc
    rw [hsub] at hsub'
    obtain rfl := Option.some.inj hsub'
    obtain hs | ⟨hr, hd⟩ := hor
    · rw [hsettled] at hs
      contradiction
    · rw [hrunning hr] at hd
      contradiction

/-- What a task resolves with is the outcome of an execution past its write, or the
execution was dropped. -/
theorem resolved_cases {result : Except QueryError T} (h : s.resolved i = some result) :
  s.Finished i ∧ ∀ sub result', s.observer.submissions.lookup i = some sub →
    sub.pc.outcome = some result' → result' = result
  := by
  unfold resolved at h
  split at h
  · contradiction
  · next sub hsub =>
    split at h
    · next result' hpc =>
      constructor
      · use sub, hsub
        rw [hpc]
        exact .inl rfl
      · intro sub' result'' hsub' houtcome
        rw [hsub] at hsub'
        obtain rfl := Option.some.inj hsub'
        rw [hpc] at houtcome
        apply Option.some.inj (houtcome.symm.trans h)
    · next hpc =>
      split at h
      · next hd =>
        constructor
        · exact ⟨sub, hsub, .inr ⟨hpc, hd⟩⟩
        · intro sub' result' hsub' houtcome
          rw [hsub] at hsub'
          obtain rfl := Option.some.inj hsub'
          rw [hpc] at houtcome
          contradiction
      · contradiction
    · contradiction

/-- The tasks of other executions are where they were. -/
theorem Finished.of_frame (h : s.Finished i)
    (hsub : s'.observer.submissions.lookup i = s.observer.submissions.lookup i)
    (hdropped : s.dropped i = true → s'.dropped i = true) :
  s'.Finished i
  := by
  obtain ⟨sub, hlookup, hor⟩ := h
  use sub, hsub.trans hlookup
  apply hor.imp id
  exact fun ⟨hr, hd⟩ => ⟨hr, hdropped hd⟩

theorem exists_of_dropped (h : s.dropped i = true) :
  ∃ e, s.observer.mutations.execs.lookup i = some e ∧ e.pc = .dropped
  := by
  obtain ⟨e, he, hpc⟩ := (Option.any_eq_true _ _).mp h
  use e, he
  cases hd : e.pc with
  | dropped => rfl
  | _ =>
    rw [hd] at hpc
    contradiction

theorem dropped_of_exists {e : Mutations.Exec}
    (he : s.observer.mutations.execs.lookup i = some e) (hpc : e.pc = .dropped) :
  s.dropped i = true
  := by
  apply (Option.any_eq_true _ _).mpr
  use e, he
  rw [hpc]

/-- A dropped execution stays so. -/
theorem dropped_of_step {a : Mutations.Action}
    (hs : s.observer.mutations.step a = some s'.observer.mutations) (h : s.dropped i = true) :
  s'.dropped i = true
  := by
  obtain ⟨e, he, hpc⟩ := exists_of_dropped h
  apply dropped_of_exists (Mutations.dropped_of_step he hpc hs) hpc

/-- A step of the cache. -/
theorem Kept.cache {writes : List Write} {a : Mutations.Action} (h : s.Kept writes)
    (hs : s.step (.observer (.cache a)) = some s') :
  s'.Kept writes
  := by
  obtain ⟨-, -, observer, ho, rfl⟩ := step_observer hs
  obtain ⟨mutations, ids, hm, rfl⟩ := MutationObserver.step_cache ho
  constructor
  case mirrored => exact h.mirrored
  case shows => exact h.shows
  case hooked => exact h.hooked
  case finished =>
    intro i hi
    exact (h.finished i hi).of_frame rfl (dropped_of_step hm)

/-- A task of the observer goes on that its hook task waits for, without a write. -/
theorem Kept.advance {writes : List Write} {sub : Submission T} {pc : SubmissionPc T}
    (h : s.Kept writes) (hsub : s.observer.submissions.lookup i = some sub)
    (hawaiting : s.hooks.lookup i = some .awaiting)
    (houtcome : ∀ result, sub.pc.outcome = some result → pc.outcome = some result) :
  Kept { s with observer := s.observer.setSubmission i ⟨sub.observedGeneration, pc⟩ } writes
  := by
  constructor
  case mirrored => apply h.mirrored
  case shows =>
    have hshows := h.shows
    unfold Shows at hshows ⊢
    split
    · next hw =>
      rw [hw] at hshows
      apply hshows
    · next k hw =>
      rw [hw] at hshows
      obtain ⟨sub', result, hsub', hr, hstate⟩ := hshows
      by_cases hik : k = i
      · rw [hik, hsub] at hsub'
        obtain rfl := Option.some.inj hsub'
        refine ⟨⟨sub.observedGeneration, pc⟩, result, ?_, houtcome result hr, hstate⟩
        rw [hik]
        apply AList.lookup_insert ..
      · refine ⟨sub', result, ?_, hr, hstate⟩
        apply (AList.lookup_insert_ne hik).trans hsub'
    · next hm he =>
      split at hshows
      · next hw => exact absurd hw hm
      · next k hw => exact absurd hw (he k)
      · apply hshows
  case hooked =>
    intro k sub' hk
    change (s.observer.submissions.insert i _).lookup k = some sub' at hk
    rw [Table.lookup_insert_eq] at hk
    split at hk
    · next hki =>
      rw [hki]
      exact ⟨_, hawaiting⟩
    · apply h.hooked k sub' hk
  case finished =>
    intro k hk
    apply (h.finished k hk).of_frame
    · apply AList.lookup_insert_ne
      rintro rfl
      rw [hawaiting] at hk
      contradiction
    · apply id

/-- The write of an execution, which its task waits for. -/
theorem Kept.write {writes : List Write} (h : s.Kept writes)
    (hs : s.step (.observer (.write i)) = some s') :
  s'.Kept (writes ++ [.execution i])
  := by
  obtain ⟨-, -, observer, ho, rfl⟩ := step_observer hs
  obtain ⟨sub, result, hsub, hpc, rfl⟩ := MutationObserver.step_write ho
  have hawaiting : s.hooks.lookup i = some .awaiting := by
    apply h.awaiting hsub
    · rw [hpc]
      rfl
    · rw [hpc]
      exact nofun
  have houtcome : ∀ r, sub.pc.outcome = some r → (SubmissionPc.send result).outcome = some r := by
    rw [hpc]
    exact nofun
  have hadvanced := h.advance hsub hawaiting houtcome
  constructor
  case mirrored =>
    intro hm
    simp [UseMutation.mirrored, hawaiting] at hm
  case shows =>
    simp only [Shows, List.getLast?_concat]
    exact ⟨_, result, AList.lookup_insert .., rfl, rfl⟩
  case hooked => apply hadvanced.hooked
  case finished => apply hadvanced.finished

theorem Kept.check {writes : List Write} {data : T} (h : s.Kept writes)
    (hs : s.step (.observer (.check i data)) = some s') :
  s'.Kept writes
  := by
  obtain ⟨-, -, observer, ho, rfl⟩ := step_observer hs
  obtain ⟨sub, e, done, result, hsub, hpc, he, hdone, rfl⟩ := MutationObserver.step_check ho
  apply h.advance hsub
  · apply h.awaiting hsub
    · rw [hpc]
      rfl
    · intro _
      -- the execution has returned
      by_contra hd
      rw [Bool.not_eq_false] at hd
      obtain ⟨e', he', hpc'⟩ := exists_of_dropped hd
      rw [he] at he'
      rw [← Option.some.inj he', hdone] at hpc'
      contradiction
  · rw [hpc]
    exact nofun

theorem Kept.send {writes : List Write} (h : s.Kept writes)
    (hs : s.step (.observer (.send i)) = some s') :
  s'.Kept writes
  := by
  obtain ⟨-, -, observer, ho, rfl⟩ := step_observer hs
  obtain ⟨sub, result, hsub, hpc, rfl⟩ := MutationObserver.step_send ho
  apply h.advance hsub
  · apply h.awaiting hsub
    · rw [hpc]
      rfl
    · rw [hpc]
      exact nofun
  · rw [hpc]
    exact fun _ => id

theorem Kept.mutate {writes : List Write} (h : s.Kept writes)
    (hs : s.step (.mutate i) = some s') :
  s'.Kept (writes ++ [.mutate])
  := by
  obtain ⟨observer, ho, rfl⟩ := step_mutate hs
  obtain ⟨mutations, hm, rfl⟩ := MutationObserver.step_mutate ho
  constructor
  case mirrored =>
    intro hm
    simp [UseMutation.mirrored] at hm
  case shows => simp [Shows]
  case hooked =>
    intro k sub hk
    change (s.observer.submissions.insert i _).lookup k = some sub at hk
    change ∃ pc, (s.hooks.insert i _).lookup k = some pc
    rw [Table.lookup_insert_eq] at hk ⊢
    split at hk
    · next hki =>
      rw [if_pos hki]
      exact ⟨_, rfl⟩
    · next hki =>
      rw [if_neg hki]
      apply h.hooked k sub hk
  case finished =>
    intro k hk
    change (s.hooks.insert i _).lookup k = some .done at hk
    rw [Table.lookup_insert_eq] at hk
    split at hk
    · contradiction
    · next hki =>
      apply (h.finished k hk).of_frame (AList.lookup_insert_ne hki) (dropped_of_step hm)

theorem Kept.reset {writes : List Write} (h : s.Kept writes)
    (hs : s.step (.reset j) = some s') :
  s'.Kept (writes ++ [.reset j])
  := by
  obtain ⟨observer, ho, rfl⟩ := step_reset hs
  obtain rfl := Option.some.inj ho
  constructor
  case mirrored =>
    intro hm
    simp [UseMutation.mirrored] at hm
  case shows => simp [Shows]
  case hooked => apply h.hooked
  case finished =>
    intro k hk
    apply (h.finished k hk).of_frame rfl id

/-- A task sets the signal where what belongs to the latest write is still to come, so that
afterwards either it still is or this was it. -/
theorem Kept.poll {writes : List Write} (h : s.Kept writes) (hok : s.mirrored writes = false)
    (hs : s.step (.poll i) = some s') :
  s'.Kept writes
  := by
  obtain ⟨result, hawaiting, hresolved, rfl⟩ := step_poll hs
  obtain ⟨hfinished, houtcome⟩ := resolved_cases hresolved
  constructor
  case mirrored =>
    intro hm
    have hshows := h.shows
    unfold UseMutation.mirrored at hm hok
    unfold Shows at hshows
    split at hm
    · next hw =>
      rw [hw] at hok
      contradiction
    · contradiction
    · next k hw =>
      rw [hw] at hok hshows
      obtain ⟨sub, result', hsub, hr, hstate⟩ := hshows
      by_cases hki : k = i
      · rw [hki] at hsub
        rw [← houtcome sub result' hsub hr]
        apply hstate.symm
      · rw [AList.lookup_insert_ne hki] at hm
        exact absurd (hok.symm.trans hm) Bool.false_ne_true
    · next k hw =>
      rw [hw] at hok
      exact absurd (hok.symm.trans hm) Bool.false_ne_true
  case shows => apply h.shows
  case hooked =>
    intro k sub hk
    change ∃ pc, (s.hooks.insert i _).lookup k = some pc
    rw [Table.lookup_insert_eq]
    split
    · exact ⟨_, rfl⟩
    · apply h.hooked k sub hk
  case finished =>
    intro k hk
    change (s.hooks.insert i _).lookup k = some .done at hk
    rw [Table.lookup_insert_eq] at hk
    split at hk
    · next hki =>
      rw [hki]
      apply hfinished.of_frame rfl id
    · apply (h.finished k hk).of_frame rfl id

theorem Kept.setIdle {writes : List Write} (h : s.Kept writes) (hok : s.mirrored writes = false)
    (hs : s.step (.setIdle j) = some s') :
  s'.Kept writes
  := by
  obtain rfl := step_setIdle hs
  constructor
  case mirrored =>
    intro hm
    have hshows := h.shows
    unfold UseMutation.mirrored at hm hok
    unfold Shows at hshows
    split at hm
    · next hw =>
      rw [hw] at hok
      contradiction
    · contradiction
    · next k hw =>
      rw [hw] at hok
      exact absurd (hok.symm.trans hm) Bool.false_ne_true
    · next k hw =>
      rw [hw] at hshows
      apply hshows.symm
  case shows => apply h.shows
  case hooked => apply h.hooked
  case finished =>
    intro k hk
    apply (h.finished k hk).of_frame rfl id

/-- Every step whose signal write is in order keeps it. -/
theorem Kept.step {writes : List Write} (h : s.Kept writes) (hok : InOrder (s, writes) a)
    (hs : s.step a = some s') :
  s'.Kept (writes ++ wrote s a s')
  := by
  cases a with
  | observer a =>
    obtain ⟨hmutate, hreset, -⟩ := step_observer hs
    cases a with
    | cache a =>
      simp only [wrote, List.append_nil]
      apply h.cache hs
    | mutate i => exact absurd rfl (hmutate i)
    | check i data =>
      simp only [wrote, List.append_nil]
      apply h.check hs
    | write i => apply h.write hs
    | send i =>
      simp only [wrote, List.append_nil]
      apply h.send hs
    | reset => exact absurd rfl hreset
  | mutate i => apply h.mutate hs
  | poll i =>
    simp only [wrote, List.append_nil]
    apply h.poll hok hs
  | reset j => apply h.reset hs
  | setIdle j =>
    simp only [wrote, List.append_nil]
    apply h.setIdle hok hs

theorem kept_of_run {t : UseMutation T × List Write}
    (h : (machine.noting wrote).Run InOrder t) :
  t.1.Kept t.2
  := by
  apply h.invariant
  · rintro ⟨s, writes⟩ ⟨⟨mutation, rfl⟩, rfl⟩
    constructor
    · exact fun _ => rfl
    · rfl
    · intro i sub hsub
      contradiction
    · intro i hi
      contradiction
  · intro t a t' _ ht hok hs
    obtain ⟨hs, hwrites⟩ := Machine.step_noting hs
    rw [hwrites]
    apply ht.step hok hs

/-- With no task runnable, what belongs to the latest write has been made. -/
theorem Kept.mirrored_of_quiet {writes : List Write} (h : s.Kept writes) (hquiet : s.Quiet)
    (hloading : s.observer.state ≠ .loading) :
  s.mirrored writes = true
  := by
  have hshows := h.shows
  unfold Shows at hshows
  unfold UseMutation.mirrored
  split
  · rfl
  · next hw =>
    rw [hw] at hshows
    contradiction
  · next i hw =>
    rw [hw] at hshows
    obtain ⟨sub, result, hsub, hr, -⟩ := hshows
    apply decide_eq_true
    obtain ⟨pc, hpc⟩ := h.hooked i sub hsub
    cases pc with
    | done => apply hpc
    | awaiting =>
      -- its execution is settled, so the task is runnable
      have hnone := hquiet.hooks i .awaiting hpc rfl
      obtain hrunning | hsettled := hquiet.executions i sub hsub
      · cases hsubpc : sub.pc with
        | running =>
          rw [hsubpc] at hr
          contradiction
        | _ =>
          rw [hsubpc] at hrunning
          contradiction
      · obtain ⟨result', hsubpc⟩ := SubmissionPc.exists_of_isSettled hsettled
        simp only [resolved, hsub, hsubpc] at hnone
        contradiction
  · rw [hquiet.resets]
    rfl

/-- Along a run whose signal writes are in order the signal agrees with the observer. -/
theorem mirrors_of_run {t : UseMutation T × List Write}
    (h : (machine.noting wrote).Run InOrder t) :
  t.1.Agrees
  := by
  have hkept := kept_of_run h
  intro hquiet hloading
  apply hkept.mirrored
  apply hkept.mirrored_of_quiet hquiet hloading

instance (t : UseMutation T × List Write) (a : Action T) : Decidable (InOrder t a) := by
  unfold InOrder
  split
  all_goals infer_instance

theorem quiet_iff (s : UseMutation T) :
  s.Quiet ↔
    (∀ i sub, s.observer.submissions.lookup i = some sub →
      sub.pc.isRunning = true ∨ sub.pc.isSettled = true) ∧
    (∀ i pc, s.hooks.lookup i = some pc → pc = .awaiting → s.resolved i = none) ∧ s.resets = ∅
  := by
  constructor
  · exact fun ⟨he, hh, hr⟩ => ⟨he, hh, hr⟩
  · exact fun ⟨he, hh, hr⟩ => ⟨he, hh, hr⟩

instance (s : UseMutation T) : Decidable s.Quiet :=
  decidable_of_iff' _ s.quiet_iff

/-- The steps of an execution without scope and hooks, whose mutation succeeds. -/
def execution (i : Nat) : List (Action T) :=
  (MutationObserver.execution i).map .observer

/-- A mutation settles, its task sets the signal, and the hook is reset. -/
theorem mirrors_of_run_reset :
  ∃ t : UseMutation Nat × List Write, (machine.noting wrote).Run InOrder t ∧
    (t.1.state, t.2) = (.idle, [.mutate, .execution 0, .reset 0]) ∧ t.1.Agrees
  := by
  have init : (machine.noting wrote).init ((use_mutation {}, []) : UseMutation Nat × _) :=
    ⟨⟨{}, rfl⟩, rfl⟩
  have meets : (machine.noting wrote).Meets InOrder ((use_mutation {}, []) : _ × _)
      (.mutate 0 :: execution 0 ++ [.observer (.check 0 0), .observer (.write 0),
        .observer (.send 0), .poll 0, .reset 0, .setIdle 0]) := by
    decide +kernel
  obtain ⟨t, ht, hseen⟩ := Machine.exists_run_of_exec _
    (fun t : UseMutation Nat × List Write => (t.1.state, t.2))
    (.idle, [.mutate, .execution 0, .reset 0]) init meets (by decide +kernel)
  exact ⟨t, ht, hseen, mirrors_of_run ht⟩

/-- An execution ends after a reset: the observer stays idle, and the signal shows what the
execution yields. -/
theorem not_mirrors_reset :
  ∃ t : UseMutation Nat × List Write, (machine.noting wrote).Reachable t ∧
    t.2 = [.mutate, .reset 0] ∧ t.1.observer.currentResult = .idle ∧ t.1.state = .success 0 ∧
    t.1.Quiet ∧ ¬ t.1.Agrees
  := by
  have init : (machine.noting wrote).init ((use_mutation {}, []) : UseMutation Nat × _) :=
    ⟨⟨{}, rfl⟩, rfl⟩
  obtain ⟨t, ht, hseen⟩ := Machine.exists_reachable_of_exec
    (.mutate 0 :: execution 0 ++ [.reset 0, .setIdle 0, .observer (.check 0 0),
      .observer (.send 0), .poll 0])
    (fun t : UseMutation Nat × List Write =>
      (t.2, t.1.observer.currentResult, t.1.state, decide t.1.Quiet))
    ([.mutate, .reset 0], .idle, .success 0, true) init (by decide +kernel)
  simp only [Prod.mk.injEq] at hseen
  obtain ⟨hwrites, hresult, hstate, hquiet⟩ := hseen
  have hquiet := of_decide_eq_true hquiet
  use t, ht, hwrites, hresult, hstate, hquiet
  intro hagrees
  have heq := hagrees hquiet (by rw [hresult]; exact nofun)
  rw [hresult, hstate] at heq
  contradiction

end UseMutation

end RsQuery
