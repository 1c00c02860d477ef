import Mathlib.Data.List.DropRight
import RsQuery.Mutations
import RsQuery.State

/-!
# The mutation observer

A `MutationObserver` runs its mutation on a mutation cache, and writes its state from three
places: a `mutate` call, a `reset`, and the end of an execution, which looks at the
generation before it writes.  `MutationObserver` is one observer with the cache it runs on;
what others do with the cache goes on beside it.

The generation counts the resets alone, and is read apart from the write.  The observer
tracks the latest call where no execution ends after a newer one was submitted without a reset
since, and no call falls between the look at the generation and the write:
`MutationObserver.tracks_of_run`.
-/

namespace RsQuery

/-- What a settled execution makes of the tracked state. -/
def MutationState.ofResult {T : Type} : Except QueryError T → MutationState T
  | .ok data => .success data
  | .error e => .error e

/-- Where the task of a `mutate` call stands. -/
inductive SubmissionPc (T : Type) where
  /-- In `execute_mutation_full_tracked`. -/
  | running
  /-- Has found its generation unchanged, and is to write the state. -/
  | write (result : Except QueryError T)
  /-- Is to send its result. -/
  | send (result : Except QueryError T)
  | settled (result : Except QueryError T)

/-- It is to write the state. -/
def SubmissionPc.writes {T : Type} : SubmissionPc T → Bool
  | .write _ => true
  | _ => false

def SubmissionPc.isRunning {T : Type} : SubmissionPc T → Bool
  | .running => true
  | _ => false

def SubmissionPc.isSettled {T : Type} : SubmissionPc T → Bool
  | .settled _ => true
  | _ => false

/-- The outcome of an execution that is past its write. -/
def SubmissionPc.outcome {T : Type} : SubmissionPc T → Option (Except QueryError T)
  | .send result | .settled result => some result
  | _ => none

theorem SubmissionPc.exists_of_isSettled {T : Type} {pc : SubmissionPc T}
    (h : pc.isSettled = true) :
  ∃ result, pc = .settled result
  := by
  cases pc with
  | settled result => use result
  | _ => contradiction

/-- The task of a `mutate` call, with the generation it was submitted in. -/
structure Submission (T : Type) where
  observedGeneration : Nat
  pc : SubmissionPc T

/-- An observer, and the mutation cache with what runs on it; an execution and the task
that awaits it have the same number. -/
structure MutationObserver (T : Type) where
  mutations : Mutations
  mutation : Mutation
  state : MutationState T
  entryIds : List Nat
  generation : Nat
  submissions : Table Nat (Submission T)

namespace MutationObserver

variable {T : Type}

/-- A new observer on a cache. -/
def new (mutations : Mutations) (mutation : Mutation) : MutationObserver T :=
  ⟨mutations, mutation, .idle, [], 0, ∅⟩

def currentResult (s : MutationObserver T) : MutationState T :=
  s.state

/-- The observer with the task of one call replaced. -/
def setSubmission (s : MutationObserver T) (i : Nat) (sub : Submission T) : MutationObserver T :=
  { s with submissions := s.submissions.insert i sub }

/-- A step of the system. -/
inductive Action (T : Type) where
  /-- An execution on the cache goes on, of this observer or another, or another thread
  calls the cache. -/
  | cache (a : Mutations.Action)
  /-- `mutate`; the call is given this number. -/
  | mutate (i : Nat)
  /-- The execution has returned, with this data if it succeeded, and its task looks at the
  generation. -/
  | check (i : Nat) (data : T)
  | write (i : Nat)
  | send (i : Nat)
  | reset

/-- The entry of an own execution whose `on_entry_added` hook runs in this step. -/
def hooked (s : MutationObserver T) : Mutations.Action → List Nat
  | .advance i _ =>
    match s.submissions.lookup i, s.mutations.execs.lookup i with
    | some _, some e =>
      match e.pc with
      | .add (.hook id) => [id]
      | _ => []
    | _, _ => []
  | _ => []

/-- The state after an action, if it is enabled. -/
def step (s : MutationObserver T) : Action T → Option (MutationObserver T)
  | .cache a => do
    let mutations ← s.mutations.step a
    some { s with mutations := mutations, entryIds := s.entryIds ++ s.hooked a }
  | .mutate i => do
    let mutations ← s.mutations.step (.submit i s.mutation)
    some { s.setSubmission i ⟨s.generation, .running⟩ with
      mutations := mutations
      state := .loading }
  | .check i data => do
    let sub ← s.submissions.lookup i
    let e ← s.mutations.execs.lookup i
    match sub.pc, e.pc with
    | .running, .done result =>
      let result := result.map fun _ => data
      let pc := if s.generation = sub.observedGeneration then .write result else .send result
      some (s.setSubmission i { sub with pc := pc })
    | _, _ => none
  | .write i => do
    let sub ← s.submissions.lookup i
    match sub.pc with
    | .write result =>
      some { s.setSubmission i { sub with pc := .send result } with state := .ofResult result }
    | _ => none
  | .send i => do
    let sub ← s.submissions.lookup i
    match sub.pc with
    | .send result => some (s.setSubmission i { sub with pc := .settled result })
    | _ => none
  | .reset => some { s with generation := s.generation + 1, state := .idle }

/-- A new observer on a cache in use, and every step. -/
def machine : Machine (MutationObserver T) (Action T) where
  init s := ∃ mutations mutation, Mutations.machine.Reachable mutations ∧ s = new mutations mutation
  step := step

/-- A call on the observer. -/
inductive Call where
  | mutate (i : Nat)
  | reset
deriving DecidableEq

/-- The call a step makes. -/
def called (_ : MutationObserver T) (a : Action T) (_ : MutationObserver T) : List Call :=
  match a with
  | .mutate i => [.mutate i]
  | .reset => [.reset]
  | _ => []

/-! ### Steps -/

variable {s s' : MutationObserver T} {a : Action T} {i : Nat} {data : T}

theorem step_cache {a : Mutations.Action} (h : s.step (.cache a) = some s') :
  ∃ mutations ids, s.mutations.step a = some mutations ∧
    s' = { s with mutations := mutations, entryIds := ids }
  := by
  obtain ⟨mutations, hm, h⟩ := Option.bind_eq_some_iff.mp h
  exact ⟨mutations, _, hm, (Option.some.inj h).symm⟩

theorem step_mutate (h : s.step (.mutate i) = some s') :
  ∃ mutations, s.mutations.step (.submit i s.mutation) = some mutations ∧
    s' = { s.setSubmission i ⟨s.generation, .running⟩ with
      mutations := mutations, state := .loading }
  := by
  obtain ⟨mutations, hm, h⟩ := Option.bind_eq_some_iff.mp h
  exact ⟨mutations, hm, (Option.some.inj h).symm⟩

theorem step_check (h : s.step (.check i data) = some s') :
  ∃ sub e done result, s.submissions.lookup i = some sub ∧ sub.pc = .running ∧
    s.mutations.execs.lookup i = some e ∧ e.pc = .done done ∧
    s' = s.setSubmission i ⟨sub.observedGeneration,
      if s.generation = sub.observedGeneration then .write result else .send result⟩
  := by
  obtain ⟨sub, hsub, h⟩ := Option.bind_eq_some_iff.mp h
  obtain ⟨e, he, h⟩ := Option.bind_eq_some_iff.mp h
  split at h
  · next done hpc hdone =>
    exact ⟨sub, e, done, _, hsub, hpc, he, hdone, (Option.some.inj h).symm⟩
  · contradiction

theorem step_write (h : s.step (.write i) = some s') :
  ∃ sub result, s.submissions.lookup i = some sub ∧ sub.pc = .write result ∧
    s' = { s.setSubmission i { sub with pc := .send result } with state := .ofResult result }
  := by
  obtain ⟨sub, hsub, h⟩ := Option.bind_eq_some_iff.mp h
  split at h
  · next result hpc => exact ⟨sub, result, hsub, hpc, (Option.some.inj h).symm⟩
  · contradiction

theorem step_send (h : s.step (.send i) = some s') :
  ∃ sub result, s.submissions.lookup i = some sub ∧ sub.pc = .send result ∧
    s' = s.setSubmission i { sub with pc := .settled result }
  := by
  obtain ⟨sub, hsub, h⟩ := Option.bind_eq_some_iff.mp h
  split at h
  · next result hpc => exact ⟨sub, result, hsub, hpc, (Option.some.inj h).symm⟩
  · contradiction

/-! ### The latest call -/

/-- What the latest call makes of the tracked state: a submitted execution is loading until
its task is past the write. -/
def latest (s : MutationObserver T) (calls : List Call) : MutationState T :=
  match calls.getLast? with
  | some (.mutate i) =>
    ((s.submissions.lookup i).bind fun sub => sub.pc.outcome).elim .loading .ofResult
  | _ => .idle

/-- The observer tracks the latest call: with every execution settled it shows what the
latest call came to, and the end of an older execution leaves the state of a newer one
alone. -/
structure Tracks (s : MutationObserver T) (calls : List Call) : Prop where
  settled : (∀ i sub, s.submissions.lookup i = some sub → sub.pc.isSettled = true) →
    match calls.getLast? with
    | some (.mutate i) => ∃ sub result, s.submissions.lookup i = some sub ∧
      sub.pc = .settled result ∧ s.currentResult = .ofResult result
    | _ => s.currentResult = .idle
  kept : ∀ i j s', calls.getLast? = some (.mutate i) → j ≠ i → s.step (.write j) = some s' →
    s'.currentResult = s.currentResult

/-- The calls made since the execution with the number `i` was submitted. -/
def since (calls : List Call) (i : Nat) : List Call :=
  calls.rtakeWhile (· ≠ .mutate i)

/-- An execution that looks at the generation was submitted by the latest call, or before a
reset; and no call is made while one is to write the state. -/
def Orderly (t : MutationObserver T × List Call) : Action T → Prop
  | .mutate _ | .reset =>
    ∀ i sub, t.1.submissions.lookup i = some sub → sub.pc.writes = false
  | .check i _ => since t.2 i = [] ∨ .reset ∈ since t.2 i
  | _ => True

/-- What holds along an orderly run. -/
structure Current (s : MutationObserver T) (calls : List Call) : Prop where
  state : s.state = s.latest calls
  /-- What is to write is the latest call. -/
  writes : ∀ i sub, s.submissions.lookup i = some sub → sub.pc.writes = true →
    calls.getLast? = some (.mutate i)
  submitted : ∀ i, calls.getLast? = some (.mutate i) → (s.submissions.lookup i).isSome = true
  /-- The generation has counted the resets since a call was submitted. -/
  counted : ∀ i sub, s.submissions.lookup i = some sub → .mutate i ∈ calls ∧
    s.generation = sub.observedGeneration + (since calls i).count .reset

theorem since_concat_self (calls : List Call) (i : Nat) :
  since (calls ++ [.mutate i]) i = []
  := by
  simp [since, List.rtakeWhile_concat_neg]

theorem since_concat {call : Call} (calls : List Call) (h : call ≠ .mutate i) :
  since (calls ++ [call]) i = since calls i ++ [call]
  := by
  apply List.rtakeWhile_concat_pos
  simpa using h

/-- Nothing was called since the latest call. -/
theorem since_eq_nil_iff {calls : List Call} (h : .mutate i ∈ calls) :
  since calls i = [] ↔ calls.getLast? = some (.mutate i)
  := by
  have hne : calls ≠ [] := List.ne_nil_of_mem h
  simp [since, hne, List.getLast?_eq_some_getLast hne]

/-- The generation is still that of an execution exactly if it was not reset since. -/
theorem Current.generation_iff {calls : List Call} {sub : Submission T} (h : s.Current calls)
    (hsub : s.submissions.lookup i = some sub) :
  s.generation = sub.observedGeneration ↔ .reset ∉ since calls i
  := by
  rw [(h.counted i sub hsub).2, ← List.count_eq_zero]
  omega

/-- The latest call was submitted in this generation. -/
theorem Current.generation {calls : List Call} (h : s.Current calls)
    (hi : calls.getLast? = some (.mutate i)) :
  ∃ sub, s.submissions.lookup i = some sub ∧ s.generation = sub.observedGeneration
  := by
  obtain ⟨sub, hsub⟩ := Option.isSome_iff_exists.mp (h.submitted i hi)
  use sub, hsub
  rw [h.generation_iff hsub, (since_eq_nil_iff (h.counted i sub hsub).1).mpr hi]
  apply List.not_mem_nil

/-- A new call is the latest. -/
theorem latest_mutate (s : MutationObserver T) (calls : List Call) (i g : Nat) :
  (s.setSubmission i ⟨g, .running⟩).latest (calls ++ [.mutate i]) = .loading
  := by
  simp [latest, setSubmission, SubmissionPc.outcome]

theorem latest_reset (s : MutationObserver T) (calls : List Call) :
  s.latest (calls ++ [.reset]) = .idle
  := by
  simp [latest]

/-- What is made of the latest call depends on what its task has written. -/
theorem latest_setSubmission {calls : List Call} {sub sub' : Submission T}
    (hsub : s.submissions.lookup i = some sub)
    (h : calls.getLast? = some (.mutate i) → sub'.pc.outcome = sub.pc.outcome) :
  (s.setSubmission i sub').latest calls = s.latest calls
  := by
  unfold latest
  split
  · next j hj =>
    have hsub' : ((s.setSubmission i sub').submissions.lookup j).bind (fun sub => sub.pc.outcome) =
        (s.submissions.lookup j).bind (fun sub => sub.pc.outcome) := by
      unfold setSubmission
      rw [Table.lookup_insert_eq]
      split
      · next hi =>
        subst hi
        rw [hsub, Option.bind_some, Option.bind_some, h hj]
      · rfl
    rw [hsub']
  · rfl

/-- A task advances, and the state is still what the latest call makes of it. -/
theorem Current.advance {calls : List Call} {sub sub' : Submission T}
    (h : s.Current calls) (hsub : s.submissions.lookup i = some sub)
    (hsubmissions : s'.submissions = s.submissions.insert i sub')
    (hgeneration : s'.generation = s.generation)
    (hobserved : sub'.observedGeneration = sub.observedGeneration)
    (hwrites : sub'.pc.writes = true → calls.getLast? = some (.mutate i))
    (hstate : s'.state = s'.latest calls) :
  s'.Current calls
  := by
  constructor
  case state => apply hstate
  case writes =>
    intro j sub'' hj hw
    rw [hsubmissions] at hj
    obtain ⟨heq, rfl⟩ | ⟨-, hj⟩ := Table.lookup_insert_cases hj
    · rw [heq]
      apply hwrites hw
    · apply h.writes j sub'' hj hw
  case submitted =>
    intro j hj
    rw [hsubmissions, Table.lookup_insert_eq]
    split
    · rfl
    · apply h.submitted j hj
  case counted =>
    intro j sub'' hj
    rw [hgeneration]
    rw [hsubmissions] at hj
    obtain ⟨heq, rfl⟩ | ⟨-, hj⟩ := Table.lookup_insert_cases hj
    · rw [heq, hobserved]
      apply h.counted i sub hsub
    · apply h.counted j sub'' hj

/-- A task advances that has written before or has not. -/
theorem Current.setSubmission {calls : List Call} {sub sub' : Submission T}
    (h : s.Current calls) (hsub : s.submissions.lookup i = some sub)
    (hobserved : sub'.observedGeneration = sub.observedGeneration)
    (hwrites : sub'.pc.writes = true → calls.getLast? = some (.mutate i))
    (houtcome : calls.getLast? = some (.mutate i) → sub'.pc.outcome = sub.pc.outcome) :
  (s.setSubmission i sub').Current calls
  := by
  apply h.advance hsub
  · rfl
  · rfl
  · apply hobserved
  · apply hwrites
  · rw [latest_setSubmission hsub houtcome]
    apply h.state

/-- The end of an execution that finds its generation is the end of the latest call. -/
theorem Current.check {calls : List Call} (h : s.Current calls)
    (hok : Orderly (s, calls) (.check i data)) (hs : s.step (.check i data) = some s') :
  s'.Current calls
  := by
  obtain ⟨sub, -, -, result, hsub, hpc, -, -, rfl⟩ := step_check hs
  by_cases hg : s.generation = sub.observedGeneration
  · -- it was not reset since, so it was the latest to be called
    have hlast : calls.getLast? = some (.mutate i) := by
      apply (since_eq_nil_iff (h.counted i sub hsub).1).mp
      apply hok.resolve_right ((h.generation_iff hsub).mp hg)
    rw [if_pos hg]
    apply h.setSubmission hsub
    · rfl
    · exact fun _ => hlast
    · rw [hpc]
      exact fun _ => rfl
  · rw [if_neg hg]
    apply h.setSubmission hsub
    · rfl
    · intro hw
      contradiction
    · intro hi
      obtain ⟨sub', hsub', hg'⟩ := h.generation hi
      rw [hsub] at hsub'
      obtain rfl := Option.some.inj hsub'
      exact absurd hg' hg

/-- What is written is the outcome of the latest call. -/
theorem Current.write {calls : List Call} (h : s.Current calls)
    (hs : s.step (.write i) = some s') :
  s'.Current calls
  := by
  obtain ⟨sub, result, hsub, hpc, rfl⟩ := step_write hs
  have hlast : calls.getLast? = some (.mutate i) := by
    apply h.writes i sub hsub
    rw [hpc]
    rfl
  apply h.advance hsub
  · rfl
  · rfl
  · rfl
  · intro hw
    contradiction
  · simp [latest, hlast, MutationObserver.setSubmission, SubmissionPc.outcome]

/-- Every orderly step keeps it. -/
theorem Current.step {calls : List Call} (h : s.Current calls) (hok : Orderly (s, calls) a)
    (hs : s.step a = some s') :
  s'.Current (calls ++ called s a s')
  := by
  cases a with
  | cache a =>
    obtain ⟨mutations, ids, -, rfl⟩ := step_cache hs
    simp only [called, List.append_nil]
    exact ⟨h.state, h.writes, h.submitted, h.counted⟩
  | mutate i =>
    obtain ⟨mutations, -, rfl⟩ := step_mutate hs
    constructor
    case state => apply (s.latest_mutate calls i s.generation).symm
    case writes =>
      intro j sub hj hw
      change (s.submissions.insert i _).lookup j = some sub at hj
      obtain ⟨-, rfl⟩ | ⟨-, hj⟩ := Table.lookup_insert_cases hj
      · contradiction
      · rw [hok j sub hj] at hw
        contradiction
    case submitted =>
      intro j hj
      obtain rfl : i = j := by simpa [called] using hj
      exact congrArg Option.isSome (AList.lookup_insert ..)
    case counted =>
      intro j sub hj
      change (s.submissions.insert i _).lookup j = some sub at hj
      obtain ⟨heq, rfl⟩ | ⟨hne, hj⟩ := Table.lookup_insert_cases hj
      · rw [heq]
        refine ⟨List.mem_concat_self, ?_⟩
        rw [called, since_concat_self, List.count_nil, Nat.add_zero]
        rfl
      · obtain ⟨hmem, hg⟩ := h.counted j sub hj
        refine ⟨List.mem_append_left _ hmem, ?_⟩
        rw [called, since_concat _ (by simpa using Ne.symm hne), List.count_append]
        exact hg
  | check i data =>
    simp only [called, List.append_nil]
    apply h.check hok hs
  | write i =>
    simp only [called, List.append_nil]
    apply h.write hs
  | send i =>
    obtain ⟨sub, result, hsub, hpc, rfl⟩ := step_send hs
    simp only [called, List.append_nil]
    apply h.setSubmission hsub
    · rfl
    · intro hw
      contradiction
    · rw [hpc]
      exact fun _ => rfl
  | reset =>
    obtain rfl := Option.some.inj hs
    constructor
    case state => apply (s.latest_reset calls).symm
    case writes =>
      intro j sub hj hw
      rw [hok j sub hj] at hw
      contradiction
    case submitted =>
      intro j hj
      simp [called] at hj
    case counted =>
      intro j sub hj
      obtain ⟨hmem, hg⟩ := h.counted j sub hj
      refine ⟨List.mem_append_left _ hmem, ?_⟩
      have hsince : since (calls ++ [.reset]) j = since calls j ++ [.reset] := by
        apply since_concat
        simp
      rw [called, hsince, List.count_append, List.count_singleton_self, ← Nat.add_assoc, ← hg]

theorem current_of_run {t : MutationObserver T × List Call}
    (h : (machine.noting called).Run Orderly t) :
  t.1.Current t.2
  := by
  apply h.invariant
  · rintro ⟨s, calls⟩ ⟨⟨mutations, mutation, -, rfl⟩, rfl⟩
    constructor
    · rfl
    · intro i sub hsub
      contradiction
    · intro i hi
      contradiction
    · intro i sub hsub
      contradiction
  · intro t a t' _ ht hok hs
    obtain ⟨hs, hcalls⟩ := Machine.step_noting hs
    rw [hcalls]
    apply ht.step hok hs

/-- Along an orderly run the observer tracks the latest call. -/
theorem tracks_of_run {t : MutationObserver T × List Call}
    (h : (machine.noting called).Run Orderly t) :
  t.1.Tracks t.2
  := by
  have hcurrent := current_of_run h
  constructor
  case settled =>
    intro hsettled
    have hstate := hcurrent.state
    unfold latest at hstate
    split
    · next i hi =>
      obtain ⟨sub, hsub, -⟩ := hcurrent.generation hi
      obtain ⟨result, hpc⟩ := SubmissionPc.exists_of_isSettled (hsettled i sub hsub)
      use sub, result, hsub, hpc
      simp only [hi, hsub, Option.bind_some, hpc] at hstate
      apply hstate
    · next hi =>
      split at hstate
      · next i hi' => exact absurd hi' (hi i)
      · apply hstate
  case kept =>
    intro i j s' hi hne hs
    obtain ⟨sub, result, hsub, hpc, -⟩ := step_write hs
    have hj := hcurrent.writes j sub hsub (by rw [hpc]; rfl)
    rw [hi] at hj
    obtain rfl : i = j := by simpa using hj
    contradiction

instance (t : MutationObserver T × List Call) (a : Action T) : Decidable (Orderly t a) := by
  unfold Orderly
  split
  all_goals infer_instance

/-- The steps of an execution without scope and hooks, whose mutation succeeds. -/
def execution (i : Nat) : List (Action T) :=
  let outcomes : List Mutations.Outcome :=
    List.replicate 8 .next ++ .ready (.ok ()) :: List.replicate 3 .next
  outcomes.map fun o => .cache (.advance i o)

/-- An execution ends after a reset, and the next one after that. -/
theorem tracks_of_run_reset :
  ∃ t : MutationObserver Nat × List Call, (machine.noting called).Run Orderly t ∧
    (t.1.currentResult, t.2) = (.success 1, [.mutate 0, .reset, .mutate 1]) ∧ t.1.Tracks t.2
  := by
  have init : (machine.noting called).init ((new .initial {}, []) : MutationObserver Nat × _) :=
    ⟨⟨.initial, {}, .init rfl, rfl⟩, rfl⟩
  have meets : (machine.noting called).Meets Orderly ((new .initial {}, []) : _ × _)
      (.mutate 0 :: execution 0 ++ [.reset, .check 0 0, .send 0, .mutate 1] ++ execution 1 ++
        [.check 1 1, .write 1, .send 1]) := by
    decide +kernel
  obtain ⟨t, ht, hseen⟩ := Machine.exists_run_of_exec _
    (fun t : MutationObserver Nat × List Call => (t.1.currentResult, t.2))
    (.success 1, [.mutate 0, .reset, .mutate 1]) init meets (by decide +kernel)
  exact ⟨t, ht, hseen, tracks_of_run ht⟩

/-- With every execution settled, what is tracked is what the latest call came to. -/
theorem Tracks.latest {calls : List Call} (h : s.Tracks calls)
    (hsettled : ∀ i sub, s.submissions.lookup i = some sub → sub.pc.isSettled = true) :
  s.currentResult = s.latest calls
  := by
  have hresult := h.settled hsettled
  unfold MutationObserver.latest
  split
  · next i hi =>
    rw [hi] at hresult
    obtain ⟨sub, result, hsub, hpc, hstate⟩ := hresult
    rw [hsub, Option.bind_some, hpc]
    apply hstate
  · next hi =>
    split at hresult
    · next i hi' => exact absurd hi' (hi i)
    · apply hresult

/-- An older execution ends after a newer one, and the observer shows it; and so it shows
one that was to write the state when the observer was reset. -/
theorem not_tracks_overtaken :
  (∃ t : MutationObserver Nat × List Call, (machine.noting called).Reachable t ∧
    t.2 = [.mutate 0, .mutate 1] ∧ t.1.currentResult = .success 0 ∧ ¬ t.1.Tracks t.2) ∧
  ∃ t : MutationObserver Nat × List Call, (machine.noting called).Reachable t ∧
    t.2 = [.mutate 0, .reset] ∧ t.1.currentResult = .success 0 ∧ ¬ t.1.Tracks t.2
  := by
  have init : (machine.noting called).init ((new .initial {}, []) : MutationObserver Nat × _) :=
    ⟨⟨.initial, {}, .init rfl, rfl⟩, rfl⟩
  have fails {calls : List Call} (state : MutationState Nat) (as : List (Action Nat))
      (hne : MutationState.success 0 ≠ state)
      (hexec : ((machine.noting called).exec (new .initial {}, []) as).map
        (fun t => (t.2, t.1.currentResult, t.1.latest t.2,
          decide (∀ i sub, t.1.submissions.lookup i = some sub → sub.pc.isSettled = true))) =
        some (calls, .success 0, state, true)) :
      ∃ t : MutationObserver Nat × List Call, (machine.noting called).Reachable t ∧
        t.2 = calls ∧ t.1.currentResult = .success 0 ∧ ¬ t.1.Tracks t.2 := by
    obtain ⟨t, ht, hseen⟩ := Machine.exists_reachable_of_exec as _ _ init hexec
    simp only [Prod.mk.injEq] at hseen
    obtain ⟨hcalls, hresult, hlatest, hsettled⟩ := hseen
    use t, ht, hcalls, hresult
    intro htracks
    apply hne
    rw [← hresult, ← hlatest]
    apply htracks.latest (of_decide_eq_true hsettled)
  constructor
  · apply fails (.success 1)
      (.mutate 0 :: .mutate 1 :: execution 0 ++ execution 1 ++
        [.check 1 1, .write 1, .send 1, .check 0 0, .write 0, .send 0]) (by decide)
    decide +kernel
  · apply fails .idle (.mutate 0 :: execution 0 ++ [.check 0 0, .reset, .write 0, .send 0])
      (by decide)
    decide +kernel

end MutationObserver

end RsQuery
