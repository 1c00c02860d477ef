import RsQuery.Runs

/-!
# Activity counters

`spawn_query` and `spawn_mutation` count the task they spawn and move a guard into its
future, which counts it off when the future is dropped: at its end, when it panics, or when
it was aborted and is polled again.  Queries run as in `Executor`; a mutation runs through
`execute_mutation` here.  While the client restores, what is spawned is not counted and only
replies.

Each counter is the number of the futures that are there: `Activity.exact_of_reachable`.
-/

namespace RsQuery

variable {V : Type}

namespace QueryClient

/-- The fetching and the mutating count. -/
def counts (c : QueryClient V) : Nat × Nat :=
  (c.fetchingCount, c.mutatingCount)

variable {c c' : QueryClient V}

theorem counts_of_aside (h : c'.aside = c.aside) :
  c'.counts = c.counts
  := congrArg Prod.snd h

theorem counts_notifySubscribers (c : QueryClient V) (k : String) (v : QueryStateVariant) :
  (c.notifySubscribers k v).counts = c.counts
  := counts_of_aside (c.aside_notifySubscribers k v)

end QueryClient

open QueryClient

variable [PartialEqAny V]

/-- No call changes the counts. -/
theorem Call.counts_apply (call : Call V) (now : Instant) (c : QueryClient V) :
  (call.apply now c).counts = c.counts
  := by
  cases call with
  | setOnline online => rfl
  | _ =>
    apply counts_of_aside
    apply Call.aside_apply
    intro online h
    contradiction

/-! ### Queries -/

/-- The future of an execution that stands here is there. -/
def Pc.alive : Pc V → Bool
  | .done _ | .dropped => false
  | _ => true

namespace Run

/-- A spawned execution whose future, with the guard in it, has not been dropped. -/
def guarded (r : Run V) : Bool :=
  r.spawned && r.pc.alive

/-- What an advance to `pc` does to the counts: nothing while the guard is where it was,
and the fetching count falls by one when the guard is dropped. -/
inductive Counted (r : Run V) (c c' : QueryClient V) (pc : Pc V) : Prop where
  | kept : c'.counts = c.counts → (r.spawned && pc.alive) = r.guarded → Counted r c c' pc
  | released : r.guarded = true → pc.alive = false → c'.fetchingCount = c.fetchingCount - 1 →
    c'.mutatingCount = c.mutatingCount → Counted r c c' pc

variable {r : Run V} {i : Nat} {now : Instant} {c c' : QueryClient V} {o : Outcome V} {pc : Pc V}

/-- Dropping the future of a direct call leaves the counts alone. -/
theorem counts_dropFuture (h : r.dropFuture c = some c') :
  c'.counts = c.counts
  := by
  unfold dropFuture at h
  split at h
  all_goals first | contradiction | (obtain rfl := Option.some.inj h; rfl)

/-- A step in `wait_for_dedup` is counted. -/
theorem counts_advanceWait (r : Run V) (i : Nat) (now : Instant) (c : QueryClient V)
    (w : WaitPc V) :
  (r.advanceWait i now c w).1.counts = c.counts
  := by
  obtain ⟨subscribers, hc⟩ := r.advanceWait_client i now c w
  rw [hc]
  rfl

/-- A resumption is counted: an aborted task is dropped with its guard. -/
theorem counted_resume
    {pc : Pc V} (i : Nat) (c : QueryClient V) (h : r.guarded = r.spawned) (hpc : pc.alive = true) :
  r.Counted c (r.resume i c pc).1 (r.resume i c pc).2
  := by
  unfold resume
  split
  · next ha =>
    apply Counted.released
    · rw [h, ha.1]
    · rfl
    · rfl
    · rfl
  · apply Counted.kept rfl
    rw [hpc, Bool.and_true, h]

/-- A panic is counted: a task goes on with it, and a direct call has no guard. -/
theorem counted_panicked (h : r.guarded = r.spawned) (payload : PanicPayload) :
  r.Counted c c (r.panicked payload)
  := by
  apply Counted.kept rfl
  unfold panicked
  rw [h]
  split
  · next hs => rw [hs]; rfl
  · next hs =>
    rw [Bool.not_eq_true] at hs
    rw [hs]
    rfl

/-- A step of a fetch is counted. -/
theorem counted_advanceFetch
    {cancelled : Bool} {f : FetchPc V} (hpc : r.pc = .fetch f)
    (h : r.advanceFetch i now c cancelled f o = some (c', pc)) :
  r.Counted c c' pc
  := by
  have hguarded : r.guarded = r.spawned := by
    rw [guarded, hpc]
    apply Bool.and_true
  have hkept {c' : QueryClient V} {pc : Pc V} (hc : c'.counts = c.counts) (hpc : pc.alive = true) :
      r.Counted c c' pc := by
    apply Counted.kept hc
    rw [hpc, Bool.and_true, hguarded]
  have resumed {f' : FetchPc V} (h : r.resume i c (.fetch f') = (c', pc)) : r.Counted c c' pc := by
    have hcounted : r.Counted c (r.resume i c (.fetch f')).1 (r.resume i c (.fetch f')).2 :=
      counted_resume i c hguarded rfl
    rwa [h] at hcounted
  cases takes_of_advanceFetch h with
  | resumeFetch h | resumeWait h | resumeSleep h => apply resumed h
  | loading | stored | notifyError => exact hkept (counts_notifySubscribers _ _ _) rfl
  | panic | selectPanic | gone => exact counted_panicked hguarded _
  | _ => exact hkept rfl rfl

/-- Only a task replies. -/
def RepliesAsTask (spawned : Bool) (pc : Pc V) : Prop :=
  ∀ result, pc = .reply result → spawned = true

/-- An advance is counted. -/
theorem counted_advance (hreply : RepliesAsTask r.spawned r.pc)
    (h : r.advance i now c o = some (c', pc)) :
  r.Counted c c' pc ∧ RepliesAsTask r.spawned pc
  := by
  have hguarded (hpc : r.pc.alive = true) : r.guarded = r.spawned := by
    rw [guarded, hpc, Bool.and_true]
  have hkept {c' : QueryClient V} {pc : Pc V} (hr : r.pc.alive = true) (hc : c'.counts = c.counts)
      (hpc : pc.alive = true) : r.Counted c c' pc := by
    apply Counted.kept hc
    rw [hpc, Bool.and_true, hguarded hr]
  cases takes_of_advance h with
  | poll hr h =>
    have hcounted : r.Counted c (r.resume i c .start).1 (r.resume i c .start).2 :=
      counted_resume i c (hguarded (by rw [hr]; rfl)) rfl
    rw [h] at hcounted
    use hcounted
    rintro result rfl
    unfold resume at h
    split at h
    · have hpc := (Prod.mk.inj h).2
      contradiction
    · have hpc := (Prod.mk.inj h).2
      contradiction
  | @wait w _ _ hr h =>
    have hc := r.counts_advanceWait i now c w
    have hw := r.advanceWait_ends i now c w
    rw [h] at hc hw
    obtain ⟨w', rfl⟩ | ⟨result, rfl⟩ := hw
    · exact ⟨hkept (by rw [hr]; rfl) hc rfl, nofun⟩
    · exact ⟨hkept (by rw [hr]; rfl) hc rfl, nofun⟩
  | fetch hr h =>
    use counted_advanceFetch hr h
    rintro result rfl
    obtain ⟨f', hf⟩ | ⟨result', hf⟩ | ⟨hf, -⟩ := (advanceFetch_frame h).2
    · contradiction
    · contradiction
    · contradiction
  | deregister hr hs => exact ⟨hkept (by rw [hr]; rfl) rfl rfl, fun _ _ => hs⟩
  | finish hr hs =>
    constructor
    · apply Counted.kept rfl
      rw [guarded, hs]
      rfl
    · exact nofun
  | reply hr =>
    constructor
    · apply Counted.released
      · rw [hguarded (by rw [hr]; rfl)]
        apply hreply _ hr
      · rfl
      · rfl
      · rfl
    · exact nofun
  | restoring hr _ | task hr _ _ | direct hr _ _ | join hr _ | alone hr _ =>
    exact ⟨hkept (by rw [hr]; rfl) rfl rfl, nofun⟩

end Run

namespace Sys

variable {s s' : Sys V} {a : Action V}

/-- The fetching count is the number of futures that are there. -/
structure Counted (s : Sys V) : Prop where
  fetching : s.client.fetchingCount = Table.count Run.guarded s.runs
  numbered : ∀ i r, s.runs.lookup i = some r → i < s.nextRun
  replies : ∀ i r, s.runs.lookup i = some r → Run.RepliesAsTask r.spawned r.pc

/-- A step replaces or adds one run at most. -/
theorem runs_of_step (hs : s.step a = some s') :
  s'.runs = s.runs ∨ ∃ i r, s'.runs = s.runs.insert i r
  := by
  cases a with
  | spawn query =>
    obtain rfl := Option.some.inj hs
    obtain ⟨-, -, r, -, -, -, hruns, -⟩ := s.spawn_frame query
    exact .inr ⟨_, r, hruns⟩
  | register i =>
    obtain ⟨r, -, -, -, rfl⟩ := step_register hs
    exact .inr ⟨i, _, rfl⟩
  | execute query =>
    obtain rfl := Option.some.inj hs
    exact .inr ⟨_, _, rfl⟩
  | advance i o =>
    obtain ⟨r, c, pc, -, -, rfl⟩ := step_advance hs
    exact .inr ⟨i, _, rfl⟩
  | abort i =>
    obtain ⟨r, -, -, -, rfl⟩ := step_abort hs
    exact .inl rfl
  | detach i =>
    obtain ⟨r, -, -, rfl⟩ := step_detach hs
    exact .inr ⟨i, _, rfl⟩
  | drop i =>
    obtain ⟨r, -, -, -, rfl⟩ := step_drop hs
    split
    · exact .inl rfl
    · exact .inl rfl
  | dropFuture i =>
    obtain ⟨r, c, -, -, -, rfl⟩ := step_dropFuture hs
    exact .inr ⟨i, _, rfl⟩
  | cancelToken i =>
    obtain ⟨r, -, -, rfl⟩ := step_cancelToken hs
    exact .inl rfl
  | call call =>
    obtain rfl := Option.some.inj hs
    exact .inl rfl
  | tick n =>
    obtain rfl := Option.some.inj hs
    exact .inl rfl

/-- Replacing a run keeps the count, where the guard is where it was or is dropped and
counted off. -/
theorem Counted.setRun
    {i : Nat} {r r' : Run V} (h : s.Counted) (hr : s.runs.lookup i = some r)
    (hruns : s'.runs = s.runs.insert i r') (hnext : s'.nextRun = s.nextRun)
    (hcount : s'.client.fetchingCount + r.guarded.toNat = s.client.fetchingCount + r'.guarded.toNat)
    (hreplies : Run.RepliesAsTask r'.spawned r'.pc) :
  s'.Counted
  := by
  have hinsert := Table.count_insert Run.guarded i r' s.runs
  rw [hr, Option.elim_some, ← h.fetching] at hinsert
  constructor
  case fetching =>
    rw [hruns]
    omega
  case numbered =>
    rw [hruns, hnext]
    intro j q hj
    rw [Table.lookup_insert_eq] at hj
    split at hj
    · next heq =>
      rw [heq]
      apply h.numbered i r hr
    · apply h.numbered j q hj
  case replies =>
    rw [hruns]
    intro j q hj
    rw [Table.lookup_insert_eq] at hj
    split at hj
    · rw [← Option.some.inj hj]
      apply hreplies
    · apply h.replies j q hj

/-- So does adding one. -/
theorem Counted.newRun
    {r : Run V} (h : s.Counted) (hruns : s'.runs = s.runs.insert s.nextRun r)
    (hnext : s'.nextRun = s.nextRun + 1)
    (hcount : s'.client.fetchingCount = s.client.fetchingCount + r.guarded.toNat)
    (hreplies : Run.RepliesAsTask r.spawned r.pc) :
  s'.Counted
  := by
  have hnone : s.runs.lookup s.nextRun = none := by
    cases hr : s.runs.lookup s.nextRun with
    | none => rfl
    | some q => exact absurd (h.numbered _ q hr) (Nat.lt_irrefl _)
  have hinsert := Table.count_insert Run.guarded s.nextRun r s.runs
  rw [hnone, Option.elim_none, ← h.fetching] at hinsert
  constructor
  case fetching =>
    rw [hruns]
    omega
  case numbered =>
    rw [hruns, hnext]
    intro j q hj
    rw [Table.lookup_insert_eq] at hj
    split at hj
    · omega
    · apply Nat.lt_succ_of_lt (h.numbered j q hj)
  case replies =>
    rw [hruns]
    intro j q hj
    rw [Table.lookup_insert_eq] at hj
    split at hj
    · rw [← Option.some.inj hj]
      apply hreplies
    · apply h.replies j q hj

/-- The count depends on the runs and the counters alone. -/
theorem Counted.congr
    (h : s.Counted) (hruns : s'.runs = s.runs) (hnext : s'.nextRun = s.nextRun)
    (hcount : s'.client.fetchingCount = s.client.fetchingCount) :
  s'.Counted
  := by
  constructor
  · rw [hcount, hruns, h.fetching]
  · rw [hruns, hnext]
    apply h.numbered
  · rw [hruns]
    apply h.replies

/-- Every step keeps the fetching count, and none of the executions touches the mutating
count. -/
theorem Counted.step (h : s.Counted) (hs : s.step a = some s') :
  s'.Counted ∧ s'.client.mutatingCount = s.client.mutatingCount
  := by
  cases a with
  | spawn query =>
    obtain rfl := Option.some.inj hs
    unfold spawn
    split
    · constructor
      · apply h.newRun rfl rfl rfl
        intro result hresult
        contradiction
      · rfl
    · constructor
      · apply h.newRun rfl rfl rfl
        intro result hresult
        contradiction
      · rfl
  | register i =>
    obtain ⟨r, hr, -, -, rfl⟩ := step_register hs
    exact ⟨h.setRun hr rfl rfl rfl (h.replies i r hr), rfl⟩
  | execute query =>
    obtain rfl := Option.some.inj hs
    constructor
    · apply h.newRun rfl rfl rfl
      intro result hresult
      contradiction
    · rfl
  | advance i o =>
    obtain ⟨r, c, pc, hr, ha, rfl⟩ := step_advance hs
    obtain ⟨hcounted, hreplies⟩ := Run.counted_advance (h.replies i r hr) ha
    cases hcounted with
    | kept hc hguarded =>
      obtain ⟨hf, hm⟩ := Prod.mk.inj hc
      have hg : ({ r with pc := pc } : Run V).guarded = r.guarded := hguarded
      refine ⟨h.setRun hr rfl rfl ?_ hreplies, hm⟩
      rw [hg]
      apply congrArg (· + _) hf
    | released hguarded halive hf hm =>
      -- the run is counted, so there is something to count off
      have hpos : 0 < s.client.fetchingCount := by
        rw [h.fetching]
        apply Table.count_pos hr hguarded
      refine ⟨h.setRun hr rfl rfl ?_ hreplies, hm⟩
      rw [hguarded, Run.guarded, halive, Bool.and_false]
      change c.fetchingCount + 1 = s.client.fetchingCount + 0
      omega
  | abort i =>
    obtain ⟨r, -, -, -, rfl⟩ := step_abort hs
    exact ⟨h.congr rfl rfl rfl, rfl⟩
  | detach i =>
    obtain ⟨r, hr, -, rfl⟩ := step_detach hs
    exact ⟨h.setRun hr rfl rfl rfl (h.replies i r hr), rfl⟩
  | drop i =>
    obtain ⟨r, -, -, -, rfl⟩ := step_drop hs
    split
    · exact ⟨h, rfl⟩
    · exact ⟨h.congr rfl rfl rfl, rfl⟩
  | dropFuture i =>
    obtain ⟨r, c, hr, hspawned, hc, rfl⟩ := step_dropFuture hs
    obtain ⟨hf, hm⟩ := Prod.mk.inj (Run.counts_dropFuture hc)
    refine ⟨h.setRun hr rfl rfl ?_ ?_, hm⟩
    · rw [Run.guarded, Run.guarded, hspawned]
      apply congrArg (· + _) hf
    · intro result hresult
      contradiction
  | cancelToken i =>
    obtain ⟨r, -, -, rfl⟩ := step_cancelToken hs
    exact ⟨h.congr rfl rfl rfl, rfl⟩
  | call call =>
    obtain rfl := Option.some.inj hs
    obtain ⟨hf, hm⟩ := Prod.mk.inj (call.counts_apply s.now s.client)
    exact ⟨h.congr rfl rfl hf, hm⟩
  | tick n =>
    obtain rfl := Option.some.inj hs
    exact ⟨h.congr rfl rfl rfl, rfl⟩

end Sys

/-! ### Mutations -/

/-- What `execute_mutation` reads of a mutation, without its functions. -/
structure MutationHooks where
  hasOnMutate : Bool := false
  invalidatesKeys : List QueryKey := []
  hasOnSuccess : Bool := false
  hasOnError : Bool := false

/-- Where the task of `spawn_mutation` stands; `rollback` says whether there is one. -/
inductive MutationPc (T : Type) where
  /-- Not polled yet. -/
  | queued
  | onMutate
  /-- Polls the mutate function. -/
  | mutateFn (rollback : Bool)
  /-- Suspended in the mutate function. -/
  | mutatePending (rollback : Bool)
  /-- Invalidates these keys. -/
  | invalidate (keys : List QueryKey) (data : T)
  | onSuccess (data : T)
  | rollback (error : QueryError)
  | onError (error : QueryError)
  /-- Sends its state; its future ends with that. -/
  | reply (state : MutationState T)
  | done (state : MutationState T)
  /-- The future was dropped. -/
  | dropped

/-- What a step of a mutation depends on besides the client: what user code returns. -/
inductive MutationOutcome (T : Type) where
  | next
  /-- `on_mutate` returns a rollback or an error. -/
  | mutated (result : Except QueryError Unit)
  | pending
  | ready (result : Except QueryError T)
  | panic

/-- A task of `spawn_mutation`. -/
structure MutationTask (T : Type) where
  hooks : MutationHooks
  pc : MutationPc T
  /-- It was aborted. -/
  aborted : Bool := false
  /-- Its handle was detached. -/
  detached : Bool := false

namespace MutationTask

variable {T : Type}

/-- The task at another place. -/
def goto (t : MutationTask T) (pc : MutationPc T) : MutationTask T :=
  { t with pc := pc }

/-- Its future is dropped, and the guard with it. -/
def drop (t : MutationTask T) (c : QueryClient V) : QueryClient V × MutationTask T :=
  (c.decMutating, t.goto .dropped)

/-- Polls the future again, where an aborted task is dropped instead. -/
def resume (t : MutationTask T) (c : QueryClient V) (pc : MutationPc T) :
    QueryClient V × MutationTask T :=
  if t.aborted then t.drop c else (c, t.goto pc)

/-- One step of a task, through `execute_mutation`. -/
def advance (t : MutationTask T) (c : QueryClient V) :
    MutationOutcome T → Option (QueryClient V × MutationTask T)
  | .next =>
    match t.pc with
    | .queued => some (t.resume c .onMutate)
    | .onMutate => if t.hooks.hasOnMutate then none else some (c, t.goto (.mutateFn false))
    | .mutatePending rollback => some (t.resume c (.mutateFn rollback))
    | .invalidate (key :: keys) data =>
      some (c.invalidateQueries key, t.goto (.invalidate keys data))
    | .invalidate [] data =>
      some (c, t.goto (if t.hooks.hasOnSuccess then .onSuccess data else .reply (.success data)))
    | .onSuccess data => some (c, t.goto (.reply (.success data)))
    | .rollback error =>
      some (c, t.goto (if t.hooks.hasOnError then .onError error else .reply (.error error)))
    | .onError error => some (c, t.goto (.reply (.error error)))
    | .reply state => some (c.decMutating, t.goto (.done state))
    | _ => none
  | .mutated result =>
    match t.pc, result with
    | .onMutate, .ok _ =>
      if t.hooks.hasOnMutate then some (c, t.goto (.mutateFn true)) else none
    | .onMutate, .error error =>
      if t.hooks.hasOnMutate then some (c, t.goto (.reply (.error error))) else none
    | _, _ => none
  | .pending =>
    match t.pc with
    | .mutateFn rollback => some (c, t.goto (.mutatePending rollback))
    | _ => none
  | .ready (.ok data) =>
    match t.pc with
    | .mutateFn _ => some (c, t.goto (.invalidate t.hooks.invalidatesKeys data))
    | _ => none
  | .ready (.error error) =>
    match t.pc with
    | .mutateFn true => some (c, t.goto (.rollback error))
    | .mutateFn false =>
      some (c, t.goto (if t.hooks.hasOnError then .onError error else .reply (.error error)))
    | _ => none
  | .panic =>
    match t.pc with
    | .onMutate => if t.hooks.hasOnMutate then some (t.drop c) else none
    | .mutateFn _ | .onSuccess _ | .rollback _ | .onError _ => some (t.drop c)
    | _ => none

/-- A task whose future, with the guard in it, has not been dropped. -/
def guarded (t : MutationTask T) : Bool :=
  match t.pc with
  | .done _ | .dropped => false
  | _ => true

/-- What an advance to `t'` does to the counts: nothing while the guard is where it was, and
the mutating count falls by one when the guard is dropped. -/
inductive Counted (t : MutationTask T) (c c' : QueryClient V) (t' : MutationTask T) : Prop where
  | kept : c'.counts = c.counts → t'.guarded = t.guarded → Counted t c c' t'
  | released : t.guarded = true → t'.guarded = false → c'.fetchingCount = c.fetchingCount →
    c'.mutatingCount = c.mutatingCount - 1 → Counted t c c' t'

variable {t t' : MutationTask T} {c c' : QueryClient V} {o : MutationOutcome T}

omit [PartialEqAny V] in
theorem counted_drop (c : QueryClient V) (h : t.guarded = true) :
  t.Counted c (t.drop c).1 (t.drop c).2
  := .released h rfl rfl rfl

omit [PartialEqAny V] in
theorem counted_resume {pc : MutationPc T} (c : QueryClient V) (h : t.guarded = true)
    (hpc : (t.goto pc).guarded = true) :
  t.Counted c (t.resume c pc).1 (t.resume c pc).2
  := by
  unfold resume
  split
  · apply counted_drop c h
  · apply Counted.kept rfl
    rw [hpc, h]

omit [PartialEqAny V] in
/-- A task that advances is there. -/
theorem guarded_of_advance (h : t.advance c o = some (c', t')) :
  t.guarded = true
  := by
  unfold guarded
  split
  · next state hpc =>
    unfold advance at h
    split at h
    all_goals simp [hpc] at h
  · next hpc =>
    unfold advance at h
    split at h
    all_goals simp [hpc] at h
  · rfl

omit [PartialEqAny V] in
/-- An advance is counted. -/
theorem counted_advance (h : t.advance c o = some (c', t')) :
  t.Counted c c' t'
  := by
  have hguarded := guarded_of_advance h
  unfold advance at h
  split at h
  all_goals repeat' split at h
  all_goals try contradiction
  all_goals
    have hc : _ = c' := congrArg Prod.fst (Option.some.inj h)
    have ht : _ = t' := congrArg Prod.snd (Option.some.inj h)
    rw [← hc, ← ht]
    first
    | exact .kept rfl hguarded.symm
    | exact .kept (QueryClient.counts_of_aside (QueryClient.aside_invalidateQueries _ _))
        hguarded.symm
    | exact counted_resume c hguarded rfl
    | exact counted_drop c hguarded
    | exact .released hguarded rfl rfl rfl

end MutationTask

/-! ### The system -/

/-- A client with its executions of queries and the mutations spawned on it. -/
structure Activity (V T : Type) [PartialEqAny V] where
  sys : Sys V
  tasks : Table Nat (MutationTask T)

namespace Activity

variable {T : Type}

/-- A step of the system. -/
inductive Action (V T : Type) [PartialEqAny V] where
  | sys (a : RsQuery.Action V)
  /-- `spawn_mutation`; the task is given this number. -/
  | spawnMutation (j : Nat) (hooks : MutationHooks)
  | advance (j : Nat) (o : MutationOutcome T)
  /-- `SpawnedTask::abort`. -/
  | abort (j : Nat)
  /-- `SpawnedTask::detach`, and what a poll of the handle does first. -/
  | detach (j : Nat)
  /-- The handle is dropped. -/
  | dropHandle (j : Nat)

/-- The system with one task replaced. -/
def setTask (s : Activity V T) (j : Nat) (t : MutationTask T) : Activity V T :=
  { s with tasks := s.tasks.insert j t }

/-- The state after an action, if it is enabled. -/
def step (s : Activity V T) : Action V T → Option (Activity V T)
  | .sys a => do
    let sys ← s.sys.step a
    some { s with sys := sys }
  | .spawnMutation j hooks =>
    if s.tasks.lookup j = none then
      if s.sys.client.isRestoring then some (s.setTask j { hooks := hooks, pc := .done .idle })
      else
        some { s.setTask j { hooks := hooks, pc := .queued } with
          sys.client := s.sys.client.incMutating }
    else none
  | .advance j o => do
    let t ← s.tasks.lookup j
    let (c, t) ← t.advance s.sys.client o
    some { s.setTask j t with sys.client := c }
  | .abort j => do
    let t ← s.tasks.lookup j
    some (s.setTask j { t with aborted := true })
  | .detach j => do
    let t ← s.tasks.lookup j
    some (s.setTask j { t with detached := true })
  | .dropHandle j => do
    let t ← s.tasks.lookup j
    some (if t.detached then s else s.setTask j { t with aborted := true })

/-- A new client with no task, and every step. -/
def machine : Machine (Activity V T) (Action V T) :=
  ⟨fun s => s = ⟨.initial, ∅⟩, step⟩

variable {s s' : Activity V T} {a : Action V T}

theorem step_sys {a : RsQuery.Action V} (h : s.step (.sys a) = some s') :
  ∃ sys, s.sys.step a = some sys ∧ s' = { s with sys := sys }
  := by
  obtain ⟨sys, hsys, h⟩ := Option.bind_eq_some_iff.mp h
  exact ⟨sys, hsys, (Option.some.inj h).symm⟩

/-- A mutation is spawned under a number of its own, counted or not. -/
theorem step_spawnMutation {j : Nat} {hooks : MutationHooks}
    (h : s.step (.spawnMutation j hooks) = some s') :
  s.tasks.lookup j = none ∧ ∃ t : MutationTask T,
    (t.guarded = false ∧ s' = s.setTask j t) ∨
    (t.guarded = true ∧ s' = { s.setTask j t with sys.client := s.sys.client.incMutating })
  := by
  simp only [step] at h
  split at h
  · next hj =>
    use hj
    split at h
    · exact ⟨_, .inl ⟨rfl, (Option.some.inj h).symm⟩⟩
    · exact ⟨_, .inr ⟨rfl, (Option.some.inj h).symm⟩⟩
  · contradiction

theorem step_advance {j : Nat} {o : MutationOutcome T} (h : s.step (.advance j o) = some s') :
  ∃ t t' c, s.tasks.lookup j = some t ∧ t.advance s.sys.client o = some (c, t') ∧
    s' = { s.setTask j t' with sys.client := c }
  := by
  obtain ⟨t, ht, h⟩ := Option.bind_eq_some_iff.mp h
  obtain ⟨⟨c, t'⟩, ha, h⟩ := Option.bind_eq_some_iff.mp h
  exact ⟨t, t', c, ht, ha, (Option.some.inj h).symm⟩

/-- What is done with a handle leaves the future where it is. -/
theorem step_handle {j : Nat} (ha : a = .abort j ∨ a = .detach j ∨ a = .dropHandle j)
    (h : s.step a = some s') :
  ∃ t t', s.tasks.lookup j = some t ∧ t'.guarded = t.guarded ∧ (s' = s ∨ s' = s.setTask j t')
  := by
  obtain rfl | rfl | rfl := ha
  · obtain ⟨t, ht, h⟩ := Option.bind_eq_some_iff.mp h
    exact ⟨t, { t with aborted := true }, ht, rfl, .inr (Option.some.inj h).symm⟩
  · obtain ⟨t, ht, h⟩ := Option.bind_eq_some_iff.mp h
    exact ⟨t, { t with detached := true }, ht, rfl, .inr (Option.some.inj h).symm⟩
  · obtain ⟨t, ht, h⟩ := Option.bind_eq_some_iff.mp h
    use t, { t with aborted := true }, ht, rfl
    rw [← Option.some.inj h]
    split
    · exact .inl rfl
    · exact .inr rfl

/-- A step replaces or adds one task at most. -/
theorem tasks_of_step (hs : s.step a = some s') :
  s'.tasks = s.tasks ∨ ∃ j t, s'.tasks = s.tasks.insert j t
  := by
  have hhandle {j : Nat} (ha : a = .abort j ∨ a = .detach j ∨ a = .dropHandle j) :
      s'.tasks = s.tasks ∨ ∃ j t, s'.tasks = s.tasks.insert j t := by
    obtain ⟨t, t', -, -, rfl | rfl⟩ := step_handle ha hs
    · exact .inl rfl
    · exact .inr ⟨j, t', rfl⟩
  cases a with
  | sys a =>
    obtain ⟨sys, -, rfl⟩ := step_sys hs
    exact .inl rfl
  | spawnMutation j hooks =>
    obtain ⟨-, t, ⟨-, rfl⟩ | ⟨-, rfl⟩⟩ := step_spawnMutation hs
    · exact .inr ⟨j, t, rfl⟩
    · exact .inr ⟨j, t, rfl⟩
  | advance j o =>
    obtain ⟨t, t', c, -, -, rfl⟩ := step_advance hs
    exact .inr ⟨j, t', rfl⟩
  | abort j => apply hhandle (.inl rfl)
  | detach j => apply hhandle (.inr (.inl rfl))
  | dropHandle j => apply hhandle (.inr (.inr rfl))

/-- And one run at most. -/
theorem runs_of_step (hs : s.step a = some s') :
  s'.sys.runs = s.sys.runs ∨ ∃ i r, s'.sys.runs = s.sys.runs.insert i r
  := by
  have hhandle {j : Nat} (ha : a = .abort j ∨ a = .detach j ∨ a = .dropHandle j) :
      s'.sys.runs = s.sys.runs := by
    obtain ⟨t, t', -, -, rfl | rfl⟩ := step_handle ha hs
    · rfl
    · rfl
  cases a with
  | sys a =>
    obtain ⟨sys, hsys, rfl⟩ := step_sys hs
    apply Sys.runs_of_step hsys
  | spawnMutation j hooks =>
    obtain ⟨-, t, ⟨-, rfl⟩ | ⟨-, rfl⟩⟩ := step_spawnMutation hs
    · exact .inl rfl
    · exact .inl rfl
  | advance j o =>
    obtain ⟨t, t', c, -, -, rfl⟩ := step_advance hs
    exact .inl rfl
  | abort j => exact .inl (hhandle (.inl rfl))
  | detach j => exact .inl (hhandle (.inr (.inl rfl)))
  | dropHandle j => exact .inl (hhandle (.inr (.inr rfl)))

/-- Both counts are what there is to count. -/
structure Counted (s : Activity V T) : Prop where
  sys : s.sys.Counted
  mutating : s.sys.client.mutatingCount = Table.count MutationTask.guarded s.tasks

/-- A step of a mutation keeps the counts, where the guard is where it was, or is taken or
dropped and counted. -/
theorem Counted.setTask
    {j : Nat} {t : MutationTask T} {c : QueryClient V} (h : s.Counted)
    (hf : c.fetchingCount = s.sys.client.fetchingCount)
    (hm : c.mutatingCount + ((s.tasks.lookup j).elim 0 fun t => t.guarded.toNat) =
      s.sys.client.mutatingCount + t.guarded.toNat) :
  Counted { s.setTask j t with sys.client := c }
  := by
  have hinsert := Table.count_insert MutationTask.guarded j t s.tasks
  rw [← h.mutating] at hinsert
  constructor
  · have hsys : Sys.Counted { s.sys with client := c } := h.sys.congr rfl rfl hf
    apply hsys
  · change c.mutatingCount = Table.count MutationTask.guarded (s.tasks.insert j t)
    omega

/-- Every step keeps the counts. -/
theorem Counted.step (h : s.Counted) (hs : s.step a = some s') :
  s'.Counted
  := by
  have hhandle {j : Nat} (ha : a = .abort j ∨ a = .detach j ∨ a = .dropHandle j) :
      s'.Counted := by
    obtain ⟨t, t', ht, hguarded, rfl | rfl⟩ := step_handle ha hs
    · apply h
    · apply h.setTask (c := s.sys.client) rfl
      rw [ht, Option.elim_some, hguarded]
  cases a with
  | sys a =>
    obtain ⟨sys, hsys, rfl⟩ := step_sys hs
    obtain ⟨hsys, hm⟩ := h.sys.step hsys
    constructor
    · apply hsys
    · apply hm.trans h.mutating
  | spawnMutation j hooks =>
    obtain ⟨hj, t, ⟨ht, rfl⟩ | ⟨ht, rfl⟩⟩ := step_spawnMutation hs
    · apply h.setTask (c := s.sys.client) rfl
      rw [hj, Option.elim_none, ht]
      rfl
    · apply h.setTask (c := s.sys.client.incMutating) rfl
      rw [hj, Option.elim_none, ht]
      rfl
  | advance j o =>
    obtain ⟨t, t', c, ht, ha, rfl⟩ := step_advance hs
    cases MutationTask.counted_advance ha with
    | kept hc hguarded =>
      obtain ⟨hf, hm⟩ := Prod.mk.inj hc
      apply h.setTask hf
      rw [ht, Option.elim_some, hguarded, hm]
    | released hguarded hguarded' hf hm =>
      -- the task is counted, so there is something to count off
      have hpos : 0 < s.sys.client.mutatingCount := by
        rw [h.mutating]
        apply Table.count_pos ht hguarded
      apply h.setTask hf
      rw [ht, Option.elim_some, hguarded, hguarded']
      change c.mutatingCount + 1 = s.sys.client.mutatingCount + 0
      omega
  | abort j => apply hhandle (.inl rfl)
  | detach j => apply hhandle (.inr (.inl rfl))
  | dropHandle j => apply hhandle (.inr (.inr rfl))

theorem counted_of_reachable (h : machine.Reachable s) :
  s.Counted
  := by
  apply h.invariant
  · rintro s rfl
    constructor
    · constructor
      · rfl
      · intro i r hr
        contradiction
      · intro i r hr
        contradiction
    · rfl
  · exact fun s a s' _ hs _ h => hs.step h

/-- The counters are exact: each is the number of the spawned futures that are there, a step
that drops one counts it off, so that there was something to count off, and with none left
they are zero. -/
structure Exact (s : Activity V T) : Prop where
  fetching : s.sys.client.fetchingCount = Table.count Run.guarded s.sys.runs
  mutating : s.sys.client.mutatingCount = Table.count MutationTask.guarded s.tasks
  fetchingReleased : ∀ a s' i r r', s.step a = some s' →
    s.sys.runs.lookup i = some r → r.guarded = true →
    s'.sys.runs.lookup i = some r' → r'.guarded = false →
    s'.sys.client.fetchingCount + 1 = s.sys.client.fetchingCount
  mutatingReleased : ∀ a s' j t t', s.step a = some s' →
    s.tasks.lookup j = some t → t.guarded = true →
    s'.tasks.lookup j = some t' → t'.guarded = false →
    s'.sys.client.mutatingCount + 1 = s.sys.client.mutatingCount
  fetchingQuiet : (∀ i r, s.sys.runs.lookup i = some r → r.guarded = false) →
    s.sys.client.fetchingCount = 0
  mutatingQuiet : (∀ j t, s.tasks.lookup j = some t → t.guarded = false) →
    s.sys.client.mutatingCount = 0

/-- The counters are exact in every reachable state. -/
theorem exact_of_reachable (h : machine.Reachable s) :
  s.Exact
  := by
  have hcounted := counted_of_reachable h
  constructor
  case fetching => apply hcounted.sys.fetching
  case mutating => apply hcounted.mutating
  case fetchingReleased =>
    intro a s' i r r' hs hr hguarded hr' hguarded'
    rw [(hcounted.step hs).sys.fetching, hcounted.sys.fetching]
    obtain hruns | ⟨j, q, hruns⟩ := runs_of_step hs
    · rw [hruns, hr] at hr'
      obtain rfl := Option.some.inj hr'
      rw [hguarded] at hguarded'
      contradiction
    · rw [hruns] at hr' ⊢
      apply Table.count_of_insert hr hguarded hr' hguarded'
  case mutatingReleased =>
    intro a s' j t t' hs ht hguarded ht' hguarded'
    rw [(hcounted.step hs).mutating, hcounted.mutating]
    obtain htasks | ⟨k, q, htasks⟩ := tasks_of_step hs
    · rw [htasks, ht] at ht'
      obtain rfl := Option.some.inj ht'
      rw [hguarded] at hguarded'
      contradiction
    · rw [htasks] at ht' ⊢
      apply Table.count_of_insert ht hguarded ht' hguarded'
  case fetchingQuiet =>
    intro hquiet
    rw [hcounted.sys.fetching]
    apply Table.count_eq_zero
    intro i r hr hguarded
    rw [hquiet i r hr] at hguarded
    contradiction
  case mutatingQuiet =>
    intro hquiet
    rw [hcounted.mutating]
    apply Table.count_eq_zero
    intro j t ht hguarded
    rw [hquiet j t ht] at hguarded
    contradiction

/-- Of two queries one is aborted before its first poll, and so is a mutation: that poll
counts them off. -/
theorem exact_of_reachable_aborted :
  ∃ s : Activity (String ⊕ Nat) Nat, machine.Reachable s ∧
    s.sys.client.counts = (1, 0) ∧ s.Exact
  := by
  have init : machine.init (⟨.initial, ∅⟩ : Activity (String ⊕ Nat) Nat) := rfl
  obtain ⟨s, hs, hcounts⟩ := Machine.exists_reachable_of_exec
    [.sys (.spawn Sys.queryK), .sys (.register 0), .sys (.spawn Sys.queryK), .sys (.register 1),
      .spawnMutation 0 {}, .sys (.abort 0), .abort 0, .sys (.advance 0 .next), .advance 0 .next]
    (fun s : Activity (String ⊕ Nat) Nat => s.sys.client.counts) (1, 0) init
    (by decide +kernel)
  exact ⟨s, hs, hcounts, exact_of_reachable hs⟩

end Activity

end RsQuery
