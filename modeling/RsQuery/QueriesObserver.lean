import RsQuery.Observing
import RsQuery.Runs

/-!
# Several queries observed at once

A `QueriesObserver` executes its specs, and every execution deposits its state at the index
of its spec in a buffer, which `sync` folds into the results.  `set_specs` matches new specs
with old ones by cache key and goes on with a new buffer.  A call on the observer is one
step; the executions advance, end and deposit between the calls in any order.

Slots are never cleared, they do not say whose state they hold, and an execution keeps the
buffer it was started with.  What `sync` reports are the latest outcomes where an execution
deposits before a newer one of its spec has, the latest ones into the buffer in use, and
`sync` is called while no older state waits in the slot of a spec that is executed:
`QueriesObserver.synced_of_run`.
-/

namespace RsQuery

variable {V : Type} [PartialEqAny V]

/-- A task of `run_indices`: its query, the buffer it was started with and its index in it,
and the state it has deposited. -/
structure SlotTask (V : Type) [PartialEqAny V] where
  query : Query V
  buffer : Nat
  idx : Nat
  outcome : Option (QueryState V) := none

/-- An observer, and the client with its executions. -/
structure QueriesObserver (V : Type) [PartialEqAny V] where
  specs : List (SeededQuery V)
  results : List (QueryState V)
  /-- The slots of the buffer in use. -/
  completed : List (Option (QueryState V))
  /-- The number of the buffer in use. -/
  buffer : Nat
  sys : Sys V
  /-- The tasks, by their executions. -/
  tasks : Table Nat (SlotTask V)
  /-- The most recently started execution of each spec. -/
  latest : Table String Nat

namespace QueriesObserver

/-- The initial results of specs. -/
def initialResults (c : QueryClient V) (now : Instant) :
    List (SeededQuery V) → QueryClient V × List (QueryState V)
  | [] => (c, [])
  | spec :: specs =>
    let (c, result) := initialResult c now spec
    let (c, results) := initialResults c now specs
    (c, result :: results)

/-- A new observer. -/
def new (sys : Sys V) (specs : List (SeededQuery V)) : QueriesObserver V where
  specs := specs
  results := (initialResults sys.client sys.now specs).2
  completed := specs.map fun _ => none
  buffer := 0
  sys := { sys with client := (initialResults sys.client sys.now specs).1 }
  tasks := ∅
  latest := ∅

/-- Marks one spec and spawns its execution, unless it is disabled. -/
def runIndex (s : QueriesObserver V) (idx : Nat) : QueriesObserver V :=
  match s.specs[idx]? with
  | none => s
  | some spec =>
    if spec.options.isEnabled then
      { s with
        results := s.results.modify idx QueryState.marked
        sys := s.sys.newRun ⟨spec.toQuery, false, true, false, .start⟩
        tasks := s.tasks.insert s.sys.nextRun { query := spec.toQuery, buffer := s.buffer, idx := idx }
        latest := s.latest.insert spec.key.cacheKey s.sys.nextRun }
    else s

def runIndices (s : QueriesObserver V) (indices : List Nat) : QueriesObserver V :=
  indices.foldl runIndex s

/-- What `set_specs` makes of one spec. -/
structure Reconciled (V : Type) where
  result : QueryState V
  slot : Option (QueryState V)
  /-- There was no spec of its cache key. -/
  isNew : Bool

/-- The loop of `set_specs`: a spec takes the result of the first old one of its cache key
and copies its slot. -/
def reconcile (previous : List (SeededQuery V)) (slots : List (Option (QueryState V)))
    (now : Instant) :
    List (SeededQuery V) → List (Option (QueryState V)) → QueryClient V →
      QueryClient V × List (Reconciled V)
  | [], _, c => (c, [])
  | spec :: specs, oldResults, c =>
    match (previous.findIdx? fun q => q.key.cacheKey = spec.key.cacheKey).filter
        (· < oldResults.length) with
    | some oldIdx =>
      let (c, rest) := reconcile previous slots now specs (oldResults.set oldIdx none) c
      (c, ⟨oldResults[oldIdx]?.join.getD .idle, slots[oldIdx]?.join, false⟩ :: rest)
    | none =>
      let (c, result) := initialResult c now spec
      let (c, rest) := reconcile previous slots now specs oldResults c
      (c, ⟨result, none, true⟩ :: rest)

/-- The indices of what is new. -/
def newIndices (reconciled : List (Reconciled V)) : List Nat :=
  (List.range reconciled.length).filter fun idx => (reconciled[idx]?).any (·.isNew)

/-- The part of `set_specs` before the new specs are executed. -/
def replaceSpecs (s : QueriesObserver V) (specs : List (SeededQuery V)) :
    QueriesObserver V × List Nat :=
  let (c, reconciled) :=
    reconcile s.specs s.completed s.sys.now specs (s.results.map some) s.sys.client
  ({ s with
      specs := specs
      results := reconciled.map (·.result)
      completed := reconciled.map (·.slot)
      buffer := s.buffer + 1
      sys.client := c
      latest := Table.retain (fun k _ => k ∈ specs.map (·.key.cacheKey)) s.latest },
    newIndices reconciled)

def setSpecs (s : QueriesObserver V) (specs : List (SeededQuery V)) : QueriesObserver V :=
  let (s, indices) := s.replaceSpecs specs
  s.runIndices indices

def runAll (s : QueriesObserver V) : QueriesObserver V :=
  s.runIndices (List.range s.specs.length)

def refresh (s : QueriesObserver V) (idx : Nat) : QueriesObserver V :=
  if idx ≥ s.specs.length then s else s.runIndices [idx]

/-- Folds the slots into the results. -/
def sync (s : QueriesObserver V) : QueriesObserver V :=
  { s with results := s.results.mapIdx fun idx result => s.completed[idx]?.join.getD result }

/-- A step of the system. -/
inductive Action (V : Type) [PartialEqAny V] where
  /-- An execution advances, or something else happens to the client. -/
  | sys (a : RsQuery.Action V)
  /-- An execution that has ended deposits its state. -/
  | deposit (i : Nat)
  | setSpecs (specs : List (SeededQuery V))
  | runAll
  | refresh (idx : Nat)
  | sync

/-- The state after an action, if it is enabled. -/
def step (s : QueriesObserver V) : Action V → Option (QueriesObserver V)
  | .sys a => do
    let sys ← s.sys.step a
    some { s with sys := sys }
  | .deposit i => do
    let task ← s.tasks.lookup i
    let r ← s.sys.runs.lookup i
    match task.outcome, r.pc with
    | none, .done state =>
      some { s with
        -- the slots of an older buffer are read by nobody
        completed :=
          if task.buffer = s.buffer then s.completed.set task.idx (some state) else s.completed
        tasks := s.tasks.insert i { task with outcome := some state } }
    | _, _ => none
  | .setSpecs specs => some (s.setSpecs specs)
  | .runAll => some s.runAll
  | .refresh idx => some (s.refresh idx)
  | .sync => some s.sync

/-- A new observer on a client in use, with specs of different cache keys, and every
step. -/
def machine : Machine (QueriesObserver V) (Action V) where
  init s := ∃ sys specs, Sys.machine.Reachable sys ∧
    (specs.map fun spec : SeededQuery V => spec.key.cacheKey).Nodup ∧ s = new sys specs
  step := step

variable {s s' : QueriesObserver V} {a : Action V}

/-- The task of the most recently started execution of the spec at an index. -/
def latestTask (s : QueriesObserver V) (idx : Nat) : Option (SlotTask V) := do
  let spec ← s.specs[idx]?
  let i ← s.latest.lookup spec.key.cacheKey
  s.tasks.lookup i

/-- What `sync` reports: the outcome of the most recently started execution of a spec where
that has one, and what was there where it is still running. -/
structure Synced (s s' : QueriesObserver V) : Prop where
  completed : ∀ idx task state, s.latestTask idx = some task → task.outcome = some state →
    s'.results[idx]? = some state
  running : ∀ idx task, s.latestTask idx = some task → task.outcome = none →
    s'.results[idx]? = s.results[idx]?

/-- New specs have different cache keys. -/
def Distinct (_ : QueriesObserver V) : Action V → Prop
  | .setSpecs specs => (specs.map (·.key.cacheKey)).Nodup
  | _ => True

/-- Executions of a spec deposit in their order, the latest one into the buffer in use, and
`sync` is called while the slots of the specs that are executed are empty. -/
def Orderly (s : QueriesObserver V) : Action V → Prop
  | .setSpecs specs => (specs.map (·.key.cacheKey)).Nodup
  | .deposit i =>
    ∀ task ∈ s.tasks.lookup i, ∀ j ∈ s.latest.lookup task.query.key.cacheKey,
      if j = i then task.buffer = s.buffer
      else task.buffer = s.buffer → ((s.tasks.lookup j).bind (·.outcome)).isNone = true
  | .sync =>
    ∀ idx < s.specs.length, ∀ task ∈ s.latestTask idx, task.outcome.isNone = true →
      s.completed[idx]?.join.isNone = true
  | _ => True

/-- An execution is the most recently started one of the spec at an index. -/
structure Latest (s : QueriesObserver V) (idx i : Nat) (task : SlotTask V) : Prop where
  spec : ∃ spec, s.specs[idx]? = some spec ∧ s.latest.lookup spec.key.cacheKey = some i
  task : s.tasks.lookup i = some task

theorem exists_latest {idx : Nat} {task : SlotTask V} (h : s.latestTask idx = some task) :
  ∃ i, s.Latest idx i task
  := by
  obtain ⟨spec, hspec, h⟩ := Option.bind_eq_some_iff.mp h
  obtain ⟨i, hi, htask⟩ := Option.bind_eq_some_iff.mp h
  exact ⟨i, ⟨spec, hspec, hi⟩, htask⟩

/-- What holds along an orderly run. -/
structure Held (s : QueriesObserver V) : Prop where
  results : s.results.length = s.specs.length
  completed : s.completed.length = s.specs.length
  distinct : (s.specs.map (·.key.cacheKey)).Nodup
  numbered : ∀ i task, s.tasks.lookup i = some task →
    i < s.sys.nextRun ∧ task.buffer ≤ s.buffer
  /-- The slot of a task is that of its spec. -/
  placed : ∀ i task, s.tasks.lookup i = some task → task.buffer = s.buffer →
    ∃ spec, s.specs[task.idx]? = some spec ∧ spec.key.cacheKey = task.query.key.cacheKey
  started : ∀ k i, s.latest.lookup k = some i →
    k ∈ s.specs.map (·.key.cacheKey) ∧
      ∃ task, s.tasks.lookup i = some task ∧ task.query.key.cacheKey = k
  /-- The outcome of the latest execution is in its slot. -/
  shown : ∀ idx i task state, s.Latest idx i task → task.outcome = some state →
    s.completed[idx]? = some (some state)

/-- Specs of one cache key are at one index. -/
theorem Held.idx_eq {idx idx' : Nat} {spec spec' : SeededQuery V} (h : s.Held)
    (hspec : s.specs[idx]? = some spec) (hspec' : s.specs[idx']? = some spec')
    (hkey : spec.key.cacheKey = spec'.key.cacheKey) :
  idx = idx'
  := by
  obtain ⟨hlt, -⟩ := List.getElem?_eq_some_iff.mp hspec
  have hlt' : idx < (s.specs.map (·.key.cacheKey)).length := by
    rw [List.length_map]
    apply hlt
  apply (List.getElem?_inj hlt' h.distinct).mp
  rw [List.getElem?_map, List.getElem?_map, hspec, hspec', Option.map_some, Option.map_some, hkey]

theorem Held.completed_lt {idx : Nat} {spec : SeededQuery V} (h : s.Held)
    (hspec : s.specs[idx]? = some spec) :
  idx < s.completed.length
  := by
  obtain ⟨hlt, -⟩ := List.getElem?_eq_some_iff.mp hspec
  rw [h.completed]
  apply hlt

/-! ### Deposits -/

theorem step_deposit {i : Nat} (hs : s.step (.deposit i) = some s') :
  ∃ task state, s.tasks.lookup i = some task ∧ task.outcome = none ∧
    s' = { s with
      completed :=
        if task.buffer = s.buffer then s.completed.set task.idx (some state) else s.completed
      tasks := s.tasks.insert i { task with outcome := some state } }
  := by
  obtain ⟨task, htask, hs⟩ := Option.bind_eq_some_iff.mp hs
  obtain ⟨r, hr, hs⟩ := Option.bind_eq_some_iff.mp hs
  split at hs
  · next state hnone hpc => exact ⟨task, state, htask, hnone, (Option.some.inj hs).symm⟩
  · contradiction

/-- A deposit in order leaves in every slot the outcome of the latest execution. -/
theorem Held.deposit {i : Nat} (h : s.Held) (hok : s.Orderly (.deposit i))
    (hs : s.step (.deposit i) = some s') :
  s'.Held
  := by
  obtain ⟨task, state, htask, hnone, rfl⟩ := step_deposit hs
  have hok := hok task htask
  constructor
  case results => apply h.results
  case completed =>
    dsimp only
    split
    · rw [List.length_set, h.completed]
    · rw [h.completed]
  case distinct => apply h.distinct
  case numbered =>
    intro j t hj
    obtain ⟨hji, rfl⟩ | ⟨-, hj⟩ := Table.lookup_insert_cases hj
    · rw [hji]
      apply h.numbered i task htask
    · apply h.numbered j t hj
  case placed =>
    intro j t hj hbuffer
    obtain ⟨-, rfl⟩ | ⟨-, hj⟩ := Table.lookup_insert_cases hj
    · apply h.placed i task htask hbuffer
    · apply h.placed j t hj hbuffer
  case started =>
    intro k j hj
    obtain ⟨hk, t, ht, hkey⟩ := h.started k j hj
    use hk
    rw [Table.lookup_insert_eq]
    split
    · next hji =>
      rw [hji, htask] at ht
      obtain rfl := Option.some.inj ht
      exact ⟨_, rfl, hkey⟩
    · exact ⟨t, ht, hkey⟩
  case shown =>
    rintro idx j t o ⟨⟨spec, hspec, hlatest⟩, ht⟩ ho
    rw [Table.lookup_insert_eq] at ht
    dsimp only
    split at ht
    · next hji =>
      -- the latest execution of its spec, which deposits into its slot
      obtain rfl := Option.some.inj ht
      obtain rfl := Option.some.inj ho
      rw [hji] at hlatest
      obtain ⟨-, t, ht, hkey⟩ := h.started _ i hlatest
      rw [htask] at ht
      obtain rfl := Option.some.inj ht
      rw [← hkey] at hlatest
      have hbuffer := hok i hlatest
      rw [if_pos rfl] at hbuffer
      obtain ⟨spec', hspec', hkey'⟩ := h.placed i task htask hbuffer
      obtain rfl := h.idx_eq hspec hspec' (hkey.symm.trans hkey'.symm)
      rw [if_pos hbuffer, List.getElem?_set_self (h.completed_lt hspec)]
    · next hji =>
      have hshown := h.shown idx j t o ⟨⟨spec, hspec, hlatest⟩, ht⟩ ho
      split
      · next hbuffer =>
        -- an older execution does not deposit into the slot of a newer one's outcome
        rw [List.getElem?_set_ne, hshown]
        intro hidx
        obtain ⟨spec', hspec', hkey'⟩ := h.placed i task htask hbuffer
        rw [hidx, hspec] at hspec'
        obtain rfl := Option.some.inj hspec'
        rw [hkey'] at hlatest
        have hnewer := hok j hlatest
        rw [if_neg hji] at hnewer
        have hnewer := hnewer hbuffer
        rw [ht, Option.bind_some, ho] at hnewer
        contradiction
      · apply hshown

/-! ### Executions -/

/-- Running a spec starts its latest execution. -/
theorem Held.runIndex (h : s.Held) (idx : Nat) :
  (s.runIndex idx).Held
  := by
  unfold QueriesObserver.runIndex
  split
  · apply h
  · next spec hspec =>
    split
    · have hfresh : s.tasks.lookup s.sys.nextRun = none := by
        cases ht : s.tasks.lookup s.sys.nextRun with
        | none => rfl
        | some task => exact absurd (h.numbered _ task ht).1 (Nat.lt_irrefl _)
      constructor
      case results =>
        dsimp only
        rw [List.length_modify, h.results]
      case completed => apply h.completed
      case distinct => apply h.distinct
      case numbered =>
        intro j t hj
        obtain ⟨hji, rfl⟩ | ⟨-, hj⟩ := Table.lookup_insert_cases hj
        · rw [hji]
          exact ⟨Nat.lt_succ_self _, Nat.le_refl _⟩
        · obtain ⟨hlt, hle⟩ := h.numbered j t hj
          exact ⟨Nat.lt_succ_of_lt hlt, hle⟩
      case placed =>
        intro j t hj hbuffer
        obtain ⟨-, rfl⟩ | ⟨-, hj⟩ := Table.lookup_insert_cases hj
        · exact ⟨spec, hspec, rfl⟩
        · apply h.placed j t hj hbuffer
      case started =>
        intro k j hj
        obtain ⟨hk, rfl⟩ | ⟨-, hj⟩ := Table.lookup_insert_cases hj
        · constructor
          · rw [hk]
            apply List.mem_map_of_mem (List.mem_of_getElem? hspec)
          · exact ⟨_, AList.lookup_insert .., hk.symm⟩
        · obtain ⟨hk, t, ht, hkey⟩ := h.started k j hj
          use hk
          have hne : j ≠ s.sys.nextRun := by
            rintro rfl
            rw [hfresh] at ht
            contradiction
          exact ⟨t, (AList.lookup_insert_ne hne).trans ht, hkey⟩
      case shown =>
        rintro idx' j t o ⟨⟨spec', hspec', hlatest⟩, ht⟩ ho
        obtain ⟨-, rfl⟩ | ⟨hji, ht⟩ := Table.lookup_insert_cases ht
        · contradiction
        · rw [Table.lookup_insert_eq] at hlatest
          split at hlatest
          · exact absurd (Option.some.inj hlatest).symm hji
          · apply h.shown idx' j t o ⟨⟨spec', hspec', hlatest⟩, ht⟩ ho
    · apply h

theorem Held.runIndices (h : s.Held) (indices : List Nat) :
  (s.runIndices indices).Held
  := by
  unfold QueriesObserver.runIndices
  induction indices generalizing s with
  | nil => apply h
  | cons idx indices ih => apply ih (h.runIndex idx)

/-! ### New specs -/

section Reconcile

variable (previous : List (SeededQuery V)) (slots : List (Option (QueryState V))) (now : Instant)

theorem reconcile_length (specs : List (SeededQuery V)) (old : List (Option (QueryState V)))
    (c : QueryClient V) :
  (reconcile previous slots now specs old c).2.length = specs.length
  := by
  induction specs generalizing old c with
  | nil => rfl
  | cons spec specs ih =>
    unfold reconcile
    split
    · apply congrArg (· + 1) (ih _ _)
    · apply congrArg (· + 1) (ih _ _)

/-- A spec with an old one of its cache key copies the slot of that. -/
theorem reconcile_slot {old : List (Option (QueryState V))} (hold : old.length = previous.length)
    {specs : List (SeededQuery V)} (c : QueryClient V) {idx oldIdx : Nat} {spec : SeededQuery V}
    (hspec : specs[idx]? = some spec)
    (hidx : previous.findIdx? (fun q => q.key.cacheKey = spec.key.cacheKey) = some oldIdx) :
  ((reconcile previous slots now specs old c).2.map (·.slot))[idx]? = some slots[oldIdx]?.join
  := by
  induction specs generalizing old c idx with
  | nil => contradiction
  | cons spec' specs ih =>
    unfold reconcile
    cases idx with
    | zero =>
      obtain rfl : spec' = spec := Option.some.inj hspec
      obtain ⟨hlt, -⟩ := List.findIdx?_eq_some_iff_getElem.mp hidx
      rw [← hold] at hlt
      simp only [hidx, Option.filter_some, hlt, decide_true, if_true]
      rfl
    | succ idx =>
      split
      · have hset (oldIdx : Nat) : (old.set oldIdx none).length = previous.length := by
          rw [List.length_set, hold]
        apply ih (hset _) c hspec
      · apply ih hold _ hspec

end Reconcile

/-- Replacing the specs copies the slots of those that stay. -/
theorem Held.replaceSpecs {specs : List (SeededQuery V)} (h : s.Held)
    (hdistinct : (specs.map (·.key.cacheKey)).Nodup) :
  (s.replaceSpecs specs).1.Held
  := by
  constructor
  case results => apply (List.length_map ..).trans (reconcile_length ..)
  case completed => apply (List.length_map ..).trans (reconcile_length ..)
  case distinct => apply hdistinct
  case numbered =>
    intro i task htask
    obtain ⟨hlt, hle⟩ := h.numbered i task htask
    exact ⟨hlt, Nat.le_succ_of_le hle⟩
  case placed =>
    intro i task htask hbuffer
    -- no task was started with the new buffer
    have hbuffer : task.buffer = s.buffer + 1 := hbuffer
    have hle := (h.numbered i task htask).2
    rw [hbuffer] at hle
    exact absurd hle (Nat.not_succ_le_self _)
  case started =>
    intro k i hk
    change (Table.retain _ s.latest).lookup k = some i at hk
    rw [Table.lookup_retain, Option.filter_eq_some_iff] at hk
    exact ⟨of_decide_eq_true hk.2, (h.started k i hk.1).2⟩
  case shown =>
    rintro idx i task state ⟨⟨spec, hspec, hlatest⟩, htask⟩ hstate
    change (Table.retain _ s.latest).lookup _ = some i at hlatest
    rw [Table.lookup_retain, Option.filter_eq_some_iff] at hlatest
    -- the spec was there before, at the first index of its cache key
    obtain ⟨hmem, -⟩ := h.started _ i hlatest.1
    obtain ⟨q, hq, hkey⟩ := List.mem_map.mp hmem
    have hsome : (s.specs.findIdx? fun q => q.key.cacheKey = spec.key.cacheKey).isSome := by
      rw [List.findIdx?_isSome]
      apply List.any_eq_true.mpr
      use q, hq
      apply decide_eq_true hkey
    obtain ⟨oldIdx, hidx⟩ := Option.isSome_iff_exists.mp hsome
    obtain ⟨hlt, hkey', -⟩ := List.findIdx?_eq_some_iff_getElem.mp hidx
    have hold : s.specs[oldIdx]? = some s.specs[oldIdx] := List.getElem?_eq_getElem hlt
    have hkey' := of_decide_eq_true hkey'
    have hshown : s.completed[oldIdx]? = some (some state) := by
      apply h.shown oldIdx i task state ⟨⟨_, hold, ?_⟩, htask⟩ hstate
      rw [hkey']
      apply hlatest.1
    have hlength : (s.results.map some).length = s.specs.length := by
      rw [List.length_map, h.results]
    have hslot := reconcile_slot s.specs s.completed s.sys.now hlength s.sys.client hspec hidx
    rw [hshown] at hslot
    apply hslot

/-- Every orderly step keeps it. -/
theorem Held.step (h : s.Held) (hok : s.Orderly a) (hs : s.step a = some s') :
  s'.Held
  := by
  cases a with
  | sys a =>
    obtain ⟨sys, hsys, hs⟩ := Option.bind_eq_some_iff.mp hs
    obtain rfl := Option.some.inj hs
    constructor
    case results => apply h.results
    case completed => apply h.completed
    case distinct => apply h.distinct
    case numbered =>
      intro i task htask
      obtain ⟨hlt, hle⟩ := h.numbered i task htask
      exact ⟨Nat.lt_of_lt_of_le hlt (Sys.nextRun_le_of_step hsys), hle⟩
    case placed => apply h.placed
    case started => apply h.started
    case shown =>
      rintro idx i task state ⟨hspec, htask⟩
      apply h.shown idx i task state ⟨hspec, htask⟩
  | deposit i => apply h.deposit hok hs
  | setSpecs specs =>
    obtain rfl := Option.some.inj hs
    apply (h.replaceSpecs hok).runIndices _
  | runAll =>
    obtain rfl := Option.some.inj hs
    apply h.runIndices
  | refresh idx =>
    obtain rfl := Option.some.inj hs
    unfold refresh
    split
    · apply h
    · apply h.runIndices
  | sync =>
    obtain rfl := Option.some.inj hs
    constructor
    case results => apply (List.length_mapIdx).trans h.results
    case completed => apply h.completed
    case distinct => apply h.distinct
    case numbered => apply h.numbered
    case placed => apply h.placed
    case started => apply h.started
    case shown =>
      rintro idx i task state ⟨hspec, htask⟩
      apply h.shown idx i task state ⟨hspec, htask⟩

theorem initialResults_length (c : QueryClient V) (now : Instant) (specs : List (SeededQuery V)) :
  (initialResults c now specs).2.length = specs.length
  := by
  induction specs generalizing c with
  | nil => rfl
  | cons spec specs ih => apply congrArg (· + 1) (ih _)

theorem held_of_run (h : machine.Run Orderly s) :
  s.Held
  := by
  apply h.invariant
  · rintro s ⟨sys, specs, -, hdistinct, rfl⟩
    constructor
    case results => apply initialResults_length
    case completed => apply List.length_map
    case distinct => apply hdistinct
    case numbered =>
      intro i task htask
      contradiction
    case placed =>
      intro i task htask
      contradiction
    case started =>
      intro k i hk
      contradiction
    case shown =>
      rintro idx i task state ⟨-, htask⟩
      contradiction
  · exact fun s a s' _ hs hok h => hs.step hok h

/-- Along an orderly run `sync` reports the latest outcomes. -/
theorem synced_of_run (h : machine.Run Orderly s) (hok : s.Orderly .sync)
    (hs : s.step .sync = some s') :
  s.Synced s'
  := by
  have hheld := held_of_run h
  obtain rfl := Option.some.inj hs
  constructor
  case completed =>
    intro idx task state htask hstate
    obtain ⟨i, hlatest⟩ := exists_latest htask
    have hshown := hheld.shown idx i task state hlatest hstate
    obtain ⟨⟨spec, hspec, -⟩, -⟩ := hlatest
    obtain ⟨hlt, -⟩ := List.getElem?_eq_some_iff.mp hspec
    rw [← hheld.results] at hlt
    simp only [sync, List.getElem?_mapIdx, hshown, List.getElem?_eq_getElem hlt]
    rfl
  case running =>
    intro idx task htask hnone
    obtain ⟨i, ⟨spec, hspec, -⟩, -⟩ := exists_latest htask
    obtain ⟨hlt, -⟩ := List.getElem?_eq_some_iff.mp hspec
    have hslot : s.completed[idx]?.join = none := by
      apply Option.isNone_iff_eq_none.mp
      apply hok idx hlt task htask
      rw [hnone]
      rfl
    simp only [sync, List.getElem?_mapIdx, hslot]
    apply Option.map_id'

/-- An observer of the key `"k"`. -/
def specK : SeededQuery (String ⊕ Nat) :=
  .unseeded Sys.queryK

/-- The steps of an execution that fetches, which then deposits. -/
def execution (i : Nat) (data : String) : List (Action (String ⊕ Nat)) :=
  let outcomes : List (Outcome (String ⊕ Nat)) :=
    List.replicate 6 .next ++ .ready (.ok (.inl data)) :: List.replicate 5 .next
  (outcomes.map fun o => .sys (.advance i o)) ++ [.deposit i]

theorem machine_init_new :
  machine.init (new .initial [specK])
  := by
  use .initial, [specK], .init rfl
  constructor
  · apply List.nodup_singleton
  · rfl

instance (s : QueriesObserver V) (a : Action V) : Decidable (s.Distinct a) := by
  unfold Distinct
  split
  all_goals infer_instance

instance (s : QueriesObserver V) (a : Action V) : Decidable (s.Orderly a) := by
  unfold Orderly
  split
  all_goals infer_instance

/-- A spec is executed twice, and the executions deposit in their order. -/
theorem synced_of_run_refresh :
  ∃ s s' : QueriesObserver (String ⊕ Nat), machine.Run Orderly s ∧ s.Orderly .sync ∧
    s.step .sync = some s' ∧ s'.results[0]? = some (.success (.inl "v")) ∧ s.Synced s'
  := by
  have meets : machine.Meets Orderly (new .initial [specK])
      (.refresh 0 :: .refresh 0 :: execution 0 "u" ++ execution 1 "v") := by
    decide +kernel
  obtain ⟨s, hs, hseen⟩ := Machine.exists_run_of_exec _
    (fun s : QueriesObserver (String ⊕ Nat) => (decide (s.Orderly .sync), s.sync.results[0]?))
    (true, some (.success (.inl "v"))) machine_init_new meets (by decide +kernel)
  obtain ⟨hok, hresult⟩ := Prod.mk.inj hseen
  have hok := of_decide_eq_true hok
  exact ⟨s, s.sync, hs, hok, rfl, hresult, synced_of_run hs hok rfl⟩

/-- What `sync` reports at an index. -/
theorem Synced.results_eq {idx : Nat} {outcome : Option (QueryState V)} (h : s.Synced s')
    (houtcome : (s.latestTask idx).map (·.outcome) = some outcome) :
  s'.results[idx]? = outcome.elim s.results[idx]? some
  := by
  obtain ⟨task, htask, rfl⟩ := Option.map_eq_some_iff.mp houtcome
  cases ho : task.outcome with
  | none => apply h.running idx task htask ho
  | some state => apply h.completed idx task state htask ho

/-- What the latest execution of the first spec came to, and the first result before and
after `sync`. -/
structure Report (V : Type) where
  outcome : Option (Option (QueryState V))
  before : Option (QueryState V)
  after : Option (QueryState V)
deriving DecidableEq

def firstReport (s : QueriesObserver V) : Report V :=
  ⟨(s.latestTask 0).map (·.outcome), s.results[0]?, s.sync.results[0]?⟩

/-- `sync` puts the state of an older execution in the place of the mark of a running one; it
reports an older execution that deposited after the latest; and it misses the latest, which
deposited after `set_specs`. -/
theorem not_synced :
  (∃ s : QueriesObserver (String ⊕ Nat), machine.Run Distinct s ∧ firstReport s =
    ⟨some none, some .loading, some (.success (.inl "old"))⟩ ∧ ¬ s.Synced s.sync) ∧
  (∃ s : QueriesObserver (String ⊕ Nat), machine.Run Distinct s ∧ firstReport s =
    ⟨some (some (.success (.inl "new"))), some .loading, some (.success (.inl "old"))⟩ ∧
      ¬ s.Synced s.sync) ∧
  ∃ s : QueriesObserver (String ⊕ Nat), machine.Run Distinct s ∧ firstReport s =
    ⟨some (some (.success (.inl "new"))), some .loading, some .loading⟩ ∧ ¬ s.Synced s.sync
  := by
  have fails {outcome : Option (QueryState (String ⊕ Nat))}
      {before after : Option (QueryState (String ⊕ Nat))} (as : List (Action (String ⊕ Nat)))
      (hne : after ≠ outcome.elim before some)
      (meets : machine.Meets Distinct (new .initial [specK]) as)
      (hexec : (machine.exec (new .initial [specK]) as).map firstReport =
        some ⟨some outcome, before, after⟩) :
      ∃ s, machine.Run Distinct s ∧ firstReport s = ⟨some outcome, before, after⟩ ∧
        ¬ s.Synced s.sync := by
    obtain ⟨s, hs, hseen⟩ := Machine.exists_run_of_exec as _ _ machine_init_new meets hexec
    use s, hs, hseen
    intro hsynced
    obtain ⟨houtcome, hbefore, hafter⟩ := Report.mk.inj hseen
    apply hne
    rw [← hbefore, ← hafter]
    apply hsynced.results_eq houtcome
  constructor
  · apply fails (.refresh 0 :: execution 0 "old" ++ [.refresh 0]) (by decide)
    · decide +kernel
    · decide +kernel
  constructor
  · apply fails (.refresh 0 :: .refresh 0 :: execution 1 "new" ++ execution 0 "old") (by decide)
    · decide +kernel
    · decide +kernel
  · apply fails (.refresh 0 :: .setSpecs [specK] :: execution 0 "new") (by decide)
    · decide +kernel
    · decide +kernel

end QueriesObserver

end RsQuery
