import RsQuery.Runs

/-!
# Cancelling calls step by step

`cancel_query`, `cancel_queries`, `reset_queries` and `remove_queries` go through their keys
one after another: they remove what is registered under the key, cancel its token, abort its
task, and do what is left to do under the key.  `clear` goes over the registrations where
they are, cancels the token of each and aborts its task, and only then empties the table, and
last the cache.  The tasks and everyone else take their steps in between.  Such a call does
what `Call.apply` says when nothing comes in between: `Cancelling.exists_exec_call`.
-/

namespace RsQuery

variable {V : Type} [PartialEqAny V]

open QueryClient

/-- Where a cancelling call stands. -/
inductive CancelPc where
  /-- Goes through these keys. -/
  | take (keys : List String)
  /-- Has removed this registration from under the key, and cancels its token. -/
  | cancel (task : InFlightTask) (key : String) (keys : List String)
  /-- Aborts the task. -/
  | abort (task : InFlightTask) (key : String) (keys : List String)
  /-- Does what is left to do under the key, where something was registered or not. -/
  | settle (removed : Bool) (key : String) (keys : List String)
  /-- The loop of `clear` has passed these keys. -/
  | visit (passed : List String)
  /-- It cancels the token of the registration it is at. -/
  | visitCancel (task : InFlightTask) (passed : List String)
  /-- It aborts the task. -/
  | visitAbort (task : InFlightTask) (passed : List String)
  /-- `clear` has emptied the table of registrations, and empties the cache. -/
  | clearCache

namespace CancelPc

/-- The task that is being cancelled. -/
def hand : CancelPc → Option InFlightTask
  | .cancel task _ _ | .abort task _ _ | .visitCancel task _ | .visitAbort task _ => some task
  | _ => none

/-- The task that is aborted next. -/
def aborting : CancelPc → Option InFlightTask
  | .abort task _ _ | .visitAbort task _ => some task
  | _ => none

theorem aborting_eq_none {pc : CancelPc} (h : pc.hand = none) :
  pc.aborting = none
  := by
  cases pc with
  | abort | visitAbort => contradiction
  | _ => rfl

/-- The next step of the call is its last. -/
def Returns : CancelPc → Prop
  | .take [] | .clearCache => True
  | _ => False

instance (pc : CancelPc) : Decidable pc.Returns := by
  unfold Returns
  split
  all_goals infer_instance

/-- The keys the loop of `clear` has passed, before the table is emptied. -/
def passed : CancelPc → List String
  | .visit passed | .visitCancel _ passed | .visitAbort _ passed => passed
  | _ => []

/-- A call that returns has nothing at hand. -/
theorem hand_of_returns {pc : CancelPc} (h : pc.Returns) :
  pc.hand = none
  := by
  cases pc with
  | take | clearCache => rfl
  | _ => contradiction

end CancelPc

namespace QueryClient

def cancelToken (c : QueryClient V) (token : Token) : QueryClient V :=
  { c with signals.cancelled := insert token c.signals.cancelled }

def abort (c : QueryClient V) (task : Nat) : QueryClient V :=
  { c with signals.aborted := insert task c.signals.aborted }

end QueryClient

namespace Call

/-- Where a cancelling call starts; the filters are matched first. -/
def start (call : Call V) (now : Instant) (c : QueryClient V) : Option CancelPc :=
  match call with
  | .cancelQuery key => some (.take [key.cacheKey])
  | .cancelQueries filters | .resetQueries filters | .removeQueries filters =>
    some (.take ((c.matchingEntries now filters).map Prod.fst))
  | .clear => some (.visit [])
  | _ => none

/-- What is left to do under a key after what was registered there is cancelled. -/
def settle (call : Call V) (c : QueryClient V) (cacheKey : String) (removed : Bool) :
    QueryClient V :=
  match call with
  | .cancelQuery _ | .cancelQueries _ =>
    if removed then c.notifySubscribers cacheKey .error else c
  | .resetQueries _ => (c.evict cacheKey).notifySubscribers cacheKey .loading
  | .removeQueries _ => (c.evict cacheKey).notifySubscribers cacheKey .error
  | _ => c

omit [PartialEqAny V] in
/-- What a call does under a key at the end leaves registrations and signals alone. -/
theorem frame_settle (call : Call V) (c : QueryClient V) (key : String) (removed : Bool) :
  Frame c (call.settle c key removed)
  := by
  have evicted (v : QueryStateVariant) : Frame c ((c.evict key).notifySubscribers key v) := by
    have h := frame_notifySubscribers (c.evict key) key v
    exact ⟨h.inFlight, h.cancelled, h.aborted⟩
  unfold settle
  split
  case h_1 | h_2 =>
    split
    · apply frame_notifySubscribers
    · exact ⟨rfl, rfl, rfl⟩
  case h_3 | h_4 => apply evicted
  case h_5 => exact ⟨rfl, rfl, rfl⟩

end Call

/-- A cancelling call that is being made. -/
structure CancelCall (V : Type) where
  call : Call V
  pc : CancelPc
  /-- The tokens of the registrations it has removed. -/
  removed : List Token := []

namespace CancelCall

/-- The next step of a call: the client after it, and the call if it does not return. -/
def advance (x : CancelCall V) (c : QueryClient V) :
    Option (QueryClient V × Option (CancelCall V)) :=
  match x.pc with
  | .take [] => some (c, none)
  | .take (key :: keys) =>
    match c.inFlight.lookup key with
    | some task =>
      some ({ c with inFlight := c.inFlight.erase key },
        some { x with pc := .cancel task key keys, removed := task.cancelToken :: x.removed })
    | none => some (c, some { x with pc := .settle false key keys })
  | .cancel task key keys =>
    some (c.cancelToken task.cancelToken, some { x with pc := .abort task key keys })
  | .abort task key keys =>
    some (c.abort task.abort, some { x with pc := .settle true key keys })
  | .settle removed key keys =>
    some (x.call.settle c key removed, some { x with pc := .take keys })
  | .visit passed =>
    if c.inFlight.keys ⊆ passed then
      some ({ c with inFlight := ∅ }, some { x with
        pc := .clearCache
        removed := (Table.values c.inFlight).map InFlightTask.cancelToken ++ x.removed })
    else none
  | .visitCancel task passed =>
    some (c.cancelToken task.cancelToken, some { x with pc := .visitAbort task passed })
  | .visitAbort task passed => some (c.abort task.abort, some { x with pc := .visit passed })
  | .clearCache => some ({ c with cache := ∅ }, none)

/-- The loop of `clear` passes a key. -/
def visit (x : CancelCall V) (c : QueryClient V) (key : String) : Option (CancelCall V) :=
  match x.pc with
  | .visit passed =>
    if key ∈ passed then none
    else
      match c.inFlight.lookup key with
      | some task => some { x with pc := .visitCancel task (key :: passed) }
      | none => some { x with pc := .visit (key :: passed) }
  | _ => none

variable {x : CancelCall V} {x' : Option (CancelCall V)} {c c' : QueryClient V}

/-- What a step of a call can be. -/
inductive Takes (x : CancelCall V) (c : QueryClient V) :
    QueryClient V → Option (CancelCall V) → Prop where
  | returns {c' : QueryClient V} : x.pc.Returns → Frame c c' → Takes x c c' none
  | remove {task : InFlightTask} {key : String} {keys : List String} :
      x.pc = .take (key :: keys) → c.inFlight.lookup key = some task →
      Takes x c { c with inFlight := c.inFlight.erase key }
        (some { x with pc := .cancel task key keys, removed := task.cancelToken :: x.removed })
  | absent {key : String} {keys : List String} :
      x.pc = .take (key :: keys) → c.inFlight.lookup key = none →
      Takes x c c (some { x with pc := .settle false key keys })
  | cancel {task : InFlightTask} {pc : CancelPc} :
      x.pc.hand = some task → pc.hand = some task → pc.aborting = some task →
      pc.passed = x.pc.passed →
      Takes x c (c.cancelToken task.cancelToken) (some { x with pc := pc })
  | abort {task : InFlightTask} {pc : CancelPc} :
      x.pc.hand = some task → x.pc.aborting = some task → pc.hand = none →
      pc.passed = x.pc.passed → Takes x c (c.abort task.abort) (some { x with pc := pc })
  | settle {c' : QueryClient V} {keys : List String} :
      x.pc.hand = none → Frame c c' → Takes x c c' (some { x with pc := .take keys })
  | sweep {passed : List String} : x.pc = .visit passed → c.inFlight.keys ⊆ passed →
      Takes x c { c with inFlight := ∅ } (some { x with
        pc := .clearCache
        removed := (Table.values c.inFlight).map InFlightTask.cancelToken ++ x.removed })

omit [PartialEqAny V] in
theorem takes_of_advance (h : x.advance c = some (c', x')) :
  x.Takes c c' x'
  := by
  obtain ⟨call, pc, removed⟩ := x
  cases pc with
  | take keys =>
    cases keys with
    | nil =>
      cases h
      exact .returns trivial ⟨rfl, rfl, rfl⟩
    | cons key keys =>
      simp only [advance] at h
      split at h
      · next hkey =>
        cases h
        exact .remove rfl hkey
      · next hkey =>
        cases h
        exact .absent rfl hkey
  | cancel task key keys | visitCancel task passed =>
    cases h
    exact .cancel rfl rfl rfl rfl
  | abort task key keys | visitAbort task passed =>
    cases h
    exact .abort rfl rfl rfl rfl
  | settle removed key keys =>
    cases h
    exact .settle rfl (call.frame_settle _ _ _)
  | visit passed =>
    simp only [advance] at h
    split at h
    · next hkeys =>
      cases h
      exact .sweep rfl hkeys
    · contradiction
  | clearCache =>
    cases h
    exact .returns trivial ⟨rfl, rfl, rfl⟩

end CancelCall

/-- A client with its executions, and the cancelling calls that are being made. -/
structure Cancelling (V : Type) [PartialEqAny V] where
  sys : Sys V
  calls : Table Nat (CancelCall V)

namespace Cancelling

/-- A step of the system. -/
inductive Action (V : Type) [PartialEqAny V] where
  /-- A step of an execution, or another call. -/
  | sys (a : RsQuery.Action V)
  /-- A cancelling call is made; it is given this number. -/
  | begin (i : Nat) (call : Call V)
  | advance (i : Nat)
  /-- The loop of a `clear` passes a key. -/
  | visit (i : Nat) (key : String)

/-- The step is a call that is made step by step. -/
def Splits (s : Cancelling V) : RsQuery.Action V → Bool
  | .call call => (call.start s.sys.now s.sys.client).isSome
  | _ => false

/-- The state after a call has taken a step, or returned. -/
def put (s : Cancelling V) (i : Nat) (c : QueryClient V) : Option (CancelCall V) → Cancelling V
  | some x => ⟨{ s.sys with client := c }, s.calls.insert i x⟩
  | none => ⟨{ s.sys with client := c }, s.calls.erase i⟩

/-- The state after an action, if it is enabled. -/
def step (s : Cancelling V) : Action V → Option (Cancelling V)
  | .sys a =>
    if s.Splits a then none
    else do
      let sys ← s.sys.step a
      some { s with sys := sys }
  | .begin i call => do
    let pc ← call.start s.sys.now s.sys.client
    if s.calls.lookup i = none then some (s.put i s.sys.client (some ⟨call, pc, []⟩)) else none
  | .advance i => do
    let x ← s.calls.lookup i
    let (c, x) ← x.advance s.sys.client
    some (s.put i c x)
  | .visit i key => do
    let x ← s.calls.lookup i
    let x ← x.visit s.sys.client key
    some (s.put i s.sys.client (some x))

/-- A new client with no run and no call, and every step. -/
def machine : Machine (Cancelling V) (Action V) :=
  ⟨fun s => s = ⟨.initial, ∅⟩, step⟩

/-- The registrations that a call has removed, when it returns. -/
def withdrawn (s : Cancelling V) (a : Action V) (s' : Cancelling V) : List Token :=
  match a with
  | .advance i =>
    match s.calls.lookup i, s'.calls.lookup i with
    | some x, none => x.removed
    | _, _ => []
  | _ => []

variable {s s' : Cancelling V} {i : Nat}

theorem put_sys (s : Cancelling V) (i : Nat) (c : QueryClient V) (x : Option (CancelCall V)) :
  (s.put i c x).sys = { s.sys with client := c }
  := by
  cases x with
  | some x => rfl
  | none => rfl

/-- A call that is being made after a call has taken a step is that one, or another one as
it was. -/
theorem lookup_put
    {c : QueryClient V} {x : Option (CancelCall V)} {j : Nat} {y : CancelCall V}
    (h : (s.put i c x).calls.lookup j = some y) :
  x = some y ∨ s.calls.lookup j = some y
  := by
  cases x with
  | some x =>
    obtain ⟨-, rfl⟩ | ⟨-, h⟩ := Table.lookup_insert_cases h
    · exact .inl rfl
    · exact .inr h
  | none =>
    obtain ⟨-, h⟩ := Table.lookup_of_erase h
    exact .inr h

/-! ### Steps -/

theorem step_sys {a : RsQuery.Action V} (h : s.step (.sys a) = some s') :
  s.sys.step a = some s'.sys ∧ s'.calls = s.calls
  := by
  simp only [step] at h
  split at h
  · contradiction
  · obtain ⟨sys, hsys, h⟩ := Option.bind_eq_some_iff.mp h
    obtain rfl := Option.some.inj h
    use hsys

theorem step_begin {call : Call V} (h : s.step (.begin i call) = some s') :
  ∃ pc, call.start s.sys.now s.sys.client = some pc ∧ s.calls.lookup i = none ∧
    s' = s.put i s.sys.client (some ⟨call, pc, []⟩)
  := by
  obtain ⟨pc, hpc, h⟩ := Option.bind_eq_some_iff.mp h
  split at h
  · next hi => exact ⟨pc, hpc, hi, (Option.some.inj h).symm⟩
  · contradiction

theorem step_advance (h : s.step (.advance i) = some s') :
  ∃ x c x', s.calls.lookup i = some x ∧ x.advance s.sys.client = some (c, x') ∧
    s' = s.put i c x'
  := by
  obtain ⟨x, hx, h⟩ := Option.bind_eq_some_iff.mp h
  obtain ⟨⟨c, x'⟩, hadvance, h⟩ := Option.bind_eq_some_iff.mp h
  exact ⟨x, c, x', hx, hadvance, (Option.some.inj h).symm⟩

theorem step_visit {key : String} (h : s.step (.visit i key) = some s') :
  ∃ x x', s.calls.lookup i = some x ∧ x.visit s.sys.client key = some x' ∧
    s' = s.put i s.sys.client (some x')
  := by
  obtain ⟨x, hx, h⟩ := Option.bind_eq_some_iff.mp h
  obtain ⟨x', hvisit, h⟩ := Option.bind_eq_some_iff.mp h
  exact ⟨x, x', hx, hvisit, (Option.some.inj h).symm⟩

/-! ### A call on its own -/

theorem put_put (s : Cancelling V) (i : Nat) (c c' : QueryClient V) (x : CancelCall V)
    (x' : Option (CancelCall V)) :
  (s.put i c (some x)).put i c' x' = s.put i c' x'
  := by
  cases x' with
  | some x' =>
    simp only [put]
    rw [AList.insert_insert]
  | none =>
    simp only [put]
    rw [Table.erase_insert]

/-- A call takes a step on its own. -/
theorem exec_advance
    {c c' : QueryClient V} {x : CancelCall V} {x' : Option (CancelCall V)}
    (h : x.advance c = some (c', x')) (as : List (Action V)) :
  machine.exec (s.put i c (some x)) (.advance i :: as) = machine.exec (s.put i c' x') as
  := by
  apply Machine.exec_cons
  have hx : (s.put i c (some x)).calls.lookup i = some x := AList.lookup_insert _
  have hc : (s.put i c (some x)).sys.client = c := rfl
  simp only [machine, step, hx, hc, h, Option.bind_eq_bind, Option.bind_some, put_put]

/-- The loop of a `clear` passes a key on its own. -/
theorem exec_visit
    {c : QueryClient V} {x x' : CancelCall V} {key : String} (h : x.visit c key = some x')
    (as : List (Action V)) :
  machine.exec (s.put i c (some x)) (.visit i key :: as)
    = machine.exec (s.put i c (some x')) as
  := by
  apply Machine.exec_cons
  have hx : (s.put i c (some x)).calls.lookup i = some x := AList.lookup_insert _
  have hc : (s.put i c (some x)).sys.client = c := rfl
  simp only [machine, step, hx, hc, h, Option.bind_eq_bind, Option.bind_some, put_put]

/-- What a call does under a key with nothing in between. -/
def settled (call : Call V) (c : QueryClient V) (key : String) : QueryClient V :=
  call.settle (c.withdraw key) key (c.inFlight.lookup key).isSome

/-- A call goes through its keys on its own. -/
theorem exists_exec_take (s : Cancelling V) (i : Nat) (call : Call V) (keys : List String) :
  ∀ (c : QueryClient V) (removed : List Token), ∃ as : List (Action V),
    machine.exec (s.put i c (some ⟨call, .take keys, removed⟩)) as
      = some (s.put i (keys.foldl (settled call) c) none)
  := by
  induction keys with
  | nil =>
    intro c removed
    use [.advance i]
    rw [exec_advance rfl, Machine.exec_nil, List.foldl_nil]
  | cons key keys ih =>
    intro c removed
    cases hkey : c.inFlight.lookup key with
    | none =>
      have htake : CancelCall.advance ⟨call, .take (key :: keys), removed⟩ c
          = some (c, some ⟨call, .settle false key keys, removed⟩) := by
        simp only [CancelCall.advance, hkey]
      have hsettled : call.settle c key false = settled call c key := by
        simp only [settled, withdraw, hkey, Option.isSome_none]
      obtain ⟨as, has⟩ := ih (settled call c key) removed
      use .advance i :: .advance i :: as
      rw [exec_advance htake, exec_advance rfl, hsettled, List.foldl_cons, ← has]
    | some task =>
      have htake : CancelCall.advance ⟨call, .take (key :: keys), removed⟩ c
          = some ({ c with inFlight := c.inFlight.erase key },
            some ⟨call, .cancel task key keys, task.cancelToken :: removed⟩) := by
        simp only [CancelCall.advance, hkey]
      have hsettled : call.settle (cancelTask { c with inFlight := c.inFlight.erase key } task)
          key true = settled call c key := by
        simp only [settled, withdraw, hkey, Option.isSome_some]
      obtain ⟨as, has⟩ := ih (settled call c key) (task.cancelToken :: removed)
      use .advance i :: .advance i :: .advance i :: .advance i :: as
      rw [exec_advance htake, exec_advance rfl, exec_advance rfl, exec_advance rfl]
      rw [List.foldl_cons, ← has, ← hsettled]
      rfl

/-- The loop of a `clear` goes over the registrations on its own. -/
theorem exists_exec_visit
    (s : Cancelling V) (i : Nat) (call : Call V)
    (tasks : List (Sigma fun _ : String => InFlightTask)) :
  ∀ (c : QueryClient V) (passed : List String), tasks.NodupKeys →
    (∀ e ∈ tasks, c.inFlight.lookup e.1 = some e.2 ∧ e.1 ∉ passed) →
    ∃ as : List (Action V), ∀ bs,
      machine.exec (s.put i c (some ⟨call, .visit passed, []⟩)) (as ++ bs)
        = machine.exec (s.put i ((tasks.map Sigma.snd).foldl cancelTask c)
          (some ⟨call, .visit (tasks.keys.reverse ++ passed), []⟩)) bs
  := by
  induction tasks with
  | nil =>
    intro c passed _ _
    exact ⟨[], fun bs => rfl⟩
  | cons e tasks ih =>
    intro c passed hnodup htasks
    obtain ⟨hfresh, hnodup⟩ := List.nodupKeys_cons.mp hnodup
    obtain ⟨hlookup, hnew⟩ := htasks e List.mem_cons_self
    have hvisit : CancelCall.visit ⟨call, .visit passed, []⟩ c e.1
        = some ⟨call, .visitCancel e.2 (e.1 :: passed), []⟩ := by
      simp only [CancelCall.visit, if_neg hnew, hlookup]
    -- cancelling the token and aborting the task leave the registrations as they are
    obtain ⟨as, has⟩ := ih (c.cancelTask e.2) (e.1 :: passed) hnodup (by
      intro e' he'
      obtain ⟨hlookup', hnew'⟩ := htasks e' (List.mem_cons_of_mem _ he')
      use hlookup'
      rw [List.mem_cons, not_or]
      use fun h => hfresh (List.mem_map.mpr ⟨e', he', h⟩), hnew')
    use .visit i e.1 :: .advance i :: .advance i :: as
    intro bs
    simp only [List.cons_append]
    rw [exec_visit hvisit, exec_advance rfl, exec_advance rfl]
    have hkeys : (List.keys (e :: tasks)).reverse ++ passed
        = tasks.keys.reverse ++ e.1 :: passed := by
      simp only [List.keys_cons, List.reverse_cons, List.append_assoc, List.singleton_append]
    rw [List.map_cons, List.foldl_cons, hkeys, ← has bs]
    rfl

omit [PartialEqAny V] in
theorem inFlight_foldl_cancelTask (tasks : List InFlightTask) (c : QueryClient V) :
  (tasks.foldl cancelTask c).inFlight = c.inFlight
  := by
  induction tasks generalizing c with
  | nil => rfl
  | cons task tasks ih => exact ih (c.cancelTask task)

/-- A `clear` goes through on its own. -/
theorem exists_exec_clear (s : Cancelling V) (i : Nat) (call : Call V) (c : QueryClient V) :
  ∃ as : List (Action V),
    machine.exec (s.put i c (some ⟨call, .visit [], []⟩)) as = some (s.put i c.clear none)
  := by
  obtain ⟨as, has⟩ := exists_exec_visit s i call c.inFlight.entries c [] c.inFlight.nodupKeys
    fun e he => ⟨AList.mem_lookup_iff.mpr he, List.not_mem_nil⟩
  have hkeys : (CancelCall.mk call (.visit (c.inFlight.entries.keys.reverse ++ [])) []).advance
      ((Table.values c.inFlight).foldl cancelTask c)
      = some ({ (Table.values c.inFlight).foldl cancelTask c with inFlight := ∅ },
        some ⟨call, .clearCache, (Table.values c.inFlight).map InFlightTask.cancelToken ++ []⟩) := by
    simp only [CancelCall.advance, inFlight_foldl_cancelTask]
    apply if_pos
    intro k hk
    simp only [List.append_nil, List.mem_reverse]
    apply hk
  use as ++ [.advance i, .advance i]
  rw [has]
  change machine.exec (s.put i ((Table.values c.inFlight).foldl cancelTask c) _) _ = _
  rw [exec_advance hkeys, exec_advance rfl, Machine.exec_nil]
  rfl

omit [PartialEqAny V] in
theorem forEach_eq_foldl
    {β : Type} {body : QueryClient V → β → QueryClient V × Nat}
    {f : QueryClient V → String → QueryClient V} {key : β → String}
    (h : ∀ c b, (body c b).1 = f c (key b)) (bs : List β) (c : QueryClient V) :
  (forEach body bs c).1 = (bs.map key).foldl f c
  := by
  induction bs generalizing c with
  | nil => rfl
  | cons b bs ih =>
    rw [List.map_cons, List.foldl_cons, ← h c b, ← ih]
    rfl

omit [PartialEqAny V] in
theorem cancelKey_eq_settle {call : Call V}
    (h : ∀ (c : QueryClient V) key removed, call.settle c key removed
      = if removed then c.notifySubscribers key .error else c)
    (c : QueryClient V) (key : String) :
  (c.cancelKey key).1 = settled call c key
  := by
  rw [settled, h, cancelKey, withdraw]
  cases c.inFlight.lookup key with
  | none => rfl
  | some task => rfl

/-- A call that is made with nothing in between does what `Call.apply` says, all at once,
and returns. -/
theorem exists_exec_call
    {call : Call V} {pc : CancelPc} (hstart : call.start s.sys.now s.sys.client = some pc)
    (hi : s.calls.lookup i = none) :
  ∃ as, machine.exec s (.begin i call :: as)
    = some { s with sys.client := call.apply s.sys.now s.sys.client }
  := by
  have hbegin : machine.step s (.begin i call)
      = some (s.put i s.sys.client (some ⟨call, pc, []⟩)) := by
    simp only [machine, step, hstart, hi, Option.bind_eq_bind, Option.bind_some, if_pos]
  have hreturn (c : QueryClient V) : s.put i c none = { s with sys.client := c } := by
    rw [put, Table.erase_of_lookup_eq_none hi]
  have htake {keys : List String} (hpc : pc = .take keys)
      (happly : call.apply s.sys.now s.sys.client = keys.foldl (settled call) s.sys.client) :
      ∃ as, machine.exec s (.begin i call :: as)
        = some { s with sys.client := call.apply s.sys.now s.sys.client } := by
    obtain ⟨as, has⟩ := exists_exec_take s i call keys s.sys.client []
    use as
    rw [Machine.exec_cons hbegin, hpc, has, hreturn, happly]
  cases call with
  | cancelQuery key =>
    obtain rfl := Option.some.inj hstart
    apply htake rfl
    have hkey : (s.sys.client.cancelKey key.cacheKey).1
        = settled (.cancelQuery key) s.sys.client key.cacheKey :=
      cancelKey_eq_settle (fun _ _ _ => rfl) _ _
    exact hkey
  | cancelQueries filters =>
    obtain rfl := Option.some.inj hstart
    apply htake rfl
    apply forEach_eq_foldl
    exact fun c m => cancelKey_eq_settle (fun _ _ _ => rfl) c m.1
  | resetQueries filters =>
    obtain rfl := Option.some.inj hstart
    apply htake rfl
    exact forEach_eq_foldl (fun _ _ => rfl) _ _
  | removeQueries filters =>
    obtain rfl := Option.some.inj hstart
    apply htake rfl
    exact forEach_eq_foldl (fun _ _ => rfl) _ _
  | clear =>
    obtain rfl := Option.some.inj hstart
    obtain ⟨as, has⟩ := exists_exec_clear s i (.clear : Call V) s.sys.client
    use as
    rw [Machine.exec_cons hbegin, has, hreturn]
    rfl
  | _ => contradiction

end Cancelling

end RsQuery
