import RsQuery.CancellingCalls

/-!
# Cancelled fetches

A call that removes a registration cancels the token of the fetch and aborts its task
before it returns.  The fetch reads the token before it calls the fetch function, and an
abort takes effect where the task is suspended.  From the last of these to the write of its
data lies a window in which neither is looked at: a fetch that is in its window when the
call returns writes.  So does a fetch that is registered under a key that the loop of a
`clear` has passed: its registration is removed, and it is never cancelled.
-/

namespace RsQuery

variable {V : Type} [PartialEqAny V]

open QueryClient

/-- The execution is past its last look at the token or at an abort before it writes. -/
def Pc.InWindow : Pc V → Prop
  | .fetch (.fetching _) | .fetch (.fetched _) | .fetch (.selected _) => True
  | _ => False

instance (pc : Pc V) : Decidable pc.InWindow := by
  unfold Pc.InWindow
  rcases pc with _ | _ | _ | _ | ⟨_ | _⟩ | _ <;> infer_instance

namespace Run

variable {r : Run V} {i : Nat} {now : Instant} {c c' : QueryClient V} {o : Outcome V} {pc : Pc V}

theorem inWindow_resume (h : (r.resume i c pc).2.InWindow) (hs : r.spawned = true) :
  i ∉ c.signals.aborted
  := by
  unfold resume at h
  split at h
  · contradiction
  · next hr => exact fun ha => hr ⟨hs, ha⟩

theorem not_inWindow_panicked (r : Run V) (payload : PanicPayload) :
  ¬ (r.panicked payload).InWindow
  := by
  unfold panicked
  split
  · apply id
  · apply id

/-- A fetch gets into its window only by looking at its token or at an abort. -/
theorem inWindow_advanceFetch
    {cancelled : Bool} {f : FetchPc V}
    (h : r.advanceFetch i now c cancelled f o = some (c', pc)) (hs : r.spawned = true)
    (hpc : pc.InWindow) :
  (Pc.fetch f).InWindow ∨ cancelled = false ∨ i ∉ c.signals.aborted
  := by
  have resumed {f' : FetchPc V} (h : r.resume i c (.fetch f') = (c', pc)) :
      i ∉ c.signals.aborted := by
    have hw : (r.resume i c (.fetch f')).2.InWindow := by rwa [h]
    apply inWindow_resume hw hs
  cases takes_of_advanceFetch h with
  | call hcancelled => exact .inr (.inl hcancelled)
  | resumeFetch h | resumeWait h | resumeSleep h => exact .inr (.inr (resumed h))
  | data | select | noSelect => exact .inl trivial
  | panic | selectPanic | gone => exact absurd hpc (not_inWindow_panicked r _)
  | _ => contradiction

/-- A task gets into its window only by looking at its token or at an abort. -/
theorem inWindow_advance
    (h : r.advance i now c o = some (c', pc)) (hs : r.spawned = true) (hpc : pc.InWindow) :
  r.pc.InWindow ∨ i ∉ c.signals.cancelled ∨ i ∉ c.signals.aborted
  := by
  cases takes_of_advance h with
  | poll hr h =>
    right
    right
    have hw : (r.resume i c .start).2.InWindow := by rwa [h]
    apply inWindow_resume hw hs
  | @wait w _ _ hr h =>
    have hw := r.advanceWait_ends i now c w
    rw [h] at hw
    obtain ⟨w', rfl⟩ | ⟨result, rfl⟩ := hw
    · contradiction
    · contradiction
  | fetch hr h =>
    rw [hr]
    have hw := inWindow_advanceFetch h hs hpc
    rwa [decide_eq_false_iff_not] at hw
  | _ => contradiction

end Run

namespace Sys

variable {s s' : Sys V} {i : Nat}

/-- A step of a task that is not in its window leaves the cache as it is. -/
theorem cache_step_advance
    {r : Run V} {o : Outcome V} (hr : s.runs.lookup i = some r)
    (hs : s.step (.advance i o) = some s') (hpc : ¬ r.pc.InWindow) :
  s'.client.cache = s.client.cache
  := by
  obtain ⟨r', c, pc, hr', ha, rfl⟩ := step_advance hs
  rw [hr] at hr'
  obtain rfl := Option.some.inj hr'
  apply Run.cache_advance ha
  intro data hdata
  rw [hdata] at hpc
  apply hpc trivial

/-- Advancing run `i` with some outcomes ends with its data stored. -/
def GoesOnToStore (s : Sys V) (i : Nat) (key : QueryKey) : Prop :=
  ∃ os : List (Outcome V), ∃ s', machine.exec s (os.map (Action.advance i)) = some s' ∧
    ∃ entry ∈ s'.client.cache.lookup key.cacheKey, entry.fetchedAt = s.now

theorem goesOnToStore_of_advance
    {r : Run V} {o : Outcome V} {f : FetchPc V} {key : QueryKey} (hr : s.runs.lookup i = some r)
    (ha : r.advance i s.now s.client o = some (s.client, .fetch f))
    (h : (s.setRun i { r with pc := .fetch f }).GoesOnToStore i key) :
  s.GoesOnToStore i key
  := by
  obtain ⟨os, s', hexec, hentry⟩ := h
  refine ⟨o :: os, s', ?_, hentry⟩
  have hstep : s.step (.advance i o) = some (s.setRun i { r with pc := .fetch f }) := by
    simp [step, hr, ha, setRun]
  rw [List.map_cons, Machine.exec]
  apply Option.bind_eq_some_iff.mpr ⟨_, hstep, hexec⟩

/-- A fetch in its window can go on to store its data, whether it is cancelled or not. -/
theorem goesOnToStore_of_inWindow
    {r : Run V} (hr : s.runs.lookup i = some r) (hpc : r.pc.InWindow)
    (hdata : ∃ data : V, typeOf data = r.query.typeId) :
  s.GoesOnToStore i r.query.key
  := by
  have selected (s : Sys V) (r : Run V) (hr : s.runs.lookup i = some r) (data : V)
      (hpc : r.pc = .fetch (.selected data)) : s.GoesOnToStore i r.query.key := by
    use [.next], { s.setRun i { r with pc := .fetch .stored } with
      client := s.client.storeQueryData s.now r.query.key data r.query.options }
    constructor
    · simp [Machine.exec, machine, step, hr, Run.advance, hpc, Run.advanceFetch]
    · exact ⟨_, AList.lookup_insert _, rfl⟩
  have fetched (s : Sys V) (r : Run V) (hr : s.runs.lookup i = some r) (data : V)
      (hpc : r.pc = .fetch (.fetched data)) : s.GoesOnToStore i r.query.key := by
    have ha : ∃ data', r.advance i s.now s.client .next
        = some (s.client, .fetch (.selected data')) := by
      simp only [Run.advance, hpc, Run.advanceFetch]
      cases r.query.select with
      | none => exact ⟨_, rfl⟩
      | some select => exact ⟨_, rfl⟩
    obtain ⟨data', ha⟩ := ha
    apply goesOnToStore_of_advance hr ha
    apply selected _ { r with pc := .fetch (.selected data') } (AList.lookup_insert _) data' rfl
  cases hr' : r.pc with
  | fetch f =>
    cases f with
    | selected data => apply selected s r hr data hr'
    | fetched data => apply fetched s r hr data hr'
    | fetching n =>
      obtain ⟨data, hd⟩ := hdata
      have ha : r.advance i s.now s.client (.ready (.ok data))
          = some (s.client, .fetch (.fetched data)) := by
        simp [Run.advance, hr', Run.advanceFetch, hd]
      apply goesOnToStore_of_advance hr ha
      apply fetched _ { r with pc := .fetch (.fetched data) } (AList.lookup_insert _) data rfl
    | _ =>
      rw [hr'] at hpc
      contradiction
  | _ =>
    rw [hr'] at hpc
    contradiction

/-- A task whose token is cancelled, and that is aborted. -/
structure Stopped (s : Sys V) (i : Nat) : Prop where
  cancelled : i ∈ s.client.signals.cancelled
  aborted : i ∈ s.client.signals.aborted
  spawned : ∃ r, s.runs.lookup i = some r ∧ r.spawned = true

/-- A stopped task that is not in its window. -/
structure Inert (s : Sys V) (i : Nat) : Prop where
  stopped : s.Stopped i
  outside : ∀ r ∈ s.runs.lookup i, ¬ r.pc.InWindow

/-- No signal is taken back, and no run goes away. -/
structure Grows (s s' : Sys V) : Prop where
  cancelled : s.client.signals.cancelled ⊆ s'.client.signals.cancelled
  aborted : s.client.signals.aborted ⊆ s'.client.signals.aborted
  continues : Continues s s'

theorem Sane.grows {a : Action V} (h : s.Sane) (hs : s.step a = some s') :
  Grows s s'
  := ⟨cancelled_step hs, (effect_of_step hs).aborted, h.continues_step hs⟩

theorem Stopped.mono (h : s.Stopped i) (hgrows : Grows s s') :
  s'.Stopped i
  := by
  constructor
  · apply hgrows.cancelled h.cancelled
  · apply hgrows.aborted h.aborted
  · obtain ⟨r, hr, hspawned⟩ := h.spawned
    obtain ⟨r', hr', -, hspawned', -⟩ := hgrows.continues i r hr
    exact ⟨r', hr', hspawned'.trans hspawned⟩

/-- An inert task gets into its window by no step. -/
theorem Inert.step {a : Action V} (h : s.Inert i) (hsane : s.Sane) (hs : s.step a = some s') :
  s'.Inert i
  := by
  constructor
  · apply h.stopped.mono (hsane.grows hs)
  · intro r' hr' hpc
    obtain ⟨r, hr, hspawned⟩ := h.stopped.spawned
    cases origin_of_step hs hr' with
    | new hi =>
      have hlt := (hsane.numbered i r hr).1
      omega
    | dropped hdropped =>
      rw [hdropped] at hpc
      contradiction
    | stood hq _ _ hsame =>
      rw [hsame] at hpc
      apply h.outside _ hq hpc
    | advanced hq _ _ _ hadvance =>
      rw [hr] at hq
      obtain rfl := Option.some.inj hq
      obtain hw | hw | hw := Run.inWindow_advance hadvance hspawned hpc
      · apply h.outside r hr hw
      · apply hw h.stopped.cancelled
      · apply hw h.stopped.aborted

end Sys

namespace CancelCall

/-- What a call owes to the registrations it has removed or passed: each of them is
stopped, except for the one at hand. -/
structure Owes (x : CancelCall V) (s : Sys V) : Prop where
  hand : ∀ task ∈ x.pc.hand, task.cancelToken = task.abort ∧
    ∃ r, s.runs.lookup task.abort = some r ∧ r.spawned = true ∧ r.returned = true
  aborting : ∀ task ∈ x.pc.aborting, task.cancelToken ∈ s.client.signals.cancelled
  removed : ∀ token ∈ x.removed,
    s.Stopped token ∨ ∃ task ∈ x.pc.hand, task.cancelToken = token
  passed : ∀ key ∈ x.pc.passed, ∀ task ∈ s.client.inFlight.lookup key,
    s.Stopped task.cancelToken ∨ task ∈ x.pc.hand

variable {x : CancelCall V} {s s' : Sys V} {c' : QueryClient V}

/-- What a call owes stays the same when everyone else takes a step that registers nothing
under the keys it has passed. -/
theorem Owes.mono (h : x.Owes s) (hgrows : s.Grows s')
    (hin : ∀ key ∈ x.pc.passed, ∀ task ∈ s'.client.inFlight.lookup key,
      task ∈ s.client.inFlight.lookup key) :
  x.Owes s'
  := by
  constructor
  · intro task htask
    obtain ⟨heq, r, hr, hspawned, hreturned⟩ := h.hand task htask
    obtain ⟨r', hr', -, hspawned', hreturned'⟩ := hgrows.continues _ r hr
    exact ⟨heq, r', hr', hspawned'.trans hspawned, hreturned' hreturned⟩
  · intro task htask
    apply hgrows.cancelled (h.aborting task htask)
  · intro token htoken
    apply (h.removed token htoken).imp_left
    exact fun hstopped => hstopped.mono hgrows
  · intro key hkey task htask
    apply (h.passed key hkey task (hin key hkey task htask)).imp_left
    exact fun hstopped => hstopped.mono hgrows

/-- A call that has just started owes nothing. -/
theorem owes_start {call : Call V} {pc : CancelPc}
    (h : call.start s.now s.client = some pc) :
  (CancelCall.mk call pc []).Owes s
  := by
  have hpc : pc.hand = none ∧ pc.aborting = none ∧ pc.passed = [] := by
    unfold Call.start at h
    split at h
    all_goals cases h
    all_goals exact ⟨rfl, rfl, rfl⟩
  constructor
  all_goals simp [hpc]

/-- Where a call has nothing at hand, what it has removed is stopped. -/
theorem Owes.stopped (h : x.Owes s) (hhand : x.pc.hand = none) :
  ∀ token ∈ x.removed, s.Stopped token
  := by
  intro token htoken
  obtain hstopped | ⟨task, htask, -⟩ := h.removed token htoken
  · apply hstopped
  · rw [hhand] at htask
    contradiction

omit [PartialEqAny V] in
/-- A step of a call cancels and aborts, and registers nothing. -/
theorem shrinks_advance {c c' : QueryClient V} {x' : Option (CancelCall V)}
    (h : x.advance c = some (c', x')) :
  c.signals.cancelled ⊆ c'.signals.cancelled ∧ c.signals.aborted ⊆ c'.signals.aborted ∧
    ∀ key, ∀ task ∈ c'.inFlight.lookup key, task ∈ c.inFlight.lookup key
  := by
  cases takes_of_advance h with
  | returns _ hf | settle _ hf =>
    rw [hf.cancelled, hf.aborted, hf.inFlight]
    exact ⟨subset_rfl, subset_rfl, fun _ _ => id⟩
  | absent => exact ⟨subset_rfl, subset_rfl, fun _ _ => id⟩
  | remove =>
    refine ⟨subset_rfl, subset_rfl, ?_⟩
    intro key task htask
    obtain ⟨-, htask⟩ := Table.lookup_of_erase htask
    apply htask
  | cancel => exact ⟨Finset.subset_insert _ _, subset_rfl, fun _ _ => id⟩
  | abort => exact ⟨subset_rfl, Finset.subset_insert _ _, fun _ _ => id⟩
  | sweep =>
    refine ⟨subset_rfl, subset_rfl, ?_⟩
    intro key task htask
    contradiction

theorem grows_advance {x' : Option (CancelCall V)} (h : x.advance s.client = some (c', x')) :
  s.Grows { s with client := c' }
  := by
  obtain ⟨hcancelled, haborted, -⟩ := shrinks_advance h
  exact ⟨hcancelled, haborted, Sys.continues_of_eq rfl⟩

/-- A step of a call keeps what it owes. -/
theorem Owes.advance {x' : CancelCall V} (h : x.Owes s) (hsane : s.Sane)
    (ha : x.advance s.client = some (c', some x')) :
  x'.Owes { s with client := c' }
  := by
  have hmono : x.Owes { s with client := c' } :=
    h.mono (grows_advance ha) fun key _ => (shrinks_advance ha).2.2 key
  cases takes_of_advance ha with
  | @remove task key keys hpc hlookup =>
    obtain ⟨heq, r, hr, hspawned, hreturned, -⟩ := hsane.registered key task hlookup
    constructor
    · rintro _ ⟨⟩
      exact ⟨heq, r, hr, hspawned, hreturned⟩
    · nofun
    · intro token htoken
      rcases List.mem_cons.mp htoken with rfl | htoken
      · exact .inr ⟨task, rfl, rfl⟩
      · exact .inl (hmono.stopped (by rw [hpc]; rfl) token htoken)
    · nofun
  | absent hpc =>
    constructor
    · nofun
    · nofun
    · exact fun token htoken => .inl (hmono.stopped (by rw [hpc]; rfl) token htoken)
    · nofun
  | @cancel task pc hhand hhand' haborting hpassed =>
    constructor
    · rw [hhand', ← hhand]
      apply hmono.hand
    · intro task' htask'
      rw [haborting] at htask'
      obtain rfl := Option.some.inj htask'
      apply Finset.mem_insert_self
    · rw [hhand', ← hhand]
      apply hmono.removed
    · rw [hhand', hpassed, ← hhand]
      apply hmono.passed
  | @abort task pc hhand haborting hhand' hpassed =>
    -- the task at hand is cancelled by now, and the step aborts it
    obtain ⟨heq, r, hr, hspawned, -⟩ := h.hand task hhand
    have hstopped : Sys.Stopped { s with client := s.client.abort task.abort }
        task.cancelToken := by
      constructor
      · apply h.aborting task haborting
      · rw [heq]
        apply Finset.mem_insert_self
      · rw [heq]
        exact ⟨r, hr, hspawned⟩
    constructor
    · rw [hhand']
      nofun
    · rw [CancelPc.aborting_eq_none hhand']
      nofun
    · intro token htoken
      left
      obtain hold | ⟨task', htask', rfl⟩ := hmono.removed token htoken
      · apply hold
      · rw [hhand] at htask'
        obtain rfl := Option.some.inj htask'
        apply hstopped
    · rw [hpassed]
      intro key hkey task' htask'
      left
      obtain hold | htask' := hmono.passed key hkey task' htask'
      · apply hold
      · rw [hhand] at htask'
        obtain rfl := Option.some.inj htask'
        apply hstopped
  | settle hhand hf =>
    constructor
    · nofun
    · nofun
    · exact fun token htoken => .inl (hmono.stopped hhand token htoken)
    · nofun
  | @sweep passed hpc hkeys =>
    constructor
    · nofun
    · nofun
    · intro token htoken
      left
      rcases List.mem_append.mp htoken with htoken | htoken
      · obtain ⟨task, htask, rfl⟩ := List.mem_map.mp htoken
        obtain ⟨key, hlookup⟩ := Table.mem_values_iff.mp htask
        have hkey : key ∈ passed := by
          apply hkeys
          apply AList.mem_keys.mp
          rw [← AList.lookup_isSome, hlookup]
          rfl
        obtain hstopped | hhand := h.passed key (by rwa [hpc]) task hlookup
        · exact hstopped.mono (grows_advance ha)
        · rw [hpc] at hhand
          contradiction
      · exact hmono.stopped (by rw [hpc]; rfl) token htoken
    · nofun

/-- A step of a call keeps a sane system sane: what it signals is at hand. -/
theorem Owes.sane_advance {x' : Option (CancelCall V)} (h : x.Owes s) (hsane : s.Sane)
    (ha : x.advance s.client = some (c', x')) :
  Sys.Sane { s with client := c' }
  := by
  have hregistered : ∀ key task, c'.inFlight.lookup key = some task →
      s.client.inFlight.lookup key = some task := (shrinks_advance ha).2.2
  have hand {task : InFlightTask} {i : Nat} (hhand : x.pc.hand = some task)
      (hi : i = task.cancelToken ∨ i = task.abort) :
      ∃ r, s.runs.lookup i = some r ∧ r.returned = true := by
    obtain ⟨heq, r, hr, -, hreturned⟩ := h.hand task hhand
    rw [heq, or_self] at hi
    rw [hi]
    exact ⟨r, hr, hreturned⟩
  refine ⟨hsane.numbered, fun key task htask => hsane.registered key task
    (hregistered key task htask), ?_⟩
  intro i hi
  cases takes_of_advance ha with
  | returns _ hf | settle _ hf =>
    rw [hf.cancelled, hf.aborted] at hi
    apply hsane.signalled i hi
  | cancel hhand =>
    rw [cancelToken, Finset.mem_insert, or_assoc] at hi
    obtain hi | hi := hi
    · apply hand hhand (.inl hi)
    · apply hsane.signalled i hi
  | abort hhand =>
    rw [QueryClient.abort, Finset.mem_insert, or_left_comm] at hi
    obtain hi | hi := hi
    · apply hand hhand (.inr hi)
    · apply hsane.signalled i hi
  | _ => apply hsane.signalled i hi

/-- The loop of a `clear` passes a key and keeps what the call owes. -/
theorem Owes.visit {x' : CancelCall V} {key : String} (h : x.Owes s) (hsane : s.Sane)
    (hv : x.visit s.client key = some x') :
  x'.Owes s
  := by
  obtain ⟨call, pc, removed⟩ := x
  unfold CancelCall.visit at hv
  split at hv
  case h_2 => contradiction
  case h_1 passed hpc =>
    obtain rfl : pc = .visit passed := hpc
    split at hv
    · contradiction
    · split at hv
      case h_1 task hlookup =>
        obtain rfl := Option.some.inj hv
        obtain ⟨heq, r, hr, hspawned, hreturned, -⟩ := hsane.registered key task hlookup
        constructor
        · rintro _ ⟨⟩
          exact ⟨heq, r, hr, hspawned, hreturned⟩
        · nofun
        · exact fun token htoken => .inl (h.stopped rfl token htoken)
        · intro k hk task' htask'
          rcases List.mem_cons.mp hk with rfl | hk
          · rw [hlookup] at htask'
            exact .inr htask'
          · obtain hstopped | hhand := h.passed k hk task' htask'
            · exact .inl hstopped
            · contradiction
      case h_2 hlookup =>
        obtain rfl := Option.some.inj hv
        constructor
        · nofun
        · nofun
        · exact fun token htoken => .inl (h.stopped rfl token htoken)
        · intro k hk task' htask'
          rcases List.mem_cons.mp hk with rfl | hk
          · rw [hlookup] at htask'
            contradiction
          · apply h.passed k hk task' htask'

end CancelCall

namespace Cancelling

variable {s s' : Cancelling V} {i : Nat}

/-- The steps of the fetches in the log leave the cache as it is.  The log is of the
fetches whose registrations cancelling calls have removed, from their returns on. -/
def CancelledNeverWrites (t : Cancelling V × List Token) : Prop :=
  ∀ token ∈ t.2, ∀ o s', t.1.step (.sys (.advance token o)) = some s' →
    s'.sys.client.cache = t.1.sys.client.cache

/-- No call returns while a fetch whose registration it has removed is in its window, and
nothing is registered under a key that the loop of a `clear` has passed. -/
def CancelsInTime (s : Cancelling V) : Action V → Prop
  | .advance i => ∀ x ∈ s.calls.lookup i, x.pc.Returns → ∀ token ∈ x.removed,
    ∀ r ∈ s.sys.runs.lookup token, ¬ r.pc.InWindow
  | .sys (.register j) => ∀ r ∈ s.sys.runs.lookup j, ∀ i x, s.calls.lookup i = some x →
    r.query.key.cacheKey ∉ x.pc.passed
  | _ => True

instance (s : Cancelling V) (a : Action V) : Decidable (s.CancelsInTime a) := by
  unfold CancelsInTime
  split
  · infer_instance
  · have (key : String) :
        Decidable (∀ i x, s.calls.lookup i = some x → key ∉ x.pc.passed) :=
      decidable_of_iff _ Table.forall_lookup_iff.symm
    infer_instance
  · infer_instance

/-- Registrations are sane, and every call owes what it has removed or passed. -/
structure Sound (s : Cancelling V) : Prop where
  sane : s.sys.Sane
  owes : ∀ i x, s.calls.lookup i = some x → x.Owes s.sys

theorem sound_initial :
  Sound (⟨.initial, ∅⟩ : Cancelling V)
  := by
  use Sys.sane_initial
  intro i x hx
  rw [AList.lookup_empty] at hx
  contradiction

/-- Every step that cancels in time keeps the calls sound. -/
theorem Sound.step {a : Action V} (h : s.Sound) (hok : s.CancelsInTime a)
    (hs : s.step a = some s') :
  s'.Sound
  := by
  cases a with
  | sys a =>
    obtain ⟨hsys, hcalls⟩ := step_sys hs
    use h.sane.step hsys
    intro i x hx
    rw [hcalls] at hx
    apply (h.owes i x hx).mono (h.sane.grows hsys)
    intro key hkey task htask
    obtain hold | ⟨j, r, rfl, hr, rfl, -⟩ := (Sys.effect_of_step hsys).inFlight key task htask
    · apply hold
    · exact absurd hkey (hok r hr i x hx)
  | begin i call =>
    obtain ⟨pc, hstart, -, rfl⟩ := step_begin hs
    use h.sane
    intro j y hy
    obtain hy | hy := lookup_put hy
    · obtain rfl := Option.some.inj hy
      apply CancelCall.owes_start hstart
    · apply h.owes j y hy
  | advance i =>
    obtain ⟨x, c, x', hx, hadvance, rfl⟩ := step_advance hs
    have howes := h.owes i x hx
    constructor
    · rw [put_sys]
      apply howes.sane_advance h.sane hadvance
    · intro j y hy
      rw [put_sys]
      obtain rfl | hy := lookup_put hy
      · apply howes.advance h.sane hadvance
      · apply (h.owes j y hy).mono (CancelCall.grows_advance hadvance)
        exact fun key _ => (CancelCall.shrinks_advance hadvance).2.2 key
  | visit i key =>
    obtain ⟨x, x', hx, hvisit, rfl⟩ := step_visit hs
    use h.sane
    intro j y hy
    obtain hy | hy := lookup_put hy
    · obtain rfl := Option.some.inj hy
      apply (h.owes i x hx).visit h.sane hvisit
    · apply h.owes j y hy

/-- An inert fetch stays inert. -/
theorem Sound.inert_step {a : Action V} {token : Token} (h : s.Sound)
    (hinert : s.sys.Inert token) (hs : s.step a = some s') :
  s'.sys.Inert token
  := by
  cases a with
  | sys a => apply hinert.step h.sane (step_sys hs).1
  | begin i call =>
    obtain ⟨pc, -, -, rfl⟩ := step_begin hs
    apply hinert
  | advance i =>
    obtain ⟨x, c, x', -, hadvance, rfl⟩ := step_advance hs
    rw [put_sys]
    exact ⟨hinert.stopped.mono (CancelCall.grows_advance hadvance), hinert.outside⟩
  | visit i key =>
    obtain ⟨x, x', -, -, rfl⟩ := step_visit hs
    apply hinert

/-- A token noted is of a registration that a returning call has removed. -/
theorem exists_of_mem_withdrawn {a : Action V} {token : Token}
    (h : token ∈ s.withdrawn a s') :
  ∃ i x, a = .advance i ∧ s.calls.lookup i = some x ∧ s'.calls.lookup i = none ∧
    token ∈ x.removed
  := by
  unfold withdrawn at h
  split at h
  case h_2 => contradiction
  case h_1 i =>
    split at h
    case h_2 => contradiction
    case h_1 x hx hx' => exact ⟨i, x, rfl, hx, hx', h⟩

/-- A fetch whose registration a call has removed is inert when the call returns in time. -/
theorem Sound.inert_withdrawn {a : Action V} {token : Token} (h : s.Sound)
    (hok : s.CancelsInTime a) (hs : s.step a = some s') (htoken : token ∈ s.withdrawn a s') :
  s.sys.Inert token
  := by
  obtain ⟨i, x, rfl, hx, hx', hremoved⟩ := exists_of_mem_withdrawn htoken
  obtain ⟨y, c, y', hy, hadvance, rfl⟩ := step_advance hs
  rw [hx] at hy
  obtain rfl := Option.some.inj hy
  cases CancelCall.takes_of_advance hadvance with
  | returns hreturns =>
    constructor
    · apply (h.owes i x hx).stopped (CancelPc.hand_of_returns hreturns) token hremoved
    · apply hok x hx hreturns token hremoved
  | _ =>
    rw [put, AList.lookup_insert] at hx'
    contradiction

/-- Along every run that cancels in time, the steps of the fetches whose registrations
cancelling calls have removed leave the cache as it is, from the return of the call on. -/
theorem cancelledNeverWrites_of_run {t : Cancelling V × List Token}
    (h : (machine.noting withdrawn).Run (fun t => t.1.CancelsInTime) t) :
  CancelledNeverWrites t
  := by
  have hkept : t.1.Sound ∧ ∀ token ∈ t.2, t.1.sys.Inert token := by
    apply h.invariant
    · rintro ⟨s, log⟩ ⟨rfl, rfl⟩
      exact ⟨sound_initial, fun _ h => absurd h List.not_mem_nil⟩
    · rintro t a t' - ⟨hsound, hinert⟩ hok hs
      obtain ⟨hstep, hlog⟩ := Machine.step_noting hs
      use hsound.step hok hstep
      intro token htoken
      apply hsound.inert_step _ hstep
      rw [hlog] at htoken
      rcases List.mem_append.mp htoken with htoken | htoken
      · apply hinert token htoken
      · apply hsound.inert_withdrawn hok hstep htoken
  intro token htoken o s' hs
  obtain ⟨hstep, -⟩ := step_sys hs
  obtain ⟨r, c, pc, hr, -, -⟩ := Sys.step_advance hstep
  apply Sys.cache_step_advance hr hstep ((hkept.2 token htoken).outside r hr)

/-- A fetch that is polled while it is being cancelled, and optimistic data written after
the cancellation. -/
theorem cancelledNeverWrites_of_run_optimistic :
  ∃ t : Cancelling (String ⊕ Nat) × List Token,
    (machine.noting withdrawn).Run (fun t => t.1.CancelsInTime) t ∧
      t.2 = [0] ∧ t.1.sys.client.cache.keys = ["k"] ∧ CancelledNeverWrites t
  := by
  have meets : (machine.noting withdrawn).Meets (fun t => t.1.CancelsInTime)
      ((⟨.initial, ∅⟩ : Cancelling (String ⊕ Nat)), [])
      [.sys (.spawn Sys.queryK), .sys (.register 0), .sys (.advance 0 .next),
        .begin 0 (.cancelQuery Sys.queryK.key), .advance 0, .sys (.advance 0 .next), .advance 0,
        .advance 0, .advance 0, .advance 0,
        .sys (.call (.setQueryData Sys.queryK.key (.inl "optimistic") {})),
        .sys (.advance 0 .next)] := by
    decide +kernel
  have init : (machine.noting withdrawn).init
      ((⟨.initial, ∅⟩ : Cancelling (String ⊕ Nat)), []) := ⟨rfl, rfl⟩
  obtain ⟨t, hrun, ht⟩ := Machine.exists_run_of_exec _
    (fun t : Cancelling (String ⊕ Nat) × List Token => (t.2, t.1.sys.client.cache.keys))
    ([0], ["k"]) init meets (by decide +kernel)
  obtain ⟨hlog, hkeys⟩ := Prod.mk.inj ht
  use t, hrun, hlog, hkeys, cancelledNeverWrites_of_run hrun

/-- A fetch cancelled while its fetch function is being polled stores what it fetched,
after the call that cancels it has returned. -/
theorem not_cancelledNeverWrites_fetching :
  ¬ ∀ t : Cancelling (String ⊕ Nat) × List Token,
    (machine.noting withdrawn).Reachable t → CancelledNeverWrites t
  := by
  intro h
  obtain ⟨t, ht, hv⟩ := Machine.exists_reachable_of_exec (M := machine.noting withdrawn)
    (s := (⟨.initial, ∅⟩, []))
    [.sys (.spawn Sys.queryK), .sys (.register 0), .sys (.advance 0 .next),
      .sys (.advance 0 .next), .sys (.advance 0 .next), .sys (.advance 0 .next),
      .sys (.advance 0 .next), .sys (.advance 0 .next),
      .begin 0 (.cancelQuery Sys.queryK.key), .advance 0, .advance 0, .advance 0, .advance 0,
      .advance 0, .sys (.advance 0 (.ready (.ok (.inl "data")))), .sys (.advance 0 .next)]
    (fun t : Cancelling (String ⊕ Nat) × List Token => (t.2, t.1.sys.client.cache.keys,
      (t.1.step (.sys (.advance 0 .next))).map fun s' => s'.sys.client.cache.keys))
    ([0], [], some ["k"]) ⟨rfl, rfl⟩ (by decide +kernel)
  simp only [Prod.mk.injEq, Option.map_eq_some_iff] at hv
  obtain ⟨hlog, hempty, s', hs', hkeys⟩ := hv
  have hcache := h t ht 0 (by rw [hlog]; exact List.mem_singleton_self 0) .next s' hs'
  rw [hcache, hempty] at hkeys
  contradiction

/-- A fetch that is registered between the loop of a `clear` and the emptying of the table
loses its registration without being cancelled, and stores what it fetched. -/
theorem not_cancelledNeverWrites_registered :
  ∃ t : Cancelling (String ⊕ Nat) × List Token, (machine.noting withdrawn).Reachable t ∧
    t.2 = [0] ∧ 0 ∉ t.1.sys.client.signals.cancelled ∧ ¬ CancelledNeverWrites t
  := by
  obtain ⟨t, ht, hv⟩ := Machine.exists_reachable_of_exec (M := machine.noting withdrawn)
    (s := (⟨.initial, ∅⟩, []))
    [.sys (.spawn Sys.queryK), .begin 0 .clear, .visit 0 "k", .sys (.register 0), .advance 0,
      .advance 0, .sys (.advance 0 .next), .sys (.advance 0 .next), .sys (.advance 0 .next),
      .sys (.advance 0 .next), .sys (.advance 0 .next), .sys (.advance 0 .next),
      .sys (.advance 0 (.ready (.ok (.inl "data")))), .sys (.advance 0 .next)]
    (fun t : Cancelling (String ⊕ Nat) × List Token => (t.2,
      decide (0 ∈ t.1.sys.client.signals.cancelled), t.1.sys.client.cache.keys,
      (t.1.step (.sys (.advance 0 .next))).map fun s' => s'.sys.client.cache.keys))
    ([0], false, [], some ["k"]) ⟨rfl, rfl⟩ (by decide +kernel)
  simp only [Prod.mk.injEq, Option.map_eq_some_iff, decide_eq_false_iff_not] at hv
  obtain ⟨hlog, hcancelled, hempty, s', hs', hkeys⟩ := hv
  use t, ht, hlog, hcancelled
  intro h
  have hcache := h 0 (by rw [hlog]; exact List.mem_singleton_self 0) .next s' hs'
  rw [hcache, hempty] at hkeys
  contradiction

end Cancelling

end RsQuery
