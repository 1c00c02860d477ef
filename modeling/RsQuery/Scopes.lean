import RsQuery.ScopeGate

/-!
# Scopes of mutations

A scope has a running flag without an owner: an execution asks whether it can run and
marks the scope in two steps, a clear removes the flag whoever holds it, and the flag is
lowered only where an execution ends normally.  So at most one execution of a scope runs
only where nobody marks a running scope and no scopes are cleared under a running
execution, and a running scope has somebody running in it only where the last one does
not abandon it.  The notifications, on the other hand, are never lost: an execution that
is parked and has no wake-up coming waits for one that is yet to notify.
-/

namespace RsQuery

namespace Mutations

open FlagGate (Gate Phase Move)

variable {s s' : Mutations} {a : Action} {i j : Nat} {e : Exec} {scope : String}

/-- The execution has called `mark_running` and not yet written the flag in
`mark_finished`. -/
def Pc.isInside : Pc → Bool
  | .body _ | .markFinished _ => true
  | _ => false

/-- The execution is about to call `mark_running`. -/
def Pc.isMark : Pc → Bool
  | .gate .mark => true
  | _ => false

/-- The execution is suspended at the gate of its scope. -/
def Pc.isParked : Pc → Bool
  | .gate (.parked _) => true
  | _ => false

theorem Pc.isParked_iff {pc : Pc} :
  pc.isParked = true ↔ ∃ w, pc = .gate (.parked w)
  := by
  unfold Pc.isParked
  split
  · next w => simp
  · next h => simpa using h

/-- The call is about to remove every scope. -/
def CallPc.clearsScopes : CallPc → Bool
  | .clearScopes _ => true
  | _ => false

/-- The execution `i` is between its `mark_running` and its `mark_finished` for a scope. -/
def Inside (s : Mutations) (scope : String) (i : Nat) : Prop :=
  ∃ e ∈ s.execs.lookup i, e.mutation.scope = some ⟨scope⟩ ∧ e.pc.isInside = true

instance (s : Mutations) (scope : String) (i : Nat) : Decidable (s.Inside scope i) :=
  inferInstanceAs (Decidable (∃ e ∈ s.execs.lookup i, _))

/-- The execution has called `mark_running` and not yet completed the notification of its
`mark_finished`. -/
def Pc.owes : Pc → Bool
  | .body _ | .markFinished _ | .notify .. => true
  | _ => false

/-- The execution `i` has called `mark_running` for a scope and has yet to complete the
notification of its `mark_finished`. -/
def Owes (s : Mutations) (scope : String) (i : Nat) : Prop :=
  ∃ e ∈ s.execs.lookup i, e.mutation.scope = some ⟨scope⟩ ∧ e.pc.owes = true

theorem Pc.phase_eq_inside {pc : Pc} :
  pc.phase = .inside ↔ pc.isInside = true
  := by
  unfold Pc.phase Pc.isInside
  split
  all_goals simp

theorem phase_eq_inside :
  s.phase scope i = .inside ↔ s.Inside scope i
  := by
  cases he : s.execs.lookup i with
  | none => simp [phase, Inside, he]
  | some e =>
    rw [phase_eq he, Exec.phase]
    split
    · next hs => simp [Inside, he, hs, Pc.phase_eq_inside]
    · next hs => simp [Inside, he, hs]

theorem owes_of_phase (h : (s.phase scope i).Owes) :
  s.Owes scope i
  := by
  cases he : s.execs.lookup i with
  | none =>
    simp only [phase, he] at h
    apply h.elim
  | some e =>
    rw [phase_eq he, Exec.phase] at h
    split at h
    · next hs =>
      refine ⟨e, he, hs, ?_⟩
      unfold Pc.phase at h
      split at h
      all_goals first
        | exact h.elim
        | next hpc =>
          rw [hpc]
          rfl
    · apply h.elim

/-- Nobody has come to the gate of any scope of a new cache. -/
theorem gate_initial (scope : String) :
  initial.gate scope = ⟨false, none, fun _ => .away, ∅⟩
  := by
  apply Gate.ext
  · rfl
  · rfl
  · rfl
  · ext i
    simp [gate, PendingWake, initial, hand, callHand]

/-! ### At most one execution of a scope runs -/

/-- At most one execution is between its `mark_running` and its `mark_finished` for a
scope. -/
def ScopesExclusive (s : Mutations) : Prop :=
  ∀ scope i j, s.Inside scope i → s.Inside scope j → i = j

/-- A scope is marked only while it can run, and scopes are cleared only while no
execution is inside one. -/
def RespectsRunning (s : Mutations) : Action → Prop
  | .advance i _ => ∀ e ∈ s.execs.lookup i, e.pc.isMark = true →
    ∀ scope ∈ e.mutation.scope, s.cache.canRun scope.id = true
  | .advanceCall j => ∀ pc ∈ s.calls.lookup j, pc.clearsScopes = true →
    ∀ i e, s.execs.lookup i = some e → e.mutation.scope.isSome = true → e.pc.isInside = false
  | _ => True

instance (s : Mutations) (a : Action) : Decidable (s.RespectsRunning a) := by
  unfold RespectsRunning
  split
  all_goals infer_instance

theorem Shows.respectsFlag
    {b : FlagGate.Action Nat} (h : s.Shows scope a b) (hok : s.RespectsRunning a) :
  (s.gate scope).RespectsFlag b
  := by
  cases b with
  | enter i =>
    obtain ⟨⟨o, rfl⟩, e, he, hpc, hs⟩ := h.enter i rfl
    simp [Gate.RespectsFlag, gate, hok e he (by rw [hpc]; rfl) ⟨scope⟩ hs]
  | reset =>
    obtain ⟨j, ids, rfl, hj⟩ := h.reset rfl
    intro i hi
    obtain ⟨e, he, hs, hin⟩ := phase_eq_inside.mp hi
    have hout := hok _ hj rfl i e he (by rw [hs]; rfl)
    rw [hin] at hout
    contradiction
  | _ => trivial

/-- Along every run in which no running scope is marked and none is cleared under a
running execution, at most one execution of a scope runs. -/
theorem scopesExclusive_of_run (h : machine.Run RespectsRunning s) :
  s.ScopesExclusive
  := by
  have hgate (scope : String) : (s.gate scope).Exclusive := by
    apply gate_of_run h
    · intro scope
      rw [gate_initial]
      exact ⟨nofun, nofun⟩
    · exact fun s a scope b g hok hb hex hm => hex.move (hb.respectsFlag hok) hm
  intro scope i j hi hj
  apply (hgate scope).unique i j (phase_eq_inside.mpr hi) (phase_eq_inside.mpr hj)

theorem isInside_of_mark
    {nowMs : Nat} {o : Outcome} {c c' : MutationCache} {e' : Exec}
    (h : e.advance i nowMs c o = some (c', e')) (hpc : e.pc.isMark = true) :
  e'.pc.isInside = true
  := by
  cases takes_of_advance h with
  | @gate pc _ _ _ hpc' _ hg =>
    rw [hpc'] at hpc
    cases pc with
    | mark =>
      cases hg
      rfl
    | _ => contradiction
  | poll hpc' | add hpc' _ | added hpc' _ | toScope hpc' _ | toBody hpc' _ | subscribe hpc' _
  | body hpc' _ | markFinished hpc' _ | notify hpc' _ _ | runNext hpc' _ _ =>
    rw [hpc'] at hpc
    contradiction

/-- A mark of a running scope that somebody runs in lets a second execution in. -/
theorem respectsRunning_of_exclusive
    {o : Outcome} (hatt : ∀ scope, s.cache.canRun scope = false → ∃ j, s.Inside scope j)
    (h : s.step (.advance i o) = some s') (hex : s'.ScopesExclusive) :
  s.RespectsRunning (.advance i o)
  := by
  intro e he hpc scope hs
  cases hrun : s.cache.canRun scope.id with
  | true => rfl
  | false =>
    obtain ⟨j, f, hf, hfs, hin⟩ := hatt scope.id hrun
    obtain ⟨e', c, e'', he', ha, rfl⟩ := step_advance h
    obtain rfl := Option.some.inj (he.symm.trans he')
    have hne : j ≠ i := by
      rintro rfl
      obtain rfl := Option.some.inj (hf.symm.trans he)
      cases hpc' : f.pc with
      | gate => simp [hpc', Pc.isInside] at hin
      | _ => simp [hpc', Pc.isMark] at hpc
    have hi : Inside { s.setExec i e'' with cache := c } scope.id i := by
      refine ⟨e'', AList.lookup_insert _, by rw [mutation_advance ha, hs], ?_⟩
      apply isInside_of_mark ha hpc
    have hj : Inside { s.setExec i e'' with cache := c } scope.id j :=
      ⟨f, (AList.lookup_insert_ne hne).trans hf, hfs, hin⟩
    exact absurd (hex scope.id j i hj hi) hne

/-- A clear of the scopes under a running execution lets the next one in. -/
theorem exists_overlap_of_clear
    {k : Nat} {f : Exec} {w : Watch.Watcher} {ids : List Nat} (hi : s.Inside scope i)
    (hj : s.calls.lookup j = some (.clearScopes ids)) (hk : s.execs.lookup k = some f)
    (hf : f.mutation.scope = some ⟨scope⟩) (hpc : f.pc = .gate (.check w)) :
  ∃ s', machine.exec s (.advanceCall j :: [.advance k .next, .advance k .next]) = some s' ∧
    ¬ s'.ScopesExclusive
  := by
  obtain ⟨e, he, hs, hin⟩ := hi
  have hne : i ≠ k := by
    rintro rfl
    obtain rfl := Option.some.inj (he.symm.trans hk)
    rw [hpc] at hin
    contradiction
  let s₁ : Mutations := { s with
    cache := s.cache.clearScopes
    calls := s.calls.insert j (.cleared ids) }
  let s₂ : Mutations := s₁.setExec k { f with pc := .gate .mark }
  let s₃ : Mutations := { s₂.setExec k { f with pc := .body .readPaused } with
    cache := s₂.cache.markRunning scope }
  have h₁ : s.step (.advanceCall j) = some s₁ := by
    simp only [step, hj, CallPc.advance]
    rfl
  have h₂ : s₁.step (.advance k .next) = some s₂ := by
    refine step_of_advance (s := s₁) hk ?_
    simp only [Exec.advance, hpc, hf]
    rfl
  have h₃ : s₂.step (.advance k .next) = some s₃ := by
    refine step_of_advance (s := s₂) (AList.lookup_insert _) ?_
    simp only [Exec.advance, hf]
    rfl
  refine ⟨s₃, by simp [Machine.exec, machine, h₁, h₂, h₃], ?_⟩
  intro hex
  have hi : s₃.Inside scope i := by
    refine ⟨e, ?_, hs, hin⟩
    apply (AList.lookup_insert_ne hne).trans ((AList.lookup_insert_ne hne).trans he)
  have hk : s₃.Inside scope k := ⟨_, AList.lookup_insert _, hf, rfl⟩
  apply hne (hex scope i k hi hk)

/-- Advances of one execution that depend on nothing but the cache. -/
def advances (i n : Nat) : List Action :=
  List.replicate n (.advance i .next)

/-- A mutation in the scope `"s"`. -/
def mutationS : Mutation where
  scope := some ⟨"s"⟩

/-- No execution is abandoned. -/
def NoneAbandoned (_ : Mutations) : Action → Prop
  | .abandon _ => False
  | _ => True

instance (s : Mutations) (a : Action) : Decidable (s.NoneAbandoned a) := by
  unfold NoneAbandoned
  split
  all_goals infer_instance

/-- A second execution waits while the first one runs. -/
theorem scopesExclusive_of_run_waiting :
  ∃ s, machine.Run RespectsRunning s ∧ s.Inside "s" 0 ∧ s.ScopesExclusive
  := by
  have meets : machine.Meets RespectsRunning initial
      (.submit 0 mutationS :: .submit 1 mutationS :: advances 0 10 ++ advances 1 10) := by
    decide +kernel
  obtain ⟨s, hrun, hi⟩ := Machine.exists_run_of_exec _
    (fun s : Mutations => decide (s.Inside "s" 0)) true rfl meets (by decide +kernel)
  use s, hrun, of_decide_eq_true hi, scopesExclusive_of_run hrun

/-- Two executions that have both been told that they can run both do. -/
theorem not_scopesExclusive_race :
  ¬ ∀ s, machine.Run NoneAbandoned s → s.ScopesExclusive
  := by
  intro h
  have meets : machine.Meets NoneAbandoned initial (.submit 0 mutationS :: .submit 1 mutationS ::
      advances 0 9 ++ advances 1 10 ++ advances 0 1) := by
    decide +kernel
  obtain ⟨s, hrun, hv⟩ := Machine.exists_run_of_exec _
    (fun s : Mutations => (decide (s.Inside "s" 0), decide (s.Inside "s" 1))) (true, true) rfl meets
    (by decide +kernel)
  simp only [Prod.mk.injEq, decide_eq_true_eq] at hv
  exact absurd (h s hrun "s" 0 1 hv.1 hv.2) (by decide)

/-! ### A running scope has somebody running in it -/

/-- A scope whose running flag is set has an execution between its `mark_running` and its
`mark_finished`. -/
def ScopesAttended (s : Mutations) : Prop :=
  ∀ scope, s.cache.canRun scope = false → ∃ i, s.Inside scope i

/-- An execution that is the only one inside a scope is not abandoned while the running
flag of the scope is set. -/
def LeavesScopesAttended (s : Mutations) : Action → Prop
  | .abandon i => ∀ scope, s.Inside scope i → s.cache.canRun scope = false →
    ∃ j, j ≠ i ∧ s.Inside scope j
  | _ => True

theorem Shows.leavesAttended
    {b : FlagGate.Action Nat} (h : s.Shows scope a b) (hok : s.LeavesScopesAttended a) :
  (s.gate scope).LeavesAttended b
  := by
  cases b with
  | crash i =>
    obtain ⟨rfl, -⟩ := h.crash i rfl
    intro hr hi
    obtain ⟨j, hj, hin⟩ := hok scope (phase_eq_inside.mp hi) (by simpa [gate] using hr)
    exact ⟨j, hj, phase_eq_inside.mpr hin⟩
  | _ => trivial

/-- Along every run in which no execution is abandoned as the only one inside a running
scope, a running scope has an execution inside. -/
theorem scopesAttended_of_run (h : machine.Run LeavesScopesAttended s) :
  s.ScopesAttended
  := by
  have hgate (scope : String) : (s.gate scope).Attended := by
    apply gate_of_run h
    · intro scope
      rw [gate_initial]
      exact nofun
    · exact fun s a scope b g hok hb hatt hm => hatt.move (hb.leavesAttended hok) hm
  intro scope hrun
  obtain ⟨i, hi⟩ := hgate scope (by simp [gate, hrun])
  exact ⟨i, phase_eq_inside.mp hi⟩

/-- No execution is abandoned inside a scope. -/
def ReleasesScopes (s : Mutations) : Action → Prop
  | .abandon i => ∀ e ∈ s.execs.lookup i, e.mutation.scope.isSome = true → e.pc.isInside = false
  | _ => True

instance (s : Mutations) (a : Action) : Decidable (s.ReleasesScopes a) := by
  unfold ReleasesScopes
  split
  all_goals infer_instance

theorem ReleasesScopes.not_inside (hok : s.ReleasesScopes (.abandon i)) :
  ¬ s.Inside scope i
  := by
  rintro ⟨e, he, hs, hin⟩
  have hout := hok e he (by rw [hs]; rfl)
  rw [hin] at hout
  contradiction

theorem ReleasesScopes.leavesScopesAttended (hok : s.ReleasesScopes a) :
  s.LeavesScopesAttended a
  := by
  cases a with
  | abandon i => exact fun scope hi => absurd hi hok.not_inside
  | _ => trivial

/-- An abandonment that leaves every running scope with somebody inside keeps to the
condition. -/
theorem leavesScopesAttended_of_attended
    (h : s.step (.abandon i) = some s') (hatt : s'.ScopesAttended) :
  s.LeavesScopesAttended (.abandon i)
  := by
  obtain ⟨e, he, hpc, rfl⟩ := step_abandon h
  intro scope hi hrun
  obtain ⟨j, f, hf, hs, hin⟩ := hatt scope hrun
  have hne : j ≠ i := by
    rintro rfl
    obtain rfl := Option.some.inj ((AList.lookup_insert _).symm.trans hf)
    contradiction
  exact ⟨j, hne, f, (AList.lookup_insert_ne hne).symm.trans hf, hs, hin⟩

/-- An execution is dropped while it waits for its scope. -/
theorem scopesAttended_of_run_waiting :
  ∃ s, machine.Run LeavesScopesAttended s ∧ s.cache.canRun "s" = false ∧ s.ScopesAttended
  := by
  have meets : machine.Meets ReleasesScopes initial
      (.submit 0 mutationS :: .submit 1 mutationS :: advances 0 10 ++ advances 1 10 ++
        [.abandon 1]) := by
    decide +kernel
  obtain ⟨s, hrun, hs⟩ := Machine.exists_run_of_exec _
    (fun s : Mutations => s.cache.canRun "s") false rfl meets (by decide +kernel)
  have hrun : machine.Run LeavesScopesAttended s := hrun.mono fun _ _ => ReleasesScopes.leavesScopesAttended
  use s, hrun, hs, scopesAttended_of_run hrun

/-- An execution that is dropped in its mutate function leaves its scope running. -/
theorem not_scopesAttended_dropped :
  ¬ ∀ s, machine.Reachable s → s.ScopesAttended
  := by
  intro h
  obtain ⟨s, hs, hv⟩ := Machine.exists_reachable_of_exec (M := machine) (s := initial)
    (.submit 0 mutationS :: advances 0 12 ++ [.abandon 0])
    (fun s : Mutations => (s.cache.canRun "s",
      decide (∀ i e, s.execs.lookup i = some e → e.pc.isInside = false)))
    (false, true) rfl (by decide +kernel)
  simp only [Prod.mk.injEq, decide_eq_true_eq] at hv
  obtain ⟨i, e, he, -, hin⟩ := h s hs "s" hv.1
  have hout := hv.2 i e he
  rw [hin] at hout
  contradiction

/-! ### No wake-up is lost -/

/-- An execution parked at the gate of a scope with no wake-up pending waits for another
one that has yet to complete its notification. -/
def NoLostWakeup (s : Mutations) : Prop :=
  ∀ scope i e w, s.execs.lookup i = some e → e.mutation.scope = some ⟨scope⟩ →
    e.pc = .gate (.parked w) → ¬ s.PendingWake i → ∃ j, j ≠ i ∧ s.Owes scope j

/-- User code and suspensions are inside a scope or away from its gate. -/
theorem Pc.isInside_of_interruptible {pc : Pc} (h : pc.interruptible = true)
    (howes : pc.phase.Owes) :
  pc.isInside = true
  := by
  cases pc with
  | body => rfl
  | markFinished => rfl
  | notify => contradiction
  | gate pc =>
    cases pc with
    | _ => apply howes.elim
  | _ => apply howes.elim

theorem Shows.paysDebts
    {b : FlagGate.Action Nat} (h : s.Shows scope a b) (hok : s.ReleasesScopes a) :
  (s.gate scope).PaysDebts b
  := by
  cases b with
  | crash i =>
    obtain ⟨rfl, e, he, hpc⟩ := h.crash i rfl
    intro howes
    simp only [gate, phase_eq he, Exec.phase] at howes
    split at howes
    · next hs => apply hok.not_inside ⟨e, he, hs, Pc.isInside_of_interruptible hpc howes⟩
    · apply howes.elim
  | _ => trivial

/-- Along every run in which no execution is abandoned inside its scope, no wake-up of a
scope is lost. -/
theorem noLostWakeup_of_run (h : machine.Run ReleasesScopes s) :
  s.NoLostWakeup
  := by
  have hgate (scope : String) : (s.gate scope).Attended ∧ (s.gate scope).Ticketed ∧
      (s.gate scope).Posted ∧ (s.gate scope).Woken := by
    apply gate_of_run (I := fun g => g.Attended ∧ g.Ticketed ∧ g.Posted ∧ g.Woken) h
    · intro scope
      rw [gate_initial]
      exact ⟨nofun, ⟨nofun, nofun⟩, nofun, nofun⟩
    · rintro s a scope b g hok hb ⟨hatt, ht, hp, hw⟩ hm
      exact ⟨hatt.move (hb.leavesAttended hok.leavesScopesAttended) hm, ht.move hm,
        hp.move ht hm, hw.move ht hatt (hb.paysDebts hok) hm⟩
  intro scope i e w he hs hpc hwake
  obtain ⟨-, ht, hp, hw⟩ := hgate scope
  have hi : (s.gate scope).phase i = .parked (ticket w) := by
    rw [show (s.gate scope).phase i = _ from phase_eq he, Exec.phase, if_pos hs, hpc]
    rfl
  obtain ⟨j, hj⟩ := Gate.owes_of_parked ht hp hw hi hwake
  refine ⟨j, ?_, owes_of_phase hj⟩
  rintro rfl
  rw [hi] at hj
  apply hj

theorem not_pendingWake
    (hw : i ∉ s.woken) (he : ∀ j e, s.execs.lookup j = some e → i ∉ e.pc.hand)
    (hc : ∀ j pc, s.calls.lookup j = some pc → i ∉ pc.hand) :
  ¬ s.PendingWake i
  := by
  rintro (h | ⟨j, h⟩ | ⟨j, h⟩)
  · apply hw h
  · cases hj : s.execs.lookup j with
    | none => simp [hand, hj] at h
    | some e => apply he j e hj (by rwa [hand_eq hj] at h)
  · cases hj : s.calls.lookup j with
    | none => simp [callHand, hj] at h
    | some pc => apply hc j pc hj (by simpa [callHand, hj] using h)

/-- A second execution parks while the first one runs. -/
theorem noLostWakeup_of_run_parked :
  ∃ s, machine.Run ReleasesScopes s ∧ (∃ e w, s.execs.lookup 1 = some e ∧
    e.pc = .gate (.parked w)) ∧ ¬ s.PendingWake 1 ∧ s.NoLostWakeup
  := by
  have meets : machine.Meets ReleasesScopes initial
      (.submit 0 mutationS :: .submit 1 mutationS :: advances 0 10 ++ advances 1 10) := by
    decide +kernel
  obtain ⟨s, hrun, hv⟩ := Machine.exists_run_of_exec _
    (fun s : Mutations => ((s.execs.lookup 1).map fun e => e.pc.isParked,
      decide (1 ∉ s.woken), decide (∀ j e, s.execs.lookup j = some e → 1 ∉ e.pc.hand),
      decide (∀ j pc, s.calls.lookup j = some pc → 1 ∉ pc.hand)))
    (some true, true, true, true) rfl meets (by decide +kernel)
  simp only [Prod.mk.injEq, decide_eq_true_eq] at hv
  obtain ⟨hparked, hw, he, hc⟩ := hv
  obtain ⟨e, hlookup, hpc⟩ := Option.map_eq_some_iff.mp hparked
  obtain ⟨w, hpc⟩ := Pc.isParked_iff.mp hpc
  exact ⟨s, hrun, ⟨e, w, hlookup, hpc⟩, not_pendingWake hw he hc, noLostWakeup_of_run hrun⟩

end Mutations

end RsQuery
