import RsQuery.Lib.FlagGate
import RsQuery.MutationRuns

/-!
# The gate of a scope

Seen from one scope, a cache with its executions and calls is a gate guarded by a flag:
the flag is the running flag of the scope, the cell its release cell, and an execution of
the scope is inside from its `mark_running` to the flag write of its `mark_finished`.
Every step of the system is a move at the gate of every scope, or none.
-/

namespace RsQuery

namespace Mutations

open FlagGate (Gate Phase Ticket Cell Move)

/-! ### Seen from one scope -/

/-- A watcher as a ticket. -/
def ticket (w : Watch.Watcher) : Ticket :=
  ⟨w.lastSeen, w.id⟩

/-- A release cell as a cell of the gate. -/
def cell (c : Watch.Shared Unit) : Cell Nat :=
  ⟨c.version, c.nextId, c.waiters.lookup⟩

/-- Where an execution is at the gate of its scope. -/
def Pc.phase : Pc → Phase
  | .gate (.check w) => .looking (ticket w)
  | .gate .mark => .entering
  | .gate (.poll w) => .waiting (ticket w)
  | .gate (.parked w) => .parked (ticket w)
  | .body _ | .markFinished _ => .inside
  | .notify .lookup _ | .notify .send _ => .leaving
  | _ => .away

/-- Where an execution is at the gate of a scope. -/
def Exec.phase (e : Exec) (scope : String) : Phase :=
  if e.mutation.scope = some ⟨scope⟩ then e.pc.phase else .away

/-- Where the execution `i` is at the gate of a scope. -/
def phase (s : Mutations) (scope : String) (i : Nat) : Phase :=
  ((s.execs.lookup i).map (·.phase scope)).getD .away

/-- The wakers the execution `i` has still to wake. -/
def hand (s : Mutations) (i : Nat) : List Waker :=
  ((s.execs.lookup i).map (·.pc.hand)).getD []

/-- The wakers the call `j` has still to wake. -/
def callHand (s : Mutations) (j : Nat) : List Waker :=
  ((s.calls.lookup j).map (·.hand)).getD []

/-- The task of `i` has been woken since it was polled, or a sender has taken its waker
and is about to wake it. -/
def PendingWake (s : Mutations) (i : Nat) : Prop :=
  i ∈ s.woken ∨ (∃ h, i ∈ s.hand h) ∨ ∃ j, i ∈ s.callHand j

/-- The gate of a scope. -/
def gate (s : Mutations) (scope : String) : Gate Nat where
  raised := !s.cache.canRun scope
  cell := (s.cache.scopeRelease.lookup scope).map cell
  phase := s.phase scope
  called := {i | s.PendingWake i}

variable {s s' : Mutations} {a : Action} {i j : Nat} {e : Exec} {c : MutationCache}
  {scope : String}

/-! ### What is seen of a change -/

theorem phase_eq (he : s.execs.lookup i = some e) :
  s.phase scope i = e.phase scope
  := by
  simp [phase, he]

theorem hand_eq (he : s.execs.lookup i = some e) :
  s.hand i = e.pc.hand
  := by
  simp [hand, he]

theorem phase_setExec (s : Mutations) (i : Nat) (e : Exec) (scope : String) :
  (s.setExec i e).phase scope = Function.update (s.phase scope) i (e.phase scope)
  := by
  funext j
  simp only [phase, setExec, Table.lookup_insert_eq, Function.update_apply]
  split
  · rfl
  · rfl

theorem hand_setExec (s : Mutations) (i : Nat) (e : Exec) :
  (s.setExec i e).hand = Function.update s.hand i e.pc.hand
  := by
  funext j
  simp only [hand, setExec, Table.lookup_insert_eq, Function.update_apply]
  split
  · rfl
  · rfl

/-- What is seen of a scope when the execution `i` has got to a phase with these wakers to
wake, and the cache is `c`. -/
def seen (s : Mutations) (scope : String) (c : MutationCache) (i : Nat) (p : Phase)
    (hand : List Waker) : Gate Nat where
  raised := !c.canRun scope
  cell := (c.scopeRelease.lookup scope).map cell
  phase := Function.update (s.phase scope) i p
  called := (s.gate scope).called ∪ {j | j ∈ hand}

/-- An execution with no wakers to wake has advanced. -/
theorem gate_setExec (hh : s.hand i = []) :
  gate { s.setExec i e with cache := c } scope = s.seen scope c i (e.phase scope) e.pc.hand
  := by
  apply Gate.ext
  · rfl
  · rfl
  · apply phase_setExec s i e scope
  · have hhand : hand { s.setExec i e with cache := c } = Function.update s.hand i e.pc.hand :=
      hand_setExec s i e
    ext j
    simp only [gate, PendingWake, hhand, Set.mem_ofPred_eq, Function.update_apply]
    constructor
    · rintro (hj | ⟨h, hj⟩ | hj)
      · exact .inl (.inl hj)
      · split at hj
        · exact .inr hj
        · exact .inl (.inr (.inl ⟨h, hj⟩))
      · exact .inl (.inr (.inr hj))
    · rintro ((hj | ⟨h, hj⟩ | hj) | hj)
      · exact .inl hj
      · right
        left
        use h
        split
        · next heq => simp [heq, hh] at hj
        · apply hj
      · exact .inr (.inr hj)
      · right
        left
        use i
        simpa using hj

/-! ### Steps as moves -/

open MutationCache

/-- The moves that show which step was taken: only an execution that marks its scope
enters, only a clear of the scopes resets, and only an abandoned execution crashes. -/
structure Shows (s : Mutations) (scope : String) (a : Action) (b : FlagGate.Action Nat) :
    Prop where
  enter : ∀ i, b = .enter i → (∃ o, a = .advance i o) ∧ ∃ e, s.execs.lookup i = some e ∧
    e.pc = .gate .mark ∧ e.mutation.scope = some ⟨scope⟩
  reset : b = .reset → ∃ j ids, a = .advanceCall j ∧ s.calls.lookup j = some (.clearScopes ids)
  crash : ∀ i, b = .crash i → a = .abandon i ∧ ∃ e, s.execs.lookup i = some e ∧
    e.pc.interruptible = true

/-- A step is a move at the gate of a scope, or nothing is seen of it. -/
def MovesTo (s : Mutations) (scope : String) (a : Action) (g : Gate Nat) : Prop :=
  g = s.gate scope ∨ ∃ b, s.Shows scope a b ∧ Move (s.gate scope) b g

theorem MovesTo.of_move
    {b : FlagGate.Action Nat} {g g' : Gate Nat} (h : Move (s.gate scope) b g')
    (henter : ∀ i, b ≠ .enter i) (hreset : b ≠ .reset) (hcrash : ∀ i, b ≠ .crash i)
    (hg : g = g') :
  s.MovesTo scope a g
  := by
  rw [hg]
  exact .inr ⟨b, ⟨fun i hi => absurd hi (henter i), fun hb => absurd hb hreset,
    fun i hi => absurd hi (hcrash i)⟩, h⟩

/-- Nothing is seen of a step that leaves the phase and the scope as they are. -/
theorem seen_quiet {p : Phase} (hphase : s.phase scope i = p) (hsame : SameAt scope s.cache c) :
  s.seen scope c i p [] = s.gate scope
  := by
  apply Gate.ext
  · simp only [seen, gate, hsame.canRun]
  · simp only [seen, gate, hsame.release]
  · rw [← hphase]
    apply Function.update_eq_self i (s.phase scope)
  · simp [seen]

/-- A step elsewhere does no more than call somebody. -/
theorem movesTo_elsewhere
    {p : Phase} {hand : List Waker} (hphase : s.phase scope i = p)
    (hsame : SameAt scope s.cache c) :
  s.MovesTo scope a (s.seen scope c i p hand)
  := by
  have h : Move (s.gate scope) .call { s.gate scope with
      called := (s.gate scope).called ∪ {j | j ∈ hand} } := .call fun i t _ hi => .inl hi
  apply MovesTo.of_move h nofun nofun nofun
  rw [← seen_quiet hphase hsame]
  apply Gate.ext
  · rfl
  · rfl
  · rfl
  · simp [seen]

/-- What is seen of a notification when the execution `i` goes on to a phase. -/
theorem seen_sendRelease (s : Mutations) (scope : String) (i : Nat) (p : Phase) :
  s.seen scope (s.cache.sendRelease scope).1 i p (s.cache.sendRelease scope).2 =
    ((s.gate scope).setPhase i p).bump
  := by
  apply Gate.ext
  · simp only [seen, canRun_sendRelease]
    rfl
  · simp only [seen, sendRelease_lookup, ↓reduceIte, Gate.bump, Gate.setPhase, gate,
      Option.map_map]
    rfl
  · rfl
  · ext j
    simp [seen, Gate.bump, Gate.registered, Gate.setPhase, mem_sendRelease, gate, cell]

/-- Nothing is seen of a step of an execution that stays in its phase and leaves its scope
as it is. -/
theorem movesTo_quiet
    {p : Phase} (hphase : s.phase scope i = p) (hsame : SameAt scope s.cache c) :
  s.MovesTo scope a (s.seen scope c i p [])
  := .inl (seen_quiet hphase hsame)

/-- What an execution does at the gate of its scope. -/
theorem movesTo_gate
    {o : Outcome} {pc : GatePc} {pc' : Pc} (halive : CellsAlive s.cache)
    (he : s.execs.lookup i = some e) (hpc : e.pc = .gate pc)
    (hs : e.mutation.scope = some ⟨scope⟩)
    (h : Exec.advanceGate i scope s.cache pc = some (c, pc')) :
  s.MovesTo scope (.advance i o) (s.seen scope c i pc'.phase pc'.hand)
  := by
  have hphase : (s.gate scope).phase i = (Pc.gate pc).phase := by
    rw [show (s.gate scope).phase i = _ from phase_eq he, Exec.phase, if_pos hs, hpc]
  cases pc with
  | check w =>
    cases h
    cases hrun : s.cache.canRun scope with
    | true =>
      have hm := Move.pass hphase (by simp [Mutations.gate, hrun])
      apply MovesTo.of_move hm (by simp) (by simp) (by simp)
      apply Gate.ext
      · rfl
      · rfl
      · rfl
      · simp [seen, Pc.hand, Gate.setPhase]
    | false =>
      have hm := Move.fail hphase (by simp [Mutations.gate, hrun])
      apply MovesTo.of_move hm (by simp) (by simp) (by simp)
      apply Gate.ext
      · rfl
      · rfl
      · rfl
      · simp [seen, Pc.hand, Gate.setPhase]
  | mark =>
    cases h
    right
    refine ⟨.enter i, ⟨?_, by simp, by simp⟩, ?_⟩
    · rintro _ ⟨⟩
      exact ⟨⟨o, rfl⟩, e, he, hpc, hs⟩
    · convert Move.enter hphase using 1
      apply Gate.ext
      · simp [seen, canRun_markRunning]
      · rfl
      · rfl
      · simp [seen, Pc.hand, Gate.setPhase]
  | poll w =>
    cases hcell : s.cache.scopeRelease.lookup scope with
    | none => simp [Exec.advanceGate, MutationCache.pollRelease, hcell] at h
    | some c =>
      have hc : (s.gate scope).cell = some (cell c) := by simp [Mutations.gate, hcell]
      by_cases hv : c.version = w.lastSeen
      · simp only [Exec.advanceGate, MutationCache.pollRelease, hcell, Option.map_some,
          Watch.changedPoll_pending hv (halive scope c hcell)] at h
        cases h
        apply MovesTo.of_move (Move.park hphase hc hv) (by simp) (by simp) (by simp)
        apply Gate.ext
        · rfl
        · simp only [seen, AList.lookup_insert, Option.map_some, cell, Option.some.injEq,
            Cell.mk.injEq, true_and]
          funext id
          rw [Function.update_apply, Table.lookup_insert_eq]
          rfl
        · rfl
        · simp [seen, Pc.hand, Gate.setPhase]
      · simp only [Exec.advanceGate, MutationCache.pollRelease, hcell, Option.map_some,
          Watch.changedPoll_ready hv] at h
        cases h
        apply MovesTo.of_move (Move.ready hphase hc hv) (by simp) (by simp) (by simp)
        apply Gate.ext
        · rfl
        · simp [seen, Mutations.gate, Gate.setPhase, hcell]
        · rfl
        · simp [seen, Pc.hand, Gate.setPhase]
  | parked w => contradiction

/-- What an execution does in the notification of its scope. -/
theorem movesTo_notify
    {pc : NotifyPc} {result : Result} {pc' : Option NotifyPc}
    (hphase : (s.gate scope).phase i = (Pc.notify pc result).phase)
    (h : pc.advance scope s.cache = some (c, pc')) :
  s.MovesTo scope a (s.seen scope c i
    (pc'.elim (Pc.runNext .pop result) (.notify · result)).phase
    (pc'.elim (Pc.runNext .pop result) (.notify · result)).hand)
  := by
  cases pc with
  | lookup =>
    cases hcell : s.cache.scopeRelease.lookup scope with
    | none =>
      simp only [NotifyPc.advance, MutationCache.hasRelease, hcell] at h
      cases h
      apply MovesTo.of_move (Move.notify hphase) nofun nofun nofun
      apply Gate.ext
      · rfl
      · simp [seen, Gate.bump, Gate.setPhase, Mutations.gate, hcell]
      · rfl
      · ext j
        simp [seen, Gate.bump, Gate.registered, Gate.setPhase, Mutations.gate, hcell, Pc.hand,
          RunNextPc.hand]
    | some cell =>
      simp only [NotifyPc.advance, MutationCache.hasRelease, hcell] at h
      cases h
      apply movesTo_quiet hphase ⟨rfl, rfl⟩
  | send =>
    cases h
    apply MovesTo.of_move (Move.notify hphase) nofun nofun nofun
    apply seen_sendRelease
  | wake wakers =>
    cases wakers with
    | nil =>
      cases h
      apply movesTo_quiet hphase ⟨rfl, rfl⟩
    | cons => contradiction

/-- What an execution does in `run_next` for its scope. -/
theorem movesTo_runNext
    {pc : RunNextPc} {result : Result} {pc' : Option RunNextPc}
    (hphase : (s.gate scope).phase i = .away)
    (h : pc.advance scope s.cache = some (c, pc')) :
  s.MovesTo scope a (s.seen scope c i
    (pc'.elim (Pc.done result) (.runNext · result)).phase
    (pc'.elim (Pc.done result) (.runNext · result)).hand)
  := by
  have hpc' : (pc'.elim (Pc.done result) (.runNext · result)).hand = pc'.elim [] RunNextPc.hand ∧
      (pc'.elim (Pc.done result) (.runNext · result)).phase = .away := by
    cases pc' with
    | none => exact ⟨rfl, rfl⟩
    | some pc' => exact ⟨rfl, rfl⟩
  rw [hpc'.1, hpc'.2]
  obtain ⟨hsame, hhand⟩ | ⟨rfl, hhand⟩ := runNext_cases h
  · rw [hhand]
    apply movesTo_quiet hphase (hsame scope)
  · rw [hhand, seen_sendRelease]
    apply MovesTo.of_move Move.bump nofun nofun nofun
    rw [Gate.setPhase, ← hphase, Function.update_eq_self]

/-- What an execution does to its own scope. -/
theorem movesTo_own
    {o : Outcome} {e' : Exec} (halive : CellsAlive s.cache) (he : s.execs.lookup i = some e)
    (h : e.advance i s.nowMs s.cache o = some (c, e')) (hs : e.mutation.scope = some ⟨scope⟩) :
  s.MovesTo scope (.advance i o) (s.seen scope c i e'.pc.phase e'.pc.hand)
  := by
  have hphase : (s.gate scope).phase i = e.pc.phase := by
    rw [show (s.gate scope).phase i = _ from phase_eq he, Exec.phase, if_pos hs]
  have own {scope' : MutationScope} (hs' : e.mutation.scope = some scope') : scope' = ⟨scope⟩ :=
    Option.some.inj (hs'.symm.trans hs)
  cases takes_of_advance h with
  | poll hpc | toScope hpc _ =>
    rw [hpc] at hphase
    apply movesTo_quiet hphase ⟨rfl, rfl⟩
  | toBody _ hnone =>
    rw [hs] at hnone
    contradiction
  | @add pc _ _ hpc hadd | @added pc _ hpc hadd =>
    have hsame := sameAt_add scope s.cache pc
    rw [hadd] at hsame
    rw [hpc] at hphase
    apply movesTo_quiet hphase hsame
  | body hpc hb =>
    rw [hpc] at hphase
    obtain ⟨hsame, ⟨b, rfl⟩ | ⟨result, rfl⟩ | ⟨hnone, -⟩⟩ := advanceBody_cases hb
    · apply movesTo_quiet hphase hsame
    · apply movesTo_quiet hphase hsame
    · rw [hs] at hnone
      contradiction
  | subscribe hpc hs' =>
    obtain rfl := own hs'
    rw [hpc] at hphase
    have hm := Move.subscribe (c := cell ((s.cache.scopeRelease.lookup scope).getD (Watch.new ()).1))
      hphase (by
        cases hc : s.cache.scopeRelease.lookup scope with
        | none => exact .inr ⟨by simp [Mutations.gate, hc], 2, rfl⟩
        | some c => exact .inl (by simp [Mutations.gate, hc]))
    apply MovesTo.of_move hm (by simp) (by simp) (by simp)
    apply Gate.ext
    · rfl
    · simp only [seen, MutationCache.subscribeScope, AList.lookup_insert, Option.map_some]
      rfl
    · rfl
    · simp [seen, Pc.hand, Gate.setPhase]
  | gate hpc hs' hg =>
    obtain rfl := own hs'
    apply movesTo_gate halive he hpc hs hg
  | markFinished hpc hs' =>
    obtain rfl := own hs'
    rw [hpc] at hphase
    apply MovesTo.of_move (Move.lower hphase) (by simp) (by simp) (by simp)
    apply Gate.ext
    · simp [seen, canRun_markFinished]
    · rw [seen, scopeRelease_markFinished]
      rfl
    · rfl
    · simp [seen, Pc.hand, NotifyPc.hand, Gate.setPhase]
  | notify hpc hs' hn =>
    obtain rfl := own hs'
    rw [hpc] at hphase
    apply movesTo_notify hphase hn
  | runNext hpc hs' hn =>
    obtain rfl := own hs'
    rw [hpc] at hphase
    apply movesTo_runNext hphase hn

/-- What an execution does to any scope. -/
theorem movesTo_advance
    {o : Outcome} {e' : Exec} (halive : CellsAlive s.cache) (he : s.execs.lookup i = some e)
    (h : e.advance i s.nowMs s.cache o = some (c, e')) (scope : String) :
  s.MovesTo scope (.advance i o) (gate { s.setExec i e' with cache := c } scope)
  := by
  rw [gate_setExec (by rw [hand_eq he, hand_of_advance h]), Exec.phase, mutation_advance h]
  by_cases hs : e.mutation.scope = some ⟨scope⟩
  · rw [if_pos hs]
    apply movesTo_own halive he h hs
  · rw [if_neg hs]
    apply movesTo_elsewhere _ (sameAt_advance h hs)
    rw [phase_eq he, Exec.phase, if_neg hs]

/-- A call with no wakers to wake has advanced. -/
theorem gate_setCall {pc : Option CallPc} (hh : s.callHand j = []) :
  gate { s with cache := c, calls := pc.elim (s.calls.erase j) (s.calls.insert j) } scope =
    s.seen scope c i (s.phase scope i) (pc.elim [] CallPc.hand)
  := by
  have hhand : callHand { s with
      cache := c
      calls := pc.elim (s.calls.erase j) (s.calls.insert j) } =
      Function.update s.callHand j (pc.elim [] CallPc.hand) := by
    funext k
    simp only [callHand, Function.update_apply]
    cases pc with
    | none =>
      simp only [Option.elim_none, Table.lookup_erase_eq]
      split
      · rfl
      · rfl
    | some pc =>
      simp only [Option.elim_some, Table.lookup_insert_eq]
      split
      · rfl
      · rfl
  apply Gate.ext
  · rfl
  · rfl
  · apply (Function.update_eq_self i (s.phase scope)).symm
  · ext k
    simp only [gate, seen, PendingWake, hhand, Set.mem_ofPred_eq, Set.mem_union,
      Function.update_apply]
    constructor
    · rintro (hk | hk | ⟨h, hk⟩)
      · exact .inl (.inl hk)
      · exact .inl (.inr (.inl hk))
      · split at hk
        · exact .inr hk
        · exact .inl (.inr (.inr ⟨h, hk⟩))
    · rintro ((hk | hk | ⟨h, hk⟩) | hk)
      · exact .inl hk
      · exact .inr (.inl hk)
      · right
        right
        use h
        split
        · next heq => simp [heq, hh] at hk
        · apply hk
      · right
        right
        use j
        simpa using hk

/-- What a call does to a scope. -/
theorem movesTo_advanceCall
    {pc : CallPc} {pc' : Option CallPc} (hj : s.calls.lookup j = some pc)
    (h : pc.advance s.cache = some (c, pc')) (scope : String) :
  s.MovesTo scope (.advanceCall j)
    (gate { s with cache := c, calls := pc'.elim (s.calls.erase j) (s.calls.insert j) } scope)
  := by
  rw [gate_setCall (i := 0) (by simp [callHand, hj, CallPc.hand_of_advance h])]
  have quiet {c : MutationCache} (hsame : SameAt scope s.cache c) :
      s.MovesTo scope (.advanceCall j) (s.seen scope c 0 (s.phase scope 0) []) :=
    .inl (seen_quiet rfl hsame)
  cases pc with
  | add pc =>
    have hadd := sameAt_add scope s.cache pc
    simp only [CallPc.advance] at h
    cases h
    cases hpc : (pc.advance s.cache).2 with
    | none => apply quiet hadd
    | some pc' => apply quiet hadd
  | remove id =>
    have hsame : SameAt scope s.cache (s.cache.removeEntry id).1 := ⟨rfl, rfl⟩
    simp only [CallPc.advance] at h
    split at h
    · next heq =>
      cases h
      rw [heq] at hsame
      apply quiet hsame
    · next heq =>
      cases h
      rw [heq] at hsame
      apply quiet hsame
  | splice id scope' =>
    cases h
    apply quiet ⟨canRun_spliceScope .., rfl⟩
  | removed id =>
    cases h
    apply quiet ⟨rfl, rfl⟩
  | clear =>
    cases h
    apply quiet ⟨rfl, rfl⟩
  | clearScopes ids =>
    cases h
    right
    refine ⟨.reset, ⟨by simp, fun _ => ⟨j, ids, rfl, hj⟩, by simp⟩, ?_⟩
    have hm : Move (s.gate scope) .reset _ := .reset
    convert hm using 1
    apply Gate.ext
    · rfl
    · rfl
    · apply Function.update_eq_self 0 (s.phase scope)
    · simp [seen, CallPc.hand]
  | cleared ids =>
    cases ids with
    | nil =>
      cases h
      apply quiet ⟨rfl, rfl⟩
    | cons id ids =>
      cases h
      apply quiet ⟨rfl, rfl⟩
  | runNext scope' pc =>
    obtain ⟨⟨c', pc''⟩, hn, heq⟩ := Option.map_eq_some_iff.mp h
    cases heq
    have hhand : (pc''.map (CallPc.runNext scope')).elim [] CallPc.hand =
        pc''.elim [] RunNextPc.hand := by
      cases pc'' with
      | none => rfl
      | some pc'' => rfl
    rw [hhand]
    obtain ⟨hsame, hhand⟩ | ⟨rfl, hhand⟩ := runNext_cases hn
    · rw [hhand]
      apply quiet (hsame scope)
    · rw [hhand]
      by_cases hs : scope = scope'
      · rw [hs, seen_sendRelease]
        apply MovesTo.of_move Move.bump (by simp) (by simp) (by simp)
        rw [Gate.setPhase, show (s.gate scope').phase = s.phase scope' from rfl,
          Function.update_eq_self]
        rfl
      · exact movesTo_elsewhere rfl
          ⟨canRun_sendRelease .., by rw [sendRelease_lookup, if_neg hs]⟩

theorem Pc.phase_waken (pc : Pc) (w : Waker) :
  (pc.waken w).phase = pc.phase
  := by
  cases pc with
  | notify pc result =>
    cases pc with
    | _ => rfl
  | _ => rfl

/-- Waking a waker that is in hand leaves the pending wake-ups as they are. -/
theorem pendingWake_of_erase
    {h : Nat → List Waker} {w : Waker} (hw : w ∈ h i) {p : Prop} :
  (j ∈ insert w s.woken ∨ (∃ k, j ∈ Function.update h i ((h i).erase w) k) ∨ p) ↔
    (j ∈ s.woken ∨ (∃ k, j ∈ h k) ∨ p)
  := by
  simp only [Finset.mem_insert, Function.update_apply]
  constructor
  · rintro ((rfl | hj) | ⟨k, hk⟩ | hp)
    · exact .inr (.inl ⟨i, hw⟩)
    · exact .inl hj
    · split at hk
      · exact .inr (.inl ⟨i, List.mem_of_mem_erase hk⟩)
      · exact .inr (.inl ⟨k, hk⟩)
    · exact .inr (.inr hp)
  · rintro (hj | ⟨k, hk⟩ | hp)
    · exact .inl (.inr hj)
    · by_cases hjw : j = w
      · exact .inl (.inl hjw)
      · right
        left
        use k
        split
        · next hki =>
          rw [hki] at hk
          apply (List.mem_erase_of_ne hjw).mpr hk
        · apply hk
    · exact .inr (.inr hp)

theorem gate_wake {w : Waker} (h : s.step (.wake i w) = some s') (scope : String) :
  s'.gate scope = s.gate scope
  := by
  obtain ⟨e, he, hw, rfl⟩ := step_wake h
  rw [← hand_eq he] at hw
  have hhand : hand { s.setExec i { e with pc := e.pc.waken w } with
      woken := insert w s.woken } = Function.update s.hand i ((s.hand i).erase w) := by
    rw [hand_eq he, ← Pc.hand_waken]
    apply hand_setExec s i _
  apply Gate.ext
  · rfl
  · rfl
  · have hphase : Exec.phase { e with pc := e.pc.waken w } scope = s.phase scope i := by
      rw [phase_eq he, Exec.phase, Exec.phase, Pc.phase_waken]
    refine (phase_setExec s i _ scope).trans ?_
    rw [hphase, Function.update_eq_self]
    rfl
  · ext j
    simp only [gate, PendingWake, hhand, Set.mem_ofPred_eq]
    apply pendingWake_of_erase hw

theorem gate_wakeCall {w : Waker} (h : s.step (.wakeCall j w) = some s') (scope : String) :
  s'.gate scope = s.gate scope
  := by
  obtain ⟨pc, hj, hw, rfl⟩ := step_wakeCall h
  have hj' : s.callHand j = pc.hand := by simp [callHand, hj]
  rw [← hj'] at hw
  have hhand : callHand { s with
      calls := s.calls.insert j (pc.waken w)
      woken := insert w s.woken } = Function.update s.callHand j ((s.callHand j).erase w) := by
    funext k
    rw [hj', ← CallPc.hand_waken]
    simp only [callHand, Table.lookup_insert_eq, Function.update_apply]
    split
    · rfl
    · rfl
  apply Gate.ext
  · rfl
  · rfl
  · rfl
  · ext k
    simp only [gate, PendingWake, hhand, Set.mem_ofPred_eq]
    rw [or_comm (a := ∃ h, k ∈ hand _ h), or_comm (a := ∃ h, k ∈ s.hand h)]
    apply pendingWake_of_erase hw

theorem movesTo_start {pc : CallPc} (h : s.start j pc = some s') (hpc : pc.hand = [])
    (scope : String) :
  s'.gate scope = s.gate scope
  := by
  obtain ⟨hj, rfl⟩ := start_eq_some h
  have hg : gate { s with
      cache := s.cache
      calls := (some pc).elim (s.calls.erase j) (s.calls.insert j) } scope =
      s.seen scope s.cache 0 (s.phase scope 0) ((some pc).elim [] CallPc.hand) :=
    gate_setCall (by simp [callHand, hj])
  refine hg.trans ?_
  rw [Option.elim_some, hpc]
  apply seen_quiet rfl ⟨rfl, rfl⟩

theorem movesTo_resume (h : s.step (.resume i) = some s') (scope : String) :
  s.MovesTo scope (.resume i) (s'.gate scope)
  := by
  obtain ⟨e, w, he, hpc, rfl⟩ := step_resume h
  have hhand : hand { s.setExec i { e with pc := .gate (.poll w) } with
      woken := s.woken.erase i } = s.hand := by
    refine (hand_setExec s i _).trans ?_
    rw [show Pc.hand (.gate (.poll w)) = s.hand i by rw [hand_eq he, hpc]; rfl,
      Function.update_eq_self]
  have hcalled : ∀ j, j ≠ i → j ∈ (s.gate scope).called → j ∈ (gate { s.setExec i { e with
      pc := .gate (.poll w) } with woken := s.woken.erase i } scope).called := by
    intro j hj hcalled
    simp only [gate, PendingWake, hhand, Set.mem_ofPred_eq] at hcalled ⊢
    apply hcalled.imp_left fun hw => Finset.mem_erase.mpr ⟨hj, hw⟩
  have hphase := phase_setExec s i { e with pc := .gate (.poll w) } scope
  by_cases hs : e.mutation.scope = some ⟨scope⟩
  · have hi : (s.gate scope).phase i = .parked (ticket w) := by
      rw [show (s.gate scope).phase i = _ from phase_eq he, Exec.phase, if_pos hs, hpc]
      rfl
    apply MovesTo.of_move (Move.resume hi hcalled) nofun nofun nofun
    apply Gate.ext
    · rfl
    · rfl
    · refine hphase.trans ?_
      rw [Exec.phase, if_pos hs]
      rfl
    · rfl
  · have hi : s.phase scope i = .away := by rw [phase_eq he, Exec.phase, if_neg hs]
    have hm := Move.call (g := s.gate scope) fun j t hj hcall => hcalled j (by
      rintro rfl
      rw [show (s.gate scope).phase j = .away from hi] at hj
      contradiction) hcall
    apply MovesTo.of_move hm nofun nofun nofun
    apply Gate.ext
    · rfl
    · rfl
    · refine hphase.trans ?_
      rw [Exec.phase, if_neg hs, ← hi, Function.update_eq_self]
      rfl
    · rfl

theorem movesTo_abandon (h : s.step (.abandon i) = some s') (scope : String) :
  s.MovesTo scope (.abandon i) (s'.gate scope)
  := by
  obtain ⟨e, he, hpc, rfl⟩ := step_abandon h
  have hh : s.hand i = [] := by rw [hand_eq he, hand_of_interruptible hpc]
  right
  refine ⟨.crash i, ⟨nofun, nofun, fun _ h => by cases h; exact ⟨rfl, e, he, hpc⟩⟩, ?_⟩
  have hm : Move (s.gate scope) (.crash i) _ := .crash
  convert hm using 1
  refine (gate_setExec (s := s) (e := { e with pc := .dropped }) (c := s.cache) hh).trans ?_
  apply Gate.ext
  · rfl
  · rfl
  · simp [seen, Exec.phase, Pc.phase, Gate.setPhase, gate]
  · simp [seen, Pc.hand, Gate.setPhase]

/-- Every step is a move at the gate of every scope, or nothing is seen of it there. -/
theorem movesTo_step (halive : CellsAlive s.cache) (h : s.step a = some s') (scope : String) :
  s.MovesTo scope a (s'.gate scope)
  := by
  cases a with
  | submit i m =>
    obtain ⟨hi, rfl⟩ := step_submit h
    have hh : s.hand i = [] := by simp [hand, hi]
    left
    refine (gate_setExec (s := s) (e := ⟨m, 0, .queued⟩) (c := s.cache) hh).trans
      (seen_quiet ?_ ⟨rfl, rfl⟩)
    simp [phase, hi, Exec.phase, Pc.phase]
  | advance i o =>
    obtain ⟨e, c, e', he, ha, rfl⟩ := step_advance h
    apply movesTo_advance halive he ha scope
  | resume i => apply movesTo_resume h scope
  | abandon i => apply movesTo_abandon h scope
  | wake i w => exact .inl (gate_wake h scope)
  | add j entry => exact .inl (movesTo_start h rfl scope)
  | remove j id => exact .inl (movesTo_start h rfl scope)
  | clear j => exact .inl (movesTo_start h rfl scope)
  | runNext j scope' => exact .inl (movesTo_start h rfl scope)
  | advanceCall j =>
    obtain ⟨pc, c, pc', hj, ha, rfl⟩ := step_advanceCall h
    apply movesTo_advanceCall hj ha scope
  | wakeCall j w => exact .inl (gate_wakeCall h scope)
  | tick n =>
    obtain rfl := Option.some.inj h
    exact .inl rfl

/-- What holds of the gate of a scope nobody has come to, and is kept by the moves that
show allowed steps, holds of every gate along every run of allowed steps. -/
theorem gate_of_run
    {ok : Mutations → Action → Prop} {I : Gate Nat → Prop} (h : machine.Run ok s)
    (hinit : ∀ scope, I (initial.gate scope))
    (hstep : ∀ s a scope b g, ok s a → s.Shows scope a b → I (s.gate scope) →
      Move (s.gate scope) b g → I g) (scope : String) :
  I (s.gate scope)
  := by
  revert scope
  apply h.invariant
  · rintro s rfl
    apply hinit
  · intro s a s' hrun hI hok hs scope
    obtain heq | ⟨b, hb, hm⟩ := movesTo_step (cellsAlive_of_run hrun) hs scope
    · rw [heq]
      apply hI scope
    · apply hstep s a scope b _ hok hb (hI scope) hm

end Mutations

end RsQuery
