import RsQuery.Lib.Attempts
import RsQuery.Retryer

/-!
# The attempts of a retryer

Whatever becomes of connectivity and of the token meanwhile, a call of `Retryer::run` attempts
its task again only after a failure that its decision retries, and a sleep of the delay that
belongs to it.  So it does what `Attempts.Paced` says.  A retryer counts its failures on from
one call to the next, and what is left of a count of retries is less then.
-/

namespace RsQuery

open Attempts (Deed Event Paced Policy Stage Step)

namespace Retryer

/-- Failures are retried as the decision says of the failures counted; what an attempt
returns is returned. -/
def policy (retryer : Retryer) (T : Type) : Policy QueryError T T where
  retry error n := retryer.decision.shouldRetry error (retryer.failureCount + .ofNat n)
  process := id

/-- How long the retryer sleeps when `n` attempts of a call have failed before the last one. -/
def backoff (retryer : Retryer) (n : Nat) : Duration :=
  retryDelay (retryer.failureCount + .ofNat n).toNat

/-- How many retries a decision allows at most, after the failures counted. -/
def retriesLeft (retryer : Retryer) : Option Nat :=
  match retryer.decision with
  | .never => some 0
  | .count n => some (n.toNat - retryer.failureCount.toNat)
  | .always | .function _ => none

theorem policy_retriesLeft
    {retryer : Retryer} {T : Type} {max : Nat} (h : max ∈ retryer.retriesLeft) (error : QueryError) :
  (retryer.policy T).retry error max = false
  := by
  unfold retriesLeft at h
  split at h
  · next hdecision => simp only [policy, hdecision, RetryDecision.shouldRetry]
  · next n hdecision =>
    obtain rfl := Option.some.inj h
    simp only [policy, hdecision, RetryDecision.shouldRetry]
    apply decide_eq_false
    rw [UInt32.lt_iff_toNat_lt, UInt32.toNat_add, UInt32.toNat_ofNat']
    have hn := n.toNat_lt
    have hcount := retryer.failureCount.toNat_lt
    omega
  · contradiction
  · contradiction

namespace Loop

variable {T : Type}

/-- What a step attempts, or how long it has slept. -/
def attempted (s : Loop T) : Action T → List (Deed QueryError T T Duration)
  | .advance =>
    match s.pc with
    | .start => [.event .called]
    | .sleeping delay => [.paused delay]
    | _ => []
  | .finish (.ok value) => [.event (.returned value)]
  | .finish (.error error) => [.event (.failed error)]
  | .drop | .cancel | .setOnline _ | .proceed _ | .wake _ => []

/-- A call of `run` on the retryer, with a log of what it attempts and how long it sleeps. -/
def attempting (retryer : Retryer) (mode : NetworkMode) :
    Machine (Loop T × List (Deed QueryError T T Duration)) (Action T) :=
  Machine.noting ⟨fun s => s = initial retryer mode, step⟩ fun s a _ => s.attempted a

variable {retryer : Retryer} {stage : Stage QueryError T} {rested : Bool} {s s' : Loop T}
  {log : List (Deed QueryError T T Duration)}

/-- The failures that the retryer has counted when `n` attempts of the call have failed. -/
def Counts (retryer : Retryer) (n : Nat) (s : Loop T) : Prop :=
  s.retryer.failureCount = retryer.failureCount + .ofNat n

/-- Another attempt is to be made, the first or one after a sleep. -/
def Awaits (retryer : Retryer) (stage : Stage QueryError T) (rested : Bool) (s : Loop T) : Prop :=
  (stage = .fresh ∧ s.Counts retryer 0) ∨
    ∃ n error, stage = .failed n error ∧ rested = true ∧ s.Counts retryer (n + 1)

/-- The states of a call at a stage of its attempts. -/
def At (retryer : Retryer) (stage : Stage QueryError T) (rested : Bool) (s : Loop T) : Prop :=
  match s.pc with
  | .head | .subscribe | .token _ | .poll _ | .parked _ | .changed _ | .start =>
    s.Awaits retryer stage rested
  | .sleeping delay => ∃ n error, stage = .failed n error ∧ rested = false ∧
    (retryer.policy T).retry error n = true ∧ s.Counts retryer (n + 1) ∧ delay = retryer.backoff n
  | .running => ∃ n, stage = .calling n ∧ s.Counts retryer n
  | .returned (.ok value) => stage = .returned value
  | .returned (.error error) => error.isCancelled = true ∨
    ∃ n, stage = .failed n error ∧ rested = false ∧ (retryer.policy T).retry error n = false
  | .dropped => True

theorem Counts.succ {n : Nat} (h : s.Counts retryer n)
    (hcount : s'.retryer.failureCount = s.retryer.failureCount + 1) :
  s'.Counts retryer (n + 1)
  := by
  rw [Counts, hcount, h, UInt32.ofNat_add, UInt32.add_assoc]
  rfl

theorem Counts.shouldRetry {n : Nat} (h : s.Counts retryer n)
    (hdecision : s.retryer.decision = retryer.decision) (error : QueryError) :
  s.retryer.decision.shouldRetry error s.retryer.failureCount
    = (retryer.policy T).retry error n
  := by
  rw [hdecision, h, policy]

/-- What a call has attempted so far, and how it has slept. -/
def Attempted (retryer : Retryer) (s : Loop T) (log : List (Deed QueryError T T Duration)) : Prop :=
  s.retryer.decision = retryer.decision ∧
    ∃ stage rested, Paced (retryer.policy T) retryer.backoff log stage rested ∧
      s.At retryer stage rested

/-- A step that attempts nothing. -/
theorem Attempted.stays (h : s.Attempted retryer log)
    (hdecision : s'.retryer.decision = s.retryer.decision)
    (hat : ∀ stage rested, s.At retryer stage rested → s'.At retryer stage rested) :
  s'.Attempted retryer log
  := by
  obtain ⟨hretryer, stage, rested, hpaced, h⟩ := h
  exact ⟨hdecision.trans hretryer, stage, rested, hpaced, hat stage rested h⟩

/-- The next step of the retryer does what its policy says. -/
theorem Attempted.advance (h : s.Attempted retryer log) (hs : s.advance = some s') :
  s'.Attempted retryer (log ++ s.attempted .advance)
  := by
  have stays (hpc : ∀ stage rested, s.At retryer stage rested → s'.At retryer stage rested)
      (hdecision : s'.retryer.decision = s.retryer.decision)
      (hnone : s.attempted .advance = []) :
      s'.Attempted retryer (log ++ s.attempted .advance) := by
    rw [hnone, List.append_nil]
    apply h.stays hdecision hpc
  cases takes_of_advance hs with
  | start hpc =>
    obtain ⟨hdecision, stage, rested, hpaced, hat⟩ := h
    simp only [At, hpc] at hat
    simp only [attempted, hpc]
    obtain ⟨rfl, hcounts⟩ | ⟨n, error, rfl, rfl, hcounts⟩ := hat
    · have hcalled := hpaced.concat .call nofun
      exact ⟨hdecision, _, _, hcalled, 0, rfl, hcounts⟩
    · obtain ⟨hretry, -⟩ := hpaced.last_of_rested
      have hcalled := hpaced.concat (.retry hretry) fun _ _ _ => rfl
      exact ⟨hdecision, _, _, hcalled, n + 1, rfl, hcounts⟩
  | slept hpc =>
    obtain ⟨hdecision, stage, rested, hpaced, hat⟩ := h
    simp only [At, hpc] at hat
    simp only [attempted, hpc]
    obtain ⟨n, error, rfl, rfl, hretry, hcounts, rfl⟩ := hat
    exact ⟨hdecision, _, _, hpaced.pause hretry, .inr ⟨n, error, rfl, rfl, hcounts⟩⟩
  | cancelled hpc =>
    refine stays ?_ rfl (by simp only [attempted, hpc])
    exact fun _ _ _ => .inl rfl
  | pause hpc | pass hpc | subscribe hpc | wait hpc | changed hpc | closed hpc | park hpc
  | resume hpc | unpause hpc | offline hpc =>
    refine stays ?_ rfl (by simp only [attempted, hpc])
    simp only [At, hpc]
    exact fun _ _ => id

/-- The end of an attempt. -/
theorem Attempted.finish {result : Except QueryError T} (h : s.Attempted retryer log)
    (hs : s.finish result = some s') :
  s'.Attempted retryer (log ++ s.attempted (.finish result))
  := by
  obtain ⟨hpc, hfinishes⟩ := finishes_of_finish hs
  obtain ⟨hdecision, stage, rested, hpaced, hat⟩ := h
  simp only [At, hpc] at hat
  obtain ⟨n, rfl, hcounts⟩ := hat
  have ended {e : Event QueryError T T} {stage' : Stage QueryError T}
      (hstep : Step (retryer.policy T) (.calling n) e stage') :
      Paced (retryer.policy T) retryer.backoff (log ++ [.event e]) stage' false :=
    hpaced.concat hstep nofun
  cases hfinishes with
  | ok => exact ⟨hdecision, _, _, ended .yield, rfl⟩
  | cancelled _ => exact ⟨hdecision, _, _, ended .fail, .inl rfl⟩
  | retry _ hretry =>
    rw [hcounts.shouldRetry hdecision] at hretry
    refine ⟨hdecision, _, _, ended .fail, n, _, rfl, rfl, hretry, hcounts.succ rfl, ?_⟩
    rw [backoff, hcounts]
  | fail _ hretry =>
    rw [hcounts.shouldRetry hdecision] at hretry
    exact ⟨hdecision, _, _, ended .fail, .inr ⟨n, rfl, rfl, hretry⟩⟩

theorem Attempted.step {a : Action T} (h : s.Attempted retryer log) (hs : s.step a = some s') :
  s'.Attempted retryer (log ++ s.attempted a)
  := by
  cases a with
  | advance => apply h.advance hs
  | finish result => apply h.finish hs
  | drop =>
    simp only [Loop.step] at hs
    rw [attempted, List.append_nil]
    split at hs
    case h_4 => contradiction
    all_goals
      obtain rfl := Option.some.inj hs
      exact h.stays rfl fun _ _ _ => trivial
  | cancel | setOnline _ =>
    obtain rfl := Option.some.inj hs
    rw [attempted, List.append_nil]
    exact h.stays rfl fun _ _ => id
  | proceed i =>
    rw [attempted, List.append_nil]
    obtain ⟨call, -, ⟨-, rfl⟩ | ⟨-, rfl⟩ | ⟨-, tx, -, rfl⟩⟩ := step_proceed hs
    · exact h.stays rfl fun _ _ => id
    · exact h.stays rfl fun _ _ => id
    · exact h.stays rfl fun _ _ => id
  | wake t =>
    obtain ⟨tx, -, rfl⟩ := Option.map_eq_some_iff.mp hs
    rw [attempted, List.append_nil]
    exact h.stays rfl fun _ _ => id

theorem attempted_of_reachable
    {mode : NetworkMode} {t : Loop T × List (Deed QueryError T T Duration)}
    (h : (attempting retryer mode).Reachable t) :
  t.1.Attempted retryer t.2
  := by
  apply h.invariant
  · rintro ⟨s, log⟩ ⟨hs, hlog⟩
    obtain rfl : s = initial retryer mode := hs
    obtain rfl : log = [] := hlog
    refine ⟨rfl, .fresh, false, .nil, .inl ⟨rfl, ?_⟩⟩
    rw [Counts]
    simp [initial]
  · rintro t a t' _ hattempted _ hs
    obtain ⟨hstep, hlog⟩ := Machine.step_noting hs
    rw [hlog]
    apply hattempted.step hstep

/-- What holds of everything a call attempts, and of what it returns. -/
structure Disciplined (retryer : Retryer) (s : Loop T)
    (log : List (Deed QueryError T T Duration)) : Prop where
  /-- It attempts the task at most once more than retries are left. -/
  bounded : ∀ max ∈ retryer.retriesLeft, log.countP Deed.isCall ≤ max + 1
  /-- It attempts it again only after a failure that the decision retries, and a sleep as long
  as belongs to the failures counted before. -/
  retried : ∀ l₁ l₂, log = l₁ ++ .event .called :: l₂ → l₁ = [] ∨
    ∃ l n error,
      l₁ = l ++ [.event (.failed error),
        .paused (retryDelay (retryer.failureCount + .ofNat n).toNat)] ∧
      l₁.countP Deed.isCall = n + 1 ∧
      retryer.decision.shouldRetry error (retryer.failureCount + .ofNat n) = true
  /-- It returns what the last attempt returned, or the error of the last attempt, which the
  decision does not retry, or that it was cancelled. -/
  value : ∀ value, s.pc = .returned (.ok value) → ∃ l, log = l ++ [.event (.returned value)]
  error : ∀ error, s.pc = .returned (.error error) → error.isCancelled = true ∨
    ∃ l n, log = l ++ [.event (.failed error)] ∧ log.countP Deed.isCall = n + 1 ∧
      retryer.decision.shouldRetry error (retryer.failureCount + .ofNat n) = false

/-- Under every interleaving with connectivity and cancellation, a call keeps to its
retries. -/
theorem disciplined_of_reachable
    {mode : NetworkMode} {t : Loop T × List (Deed QueryError T T Duration)}
    (h : (attempting retryer mode).Reachable t) :
  Disciplined retryer t.1 t.2
  := by
  obtain ⟨-, stage, rested, hpaced, hat⟩ := attempted_of_reachable h
  constructor
  · intro max hmax
    rw [← Paced.countP_event]
    apply hpaced.trace.calls_le_of_stops (policy_retriesLeft hmax)
  · intro l₁ l₂ hlog
    apply hpaced.call_cases hlog
  · intro value hpc
    simp only [At, hpc] at hat
    obtain rfl := hat
    apply hpaced.last_of_returned
  · intro error hpc
    simp only [At, hpc] at hat
    obtain hcancelled | ⟨n, rfl, rfl, hretry⟩ := hat
    · exact .inl hcancelled
    · obtain ⟨l, hlog⟩ := hpaced.last_of_failed
      refine .inr ⟨l, n, hlog, ?_, hretry⟩
      rw [← Paced.countP_event]
      apply hpaced.trace.calls_eq _ rfl

/-- A retryer that has counted a failure before has one of two retries left. -/
def retryerUsed : Retryer :=
  ⟨.count 2, 1, some (.network "before"), false⟩

/-- The first attempt fails offline, the next waits for connectivity and fails as well. -/
def failsTwice : List (Action String) :=
  [.setOnline false, .advance, .advance, .proceed 0, .proceed 0, .proceed 0,
    .finish (.error (.network "first")), .advance, .advance, .advance, .advance, .advance,
    .setOnline true, .proceed 1, .proceed 1, .proceed 1, .wake task, .advance, .advance, .advance,
    .advance, .finish (.error (.network "second"))]

theorem disciplined_of_reachable_failsTwice :
  ∃ t : Loop String × List (Deed QueryError String String Duration),
    (attempting retryerUsed .online).Reachable t ∧
      t.2 = [.event .called, .event (.failed (.network "first")), .paused (retryDelay 1),
        .event .called, .event (.failed (.network "second"))] ∧
      Disciplined retryerUsed t.1 t.2
  := by
  obtain ⟨t, ht, hlog⟩ := Machine.exists_reachable_of_exec failsTwice
    (fun t : Loop String × List (Deed QueryError String String Duration) => t.2) _
    (M := attempting retryerUsed .online) (s := (initial retryerUsed .online, [])) ⟨rfl, rfl⟩ rfl
  exact ⟨t, ht, hlog, disciplined_of_reachable ht⟩

end Loop

end Retryer

end RsQuery
