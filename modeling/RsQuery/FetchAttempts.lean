import RsQuery.Lib.Attempts
import RsQuery.Runs

/-!
# The attempts of an execution

Whatever other executions and calls do meanwhile, an execution joins a fetch in flight and
calls no fetch function, or it calls its own, at most once more than it may retry, and again
only after a failure that is retried.  It stores at most once, what the last call returned,
selected.  So an execution in the system does what `Attempts.Trace` says.
-/

namespace RsQuery

variable {V : Type} [PartialEqAny V]

open Attempts (Event Goes Policy Stage Step Trace)

/-! ### The policy of a query -/

/-- Failures are retried as the options say, and data is selected. -/
def Run.policy (r : Run V) : Policy QueryError V V where
  retry := r.shouldRetry
  process data :=
    match r.query.select with
    | some select => select data
    | none => data

theorem Run.policy_congr {r r' : Run V} (h : r'.query = r.query) :
  r'.policy = r.policy
  := by
  unfold policy shouldRetry
  rw [h]

theorem Run.policy_retry_lt (r : Run V) (error : QueryError) (n : Nat)
    (h : r.policy.retry error n = true) :
  n < r.query.options.retry.maxRetries
  := by
  simp only [policy, shouldRetry, Bool.and_eq_true, decide_eq_true_eq] at h
  apply h.1

/-! ### What a step does -/

/-- What a step of a fetch attempts. -/
def FetchPc.attempted (cancelled : Bool) : FetchPc V → Outcome V → List (Event QueryError V V)
  | .call _, _ => if cancelled then [] else [.called]
  | .fetching _, .ready (.error error) => [.failed error]
  | .fetching _, .ready (.ok data) => [.returned data]
  | .selected data, _ => [.stored data]
  | _, _ => []

/-- What the next step of run `i` attempts. -/
def Run.attempted (r : Run V) (i : Nat) (c : QueryClient V) (o : Outcome V) :
    List (Event QueryError V V) :=
  match r.pc with
  | .dedup => if c.isInFlight r.query.key then [.joined] else []
  | .fetch pc => pc.attempted (decide (i ∈ c.signals.cancelled)) o
  | _ => []

/-- The program points of an execution at a stage of its attempts. -/
def Pc.At (p : Policy QueryError V V) (stage : Stage QueryError V) : Pc V → Prop
  | .queued | .start | .dedup | .fetch .loading | .fetch .gate => stage = .fresh
  | .fetch (.attempt 0) | .fetch (.call 0) => stage = .fresh
  | .fetch (.attempt (n + 1)) | .fetch (.call (n + 1)) | .fetch (.waiting n)
  | .fetch (.waitPending n) | .fetch (.waited n) | .fetch (.sleeping n) =>
    ∃ error, stage = .failed n error ∧ p.retry error n = true
  | .fetch (.fetching n) | .fetch (.fetchPending n) => stage = .calling n
  | .fetch (.fetched data) => stage = .returned data
  | .fetch (.selected data) => ∃ fetched, stage = .returned fetched ∧ data = p.process fetched
  | .fetch (.failed n error) => error.isCancelled = true ∨ stage = .failed n error
  | _ => True

namespace Run

variable {r : Run V} {i : Nat} {now : Instant} {c c' : QueryClient V} {o : Outcome V} {pc : Pc V}
  {cancelled : Bool} {f : FetchPc V} {p : Policy QueryError V V} {stage : Stage QueryError V}

theorem at_resume {pc₀ : Pc V} (h : r.resume i c pc₀ = (c', pc)) (hat : pc₀.At p stage) :
  pc.At p stage
  := by
  unfold resume at h
  split at h
  · cases h
    trivial
  · cases h
    apply hat

theorem at_panicked (r : Run V) (payload : PanicPayload) :
  (r.panicked payload).At p stage
  := by
  unfold panicked
  split
  · trivial
  · trivial

theorem at_advanceWait {w : WaitPc V} (h : r.advanceWait i now c w = (c', pc)) :
  pc.At p stage
  := by
  have hends := r.advanceWait_ends i now c w
  rw [h] at hends
  obtain ⟨w', rfl⟩ | ⟨result, rfl⟩ := hends
  · trivial
  · trivial

/-- A step of a fetch does what the policy of the query says. -/
theorem advanceFetch_goes (h : r.advanceFetch i now c cancelled f o = some (c', pc))
    (hat : (Pc.fetch f).At r.policy stage) :
  ∃ stage', pc.At r.policy stage' ∧ Goes r.policy stage (f.attempted cancelled o) stage'
  := by
  have stays (hat : pc.At r.policy stage) (hnone : f.attempted cancelled o = []) :
      ∃ stage', pc.At r.policy stage' ∧ Goes r.policy stage (f.attempted cancelled o) stage' :=
    ⟨stage, hat, .inl ⟨hnone, rfl⟩⟩
  cases takes_of_advanceFetch h with
  | @attempt n _ =>
    cases n with
    | zero => apply stays hat rfl
    | succ n => apply stays hat rfl
  | @call n hcancelled =>
    simp only [FetchPc.attempted, hcancelled, Bool.false_eq_true, if_false]
    refine ⟨.calling n, rfl, .inr ⟨_, rfl, ?_⟩⟩
    cases n with
    | zero =>
      obtain rfl : stage = .fresh := hat
      apply Step.call
    | succ n =>
      obtain ⟨error, rfl, hretry⟩ := hat
      apply Step.retry hretry
  | noCall hcancelled =>
    apply stays (.inl rfl)
    rw [FetchPc.attempted, if_pos hcancelled]
  | data htype =>
    obtain rfl : stage = .calling _ := hat
    exact ⟨_, rfl, .inr ⟨_, rfl, .yield⟩⟩
  | error =>
    obtain rfl : stage = .calling _ := hat
    exact ⟨_, .inr rfl, .inr ⟨_, rfl, .fail⟩⟩
  | cancel => apply stays (.inl rfl) rfl
  | backOff hcancelled hretry | waitForOnline hcancelled hretry =>
    obtain hc | hstage := hat
    · rw [hcancelled] at hc
      contradiction
    · apply stays ⟨_, hstage, hretry⟩ rfl
  | @noSelect data hselect =>
    apply stays ⟨data, hat, _⟩ rfl
    simp only [policy, hselect]
  | @select data select hselect =>
    apply stays ⟨data, hat, _⟩ rfl
    simp only [policy, hselect]
  | store =>
    obtain ⟨fetched, rfl, rfl⟩ := hat
    exact ⟨.stored, trivial, .inr ⟨_, rfl, .store⟩⟩
  | resumeFetch h | resumeWait h | resumeSleep h => apply stays (at_resume h hat) rfl
  | panic | selectPanic => apply stays (r.at_panicked _) rfl
  | gone => apply stays (r.at_panicked _) rfl
  | loading | online | suspend | waited | goOnWaiting | backOffOnline => apply stays hat rfl
  | _ => apply stays trivial rfl

/-- A step of an execution does what the policy of its query says. -/
theorem advance_goes (h : r.advance i now c o = some (c', pc)) (hat : r.pc.At r.policy stage) :
  ∃ stage', pc.At r.policy stage' ∧ Goes r.policy stage (r.attempted i c o) stage'
  := by
  cases takes_of_advance h with
  | poll hr h =>
    rw [hr] at hat
    refine ⟨stage, at_resume h hat, .inl ⟨?_, rfl⟩⟩
    rw [attempted, hr]
  | join hr hin =>
    rw [hr] at hat
    obtain rfl : stage = .fresh := hat
    refine ⟨.joined, trivial, .inr ⟨_, ?_, .join⟩⟩
    simp only [attempted, hr, hin, if_true]
  | alone hr hin =>
    rw [hr] at hat
    refine ⟨stage, hat, .inl ⟨?_, rfl⟩⟩
    simp only [attempted, hr, hin, Bool.false_eq_true, if_false]
  | wait hr h =>
    refine ⟨stage, at_advanceWait h, .inl ⟨?_, rfl⟩⟩
    rw [attempted, hr]
  | fetch hr h =>
    rw [hr] at hat
    simp only [attempted, hr]
    apply advanceFetch_goes h hat
  | task hr | direct hr =>
    rw [hr] at hat
    refine ⟨stage, hat, .inl ⟨?_, rfl⟩⟩
    rw [attempted, hr]
  | restoring hr | deregister hr | finish hr | reply hr =>
    refine ⟨stage, trivial, .inl ⟨?_, rfl⟩⟩
    rw [attempted, hr]

end Run

/-! ### In the system -/

namespace Sys

variable {s s' : Sys V} {a : Action V} {i : Nat}

/-- What a step attempts in run `i`. -/
def attempted (s : Sys V) (i : Nat) : Action V → List (Event QueryError V V)
  | .advance j o =>
    if j = i then (s.runs.lookup i).elim [] fun r => r.attempted i s.client o else []
  | _ => []

/-- The system with a log of what run `i` attempts. -/
def attempting (i : Nat) : Machine (Sys V × List (Event QueryError V V)) (Action V) :=
  machine.noting fun s a _ => s.attempted i a

/-- What a run has attempted is a trace that has come to a stage its program point is at. -/
def Attempted (s : Sys V) (i : Nat) (log : List (Event QueryError V V)) : Prop :=
  (s.runs.lookup i).elim (log = []) fun r => ∃ stage, Trace r.policy log stage ∧
    r.pc.At r.policy stage

theorem attempted_of_not_moves (h : ¬ a.Moves i) :
  s.attempted i a = []
  := by
  cases a with
  | advance j o =>
    simp only [attempted, ite_eq_right_iff]
    intro hj
    apply absurd hj h
  | _ => rfl

theorem attempted_of_stage
    {log : List (Event QueryError V V)} {r : Run V} {stage : Stage QueryError V}
    (hr : s.runs.lookup i = some r) (htrace : Trace r.policy log stage)
    (hat : r.pc.At r.policy stage) :
  s.Attempted i log
  := by
  rw [Attempted, hr]
  exact ⟨stage, htrace, hat⟩

/-- What a run attempts goes on being a trace. -/
theorem Attempted.step {log : List (Event QueryError V V)} (h : s.Attempted i log)
    (hsane : s.Sane) (hs : s.step a = some s') :
  s'.Attempted i (log ++ s.attempted i a)
  := by
  unfold Attempted at h
  cases hr : s.runs.lookup i with
  | none =>
    obtain rfl : log = [] := by rwa [hr] at h
    have hnone : s.attempted i a = [] := by
      cases a with
      | advance j o => simp only [attempted, hr, Option.elim_none, ite_self]
      | _ => rfl
    rw [hnone]
    cases hr' : s'.runs.lookup i with
    | none => rw [Attempted, hr', Option.elim_none, List.append_nil]
    | some r' =>
      apply attempted_of_stage hr' .nil
      cases origin_of_step hs hr' with
      | new _ hpc =>
        rcases hpc with hpc | hpc | hpc
        all_goals
          rw [hpc]
          trivial
      | dropped hpc =>
        rw [hpc]
        trivial
      | stood hr₀ | advanced hr₀ =>
        rw [hr] at hr₀
        contradiction
  | some r =>
    rw [hr] at h
    obtain ⟨stage, htrace, hat⟩ := h
    by_cases hmoves : a.Moves i
    · cases a with
      | advance j o =>
        obtain rfl : j = i := hmoves
        obtain ⟨r₀, c, pc, hr₀, hadvance, rfl⟩ := step_advance hs
        rw [hr] at hr₀
        obtain rfl := Option.some.inj hr₀
        obtain ⟨stage', hat', hgoes⟩ := Run.advance_goes hadvance hat
        simp only [attempted, hr, Option.elim_some, if_true]
        exact attempted_of_stage (r := { r with pc := pc }) (AList.lookup_insert _)
          (htrace.goes hgoes) hat'
      | dropFuture j =>
        obtain rfl : j = i := hmoves
        obtain ⟨r₀, c, hr₀, -, -, rfl⟩ := step_dropFuture hs
        rw [hr] at hr₀
        obtain rfl := Option.some.inj hr₀
        have hnone : s.attempted j (.dropFuture j) = [] := rfl
        rw [hnone, List.append_nil]
        exact attempted_of_stage (r := { r with pc := .dropped }) (AList.lookup_insert _) htrace
          trivial
      | _ => contradiction
    · obtain ⟨r', hr', hstays⟩ := hsane.stays_step hs hr hmoves
      rw [attempted_of_not_moves hmoves, List.append_nil]
      have hpolicy := Run.policy_congr hstays.query
      apply attempted_of_stage hr'
      · rwa [hpolicy]
      · rwa [hpolicy, hstays.pc]

theorem attempted_of_reachable {t : Sys V × List (Event QueryError V V)}
    (h : (attempting i).Reachable t) :
  t.1.Attempted i t.2
  := by
  have hall : t.1.Sane ∧ t.1.Attempted i t.2 := by
    apply h.invariant
    · rintro ⟨s, log⟩ ⟨hs, hlog⟩
      obtain rfl : s = initial := hs
      exact ⟨sane_initial, hlog⟩
    · rintro t a t' _ ⟨hsane, hattempted⟩ _ hs
      obtain ⟨hstep, hlog⟩ := Machine.step_noting hs
      rw [hlog]
      exact ⟨hsane.step hstep, hattempted.step hsane hstep⟩
  apply hall.2

/-- What holds of everything an execution attempts. -/
structure Attempts (r : Run V) (log : List (Event QueryError V V)) : Prop where
  /-- It calls its fetch function at most once more than it may retry. -/
  bounded : log.countP Event.isCall ≤ r.query.options.retry.maxRetries + 1
  /-- It calls it again only after a failure that is retried at the count of the calls. -/
  retried : ∀ l₁ l₂, log = l₁ ++ .called :: l₂ → l₁ = [] ∨
    ∃ l n error, l₁ = l ++ [.failed error] ∧ l₁.countP Event.isCall = n + 1 ∧
      r.shouldRetry error n = true
  /-- If it joins a fetch in flight, it does nothing else. -/
  joined : .joined ∈ log → log = [.joined]
  /-- It stores what was returned to it just before, selected, and stops there. -/
  stored : ∀ l₁ data l₂, log = l₁ ++ .stored data :: l₂ → l₂ = [] ∧
    ∃ l fetched, l₁ = l ++ [.returned fetched] ∧
      data = match r.query.select with
        | some select => select fetched
        | none => fetched

/-- Under every interleaving an execution keeps to its retries. -/
theorem attempts_of_reachable {t : Sys V × List (Event QueryError V V)}
    (h : (attempting i).Reachable t) {r : Run V} (hr : t.1.runs.lookup i = some r) :
  Attempts r t.2
  := by
  have hattempted := attempted_of_reachable h
  rw [Attempted, hr] at hattempted
  obtain ⟨stage, htrace, -⟩ := hattempted
  constructor
  · apply htrace.calls_le r.policy_retry_lt
  · intro l₁ l₂ hlog
    apply htrace.call_cases hlog
  · intro hjoined
    apply (htrace.eq_of_joined hjoined).1
  · intro l₁ data l₂ hlog
    exact ⟨(htrace.eq_nil_of_stored hlog).1, htrace.stored_cases hlog⟩

/-- A query for `"k"` that is retried once, its data marked. -/
def queryRetried : Query (String ⊕ Nat) :=
  ⟨.new "k", 0, some fun v => v.map (· ++ "!") id, { retry := { maxRetries := 1 } }, by
    rintro f hf v hv
    obtain rfl := Option.some.inj hf
    cases v with
    | inl _ => rfl
    | inr _ => contradiction⟩

/-- The first attempt fails, and what the second returns is stored, while another execution
joins. -/
def retriedOnce : List (Action (String ⊕ Nat)) :=
  [.spawn queryRetried, .register 0, .advance 0 .next, .execute queryRetried, .advance 0 .next,
    .advance 0 .next, .advance 1 .next, .advance 0 .next, .advance 0 .next, .advance 1 .next,
    .advance 0 .next, .advance 0 (.ready (.error (.network "down"))), .advance 1 .next,
    .advance 0 .next, .advance 0 .next, .advance 0 .next, .advance 0 .next,
    .advance 0 (.ready (.ok (.inl "fetched"))), .advance 0 .next, .advance 0 .next]

theorem attempts_of_reachable_retriedOnce :
  ∃ t r, (attempting 0).Reachable t ∧ t.1.runs.lookup 0 = some r ∧
    t.2 = [.called, .failed (.network "down"), .called, .returned (.inl "fetched"),
      .stored (.inl "fetched!" : String ⊕ Nat)] ∧ Attempts r t.2
  := by
  obtain ⟨t, ht, hrun⟩ := Machine.exists_reachable_of_exec retriedOnce
    (fun t : Sys (String ⊕ Nat) × List (Event QueryError (String ⊕ Nat) (String ⊕ Nat)) =>
      (t.2, (t.1.runs.lookup 0).isSome)) _ (M := attempting 0) (s := (initial, []))
    ⟨rfl, rfl⟩ rfl
  obtain ⟨hlog, hsome⟩ := Prod.mk.inj hrun
  obtain ⟨r, hr⟩ := Option.isSome_iff_exists.mp hsome
  exact ⟨t, r, ht, hr, hlog, attempts_of_reachable ht hr⟩

end Sys

end RsQuery
