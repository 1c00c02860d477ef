import Mathlib.Data.List.Basic
import Mathlib.Tactic.Use

/-!
# Attempts

An operation joins one that is in progress, or it calls a function until a call returns or
fails with an error that is not retried.  What a call returned is processed and stored.
`Attempts.Trace` holds of what an operation has done so far, in order, and the stage it is
at.  `Attempts.Paced` holds of one that pauses after every failure it retries, as long as
belongs to the calls made before.  What can be said of such traces is said here once, for any
policy.
-/

namespace Attempts

variable {ε α β : Type*}

/-- What an operation does. -/
inductive Event (ε α β : Type*) where
  | joined
  | called
  | failed (error : ε)
  | returned (data : α)
  | stored (data : β)

/-- A call of the function. -/
def Event.isCall : Event ε α β → Bool
  | .called => true
  | _ => false

/-- Where an operation stands; `n` counts the calls before the last one. -/
inductive Stage (ε α : Type*) where
  | fresh
  | joined
  | calling (n : Nat)
  | failed (n : Nat) (error : ε)
  | returned (data : α)
  | stored

/-- The number of calls made at a stage, where the stage tells it. -/
def Stage.calls : Stage ε α → Option Nat
  | .fresh | .joined => some 0
  | .calling n | .failed n _ => some (n + 1)
  | .returned _ | .stored => none

/-- Which failures are retried, at what count, and what becomes of what is returned. -/
structure Policy (ε α β : Type*) where
  retry : ε → Nat → Bool
  process : α → β

/-- What an operation can do next. -/
inductive Step (p : Policy ε α β) : Stage ε α → Event ε α β → Stage ε α → Prop where
  | join : Step p .fresh .joined .joined
  | call : Step p .fresh .called (.calling 0)
  | fail {n : Nat} {error : ε} : Step p (.calling n) (.failed error) (.failed n error)
  | retry {n : Nat} {error : ε} : p.retry error n = true →
      Step p (.failed n error) .called (.calling (n + 1))
  | yield {n : Nat} {data : α} : Step p (.calling n) (.returned data) (.returned data)
  | store {data : α} : Step p (.returned data) (.stored (p.process data)) .stored

/-- The stage stays as it is, or the one thing done leads to the next. -/
def Goes (p : Policy ε α β) (stage : Stage ε α) (events : List (Event ε α β))
    (stage' : Stage ε α) : Prop :=
  (events = [] ∧ stage' = stage) ∨ ∃ e, events = [e] ∧ Step p stage e stage'

/-- What an operation has done so far, and the stage it has come to. -/
inductive Trace (p : Policy ε α β) : List (Event ε α β) → Stage ε α → Prop where
  | nil : Trace p [] .fresh
  | concat {log : List (Event ε α β)} {stage stage' : Stage ε α} {e : Event ε α β} :
      Trace p log stage → Step p stage e stage' → Trace p (log ++ [e]) stage'

namespace Trace

variable {p : Policy ε α β} {log : List (Event ε α β)} {stage : Stage ε α} {max : Nat}

theorem goes {events : List (Event ε α β)} {stage' : Stage ε α} (h : Trace p log stage)
    (hgoes : Goes p stage events stage') :
  Trace p (log ++ events) stage'
  := by
  obtain ⟨rfl, rfl⟩ | ⟨e, rfl, hstep⟩ := hgoes
  · rwa [List.append_nil]
  · apply h.concat hstep

/-- The stage tells how many calls were made. -/
theorem calls_eq (h : Trace p log stage) :
  ∀ n ∈ stage.calls, log.countP Event.isCall = n
  := by
  induction h with
  | nil =>
    intro n hn
    apply Option.some.inj hn
  | concat _ hstep ih =>
    intro n hn
    rw [List.countP_append, List.countP_singleton]
    cases hstep with
    | join | call | fail | retry =>
      rw [ih _ rfl]
      apply Option.some.inj hn
    | yield | store => contradiction

/-- Where retries stop at a count of calls, no more than one is made after it. -/
theorem calls_le_of_stops (h : Trace p log stage) (hmax : ∀ e, p.retry e max = false) :
  log.countP Event.isCall ≤ max + 1
  := by
  induction h with
  | nil => apply Nat.zero_le
  | concat htrace hstep ih =>
    rw [List.countP_append, List.countP_singleton]
    cases hstep with
    | call =>
      rw [htrace.calls_eq _ rfl]
      apply Nat.succ_le_succ (Nat.zero_le max)
    | @retry n error hretry =>
      have hn := htrace.calls_eq _ rfl
      have hne : n ≠ max := by
        rintro rfl
        rw [hmax] at hretry
        contradiction
      rw [hn] at ih ⊢
      apply Nat.succ_le_succ
      apply Nat.lt_of_le_of_ne (Nat.le_of_succ_le_succ ih) hne
    | _ => apply ih

/-- Where retries are bounded, so are calls. -/
theorem calls_le (h : Trace p log stage) (hmax : ∀ e n, p.retry e n = true → n < max) :
  log.countP Event.isCall ≤ max + 1
  := by
  apply h.calls_le_of_stops
  intro e
  apply Bool.eq_false_iff.mpr
  intro hretry
  apply Nat.lt_irrefl max (hmax e max hretry)

/-- What was done last tells the stage. -/
theorem last_of_failed {n : Nat} {error : ε} (h : Trace p log (.failed n error)) :
  ∃ l, log = l ++ [.failed error]
  := by
  cases h with
  | concat htrace hstep =>
    cases hstep with
    | fail => exact ⟨_, rfl⟩

theorem last_of_returned {data : α} (h : Trace p log (.returned data)) :
  ∃ l, log = l ++ [.returned data]
  := by
  cases h with
  | concat htrace hstep =>
    cases hstep with
    | yield => exact ⟨_, rfl⟩

theorem eq_nil_of_fresh (h : Trace p log .fresh) :
  log = []
  := by
  cases h with
  | nil => rfl
  | concat htrace hstep => contradiction

/-- What was done before is a trace as well. -/
theorem of_append {l₁ l₂ : List (Event ε α β)} {e : Event ε α β} (h : Trace p log stage)
    (hlog : log = l₁ ++ e :: l₂) :
  ∃ st st', Trace p l₁ st ∧ Step p st e st'
  := by
  induction h generalizing l₂ with
  | nil => simp at hlog
  | @concat log st st' e' htrace hstep ih =>
    obtain rfl | ⟨l, e'', rfl⟩ := List.eq_nil_or_concat' l₂
    · obtain ⟨rfl, he⟩ := List.append_inj' hlog rfl
      obtain rfl := List.singleton_inj.mp he
      exact ⟨st, st', htrace, hstep⟩
    · have hlog' : log ++ [e'] = (l₁ ++ e :: l) ++ [e''] := by simp [hlog]
      obtain ⟨rfl, -⟩ := List.append_inj' hlog' rfl
      apply ih rfl

/-- A call is the first thing an operation does, or it follows a failure that is retried at
the count of the calls before. -/
theorem call_cases {l₁ l₂ : List (Event ε α β)} (h : Trace p log stage)
    (hlog : log = l₁ ++ .called :: l₂) :
  l₁ = [] ∨ ∃ l n e, l₁ = l ++ [.failed e] ∧ l₁.countP Event.isCall = n + 1 ∧ p.retry e n = true
  := by
  obtain ⟨st, st', htrace, hstep⟩ := h.of_append hlog
  cases hstep with
  | call => exact .inl htrace.eq_nil_of_fresh
  | retry hretry =>
    obtain ⟨l, rfl⟩ := htrace.last_of_failed
    exact .inr ⟨l, _, _, rfl, htrace.calls_eq _ rfl, hretry⟩

/-- What is stored is what was returned just before, processed. -/
theorem stored_cases {l₁ l₂ : List (Event ε α β)} {data : β} (h : Trace p log stage)
    (hlog : log = l₁ ++ .stored data :: l₂) :
  ∃ l a, l₁ = l ++ [.returned a] ∧ data = p.process a
  := by
  obtain ⟨st, st', htrace, hstep⟩ := h.of_append hlog
  cases hstep with
  | @store a =>
    obtain ⟨l, rfl⟩ := htrace.last_of_returned
    exact ⟨l, a, rfl, rfl⟩

/-- An operation that joins another does nothing else. -/
theorem eq_of_joined (h : Trace p log stage) (hjoined : .joined ∈ log) :
  log = [.joined] ∧ stage = .joined
  := by
  induction h with
  | nil => contradiction
  | concat htrace hstep ih =>
    obtain hjoined | hjoined := List.mem_append.mp hjoined
    · obtain ⟨-, rfl⟩ := ih hjoined
      contradiction
    · obtain rfl := List.mem_singleton.mp hjoined
      cases hstep with
      | join =>
        rw [htrace.eq_nil_of_fresh]
        exact ⟨rfl, rfl⟩

/-- Nothing follows what is stored. -/
theorem eq_nil_of_stored {l₁ l₂ : List (Event ε α β)} {data : β} (h : Trace p log stage)
    (hlog : log = l₁ ++ .stored data :: l₂) :
  l₂ = [] ∧ stage = .stored
  := by
  induction h generalizing l₂ with
  | nil => simp at hlog
  | @concat log st st' e' htrace hstep ih =>
    obtain rfl | ⟨l, e'', rfl⟩ := List.eq_nil_or_concat' l₂
    · obtain ⟨-, he⟩ := List.append_inj' hlog rfl
      obtain rfl := List.singleton_inj.mp he
      cases hstep with
      | store => exact ⟨rfl, rfl⟩
    · have hlog' : log ++ [e'] = (l₁ ++ .stored data :: l) ++ [e''] := by simp [hlog]
      obtain ⟨hlog, -⟩ := List.append_inj' hlog' rfl
      obtain ⟨-, rfl⟩ := ih hlog
      contradiction

end Trace

/-! ### Pauses -/

variable {δ : Type*}

/-- What an operation that pauses does. -/
inductive Deed (ε α β δ : Type*) where
  | event (e : Event ε α β)
  | paused (delay : δ)

/-- A call of the function. -/
def Deed.isCall : Deed ε α β δ → Bool
  | .event e => e.isCall
  | .paused _ => false

/-- What an operation does, without its pauses. -/
def Deed.event? : Deed ε α β δ → Option (Event ε α β)
  | .event e => some e
  | .paused _ => none

/-- What an operation that pauses before it retries has done so far, and the stage it has come
to; `rested` says that it has paused there. -/
inductive Paced (p : Policy ε α β) (delay : Nat → δ) :
    List (Deed ε α β δ) → Stage ε α → Bool → Prop where
  | nil : Paced p delay [] .fresh false
  | concat {log : List (Deed ε α β δ)} {stage stage' : Stage ε α} {rested : Bool}
      {e : Event ε α β} : Paced p delay log stage rested → Step p stage e stage' →
      (∀ n error, stage = .failed n error → rested = true) →
      Paced p delay (log ++ [.event e]) stage' false
  | pause {log : List (Deed ε α β δ)} {n : Nat} {error : ε} :
      Paced p delay log (.failed n error) false → p.retry error n = true →
      Paced p delay (log ++ [.paused (delay n)]) (.failed n error) true

namespace Paced

variable {p : Policy ε α β} {delay : Nat → δ} {log : List (Deed ε α β δ)} {stage : Stage ε α}
  {rested : Bool}

/-- Without its pauses it is a trace. -/
theorem trace (h : Paced p delay log stage rested) :
  Trace p (log.filterMap Deed.event?) stage
  := by
  induction h with
  | nil => apply Trace.nil
  | concat _ hstep _ ih =>
    rw [List.filterMap_append]
    apply ih.concat hstep
  | pause _ _ ih =>
    rw [List.filterMap_append]
    simpa [List.filterMap_cons, Deed.event?] using ih

/-- Pauses are no calls. -/
theorem countP_event (log : List (Deed ε α β δ)) :
  (log.filterMap Deed.event?).countP Event.isCall = log.countP Deed.isCall
  := by
  induction log with
  | nil => rfl
  | cons d log ih =>
    rw [List.countP_cons, ← ih]
    cases d with
    | event e => apply List.countP_cons
    | paused delay => rfl

/-- What was done last tells the stage. -/
theorem last_of_failed {n : Nat} {error : ε} (h : Paced p delay log (.failed n error) false) :
  ∃ l, log = l ++ [.event (.failed error)]
  := by
  cases h with
  | concat hpaced hstep =>
    cases hstep with
    | fail => exact ⟨_, rfl⟩

theorem last_of_rested {n : Nat} {error : ε} (h : Paced p delay log (.failed n error) true) :
  p.retry error n = true ∧ ∃ l, log = l ++ [.event (.failed error), .paused (delay n)]
  := by
  cases h with
  | pause hpaced hretry =>
    obtain ⟨l, rfl⟩ := hpaced.last_of_failed
    exact ⟨hretry, l, by simp⟩

theorem last_of_returned {data : α} (h : Paced p delay log (.returned data) rested) :
  ∃ l, log = l ++ [.event (.returned data)]
  := by
  cases h with
  | concat hpaced hstep =>
    cases hstep with
    | yield => exact ⟨_, rfl⟩

theorem eq_nil_of_fresh (h : Paced p delay log .fresh rested) :
  log = []
  := by
  cases h with
  | nil => rfl
  | concat hpaced hstep => contradiction

/-- What was done before is paced as well. -/
theorem of_append {l₁ l₂ : List (Deed ε α β δ)} {e : Event ε α β}
    (h : Paced p delay log stage rested) (hlog : log = l₁ ++ .event e :: l₂) :
  ∃ st st' r, Paced p delay l₁ st r ∧ Step p st e st' ∧ (∀ n error, st = .failed n error → r = true)
  := by
  induction h generalizing l₂ with
  | nil => simp at hlog
  | @concat log st st' r e' hpaced hstep hrested ih =>
    rcases List.eq_nil_or_concat' l₂ with rfl | ⟨l, d, rfl⟩
    · obtain ⟨rfl, he⟩ := List.append_inj' hlog rfl
      obtain rfl : e' = e := by simpa using he
      exact ⟨st, st', r, hpaced, hstep, hrested⟩
    · have hlog' : log ++ [.event e'] = (l₁ ++ .event e :: l) ++ [d] := by simp [hlog]
      obtain ⟨rfl, -⟩ := List.append_inj' hlog' rfl
      apply ih rfl
  | @pause log n error hpaced _ ih =>
    rcases List.eq_nil_or_concat' l₂ with rfl | ⟨l, d, rfl⟩
    · obtain ⟨-, he⟩ := List.append_inj' hlog rfl
      simp at he
    · have hlog' : log ++ [.paused (delay n)] = (l₁ ++ .event e :: l) ++ [d] := by simp [hlog]
      obtain ⟨rfl, -⟩ := List.append_inj' hlog' rfl
      apply ih rfl

/-- A call is the first thing an operation does, or it follows a failure that is retried at
the count of the calls before, and the pause that belongs to it. -/
theorem call_cases {l₁ l₂ : List (Deed ε α β δ)} (h : Paced p delay log stage rested)
    (hlog : log = l₁ ++ .event .called :: l₂) :
  l₁ = [] ∨ ∃ l n e, l₁ = l ++ [.event (.failed e), .paused (delay n)] ∧
    l₁.countP Deed.isCall = n + 1 ∧ p.retry e n = true
  := by
  obtain ⟨st, st', r, hpaced, hstep, hrested⟩ := h.of_append hlog
  cases hstep with
  | call => exact .inl hpaced.eq_nil_of_fresh
  | @retry n error hretry =>
    obtain rfl := hrested n error rfl
    obtain ⟨-, l, hl⟩ := hpaced.last_of_rested
    refine .inr ⟨l, n, error, hl, ?_, hretry⟩
    rw [← countP_event]
    apply hpaced.trace.calls_eq _ rfl

end Paced

end Attempts
