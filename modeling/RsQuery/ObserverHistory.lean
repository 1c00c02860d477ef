import Mathlib.Data.List.DropRight
import RsQuery.Lib.Machine
import RsQuery.Observer

/-!
# The record of an observer against its history

An observer keeps counts and times of the calls made on it, each in a field of its own.
`Ledger` reads them off the history of the calls.  Two transitions depart from it: marking
data as stale dates it anew, and the counters of errors saturate.
-/

namespace RsQuery

namespace QueryObserver

variable {V : Type}

namespace Call

/-- When a `set_success` was called. -/
def successAt : Call V → Option Instant
  | .setSuccess now _ => some now
  | _ => none

/-- What a `set_error` was called with. -/
def errorOf : Call V → Option QueryError
  | .setError _ error => some error
  | _ => none

/-- A fetch starts. -/
def starts : Call V → Bool
  | .setLoading _ => true
  | _ => false

/-- A fetch ends. -/
def settles : Call V → Bool
  | .setSuccess .. | .setError .. => true
  | _ => false

/-- The failures so far no longer count. -/
def resets : Call V → Bool
  | .setLoading _ | .setSuccess .. => true
  | _ => false

end Call

/-- When data was last set. -/
def lastSuccess (calls : List (Call V)) : Option Instant :=
  (calls.filterMap Call.successAt).getLast?

/-- The errors that were set. -/
def errors (calls : List (Call V)) : List QueryError :=
  calls.filterMap Call.errorOf

/-- The calls since the last fetch started or succeeded. -/
def sinceReset (calls : List (Call V)) : List (Call V) :=
  calls.rtakeWhile fun a => !a.resets

/-- A fetch ended after one had started. -/
def SettledAfterStart (calls : List (Call V)) : Prop :=
  ∃ before a after, calls = before ++ a :: after ∧ a.settles = true ∧
    ∃ b ∈ before, b.starts = true

/-- The record of an observer is what its history says. -/
structure Ledger (o : QueryObserver V) (calls : List (Call V)) : Prop where
  dataUpdatedAt : o.dataUpdatedAt = lastSuccess calls
  errorUpdateCount : o.errorUpdateCount = (errors calls).length
  failureCount : o.failureCount = (errors (sinceReset calls)).length
  failureReason : o.failureReason = (errors (sinceReset calls)).getLast?
  isFetched : o.isFetched = true ↔ ∃ a ∈ calls, a.settles = true
  isFetchedAfterMount : o.isFetchedAfterMount = true ↔ SettledAfterStart calls

theorem lastSuccess_concat (calls : List (Call V)) (a : Call V) :
  lastSuccess (calls ++ [a]) = a.successAt.or (lastSuccess calls)
  := by
  rw [lastSuccess, List.filterMap_append]
  cases h : a.successAt with
  | none => simp [h, lastSuccess]
  | some now => simp [h]

theorem errors_concat (calls : List (Call V)) (a : Call V) :
  errors (calls ++ [a]) = errors calls ++ a.errorOf.toList
  := by
  rw [errors, List.filterMap_append]
  cases h : a.errorOf with
  | none => simp [h, errors]
  | some e => simp [h, errors]

theorem sinceReset_concat (calls : List (Call V)) (a : Call V) :
  sinceReset (calls ++ [a]) = if a.resets then [] else sinceReset calls ++ [a]
  := by
  rw [sinceReset, List.rtakeWhile_concat]
  cases a.resets with
  | false => rfl
  | true => rfl

theorem settledAfterStart_concat (calls : List (Call V)) (a : Call V) :
  SettledAfterStart (calls ++ [a]) ↔
    SettledAfterStart calls ∨ (a.settles = true ∧ ∃ b ∈ calls, b.starts = true)
  := by
  constructor
  · rintro ⟨before, a', after, h, hsettles, hstarts⟩
    rcases Machine.concat_eq_append_cons h with ⟨after, hcalls, -⟩ | ⟨rfl, rfl, -⟩
    · left
      exact ⟨before, a', after, hcalls, hsettles, hstarts⟩
    · right
      exact ⟨hsettles, hstarts⟩
  · rintro (⟨before, a', after, rfl, hsettles, hstarts⟩ | ⟨hsettles, hstarts⟩)
    · exact ⟨before, a', after ++ [a], by simp, hsettles, hstarts⟩
    · exact ⟨calls, a, [], rfl, hsettles, hstarts⟩

/-- The failures that count are no more than all of them. -/
theorem length_errors_sinceReset_le (calls : List (Call V)) :
  (errors (sinceReset calls)).length ≤ (errors calls).length
  := by
  apply List.Sublist.length_le
  apply List.Sublist.filterMap
  apply List.IsSuffix.sublist
  apply List.rtakeWhile_suffix

/-- The record agrees with the history, and a start that was not followed by an end is on
record too. -/
structure Kept (o : QueryObserver V) (calls : List (Call V)) : Prop where
  ledger : Ledger o calls
  started : o.fetchStartedAt.isSome = true ∨ o.isFetchedAfterMount = true ↔
    ∃ b ∈ calls, b.starts = true

/-- A call that is recorded as the history counts it: data is marked as stale only at the
instant it was set, and the errors have not reached their largest count. -/
def Counted (o : QueryObserver V) (calls : List (Call V)) : Call V → Prop
  | .setStale now => o.state.hasData = true → lastSuccess calls = some now
  | .setError .. => (errors calls).length < u32Max
  | .update .. | .setLoading _ | .setSuccess .. => True

variable {o o' : QueryObserver V} {calls : List (Call V)}

/-- A call that is no event of a fetch leaves the record as it is. -/
theorem Kept.concat
    (h : Kept o calls) {a : Call V} (hsuccess : a.successAt = none) (herror : a.errorOf = none)
    (hresets : a.resets = false) (hsettles : a.settles = false) (hstarts : a.starts = false)
    (ho : o' = { o with state := o'.state }) :
  Kept o' (calls ++ [a])
  := by
  rw [ho]
  obtain ⟨hl, hstarted⟩ := h
  refine ⟨⟨?_, ?_, ?_, ?_, ?_, ?_⟩, ?_⟩
  · rw [lastSuccess_concat, hsuccess]
    apply hl.dataUpdatedAt
  · rw [errors_concat, herror]
    simpa using hl.errorUpdateCount
  · rw [sinceReset_concat, hresets]
    simpa [errors_concat, herror] using hl.failureCount
  · rw [sinceReset_concat, hresets]
    simpa [errors_concat, herror] using hl.failureReason
  · simpa [hsettles] using hl.isFetched
  · simpa [settledAfterStart_concat, hsettles] using hl.isFetchedAfterMount
  · simpa [hstarts] using hstarted

theorem Kept.setLoading (h : Kept o calls) (now : Instant) :
  Kept (o.setLoading now) (calls ++ [.setLoading now])
  := by
  obtain ⟨hl, hstarted⟩ := h
  refine ⟨⟨?_, ?_, ?_, ?_, ?_, ?_⟩, ?_⟩
  · rw [lastSuccess_concat]
    apply hl.dataUpdatedAt
  · rw [errors_concat]
    simpa [QueryObserver.setLoading, Call.errorOf] using hl.errorUpdateCount
  · rw [sinceReset_concat]
    rfl
  · rw [sinceReset_concat]
    rfl
  · simpa [QueryObserver.setLoading, Call.settles] using hl.isFetched
  · simpa [QueryObserver.setLoading, settledAfterStart_concat, Call.settles]
      using hl.isFetchedAfterMount
  · simp [QueryObserver.setLoading, Call.starts]

/-- An end of a fetch is after a start where one is on record. -/
theorem Kept.settled_iff (h : Kept o calls) {a : Call V} (hsettles : a.settles = true) :
  (o.fetchStartedAt.isSome || o.isFetchedAfterMount) = true ↔ SettledAfterStart (calls ++ [a])
  := by
  rw [settledAfterStart_concat, ← h.started, ← h.ledger.isFetchedAfterMount, Bool.or_eq_true,
    hsettles]
  tauto

theorem Kept.setSuccess (h : Kept o calls) (now : Instant) (data : V) :
  Kept (o.setSuccess now data) (calls ++ [.setSuccess now data])
  := by
  have hsettled := h.settled_iff (a := .setSuccess now data) rfl
  obtain ⟨hl, hstarted⟩ := h
  refine ⟨⟨?_, ?_, ?_, ?_, ?_, hsettled⟩, ?_⟩
  · rw [lastSuccess_concat]
    rfl
  · rw [errors_concat]
    simpa [QueryObserver.setSuccess, Call.errorOf] using hl.errorUpdateCount
  · rw [sinceReset_concat]
    rfl
  · rw [sinceReset_concat]
    rfl
  · simp [QueryObserver.setSuccess, Call.settles]
  · simpa [QueryObserver.setSuccess, Call.starts] using hstarted

theorem Kept.setError
    (h : Kept o calls) (hlt : (errors calls).length < u32Max) (now : Instant) (e : QueryError) :
  Kept (o.setError now e) (calls ++ [.setError now e])
  := by
  have hsettled := h.settled_iff (a := .setError now e) rfl
  obtain ⟨hl, hstarted⟩ := h
  have hle := length_errors_sinceReset_le calls
  refine ⟨⟨?_, ?_, ?_, ?_, ?_, hsettled⟩, ?_⟩
  · rw [lastSuccess_concat]
    apply hl.dataUpdatedAt
  · rw [errors_concat]
    simp only [QueryObserver.setError, hl.errorUpdateCount, Call.errorOf, Option.toList_some,
      List.length_append, List.length_singleton]
    omega
  · rw [sinceReset_concat]
    simp only [QueryObserver.setError, hl.failureCount, Call.resets, Bool.false_eq_true,
      if_false, errors_concat, Call.errorOf, Option.toList_some, List.length_append,
      List.length_singleton]
    omega
  · rw [sinceReset_concat]
    simp [QueryObserver.setError, Call.resets, errors_concat, Call.errorOf]
  · simp [QueryObserver.setError, Call.settles]
  · simpa [QueryObserver.setError, Call.starts] using hstarted

/-- Marking data as stale dates it anew. -/
theorem Kept.setStale
    (h : Kept o calls) {now : Instant}
    (hnow : o.state.hasData = true → lastSuccess calls = some now) :
  Kept (o.setStale now) (calls ++ [.setStale now])
  := by
  apply h.concat rfl rfl rfl rfl rfl
  rw [QueryObserver.setStale]
  cases hd : o.state.data with
  | none => rfl
  | some d =>
    have hlast := hnow (by rw [QueryState.hasData, hd]; rfl)
    simp only [h.ledger.dataUpdatedAt, hlast]

variable [PartialEqAny V]

theorem kept_mount (c : QueryClient V) (now : Instant) (m : Mount V) :
  Kept (mount c now m).2 []
  := by
  have h := unrecorded_mount c now m
  refine ⟨⟨h.dataUpdatedAt, h.errorUpdateCount, h.failureCount, h.failureReason, ?_, ?_⟩, ?_⟩
  · simp [h.isFetched]
  · simp [h.isFetchedAfterMount, SettledAfterStart]
  · simp [h.isFetchedAfterMount, h.fetchStartedAt]

/-- A counted call keeps the record in agreement with the history. -/
theorem Kept.call (h : Kept o calls) {a : Call V} (ha : Counted o calls a) :
  Kept (o.call a) (calls ++ [a])
  := by
  cases a with
  | update now c => apply h.concat rfl rfl rfl rfl rfl rfl
  | setLoading now => apply h.setLoading
  | setSuccess now data => apply h.setSuccess
  | setError now e => apply h.setError ha
  | setStale now => apply h.setStale ha

/-- The record after a call is what the history says exactly where the call is counted. -/
theorem Kept.ledger_call_iff (h : Kept o calls) (a : Call V) :
  Ledger (o.call a) (calls ++ [a]) ↔ Counted o calls a
  := by
  constructor
  · intro hl
    cases a with
    | update now c => trivial
    | setLoading now => trivial
    | setSuccess now data => trivial
    | setError now e =>
      have hl : Ledger (o.setError now e) _ := hl
      have hcount := hl.errorUpdateCount
      simp only [QueryObserver.setError, h.ledger.errorUpdateCount, errors_concat,
        Call.errorOf, Option.toList_some, List.length_append, List.length_singleton] at hcount
      show (errors calls).length < u32Max
      omega
    | setStale now =>
      intro hdata
      obtain ⟨d, hd⟩ := Option.isSome_iff_exists.mp hdata
      have hl : Ledger (o.setStale now) _ := hl
      have htime := hl.dataUpdatedAt
      simp only [QueryObserver.setStale, hd, lastSuccess_concat, Call.successAt,
        Option.none_or] at htime
      apply htime.symm
  · intro ha
    apply (h.call ha).ledger

/-- An observer on a client. -/
def machine : Machine (QueryObserver V) (Call V) where
  init o := ∃ c now m, o = (mount c now m).2
  step o a := some (o.call a)

/-- Observers with the calls made on them. -/
def recording : Machine (QueryObserver V × List (Call V)) (Call V) :=
  machine.noting fun _ a _ => [a]

/-- Along the calls on an observer its record is what their history says exactly if every
call is counted. -/
theorem ledger_iff (c : QueryClient V) (now : Instant) (m : Mount V) (calls : List (Call V)) :
  recording.Meets (fun t a => Ledger (t.1.call a) (t.2 ++ [a])) ((mount c now m).2, []) calls ↔
    recording.Meets (fun t a => Counted t.1 t.2 a) ((mount c now m).2, []) calls
  := by
  apply Machine.meets_congr (I := fun t => Kept t.1 t.2) (kept_mount c now m)
  · intro t a h
    apply h.ledger_call_iff
  · intro t a t' h hl ht
    obtain ⟨hs, hcalls⟩ := Machine.step_noting ht
    rw [← Option.some.inj hs, hcalls]
    apply h.call ((h.ledger_call_iff a).mp hl)

/-- Data that was set at one instant and marked as stale at the next is dated at that. -/
theorem not_ledger_setStale :
  ¬ ∀ (c : QueryClient (String ⊕ Nat)) (now : Instant) (m : Mount (String ⊕ Nat))
      (calls : List (Call (String ⊕ Nat))),
    recording.Meets (fun t a => Ledger (t.1.call a) (t.2 ++ [a])) ((mount c now m).2, []) calls
  := by
  intro h
  let user : Mount (String ⊕ Nat) := .new (.new "user") (typeOf (.inl "" : String ⊕ Nat))
  obtain ⟨-, h⟩ := h .new 0 user [.setSuccess 1 (.inl "ada"), .setStale 2]
  obtain ⟨h, -⟩ := h _ rfl
  have hdate : some 2 = some 1 := h.dataUpdatedAt
  contradiction

end QueryObserver

end RsQuery
