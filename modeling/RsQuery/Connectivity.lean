import RsQuery.Lib.Machine
import RsQuery.Network

/-!
# Concurrent calls of set_online

`set_online` tests the flag, stores the flag, and then sends to the watch cell.  Callers
take these steps in any order, so a value can be sent after the flag has moved on.  As long
as that happens only while another call is still to send, the last send is that of the value
the flag ends with.
-/

namespace RsQuery

namespace Connectivity

/-- What a call of `set_online` does next. -/
inductive Pc where
  | test
  | store
  | send
  | returned
deriving DecidableEq, Repr

/-- A call of `set_online`. -/
structure SetOnline where
  online : Bool
  pc : Pc
deriving DecidableEq, Repr

/-- The manager, and the calls made on its clones. -/
structure Callers where
  manager : OnlineManager
  calls : Table Nat SetOnline
  nextCall : Nat

/-- A step: a new call, or the next step of a call. -/
inductive Action where
  | setOnline (online : Bool)
  | advance (i : Nat)
deriving DecidableEq, Repr

namespace Callers

/-- No call was made. -/
def initial : Callers :=
  ⟨.new, ∅, 0⟩

/-- The call goes on to `pc`. -/
def goto (s : Callers) (i : Nat) (call : SetOnline) (pc : Pc) : Callers :=
  { s with calls := s.calls.insert i { call with pc := pc } }

/-- The state after a step. -/
def step (s : Callers) : Action → Option Callers
  | .setOnline online =>
    some { s with calls := s.calls.insert s.nextCall ⟨online, .test⟩, nextCall := s.nextCall + 1 }
  | .advance i =>
    match s.calls.lookup i with
    | none => none
    | some call =>
      match call.pc with
      | .test =>
        if s.manager.isOnline ≠ call.online then some (s.goto i call .store)
        else some (s.goto i call .returned)
      | .store => some ({ s with manager.online := call.online }.goto i call .send)
      | .send =>
        some ({ s with manager.tx := (Watch.send s.manager.tx call.online).1 }.goto i call .returned)
      | .returned => none

/-- The calls and their interleavings. -/
def machine : Machine Callers Action where
  init s := s = initial
  step := step

theorem lookup_goto (s : Callers) (i : Nat) (call : SetOnline) (pc : Pc) (j : Nat) :
  (s.goto i call pc).calls.lookup j
    = if j = i then some { call with pc := pc } else s.calls.lookup j
  := Table.lookup_insert_eq _ _ _ _

section Advance

variable {s s' : Callers} {i : Nat} {call : SetOnline}

theorem step_test (hi : s.calls.lookup i = some call) (hpc : call.pc = .test) :
  s.step (.advance i)
    = some (s.goto i call (if s.manager.isOnline ≠ call.online then .store else .returned))
  := by
  simp only [step, hi, hpc]
  split
  · rfl
  · rfl

theorem step_store (hi : s.calls.lookup i = some call) (hpc : call.pc = .store) :
  s.step (.advance i) = some ({ s with manager.online := call.online }.goto i call .send)
  := by
  simp only [step, hi, hpc]

theorem step_send (hi : s.calls.lookup i = some call) (hpc : call.pc = .send) :
  s.step (.advance i)
    = some ({ s with manager.tx := (Watch.send s.manager.tx call.online).1 }.goto i call .returned)
  := by
  simp only [step, hi, hpc]

/-- What an advance of a call does. -/
theorem step_advance (hs : s.step (.advance i) = some s') :
  ∃ call, s.calls.lookup i = some call ∧
    ((call.pc = .test ∧
        s' = s.goto i call (if s.manager.isOnline ≠ call.online then .store else .returned)) ∨
      (call.pc = .store ∧ s' = { s with manager.online := call.online }.goto i call .send) ∨
      (call.pc = .send ∧
        s' = { s with manager.tx := (Watch.send s.manager.tx call.online).1 }.goto i call
          .returned))
  := by
  cases hi : s.calls.lookup i with
  | none => simp [step, hi] at hs
  | some call =>
    refine ⟨call, rfl, ?_⟩
    cases hpc : call.pc with
    | test =>
      left
      rw [step_test hi hpc] at hs
      exact ⟨rfl, (Option.some.inj hs).symm⟩
    | store =>
      right
      left
      rw [step_store hi hpc] at hs
      exact ⟨rfl, (Option.some.inj hs).symm⟩
    | send =>
      right
      right
      rw [step_send hi hpc] at hs
      exact ⟨rfl, (Option.some.inj hs).symm⟩
    | returned => simp [step, hi, hpc] at hs

/-- The steps of a call that is let alone are `set_online`. -/
theorem exec_alone {online : Bool} (hi : s.calls.lookup i = some ⟨online, .test⟩) :
  ∃ as s', machine.exec s as = some s' ∧ s'.manager = (s.manager.setOnline online).1 ∧
    s'.calls.lookup i = some ⟨online, .returned⟩
  := by
  have lookup_self (s : Callers) (call : SetOnline) (pc : Pc) :
      (s.goto i call pc).calls.lookup i = some { call with pc := pc } := by
    rw [lookup_goto, if_pos rfl]
  have htest : machine.step s (.advance i) = _ := step_test hi rfl
  rw [OnlineManager.setOnline]
  split
  · next h =>
    rw [if_pos h] at htest
    let stored : Callers := { s.goto i ⟨online, .test⟩ .store with manager.online := online }
    have hstore : machine.step (s.goto i ⟨online, .test⟩ .store) (.advance i)
        = some (stored.goto i ⟨online, .store⟩ .send) := step_store (lookup_self _ _ _) rfl
    have hsend : machine.step (stored.goto i ⟨online, .store⟩ .send) (.advance i) = _ :=
      step_send (lookup_self _ _ _) rfl
    have hexec : machine.exec s [.advance i, .advance i, .advance i] = _ :=
      (Machine.exec_cons htest).trans ((Machine.exec_cons hstore).trans
        ((Machine.exec_cons hsend).trans (Machine.exec_nil _)))
    exact ⟨_, _, hexec, rfl, lookup_self _ _ _⟩
  · next h =>
    rw [if_neg h] at htest
    exact ⟨[.advance i], _, Machine.exec_cons htest, rfl, lookup_self _ _ _⟩

end Advance

/-- Every call has returned. -/
def Returned (s : Callers) : Prop :=
  ∀ i call, s.calls.lookup i = some call → call.pc = .returned

/-- The watch cell holds what the flag says. -/
def Agrees (s : Callers) : Prop :=
  s.manager.tx.value = s.manager.isOnline

/-- A call other than `i` has stored the flag and is still to send. -/
def OtherSends (s : Callers) (i : Nat) : Prop :=
  ∃ j call, s.calls.lookup j = some call ∧ (j ≠ i ∧ call.pc = .send)

/-- The value that a step stores. -/
def stores (s : Callers) (a : Action) (_ : Callers) : List Bool :=
  match a with
  | .setOnline _ => []
  | .advance i =>
    (s.calls.lookup i).elim [] fun call => if call.pc = .store then [call.online] else []

/-- The calls with a log of the values stored. -/
def storing : Machine (Callers × List Bool) Action :=
  machine.noting stores

/-- The value stored last; a new manager is online. -/
def lastStored (log : List Bool) : Bool :=
  log.getLast?.getD true

/-- A call sends the value that was stored last, or while another is still to send. -/
def SendsInTime (t : Callers × List Bool) : Action → Prop
  | .setOnline _ => True
  | .advance i =>
    ∀ call ∈ t.1.calls.lookup i, call.pc = .send →
      lastStored t.2 = call.online ∨ t.1.OtherSends i

instance (s : Callers) : Decidable s.Returned :=
  inferInstanceAs (Decidable (∀ i call, s.calls.lookup i = some call → _))

instance (s : Callers) (i : Nat) : Decidable (s.OtherSends i) :=
  inferInstanceAs (Decidable (∃ j call, s.calls.lookup j = some call ∧ _))

instance (t : Callers × List Bool) (a : Action) : Decidable (SendsInTime t a) := by
  unfold SendsInTime
  split
  · infer_instance
  · infer_instance

/-! ### Runs -/

/-- A call is still to send. -/
def Sends (s : Callers) : Prop :=
  ∃ i call, s.calls.lookup i = some call ∧ call.pc = .send

/-- The calls are numbered below the next one, the flag has the value stored last, and the
cell holds what the flag says unless a call is still to send. -/
structure Kept (s : Callers) (log : List Bool) : Prop where
  numbered : ∀ i call, s.calls.lookup i = some call → i < s.nextCall
  flag : s.manager.isOnline = lastStored log
  settled : s.Agrees ∨ s.Sends

variable {s s' : Callers} {a : Action} {i : Nat} {call : SetOnline} {pc : Pc} {log : List Bool}

/-- A step of a call leaves the calls numbered. -/
theorem numbered_goto (h : ∀ i call, s.calls.lookup i = some call → i < s.nextCall)
    (hi : s.calls.lookup i = some call) :
  ∀ j other, (s.goto i call pc).calls.lookup j = some other → j < s.nextCall
  := by
  intro j other hj
  rw [lookup_goto] at hj
  split at hj
  · next hji =>
    rw [hji]
    apply h i call hi
  · apply h j other hj

/-- A call that is still to send is so after a step of another. -/
theorem sends_goto {j : Nat} {other : SetOnline} (hj : s.calls.lookup j = some other)
    (hne : j ≠ i) (hpc : other.pc = .send) :
  (s.goto i call pc).Sends
  := by
  use j, other
  rw [lookup_goto, if_neg hne]
  exact ⟨hj, hpc⟩

theorem kept_initial :
  initial.Kept []
  := by
  constructor
  · intro i call hi
    contradiction
  · rfl
  · left
    rfl

/-- The flag has the value of the last store, and only a store changes it. -/
theorem flag_step (h : s.manager.isOnline = lastStored log) (hs : s.step a = some s') :
  s'.manager.isOnline = lastStored (log ++ s.stores a s')
  := by
  cases a with
  | setOnline online =>
    obtain rfl := Option.some.inj hs
    rwa [stores, List.append_nil]
  | advance i =>
    obtain ⟨call, hi, hcase⟩ := step_advance hs
    rw [stores, hi, Option.elim_some]
    rcases hcase with ⟨hpc, rfl⟩ | ⟨hpc, rfl⟩ | ⟨hpc, rfl⟩
    · have hne : call.pc ≠ .store := by simp [hpc]
      rwa [if_neg hne, List.append_nil]
    · rw [if_pos hpc, lastStored, List.getLast?_concat]
      rfl
    · have hne : call.pc ≠ .store := by simp [hpc]
      rwa [if_neg hne, List.append_nil]

theorem Kept.step (h : s.Kept log) (hok : SendsInTime (s, log) a) (hs : s.step a = some s') :
  s'.Kept (log ++ s.stores a s')
  := by
  have hflag' := flag_step h.flag hs
  cases a with
  | setOnline online =>
    obtain rfl := Option.some.inj hs
    have hlookup (i : Nat) : (s.calls.insert s.nextCall ⟨online, .test⟩).lookup i
        = if i = s.nextCall then some ⟨online, .test⟩ else s.calls.lookup i :=
      Table.lookup_insert_eq _ _ _ _
    refine ⟨?_, hflag', ?_⟩
    · intro i call hi
      rw [hlookup] at hi
      split at hi
      · next heq =>
        rw [heq]
        apply Nat.lt_succ_self
      · apply Nat.lt_succ_of_lt (h.numbered i call hi)
    · rcases h.settled with hagrees | ⟨i, call, hi, hpc⟩
      · left
        apply hagrees
      · right
        use i, call
        rw [hlookup, if_neg (Nat.ne_of_lt (h.numbered i call hi))]
        exact ⟨hi, hpc⟩
  | advance i =>
    obtain ⟨call, hi, hcase⟩ := step_advance hs
    rcases hcase with ⟨hpc, rfl⟩ | ⟨hpc, rfl⟩ | ⟨hpc, rfl⟩
    · -- a test changes neither the flag nor the cell
      refine ⟨?_, hflag', ?_⟩
      · apply numbered_goto h.numbered hi
      · rcases h.settled with hagrees | ⟨j, other, hj, hsend⟩
        · left
          apply hagrees
        · right
          refine sends_goto hj ?_ hsend
          rintro rfl
          obtain rfl := Option.some.inj (hi.symm.trans hj)
          rw [hpc] at hsend
          contradiction
    · -- the call that stored is still to send
      refine ⟨?_, hflag', ?_⟩
      · apply numbered_goto (s := { s with manager.online := call.online }) h.numbered hi
      · right
        use i, { call with pc := .send }
        rw [lookup_goto, if_pos rfl]
        exact ⟨rfl, rfl⟩
    · refine ⟨?_, hflag', ?_⟩
      · exact numbered_goto (s := { s with
          manager.tx := (Watch.send s.manager.tx call.online).1 }) h.numbered hi
      · rcases hok call hi hpc with hflag | ⟨j, other, hj, hne, hsend⟩
        · left
          exact hflag.symm.trans h.flag.symm
        · right
          exact sends_goto (s := { s with
            manager.tx := (Watch.send s.manager.tx call.online).1 }) hj hne hsend

theorem kept_of_run {t : Callers × List Bool} (h : storing.Run SendsInTime t) :
  t.1.Kept t.2
  := by
  apply h.invariant
  · rintro ⟨s, log⟩ ⟨rfl, rfl⟩
    apply kept_initial
  · intro t a t' _ ih hok hs
    obtain ⟨hstep, hlog⟩ := Machine.step_noting hs
    rw [hlog]
    apply ih.step hok hstep

/-- Where calls send in time, the cell holds what the flag says once all have returned. -/
theorem cellAgrees_of_run {t : Callers × List Bool} (h : storing.Run SendsInTime t)
    (hreturned : t.1.Returned) :
  t.1.Agrees
  := by
  rcases (kept_of_run h).settled with hagrees | ⟨i, call, hi, hpc⟩
  · apply hagrees
  · rw [hreturned i call hi] at hpc
    contradiction

/-- Two calls overlap, and the one that stores first sends first. -/
theorem cellAgrees_of_run_overlapping :
  ∃ t, storing.Run SendsInTime t ∧ (t.2 = [false, true] ∧ t.1.Returned) ∧ t.1.Agrees
  := by
  have init : storing.init (initial, []) := ⟨rfl, rfl⟩
  have meets : storing.Meets SendsInTime (initial, []) [.setOnline false, .advance 0, .advance 0,
      .setOnline true, .advance 1, .advance 1, .advance 0, .advance 1] := by
    decide +kernel
  obtain ⟨t, ht, hseen⟩ := Machine.exists_run_of_exec _
    (fun t : Callers × List Bool => (t.2, decide t.1.Returned)) ([false, true], true)
    init meets (by decide +kernel)
  obtain ⟨hlog, hreturned⟩ := Prod.mk.inj hseen
  have hreturned := of_decide_eq_true hreturned
  exact ⟨t, ht, ⟨hlog, hreturned⟩, cellAgrees_of_run ht hreturned⟩

/-- The flag is stored offline and then online, and the values are sent the other way
round: the flag ends online and the cell offline. -/
theorem not_cellAgrees_overtaken :
  ∃ s, machine.Reachable s ∧ s.Returned ∧ s.manager.isOnline = true ∧ ¬ s.Agrees
  := by
  have init : machine.init initial := rfl
  obtain ⟨s, hs, hseen⟩ := Machine.exists_reachable_of_exec
    ([.setOnline false, .advance 0, .advance 0, .setOnline true, .advance 1, .advance 1,
      .advance 1, .advance 0] : List Action)
    (fun s : Callers => (decide s.Returned, s.manager.isOnline, s.manager.tx.value))
    (true, true, false) init (by decide +kernel)
  simp only [Prod.mk.injEq] at hseen
  obtain ⟨hreturned, honline, hvalue⟩ := hseen
  refine ⟨s, hs, of_decide_eq_true hreturned, honline, ?_⟩
  rw [Agrees, honline, hvalue]
  decide

end Callers

end Connectivity

end RsQuery
