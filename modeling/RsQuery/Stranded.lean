import RsQuery.Owing

/-!
# Stranded calls

An error is notified only to those who have subscribed, data can be gone when success is
looked at, and a fetch can end without telling anyone.  As long as every step that takes
away what a waiting call may rely on leaves it something else that releases it, no call
is left parked with nothing to wake it.
-/

namespace RsQuery

variable {V : Type} [PartialEqAny V]

open QueryClient

namespace Sys

variable {s s' : Sys V} {a : Action V} {i j : Nat} {q r r' : Run V}

/-- The releasing updates a step sends to the receivers of a key. -/
def tells (s : Sys V) (a : Action V) (k : String) : List QueryStateVariant :=
  match a with
  | .advance i _ => (s.runs.lookup i).elim [] fun r => r.tells k
  | .call call => call.tells s.now s.client k
  | _ => []

/-- Whether a step leaves data of the type cached under a key. -/
def leavesData (s : Sys V) (a : Action V) (k : String) (T : TypeId) : Bool :=
  match a with
  | .advance i _ => (s.runs.lookup i).elim ((s.client.slot k).hasData T)
    fun r => r.leavesData s.client k T
  | .call call => call.leavesData s.now s.client k T
  | _ => (s.client.slot k).hasData T

/-- The receiver of a key that a step concerns. -/
def own (s : Sys V) (a : Action V) (k : String) : Option Nat :=
  match a with
  | .advance i _ | .dropFuture i => (s.runs.lookup i).bind fun r => r.ofKey k r.rx
  | _ => none

theorem slot_spawn (s : Sys V) (query : Query V) (k : String) :
  (s.spawn query).client.slot k = s.client.slot k
  := by
  unfold spawn
  split
  · rfl
  · rfl

section Traces

variable {R : Option Nat → List QueryStateVariant → Slot V → Slot V → Prop}

theorem trace_dropFuture
    (hR : Slot.Traces R) {c : QueryClient V} (h : r.dropFuture s.client = some c) (k : String) :
  R (r.ofKey k r.rx) [] (s.client.slot k) (c.slot k) ∧ c.cache = s.client.cache
  := by
  unfold Run.dropFuture at h
  split at h
  · next rx hr =>
    obtain rfl := Option.some.inj h
    have hrx : r.rx = some rx := by simp [Run.rx, hr, WaitPc.rx]
    rw [hrx]
    exact ⟨Run.trace_dropReceiver hR r _ rx k, rfl⟩
  · obtain rfl := Option.some.inj h
    exact ⟨hR.of_sender rfl, rfl⟩
  · obtain rfl := Option.some.inj h
    exact ⟨hR.of_sender rfl, rfl⟩
  · obtain rfl := Option.some.inj h
    exact ⟨hR.of_sender rfl, rfl⟩
  · contradiction

/-- A step that is no call concerns the receiver of the run it moves, and sends the
receivers of a key what it tells. -/
theorem trace_step
    (hR : Slot.Traces R) (hs : s.step a = some s') (k : String)
    (hcall : ∀ call, a = .call call →
      R none (s.tells a k) (s.client.slot k) ((call.apply s.now s.client).slot k)) :
  R (s.own a k) (s.tells a k) (s.client.slot k) (s'.client.slot k)
  := by
  cases a with
  | spawn query =>
    obtain rfl := Option.some.inj hs
    rw [slot_spawn]
    apply hR.of_sender rfl
  | register i =>
    obtain ⟨r, -, -, -, rfl⟩ := step_register hs
    exact hR.of_sender rfl
  | execute query =>
    obtain rfl := Option.some.inj hs
    apply hR.of_sender rfl
  | advance i o =>
    obtain ⟨r, c, pc, hr, ha, rfl⟩ := step_advance hs
    simp only [own, tells, hr]
    apply Run.trace_advance hR ha
  | abort i =>
    obtain ⟨r, -, -, -, rfl⟩ := step_abort hs
    apply hR.of_sender rfl
  | detach i =>
    obtain ⟨r, -, -, rfl⟩ := step_detach hs
    apply hR.of_sender rfl
  | drop i =>
    obtain ⟨r, -, -, -, rfl⟩ := step_drop hs
    split
    · apply hR.of_sender rfl
    · apply hR.of_sender rfl
  | dropFuture i =>
    obtain ⟨r, c, hr, -, hc, rfl⟩ := step_dropFuture hs
    simp only [own, tells, hr]
    apply (trace_dropFuture hR hc k).1
  | cancelToken i =>
    obtain ⟨r, -, -, rfl⟩ := step_cancelToken hs
    apply hR.of_sender rfl
  | call call =>
    obtain rfl := Option.some.inj hs
    apply hcall call rfl
  | tick n =>
    obtain rfl := Option.some.inj hs
    apply hR.of_sender rfl

end Traces

/-- A step sends the receivers of a key what it tells, but for the one it concerns. -/
theorem feeds_step (hs : s.step a = some s') (k : String) :
  Slot.Feeds (s.own a k) (s.tells a k) (s.client.slot k) (s'.client.slot k)
  := by
  apply trace_step Slot.feeds_traces hs
  rintro call rfl
  apply call.feeds_apply

/-- What is cached after a step. -/
theorem hasData_step (hs : s.step a = some s') (k : String) (T : TypeId) :
  (s'.client.slot k).hasData T = s.leavesData a k T
  := by
  cases a with
  | spawn query =>
    obtain rfl := Option.some.inj hs
    rw [slot_spawn]
    rfl
  | register i =>
    obtain ⟨r, -, -, -, rfl⟩ := step_register hs
    rfl
  | execute query =>
    obtain rfl := Option.some.inj hs
    rfl
  | advance i o =>
    obtain ⟨r, c, pc, hr, ha, rfl⟩ := step_advance hs
    simp only [leavesData, hr]
    apply Run.hasData_advance ha
  | abort i =>
    obtain ⟨r, -, -, -, rfl⟩ := step_abort hs
    rfl
  | detach i =>
    obtain ⟨r, -, -, rfl⟩ := step_detach hs
    rfl
  | drop i =>
    obtain ⟨r, -, -, -, rfl⟩ := step_drop hs
    split
    · rfl
    · rfl
  | dropFuture i =>
    obtain ⟨r, c, hr, -, hc, rfl⟩ := step_dropFuture hs
    simp only [leavesData, Slot.hasData, slot, (trace_dropFuture Slot.feeds_traces hc k).2]
  | cancelToken i =>
    obtain ⟨r, -, -, rfl⟩ := step_cancelToken hs
    rfl
  | call call =>
    obtain rfl := Option.some.inj hs
    apply call.hasData_apply
  | tick n =>
    obtain rfl := Option.some.inj hs
    rfl

/-- A run after a step does not wait, or stands where it stood, or was advanced. -/
def ComesFrom (s s' : Sys V) (a : Action V) (j : Nat) (r' : Run V) : Prop :=
  (∀ w, r'.pc ≠ .waitForDedup w) ∨ ∃ r, s.runs.lookup j = some r ∧ r'.query = r.query ∧
    ((r'.pc = r.pc ∧ ¬ a.Moves j) ∨
      (a.Moves j ∧ ∃ o, r.advance j s.now s.client o = some (s'.client, r'.pc)))

theorem runs_step (hs : s.step a = some s') (hr' : s'.runs.lookup j = some r') :
  ComesFrom s s' a j r'
  := by
  cases origin_of_step hs hr' with
  | new _ hpc =>
    left
    intro w hw
    rw [hw] at hpc
    rcases hpc with hpc | hpc | hpc
    · contradiction
    · contradiction
    · contradiction
  | dropped hpc =>
    left
    intro w hw
    rw [hw] at hpc
    contradiction
  | stood hr hquery _ hpc ha => exact .inr ⟨_, hr, hquery, .inl ⟨hpc, ha⟩⟩
  | advanced hr hquery _ ha h =>
    obtain rfl := ha
    exact .inr ⟨_, hr, hquery, .inr ⟨rfl, _, h⟩⟩

/-! ### Receivers -/

/-- The receivers of waiting calls are attached to the channels of their keys, and no two
calls have the same one. -/
structure Wired (s : Sys V) : Prop where
  attached : ∀ j r, s.runs.lookup j = some r → ∀ rx ∈ r.rx, (r.slotOf s.client).Attached rx
  distinct : ∀ i j q r, s.runs.lookup i = some q → s.runs.lookup j = some r →
    q.query.key.cacheKey = r.query.key.cacheKey → ∀ rx ∈ q.rx, rx ∈ r.rx → i = j

/-- A step concerns the receiver of no run but the one it moves. -/
theorem Wired.own_ne
    (h : s.Wired) (hr : s.runs.lookup j = some r) (ha : ¬ a.Moves j) {rx : Nat}
    (hrx : rx ∈ r.rx) :
  s.own a r.query.key.cacheKey ≠ some rx
  := by
  have other (i : Nat) (hij : i ≠ j) :
      ((s.runs.lookup i).bind fun q => q.ofKey r.query.key.cacheKey q.rx) ≠ some rx := by
    intro hown
    obtain ⟨q, hq, hown⟩ := Option.bind_eq_some_iff.mp hown
    unfold Run.ofKey at hown
    split at hown
    · next hkey => apply hij (h.distinct i j q r hq hr hkey.symm rx hown hrx)
    · contradiction
  cases a with
  | advance i o => apply other i ha
  | dropFuture i => apply other i ha
  | _ => simp [own]

/-- How a waiting run after a step came to wait there. -/
theorem Wired.waits_step
    {w' : WaitPc V} (h : s.Wired) (hs : s.step a = some s') (hr' : s'.runs.lookup j = some r')
    (hw' : r'.pc = .waitForDedup w') :
  ∃ r, s.runs.lookup j = some r ∧ r'.query = r.query ∧
    ((r.pc = .waitForDedup w' ∧ ¬ a.Moves j) ∨
      (a.Moves j ∧ ∃ w, r.pc = .waitForDedup w ∧
        r.WaitsOn s.client s'.client w (.waitForDedup w')) ∨
      (a.Moves j ∧ r.pc = .dedup ∧ s.client.isInFlight r.query.key = true ∧ w' = .subscribe))
  := by
  obtain hne | ⟨r, hr, hq, ⟨hpc, hm⟩ | ⟨hm, o, ha⟩⟩ := runs_step hs hr'
  · exact absurd hw' (hne w')
  · exact ⟨r, hr, hq, .inl ⟨hpc.symm.trans hw', hm⟩⟩
  · rw [hw'] at ha
    obtain ⟨w, hw, hadv⟩ | ⟨hd, hin, hsub, -⟩ := Run.advance_waitForDedup ha
    · have hatt : ∀ rx ∈ w.rx, (r.slotOf s.client).Attached rx := by
        intro rx hrx
        apply h.attached j r hr rx
        rw [Run.rx, hw]
        apply hrx
      have hwaits := Run.waitsOn_advanceWait hatt j s.now
      rw [hadv] at hwaits
      exact ⟨r, hr, hq, .inr (.inl ⟨hm, w, hw, hwaits⟩)⟩
    · exact ⟨r, hr, hq, .inr (.inr ⟨hm, hd, hin, hsub⟩)⟩

/-- The receiver of a run after a step was its receiver before, or is a new one. -/
theorem Wired.rx_step
    (h : s.Wired) (hs : s.step a = some s') (hr' : s'.runs.lookup j = some r') {rx : Nat}
    (hrx : rx ∈ r'.rx) :
  ∃ r, s.runs.lookup j = some r ∧ r'.query = r.query ∧ (r'.slotOf s'.client).Attached rx ∧
    (rx ∈ r.rx ∨ (a.Moves j ∧ (r.slotOf s.client).nextRx ≤ rx))
  := by
  have hpc : ∃ w', r'.pc = .waitForDedup w' ∧ rx ∈ w'.rx := by
    unfold Run.rx at hrx
    split at hrx
    · next w' hw' => exact ⟨w', hw', hrx⟩
    · contradiction
  obtain ⟨w', hw', hrx'⟩ := hpc
  obtain ⟨r, hr, hq, ⟨hpc, hm⟩ | ⟨hm, w, hpc, hwaits⟩ | ⟨-, -, -, rfl⟩⟩ := h.waits_step hs hr' hw'
  · have hold : rx ∈ r.rx := by
      rw [Run.rx, hpc]
      apply hrx'
    have hf := feeds_step hs r.query.key.cacheKey
    refine ⟨r, hr, hq, ?_, .inl hold⟩
    rw [Run.slotOf, hq]
    apply hf.attached rx (h.own_ne hr hm hold) (h.attached j r hr rx hold)
  · obtain ⟨w'', heq, hatt, -⟩ | ⟨result, heq⟩ := hwaits
    · cases heq
      obtain ⟨hatt', hold | ⟨-, hnew⟩⟩ := hatt rx hrx'
      · refine ⟨r, hr, hq, ?_, .inl ?_⟩
        · rw [Run.slotOf, hq]
          apply hatt'
        · rw [Run.rx, hpc]
          apply hold
      · refine ⟨r, hr, hq, ?_, .inr ⟨hm, hnew⟩⟩
        rw [Run.slotOf, hq]
        apply hatt'
    · contradiction
  · contradiction

theorem Action.Moves.unique (hi : a.Moves i) (hj : a.Moves j) :
  i = j
  := by
  cases a with
  | advance l o => apply hi.symm.trans hj
  | dropFuture l => apply hi.symm.trans hj
  | _ => contradiction

theorem Wired.step (h : s.Wired) (hs : s.step a = some s') :
  s'.Wired
  := by
  constructor
  · intro j r' hr' rx hrx
    obtain ⟨-, -, -, hatt, -⟩ := h.rx_step hs hr' hrx
    apply hatt
  · intro i j q' r' hq' hr' hkey rx hrx hrx'
    obtain ⟨q, hq, hquery, -, hold⟩ := h.rx_step hs hq' hrx
    obtain ⟨r, hr, hquery', -, hold'⟩ := h.rx_step hs hr' hrx'
    rw [hquery, hquery'] at hkey
    have hslot : q.slotOf s.client = r.slotOf s.client := by rw [Run.slotOf, Run.slotOf, hkey]
    obtain hold | ⟨hm, hnew⟩ := hold
    · obtain hold' | ⟨hm', hnew'⟩ := hold'
      · apply h.distinct i j q r hq hr hkey rx hold hold'
      · have hlt := (h.attached i q hq rx hold).1
        rw [hslot] at hlt
        omega
    · obtain hold' | ⟨hm', hnew'⟩ := hold'
      · have hlt := (h.attached j r hr rx hold').1
        rw [hslot] at hnew
        omega
      · apply Action.Moves.unique hm hm'

theorem wired_initial :
  (initial : Sys V).Wired
  := by
  constructor
  · simp [initial]
  · simp [initial]

/-! ### What fetches owe -/

/-- A step ends what the fetch of run `i` owes: it notifies or lapses, or the data it is
to notify is gone, or it is stopped before. -/
def Ends (s : Sys V) (a : Action V) (i : Nat) (r : Run V) : Prop :=
  (r.HasStored ∧ s.leavesData a r.query.key.cacheKey r.query.typeId = false) ∨
  match a with
  | .advance j o => j = i ∧ r.Lapses s.client o
  | .abort j | .cancelToken j => j = i ∧ r.Stoppable
  | .drop j => j = i ∧ r.detached = false ∧ r.Stoppable
  | .dropFuture j => j = i
  | .call call => call.Cancels s.now s.client r.query.key.cacheKey ∧ r.Stoppable ∧
    ∃ t ∈ s.client.inFlight.lookup r.query.key.cacheKey, t.abort = i
  | _ => False

instance (s : Sys V) (a : Action V) (i : Nat) (r : Run V) : Decidable (s.Ends a i r) := by
  unfold Ends
  rcases a with _ | _ <;> infer_instance

/-- A step that neither moves a fetch nor ends what it owes does not stop it. -/
theorem unstopped_step
    (hsane : s.Sane) (hs : s.step a = some s') (hr : s.runs.lookup i = some r)
    (ha : ¬ a.Moves i) (he : ¬ s.Ends a i r) (hstop : r.Stoppable)
    (hun : r.Unstopped i s.client) :
  r.Unstopped i s'.client
  := by
  have he := (not_or.mp he).2
  have frame (hf : Frame s.client s'.client) : r.Unstopped i s'.client := by
    rwa [Run.Unstopped, hf.cancelled, hf.aborted]
  cases a with
  | spawn query =>
    obtain rfl := Option.some.inj hs
    apply frame (s.spawn_frame query).1
  | register j =>
    obtain ⟨q, -, -, -, rfl⟩ := step_register hs
    apply hun
  | execute query =>
    obtain rfl := Option.some.inj hs
    apply hun
  | advance j o =>
    obtain ⟨q, c, pc, -, hadvance, rfl⟩ := step_advance hs
    obtain ⟨result, -, -, rfl, -⟩ | ⟨hf, -⟩ := Run.advance_cases hadvance
    · apply hun
    · apply frame hf
  | abort j =>
    obtain ⟨q, -, -, -, rfl⟩ := step_abort hs
    refine ⟨hun.1, fun hsp => ?_⟩
    have hij : i ≠ j := by
      rintro rfl
      apply he ⟨rfl, hstop⟩
    simpa [abortTask, hij] using hun.2 hsp
  | detach j =>
    obtain ⟨q, -, -, rfl⟩ := step_detach hs
    apply hun
  | drop j =>
    obtain ⟨q, hq, -, -, rfl⟩ := step_drop hs
    split
    · apply hun
    · next hd =>
      refine ⟨hun.1, fun hsp => ?_⟩
      have hij : i ≠ j := by
        rintro rfl
        rw [hr] at hq
        obtain rfl := Option.some.inj hq
        apply he ⟨rfl, by simpa using hd, hstop⟩
      simpa [abortTask, hij] using hun.2 hsp
  | dropFuture j =>
    obtain ⟨q, c, -, -, hc, rfl⟩ := step_dropFuture hs
    apply frame (frame_dropFuture hc)
  | cancelToken j =>
    obtain ⟨q, -, -, rfl⟩ := step_cancelToken hs
    refine ⟨?_, hun.2⟩
    have hij : i ≠ j := by
      rintro rfl
      apply he ⟨rfl, hstop⟩
    simpa [hij] using hun.1
  | call call =>
    obtain rfl := Option.some.inj hs
    -- a registration the call withdraws is not this fetch's
    have unregistered (k : String) (t : InFlightTask)
        (ht : s.client.inFlight.lookup k = some t)
        (hgone : (call.apply s.now s.client).inFlight.lookup k = none) : t.abort ≠ i := by
      intro hti
      obtain ⟨-, q, hq, -, -, hkey⟩ := hsane.registered k t ht
      rw [hti, hr] at hq
      obtain rfl := Option.some.inj hq
      apply he
      refine ⟨?_, hstop, t, by rwa [hkey], hti⟩
      by_contra hk
      rw [hkey] at hk
      rw [call.inFlight_apply, if_neg hk, ht] at hgone
      contradiction
    have hw := call.withdraws_apply s.now s.client
    constructor
    · intro hi
      obtain hi | ⟨k, t, ht, hgone, hti⟩ := (hw.cancelled i).mp hi
      · apply hun.1 hi
      · apply unregistered k t ht hgone
        rw [← (hsane.registered k t ht).1, hti]
    · intro hsp hi
      obtain hi | ⟨k, t, ht, hgone, hti⟩ := (hw.aborted i).mp hi
      · apply hun.2 hsp hi
      · apply unregistered k t ht hgone hti
  | tick n =>
    obtain rfl := Option.some.inj hs
    apply hun

/-- A fetch goes on owing after a step that does not end that. -/
theorem owes_step
    (hsane : s.Sane) (hs : s.step a = some s') (hr : s.runs.lookup i = some r)
    (h : r.Owes i s.client) (he : ¬ s.Ends a i r) :
  ∃ r', s'.runs.lookup i = some r' ∧ r'.query = r.query ∧ r'.Owes i s'.client
  := by
  obtain ⟨hkept, hends⟩ := not_or.mp he
  by_cases ha : a.Moves i
  · cases a with
    | advance j o =>
      obtain rfl : j = i := ha
      obtain ⟨q, c, pc, hq, hadvance, rfl⟩ := step_advance hs
      rw [hr] at hq
      obtain rfl := Option.some.inj hq
      exact ⟨_, AList.lookup_insert _, rfl, h.advance (fun hl => hends ⟨rfl, hl⟩) hadvance⟩
    | dropFuture j => exact absurd ha hends
    | _ => contradiction
  · obtain ⟨r', hr', hstays⟩ := hsane.stays_step hs hr ha
    use r', hr', hstays.query
    apply h.of_same hstays.query hstays.spawned hstays.pc
    · apply unstopped_step hsane hs hr ha he
    · intro hst _
      rw [Run.slotOf, hasData_step hs]
      simpa using fun hf => hkept ⟨hst, hf⟩

/-! ### Calls that wait -/

/-- Where a call stands that waits, or that the step lets begin to wait. -/
def waits (s : Sys V) (a : Action V) (j : Nat) (r : Run V) : Option (WaitPc V) :=
  match r.pc with
  | .waitForDedup w => some w
  | .dedup => if s.client.isInFlight r.query.key = true ∧ a.Moves j then some .subscribe else none
  | _ => none

/-- A step takes away what a waiting call may rely on: a fetch of its key and type ends,
cached data of its type goes, or the wait begins. -/
def Deprives (s : Sys V) (a : Action V) (r : Run V) : Prop :=
  (∃ i q, s.runs.lookup i = some q ∧ (q.query.key.cacheKey = r.query.key.cacheKey ∧
    q.query.typeId = r.query.typeId ∧ q.Owes i s.client ∧ s.Ends a i q)) ∨
  ((r.slotOf s.client).hasData r.query.typeId = true ∧
    s.leavesData a r.query.key.cacheKey r.query.typeId = false) ∨
  r.AtDedup

/-- A step leaves a waiting call something that releases it: what it has come by, an
update the step sends, or a fetch of its key and type that goes on owing one. -/
def LeavesRelease (s : Sys V) (a : Action V) (r : Run V) (w : WaitPc V) : Prop :=
  (w.Assured (r.slotOf s.client) (s.leavesData a r.query.key.cacheKey r.query.typeId) ∨
    ∃ rx ∈ w.rx, ∃ v ∈ s.tells a r.query.key.cacheKey,
      v.releases (s.leavesData a r.query.key.cacheKey r.query.typeId) = true) ∨
  ∃ i q, s.runs.lookup i = some q ∧ (q.query.key.cacheKey = r.query.key.cacheKey ∧
    q.query.typeId = r.query.typeId ∧ q.Owes i s.client ∧ ¬ s.Ends a i q)

/-- A step that takes away what a waiting call may rely on leaves it something else that
releases it. -/
def NeverStrands (s : Sys V) (a : Action V) : Prop :=
  ∀ j r, s.runs.lookup j = some r → ∀ w ∈ s.waits a j r, s.Deprives a r → s.LeavesRelease a r w

instance (s : Sys V) (a : Action V) (r : Run V) : Decidable (s.Deprives a r) :=
  inferInstanceAs (Decidable (_ ∨ _ ∨ _))

instance (s : Sys V) (a : Action V) (r : Run V) (w : WaitPc V) :
    Decidable (s.LeavesRelease a r w) :=
  inferInstanceAs (Decidable (_ ∨ _))

instance (s : Sys V) (a : Action V) : Decidable (s.NeverStrands a) :=
  inferInstanceAs (Decidable (∀ j r, s.runs.lookup j = some r →
    ∀ w ∈ s.waits a j r, s.Deprives a r → s.LeavesRelease a r w))

/-- Every waiting call has come by what releases it, or a fetch of its key and type owes
it that. -/
def Served (s : Sys V) : Prop :=
  ∀ j r w, s.runs.lookup j = some r → r.pc = .waitForDedup w →
    w.Assured (r.slotOf s.client) ((r.slotOf s.client).hasData r.query.typeId) ∨
    ∃ i q, s.runs.lookup i = some q ∧ q.query.key.cacheKey = r.query.key.cacheKey ∧
      q.query.typeId = r.query.typeId ∧ q.Owes i s.client

/-- No call is parked with nothing queued while no fetch of its key is registered or
running. -/
def NoneStranded (s : Sys V) : Prop :=
  ∀ j r, s.runs.lookup j = some r → r.ParkedEmpty s.client →
    s.client.isInFlight r.query.key = true ∨
    ∃ i q, s.runs.lookup i = some q ∧ q.query.key.cacheKey = r.query.key.cacheKey ∧ q.Fetching

theorem Served.leavesRelease
    {w : WaitPc V} (h : s.Served) (hok : s.NeverStrands a) (hr : s.runs.lookup j = some r)
    (hw : w ∈ s.waits a j r) :
  s.LeavesRelease a r w
  := by
  by_cases hd : s.Deprives a r
  · apply hok j r hr w hw hd
  · obtain ⟨hends, hdata, hdedup⟩ : _ ∧ _ ∧ _ := by
      simpa only [Deprives, not_or] using hd
    have hpc : r.pc = .waitForDedup w := by
      unfold waits at hw
      split at hw
      · next w' hw' => rw [hw', Option.some.inj hw]
      · next hpc => simp [Run.AtDedup, hpc] at hdedup
      · contradiction
    obtain ha | ⟨i, q, hq, hkey, htype, howes⟩ := h j r w hr hpc
    · left
      left
      apply ha.mono
      simpa using fun hx => not_and.mp hdata hx
    · right
      refine ⟨i, q, hq, hkey, htype, howes, ?_⟩
      intro he
      apply hends ⟨i, q, hq, hkey, htype, howes, he⟩

/-- A waiting call's own step sends its key nothing and leaves cached what was. -/
theorem leavesData_of_moves {w : WaitPc V} (hr : s.runs.lookup j = some r)
    (hpc : r.pc = .waitForDedup w) (hm : a.Moves j) (k : String) (T : TypeId) :
  s.leavesData a k T = (s.client.slot k).hasData T ∧ s.tells a k = []
  := by
  cases a with
  | advance i o =>
    obtain rfl : i = j := hm
    simp [leavesData, tells, hr, Run.leavesData, Run.tells, Run.notice, hpc]
  | dropFuture i => exact ⟨rfl, rfl⟩
  | _ => contradiction

/-- A step that never strands keeps every waiting call served. -/
theorem Served.step
    (h : s.Served) (hwired : s.Wired) (hsane : s.Sane) (hok : s.NeverStrands a)
    (hs : s.step a = some s') :
  s'.Served
  := by
  intro j r' w' hr' hw'
  obtain ⟨r, hr, hq, hcases⟩ := hwired.waits_step hs hr' hw'
  have hslot : r'.slotOf s'.client = r.slotOf s'.client := by rw [Run.slotOf, Run.slotOf, hq]
  rw [hslot, hq, Run.slotOf, hasData_step hs]
  -- a fetch that goes on owing is there after the step
  have owed (ho : ∃ i q, s.runs.lookup i = some q ∧
      (q.query.key.cacheKey = r.query.key.cacheKey ∧ q.query.typeId = r.query.typeId ∧
        q.Owes i s.client ∧ ¬ s.Ends a i q)) :
      ∃ i q, s'.runs.lookup i = some q ∧ q.query.key.cacheKey = r.query.key.cacheKey ∧
        q.query.typeId = r.query.typeId ∧ q.Owes i s'.client := by
    obtain ⟨i, q, hi, hkey, htype, howes, he⟩ := ho
    obtain ⟨q', hi', hquery, howes'⟩ := owes_step hsane hs hi howes he
    exact ⟨i, q', hi', by rw [hquery, hkey], by rw [hquery, htype], howes'⟩
  obtain ⟨hpc, hm⟩ | ⟨hm, w, hpc, hwaits⟩ | ⟨hm, hpc, hin, rfl⟩ := hcases
  · have hw : w' ∈ s.waits a j r := by simp [waits, hpc]
    have hrx (rx : Nat) (hmem : rx ∈ w'.rx) : rx ∈ r.rx := by
      rw [Run.rx, hpc]
      apply hmem
    obtain ha | ho := h.leavesRelease hok hr hw
    · left
      refine WaitPc.Assured.feeds (feeds_step hs _) ?_ ?_ ha
      · exact fun rx hmem => hwired.own_ne hr hm (hrx rx hmem)
      · exact fun rx hmem => hwired.attached j r hr rx (hrx rx hmem)
    · exact .inr (owed ho)
  · have hw : w ∈ s.waits a j r := by simp [waits, hpc]
    obtain ⟨hdata, htells⟩ := leavesData_of_moves hr hpc hm r.query.key.cacheKey r.query.typeId
    have hrelease := h.leavesRelease hok hr hw
    rw [LeavesRelease, hdata, htells] at hrelease
    rw [hdata]
    obtain (ha | ⟨rx, -, v, hv, -⟩) | ho := hrelease
    · left
      obtain ⟨w'', heq, -, hassured⟩ | ⟨result, heq⟩ := hwaits
      · cases heq
        apply hassured ha
      · contradiction
    · contradiction
    · exact .inr (owed ho)
  · have hw : .subscribe ∈ s.waits a j r := by simp [waits, hpc, hin, hm]
    obtain (ha | ⟨rx, hrx, -⟩) | ho := h.leavesRelease hok hr hw
    · exact .inl ha
    · contradiction
    · exact .inr (owed ho)

/-- No call is stranded where every waiting call is served. -/
theorem Served.noneStranded (h : s.Served) :
  s.NoneStranded
  := by
  rintro j r hr ⟨rx, hrx, hempty⟩
  have hpc : r.pc = .waitForDedup (.parked rx) := by
    unfold Run.parked at hrx
    split at hrx
    · next hpc => rw [hpc, Option.some.inj hrx]
    · contradiction
  right
  obtain ⟨st, hst, hrel⟩ | ⟨i, q, hi, hkey, -, howes⟩ := h j r _ hr hpc
  · have hq := hempty st hst
    obtain ⟨-, hne⟩ | ⟨u, hu, -⟩ := hrel
    · contradiction
    · rw [hq] at hu
      contradiction
  · exact ⟨i, q, hi, hkey, howes.1.fetching⟩

/-- Along every run whose steps never strand: no call is parked with nothing queued
while no fetch of its key is registered or running. -/
theorem noneStranded_of_run (h : machine.Run NeverStrands s) :
  s.NoneStranded
  := by
  have hserved : s.Wired ∧ s.Served := by
    apply h.invariant
    · rintro s rfl
      exact ⟨wired_initial, by simp [Served, initial]⟩
    · rintro s a s' hrun ⟨hw, hs⟩ hok hstep
      exact ⟨hw.step hstep, hs.step hw (sane_of_run hrun) hok hstep⟩
  apply hserved.2.noneStranded

/-- A call that waits for the fetch of a spawned task. -/
theorem noneStranded_of_run_parked :
  ∃ s : Sys (String ⊕ Nat), machine.Run NeverStrands s ∧
    (∃ j r, s.runs.lookup j = some r ∧ r.ParkedEmpty s.client) ∧ s.NoneStranded
  := by
  have meets : machine.Meets NeverStrands (initial : Sys (String ⊕ Nat))
      [.spawn queryK, .register 0, .execute queryK, .advance 1 .next, .advance 1 .next,
        .advance 1 .next, .advance 1 .next, .advance 1 .next] := by
    decide +kernel
  obtain ⟨s, hrun, hparked⟩ := Machine.exists_run_of_exec _
    (fun s : Sys (String ⊕ Nat) =>
      decide (∃ j r, s.runs.lookup j = some r ∧ r.ParkedEmpty s.client))
    true rfl meets (by decide +kernel)
  use s, hrun, of_decide_eq_true hparked, noneStranded_of_run hrun

/-- A call that waits for a fetch is stranded when the client is cleared. -/
theorem not_noneStranded_clear :
  ¬ ∀ s : Sys (String ⊕ Nat), machine.Reachable s → s.NoneStranded
  := by
  intro h
  obtain ⟨s, hs, hv⟩ := Machine.exists_reachable_of_exec (M := machine) (s := initial)
    [.spawn queryK, .register 0, .execute queryK, .advance 1 .next, .advance 1 .next,
      .advance 1 .next, .advance 1 .next, .advance 1 .next, .call .clear, .advance 0 .next]
    (fun s : Sys (String ⊕ Nat) =>
      (decide (∃ j r, s.runs.lookup j = some r ∧
        (r.ParkedEmpty s.client ∧ s.client.isInFlight r.query.key = false)),
      decide (∀ i q, s.runs.lookup i = some q → ¬ q.Fetching)))
    (true, true) rfl (by decide +kernel)
  simp only [Prod.mk.injEq, decide_eq_true_eq] at hv
  obtain ⟨⟨j, r, hr, hparked, hin⟩, hfetching⟩ := hv
  obtain hreg | ⟨i, q, hq, -, hf⟩ := h s hs j r hr hparked
  · rw [hin] at hreg
    contradiction
  · apply hfetching i q hq hf

end Sys

end RsQuery
