import RsQuery.RetryerPause

/-!
# What lets a retryer attempt its task

The head of the loop tests connectivity only after a failure, and the retryer looks at its
token only before it waits in a pause.  A log says when the token was cancelled, when the
connectivity was stored, when the retryer began to wait, and when it was let on to an attempt.

In a run no attempt starts cancelled or against the network mode, and a cancelled call comes
to return `Cancelled` and nothing else, exactly when every cancellation falls where the
retryer is still to look at its token, and no connectivity is lost after the test that let it
on: `Retryer.Loop.gated_iff`.
-/

namespace RsQuery

namespace Retryer

/-- What bears on the start of an attempt; `n` attempts were started before it. -/
inductive GateEvent where
  | cancelled
  | stored (online : Bool)
  /-- Begins to wait for connectivity. -/
  | waits
  /-- Let on to an attempt by a test of connectivity. -/
  | passed (n : Nat)
  /-- Let on to an attempt without a test, where no failure was counted. -/
  | skipped (n : Nat)
deriving DecidableEq, Repr

variable {log l : List GateEvent} {n : Nat}

/-- After every cancellation the retryer has begun to wait. -/
def Heeded (log : List GateEvent) : Prop :=
  ∀ l₁ l₂, log = l₁ ++ .cancelled :: l₂ → .waits ∈ l₂

/-- The last store was one of `false`. -/
def Offline (log : List GateEvent) : Prop :=
  ∃ l₁ l₂, log = l₁ ++ .stored false :: l₂ ∧ ∀ online, .stored online ∉ l₂

/-- The last store was one of `false`, and the retryer was let on to attempt `n` before it, or
without a test. -/
def LetOnOffline (log : List GateEvent) (n : Nat) : Prop :=
  ∃ l₁ l₂, log = l₁ ++ .stored false :: l₂ ∧ (∀ online, .stored online ∉ l₂) ∧
    (.passed n ∈ l₁ ∨ .skipped n ∈ log)

theorem offline_concat (log : List GateEvent) :
  Offline (log ++ [.stored false])
  := ⟨log, [], rfl, fun _ => List.not_mem_nil⟩

theorem Offline.append (h : Offline log) (hl : ∀ online, .stored online ∉ l) :
  Offline (log ++ l)
  := by
  obtain ⟨l₁, l₂, rfl, hl₂⟩ := h
  use l₁, l₂ ++ l
  simp only [List.append_assoc, List.cons_append, List.mem_append, not_or]
  exact ⟨trivial, fun online => ⟨hl₂ online, hl online⟩⟩

theorem letOnOffline_concat (h : .passed n ∈ log) :
  LetOnOffline (log ++ [.stored false]) n
  := ⟨log, [], rfl, fun _ => List.not_mem_nil, .inl h⟩

theorem LetOnOffline.append (h : LetOnOffline log n) (hl : ∀ online, .stored online ∉ l) :
  LetOnOffline (log ++ l) n
  := by
  obtain ⟨l₁, l₂, rfl, hl₂, hlet⟩ := h
  use l₁, l₂ ++ l
  simp only [List.append_assoc, List.cons_append, List.mem_append, not_or]
  refine ⟨trivial, fun online => ⟨hl₂ online, hl online⟩, hlet.imp_right ?_⟩
  intro hskipped
  simpa [or_assoc] using List.mem_append_left l hskipped

theorem Offline.letOnOffline (h : Offline log) (hskipped : .skipped n ∈ log) :
  LetOnOffline log n
  := by
  obtain ⟨l₁, l₂, hlog, hl₂⟩ := h
  exact ⟨l₁, l₂, hlog, hl₂, .inr hskipped⟩

variable {T : Type}

/-- On the way to the next attempt. -/
def Pc.Goes : Pc T → Prop
  | .running | .returned _ | .dropped => False
  | _ => True

/-- Waits for a change. -/
def Pc.isPoll : Pc T → Bool
  | .poll _ => true
  | _ => false

namespace Loop

variable {s s' : Loop T} {a : Action T} {rx i : Nat}

/-- What the log says of a step: a call of `set_online` stores, the token is cancelled, the
retryer begins to wait, or goes on to an attempt. -/
def gate (s : Loop T) (a : Action T) (s' : Loop T) : List GateEvent :=
  match a with
  | .cancel => [.cancelled]
  | .proceed i =>
    match s.calls.lookup i with
    | some ⟨online, .store⟩ => [.stored online]
    | _ => []
  | .advance =>
    if s'.pc.isPoll then
      match s.pc with
      | .parked _ => []
      | _ => [.waits]
    else if s'.pc.isStart then
      match s.pc with
      | .head => if 0 < s.retryer.failureCount then [.passed s.attempts] else [.skipped s.attempts]
      | _ => [.passed s.attempts]
    else []
  | .finish _ | .drop | .setOnline _ | .wake _ => []

/-- The calls of `run` with a log of what bears on the start of attempts. -/
def watched : Machine (Loop T × List GateEvent) (Action T) :=
  machine.noting gate

/-- The next attempt asks for connectivity: any in online mode, and all but the first in
offline-first mode. -/
def Asks (s : Loop T) : Prop :=
  s.mode = .online ∨ s.mode = .offlineFirst ∧ 0 < s.attempts

/-- By its own steps, and those of the calls of `set_online` under way, the call comes to return
`Cancelled`, or to where it starts an attempt. -/
def Settles (s : Loop T) : Prop :=
  ∃ as, (∀ a ∈ as, a = .advance ∨ ∃ i, a = .proceed i) ∧ ∃ s', machine.exec s as = some s' ∧
    (s'.pc = .returned (.error (.cancelled false false)) ∨ s'.pc = .start)

/-- An attempt starts with its token not cancelled, and online if it asks for it.  A cancelled
call returns nothing but `Cancelled`, and where it does not await its attempt it comes to do
so, unless it comes to start another one. -/
structure Gated (s : Loop T) (a : Action T) : Prop where
  attempt : s.pc = .start → a = .advance → s.cancelled = false ∧ (s.Asks → s.online = true)
  result : ∀ s' result, s.step a = some s' → s'.pc = .returned result →
    (∀ result, s.pc ≠ .returned result) → s.cancelled = true →
    result = .error (.cancelled false false)
  settles : ∀ s', s.step a = some s' → s'.cancelled = true → s'.pc.Goes → s'.Settles

/-- The end of an attempt after which the retryer goes on, or is cancelled. -/
def GoesOn (s : Loop T) : Except QueryError T → Prop
  | .ok _ => False
  | .error error => error.isCancelled = true ∨
      s.retryer.decision.shouldRetry error s.retryer.failureCount = true

/-- The call of `set_online` is going to send a change. -/
def Announces (s : Loop T) (call : Connectivity.SetOnline) : Prop :=
  match call.pc with
  | .test => s.online ≠ call.online
  | .store | .send => True
  | .returned => False

/-- A change is there for the retryer to find, or is going to be sent. -/
def Wakes (s : Loop T) : Prop :=
  (∃ i call, s.calls.lookup i = some call ∧ s.Announces call) ∨
    ∃ rx, s.pc.rx = some rx ∧ s.Unseen rx

/-- An attempt starts when the retryer has begun to wait after every cancellation, and no
connectivity that it asks for was lost since the test that let the retryer on; the token is
cancelled while the retryer waits only if a change is going to wake it; and an attempt that
ends after a cancellation ends cancelled or is to be retried. -/
def Honours (t : Loop T × List GateEvent) : Action T → Prop
  | .advance =>
    t.1.pc = .start → Heeded t.2 ∧ (t.1.Asks → ¬ LetOnOffline t.2 t.1.attempts)
  | .cancel => t.1.pc.Waits → t.1.Wakes
  | .finish result => t.1.pc = .running → t.1.cancelled = true → t.1.GoesOn result
  | _ => True

/-! ### What a step does to the log -/

/-- A step stores the connectivity, or notes none and leaves it as it is. -/
theorem online_of_step (hs : s.step a = some s') :
  (∃ online, s.gate a s' = [.stored online] ∧ s'.online = online) ∨
    ((∀ online, .stored online ∉ s.gate a s') ∧ s'.online = s.online)
  := by
  cases a with
  | proceed i =>
    obtain ⟨call, hcall, ⟨hpc, rfl⟩ | ⟨hpc, rfl⟩ | ⟨hpc, tx, -, rfl⟩⟩ := step_proceed hs
    all_goals
      obtain ⟨online, pc⟩ := call
      subst hpc
      simp only [gate, hcall]
    · exact .inr ⟨fun _ => List.not_mem_nil, rfl⟩
    · exact .inl ⟨online, rfl, rfl⟩
    · exact .inr ⟨fun _ => List.not_mem_nil, rfl⟩
  | advance =>
    right
    have honline : s'.online = s.online := by
      cases takes_of_advance hs with
      | _ => rfl
    refine ⟨?_, honline⟩
    intro online h
    simp only [gate] at h
    split at h
    · split at h
      · contradiction
      · simp at h
    · split at h
      · split at h
        · split at h
          all_goals simp at h
        · simp at h
      · contradiction
  | finish result =>
    refine .inr ⟨fun _ => List.not_mem_nil, ?_⟩
    cases (finishes_of_finish hs).2 with
    | _ => rfl
  | drop =>
    refine .inr ⟨fun _ => List.not_mem_nil, ?_⟩
    simp only [Loop.step] at hs
    split at hs
    all_goals try contradiction
    all_goals
      obtain rfl := Option.some.inj hs
      rfl
  | cancel =>
    obtain rfl := Option.some.inj hs
    refine .inr ⟨?_, rfl⟩
    intro online h
    simp [gate] at h
  | setOnline online =>
    obtain rfl := Option.some.inj hs
    exact .inr ⟨fun _ => List.not_mem_nil, rfl⟩
  | wake t =>
    obtain ⟨tx, -, rfl⟩ := Option.map_eq_some_iff.mp hs
    exact .inr ⟨fun _ => List.not_mem_nil, rfl⟩

theorem cancelled_mem_gate :
  .cancelled ∈ s.gate a s' ↔ a = .cancel
  := by
  constructor
  · intro h
    unfold gate at h
    split at h
    · rfl
    · split at h
      · simp at h
      · contradiction
    · split at h
      · split at h
        · contradiction
        · simp at h
      · split at h
        · split at h
          · split at h
            all_goals simp at h
          · simp at h
        · contradiction
    all_goals contradiction
  · rintro rfl
    apply List.mem_singleton_self

/-- Only a cancel cancels the token. -/
theorem cancelled_of_step (hs : s.step a = some s') :
  s'.cancelled = true ↔ s.cancelled = true ∨ a = .cancel
  := by
  have same (ha : a ≠ .cancel) (h : s'.cancelled = s.cancelled) :
      s'.cancelled = true ↔ s.cancelled = true ∨ a = .cancel := by
    rw [h]
    exact ⟨.inl, fun h => h.resolve_right ha⟩
  cases a with
  | advance =>
    apply same (by simp)
    cases takes_of_advance hs with
    | _ => rfl
  | finish result =>
    apply same (by simp)
    cases (finishes_of_finish hs).2 with
    | _ => rfl
  | drop =>
    apply same (by simp)
    simp only [Loop.step] at hs
    split at hs
    all_goals try contradiction
    all_goals
      obtain rfl := Option.some.inj hs
      rfl
  | cancel =>
    obtain rfl := Option.some.inj hs
    simp
  | setOnline online =>
    apply same (by simp)
    obtain rfl := Option.some.inj hs
    rfl
  | proceed i =>
    apply same (by simp)
    apply (frame_proceed hs).2.2.2.1
  | wake t =>
    apply same (by simp)
    obtain ⟨tx, -, rfl⟩ := Option.map_eq_some_iff.mp hs
    rfl

/-- The retryer looks at its token before it begins to wait. -/
theorem cancelled_of_waits (hs : s.step a = some s') (h : .waits ∈ s.gate a s') :
  s.cancelled = false
  := by
  cases a with
  | advance =>
    cases takes_of_advance hs with
    | wait hpc hcancelled => apply hcancelled
    | resume hpc => simp [gate, Pc.isPoll, hpc] at h
    | pass hpc =>
      simp only [gate, Pc.isPoll, Pc.isStart, hpc] at h
      split at h
      · contradiction
      · split at h
        · split at h
          all_goals simp at h
        · contradiction
    | pause hpc | unpause hpc => simp [gate, Pc.isPoll, Pc.isStart, Loop.goto, hpc] at h
    | _ => simp [gate, Pc.isPoll, Pc.isStart, Loop.goto] at h
  | proceed i =>
    simp only [gate] at h
    split at h
    · simp at h
    · contradiction
  | cancel => simp [gate] at h
  | _ => contradiction

/-- An attempt is counted when it starts. -/
theorem settings_of_step (hs : s.step a = some s') (ha : a ≠ .advance) :
  s'.mode = s.mode ∧ s'.attempts = s.attempts
  := by
  cases a with
  | advance => contradiction
  | finish result =>
    cases (finishes_of_finish hs).2 with
    | _ => exact ⟨rfl, rfl⟩
  | drop =>
    simp only [Loop.step] at hs
    split at hs
    all_goals try contradiction
    all_goals
      obtain rfl := Option.some.inj hs
      exact ⟨rfl, rfl⟩
  | cancel | setOnline _ =>
    obtain rfl := Option.some.inj hs
    exact ⟨rfl, rfl⟩
  | proceed i =>
    obtain ⟨-, hmode, hattempts, -⟩ := frame_proceed hs
    exact ⟨hmode, hattempts⟩
  | wake t =>
    obtain ⟨tx, -, rfl⟩ := Option.map_eq_some_iff.mp hs
    exact ⟨rfl, rfl⟩

/-! ### What the log says -/

/-- Connectivity was there when the retryer was let on to its next attempt, unless it was not
tested. -/
def LetOn (t : Loop T × List GateEvent) : Prop :=
  .skipped t.1.attempts ∈ t.2 ∨
    .passed t.1.attempts ∈ t.2 ∧
      (t.1.Asks → t.1.online = true ∨ LetOnOffline t.2 t.1.attempts)

/-- The log tells the connectivity, and whether the token is cancelled; no wait began after a
cancellation, and the start of an attempt was let on. -/
structure Logged (t : Loop T × List GateEvent) : Prop where
  cancelled : t.1.cancelled = true ↔ .cancelled ∈ t.2
  heard : ∀ l₁ l₂, t.2 = l₁ ++ .cancelled :: l₂ → .waits ∉ l₂
  online : ∀ l₁ l₂ online, t.2 = l₁ ++ .stored online :: l₂ →
    (∀ online, .stored online ∉ l₂) → t.1.online = online
  offline : t.1.online = false → Offline t.2
  start : t.1.pc = .start → LetOn t

/-- What was let on stays let on. -/
theorem LetOn.step
    {log : List GateEvent} (h : LetOn (s, log)) (hmode : s'.mode = s.mode)
    (hattempts : s'.attempts = s.attempts) (hs : s.step a = some s') :
  LetOn (s', log ++ s.gate a s')
  := by
  simp only [LetOn, Asks, hmode, hattempts]
  rcases h with hskipped | ⟨hpassed, h⟩
  · left
    apply List.mem_append_left _ hskipped
  · right
    use List.mem_append_left _ hpassed
    intro hasks
    rcases online_of_step hs with ⟨online, hgate, honline⟩ | ⟨hnone, honline⟩
    · rw [hgate, honline]
      cases online with
      | true => exact .inl rfl
      | false => exact .inr (letOnOffline_concat hpassed)
    · rw [honline]
      apply (h hasks).imp_right
      exact fun hoffline => hoffline.append hnone

/-- The step that lets the retryer on. -/
theorem letOn_of_advance
    {log : List GateEvent} (hs : s.advance = some s') (hpc : s'.pc = .start) :
  LetOn (s', log ++ s.gate .advance s')
  := by
  cases takes_of_advance hs with
  | pass hhead hpauses =>
    by_cases hcount : 0 < s.retryer.failureCount
    · right
      constructor
      · simp [gate, Pc.isPoll, Pc.isStart, hhead, hcount]
      · intro hasks
        left
        have hretry : canRetry s.mode s.online = true := by
          simpa [Loop.pauses, hcount] using hpauses
        rcases canRetry_eq_true_iff.mp hretry with hmode | honline
        · simp [Asks, hmode] at hasks
        · apply honline
    · left
      simp [gate, Pc.isPoll, Pc.isStart, hhead, hcount]
  | unpause hchanged honline =>
    right
    constructor
    · simp [gate, Pc.isPoll, Pc.isStart, Loop.goto, hchanged]
    · exact fun _ => .inl honline
  | _ => contradiction

theorem Logged.step
    {log : List GateEvent} (h : Logged (s, log)) (hs : s.step a = some s') :
  Logged (s', log ++ s.gate a s')
  := by
  constructor
  · rw [cancelled_of_step hs, h.cancelled, List.mem_append, cancelled_mem_gate]
  · intro l₁ l₂ hlog hwaits
    by_cases ha : a = .cancel
    · obtain rfl := ha
      rcases Machine.concat_eq_append_cons hlog with ⟨l, hl, rfl⟩ | ⟨-, -, rfl⟩
      · simp only [List.mem_append, List.mem_singleton, reduceCtorEq, or_false] at hwaits
        apply h.heard l₁ l hl hwaits
      · contradiction
    · have hnone : .cancelled ∉ s.gate a s' := fun hmem => ha (cancelled_mem_gate.mp hmem)
      obtain ⟨l, hl, rfl⟩ := Machine.append_eq_append_cons hlog hnone
      rcases List.mem_append.mp hwaits with hwaits | hwaits
      · apply h.heard l₁ l hl hwaits
      · have hcancelled : s.cancelled = true := by
          apply h.cancelled.mpr
          simp [hl]
        rw [cancelled_of_waits hs hwaits] at hcancelled
        contradiction
  · intro l₁ l₂ online hlog hl₂
    rcases online_of_step hs with ⟨online', hgate, honline⟩ | ⟨hnone, honline⟩
    · simp only [hgate] at hlog
      rcases Machine.concat_eq_append_cons hlog with ⟨l, -, rfl⟩ | ⟨he, -, -⟩
      · exact absurd (List.mem_append_right l List.mem_cons_self) (hl₂ online')
      · obtain rfl : online' = online := by simpa using he
        apply honline
    · obtain ⟨l, hl, rfl⟩ := Machine.append_eq_append_cons hlog (hnone online)
      rw [honline]
      apply h.online l₁ l online hl
      intro online' hmem
      apply hl₂ online' (List.mem_append_left _ hmem)
  · intro hoffline
    rcases online_of_step hs with ⟨online, hgate, honline⟩ | ⟨hnone, honline⟩
    · obtain rfl : online = false := honline.symm.trans hoffline
      rw [hgate]
      apply offline_concat
    · apply (h.offline (honline.symm.trans hoffline)).append hnone
  · intro hpc
    by_cases hadvance : a = .advance
    · obtain rfl := hadvance
      apply letOn_of_advance hs hpc
    · have hfinish (result : Except QueryError T) : a ≠ .finish result := by
        rintro rfl
        cases (finishes_of_finish hs).2 with
        | _ => contradiction
      rcases pc_of_step hs hadvance hfinish with hstood | hdropped
      · obtain ⟨hmode, hattempts⟩ := settings_of_step hs hadvance
        apply (h.start (hstood.symm.trans hpc)).step hmode hattempts hs
      · rw [hdropped] at hpc
        contradiction

/-! ### Changes that wake the retryer -/

/-- A retryer that is cancelled while it waits has a change to wake it. -/
def Woken (s : Loop T) : Prop :=
  s.cancelled = true → s.pc.Waits → s.Wakes

/-- A change that is going to be sent still is, or is there to be found. -/
theorem Wakes.proceed (h : s.Wakes) (hk : s.Kept) (hwaits : s.pc.Waits)
    (hs : s.proceed i = some s') :
  s'.Wakes
  := by
  obtain ⟨rx, hrx⟩ := Pc.rx_of_waits hwaits
  obtain ⟨call, hcall, ⟨hpc, rfl⟩ | ⟨hpc, rfl⟩ | ⟨hpc, tx, htx, rfl⟩⟩ := step_proceed hs
  · rcases h with ⟨j, other, hj, hother⟩ | hunseen
    · left
      by_cases hji : j = i
      · obtain rfl := hji
        obtain rfl := Option.some.inj (hcall.symm.trans hj)
        simp only [Announces, hpc] at hother
        refine ⟨j, _, AList.lookup_insert _, ?_⟩
        simp only [Announces, if_pos hother]
      · refine ⟨j, other, ?_, hother⟩
        simp only [Loop.setCall, Table.lookup_insert_eq, if_neg hji]
        apply hj
    · exact .inr hunseen
  · exact .inl ⟨i, _, AList.lookup_insert _, trivial⟩
  · right
    use rx, hrx
    apply (hk.setCall hcall .returned).unseen_send hrx htx

theorem Woken.step {t : Loop T × List GateEvent} (h : t.1.Woken) (hk : t.1.Kept)
    (hok : Honours t a) (hs : t.1.step a = some s') :
  s'.Woken
  := by
  obtain ⟨s, log⟩ := t
  intro hcancelled hwaits
  cases a with
  | advance =>
    have hold : s.cancelled = true :=
      ((cancelled_of_step hs).mp hcancelled).resolve_right (by simp)
    cases takes_of_advance hs with
    | wait _ hnot =>
      rw [hold] at hnot
      contradiction
    | @park rx w tx hpc hw htx hpoll =>
      rcases h hold (by rw [hpc]; trivial) with hcall | ⟨rx', hrx, hunseen⟩
      · exact .inl hcall
      · rw [hpc] at hrx
        obtain rfl := Option.some.inj hrx
        exact absurd hunseen (not_unseen_of_pending hw hpoll)
    | @resume rx hpc =>
      rcases h hold (by rw [hpc]; trivial) with hcall | ⟨rx', hrx, hunseen⟩
      · exact .inl hcall
      · rw [hpc] at hrx
        exact .inr ⟨rx', hrx, hunseen⟩
    | _ => contradiction
  | finish result =>
    cases (finishes_of_finish hs).2 with
    | _ => contradiction
  | drop =>
    simp only [Loop.step] at hs
    split at hs
    all_goals try contradiction
    all_goals
      obtain rfl := Option.some.inj hs
      contradiction
  | cancel =>
    obtain rfl := Option.some.inj hs
    apply hok hwaits
  | setOnline online =>
    obtain rfl := Option.some.inj hs
    rcases h hcancelled hwaits with ⟨j, other, hj, hother⟩ | hunseen
    · left
      refine ⟨j, other, ?_, hother⟩
      have hne : j ≠ s.nextCall := Nat.ne_of_lt (hk.numbered j other hj)
      simp only [Table.lookup_insert_eq, if_neg hne]
      apply hj
    · exact .inr hunseen
  | proceed i =>
    have hold : s.cancelled = true :=
      ((cancelled_of_step hs).mp hcancelled).resolve_right (by simp)
    have hstood : s.pc.Waits := by
      rw [← (frame_proceed hs).1]
      apply hwaits
    apply (h hold hstood).proceed hk hstood hs
  | wake t =>
    obtain ⟨tx, htx, rfl⟩ := Option.map_eq_some_iff.mp hs
    apply (h hcancelled hwaits).imp_right
    rintro ⟨rx, hrx, hunseen⟩
    use rx, hrx
    simp only [Watch.Handles.step] at htx
    split at htx
    · obtain rfl := Option.some.inj htx
      apply hunseen
    · contradiction

/-! ### Settling -/

theorem Settles.of_step
    (h : s'.Settles) (ha : a = .advance ∨ ∃ i, a = .proceed i) (hs : s.step a = some s') :
  s.Settles
  := by
  obtain ⟨as, has, t, hexec, ht⟩ := h
  refine ⟨a :: as, ?_, t, (Machine.exec_cons hs).trans hexec, ht⟩
  intro b hb
  rcases List.mem_cons.mp hb with rfl | hb
  · apply ha
  · apply has b hb

theorem settles_start (hpc : s.pc = .start) :
  s.Settles
  := ⟨[], nofun, s, rfl, .inr hpc⟩

/-- A cancelled retryer that looks at its token returns. -/
theorem settles_token (hpc : s.pc = .token rx) (hcancelled : s.cancelled = true) :
  s.Settles
  := by
  have hs : s.step .advance = some (s.goto false (.returned (.error (.cancelled false false)))) := by
    simp only [Loop.step, Loop.advance, hpc, hcancelled, if_true]
  exact ⟨[.advance], by simp, _, (Machine.exec_cons hs).trans rfl, .inl rfl⟩

theorem settles_changed (hpc : s.pc = .changed rx) (hcancelled : s.cancelled = true) :
  s.Settles
  := by
  have hs : s.step .advance
      = some (if s.online then s.goto false .start else { s with pc := .token rx }) := by
    simp only [Loop.step, Loop.advance, hpc]
  apply Settles.of_step _ (.inl rfl) hs
  split
  · apply settles_start rfl
  · exact settles_token rfl hcancelled

/-- A retryer that has a change to find finds it. -/
theorem settles_unseen
    (hpc : s.pc.Waits) (hrx : s.pc.rx = some rx) (hunseen : s.Unseen rx)
    (hcancelled : s.cancelled = true) :
  s.Settles
  := by
  obtain ⟨w, hw, hv⟩ := hunseen
  have polled (s : Loop T) (hpc : s.pc = .poll rx) (hcancelled : s.cancelled = true)
      (hw : s.tx.watchers.lookup rx = some w) (hv : s.tx.cell.version ≠ w.lastSeen) :
      s.Settles := by
    have hpoll : Watch.changedPoll s.tx.cell w task = _ := Watch.changedPoll_ready hv
    have hs : ∃ tx, s.step .advance = some { s with tx := tx, pc := .changed rx } := by
      simp only [Loop.step, Loop.advance, Watch.Handles.step, hpc, hw, hpoll, Option.bind_eq_bind,
        Option.bind_some]
      exact ⟨_, rfl⟩
    obtain ⟨tx, hs⟩ := hs
    apply Settles.of_step _ (.inl rfl) hs
    exact settles_changed rfl hcancelled
  cases hs : s.pc with
  | poll rx' =>
    rw [hs] at hrx
    obtain rfl := Option.some.inj hrx
    apply polled s hs hcancelled hw hv
  | parked rx' =>
    rw [hs] at hrx
    obtain rfl := Option.some.inj hrx
    have hresume : s.step .advance = some { s with pc := .poll rx' } := by
      simp only [Loop.step, Loop.advance, hs]
    apply Settles.of_step _ (.inl rfl) hresume
    apply polled { s with pc := .poll rx' } rfl hcancelled hw hv
  | _ =>
    rw [hs] at hpc
    contradiction

/-- A retryer that waits for a change which is going to be sent gets it. -/
theorem Wakes.settles (h : s.Wakes) (hk : s.Kept) (hpc : s.pc.Waits)
    (hcancelled : s.cancelled = true) :
  s.Settles
  := by
  have sends (s : Loop T) (hk : s.Kept) (hpc : s.pc.Waits) (hcancelled : s.cancelled = true)
      (i : Nat) (online : Bool) (hi : s.calls.lookup i = some ⟨online, .send⟩) :
      s.Settles := by
    obtain ⟨rx, hrx⟩ := Pc.rx_of_waits hpc
    obtain ⟨tx, htx⟩ : ∃ tx, s.tx.step (.send online) = some tx := ⟨_, rfl⟩
    have hs : s.step (.proceed i)
        = some { s.setCall i ⟨online, .send⟩ .returned with tx := tx } := by
      simp only [Loop.step, Loop.proceed, hi, htx, Option.bind_eq_bind, Option.bind_some,
        Option.map_some]
    apply Settles.of_step _ (.inr ⟨i, rfl⟩) hs
    have hunseen := (hk.setCall hi .returned).unseen_send hrx htx
    exact settles_unseen hpc hrx hunseen hcancelled
  have stores (s : Loop T) (hk : s.Kept) (hpc : s.pc.Waits) (hcancelled : s.cancelled = true)
      (i : Nat) (online : Bool) (hi : s.calls.lookup i = some ⟨online, .store⟩) :
      s.Settles := by
    have hs : s.step (.proceed i)
        = some { s.setCall i ⟨online, .store⟩ .send with online := online } := by
      simp only [Loop.step, Loop.proceed, hi, Option.bind_eq_bind, Option.bind_some]
    apply Settles.of_step _ (.inr ⟨i, rfl⟩) hs
    apply sends _ (hk.step hs) hpc hcancelled i online (AList.lookup_insert _)
  rcases h with ⟨i, ⟨online, pc⟩, hi, hannounces⟩ | ⟨rx, hrx, hunseen⟩
  · cases pc with
    | test =>
      simp only [Announces] at hannounces
      have hs : s.step (.proceed i) = some (s.setCall i ⟨online, .test⟩ .store) := by
        simp only [Loop.step, Loop.proceed, hi, Option.bind_eq_bind, Option.bind_some,
          if_pos hannounces]
      apply Settles.of_step _ (.inr ⟨i, rfl⟩) hs
      apply stores _ (hk.step hs) hpc hcancelled i online (AList.lookup_insert _)
    | store => apply stores s hk hpc hcancelled i online hi
    | send => apply sends s hk hpc hcancelled i online hi
    | returned => contradiction
  · apply settles_unseen hpc hrx hunseen hcancelled

/-- A cancelled call settles when it has a change to wake it wherever it waits. -/
theorem Woken.settles (h : s.Woken) (hk : s.Kept) (hcancelled : s.cancelled = true)
    (hgoes : s.pc.Goes) :
  s.Settles
  := by
  have subscribes (s : Loop T) (hk : s.Kept) (hpc : s.pc = .subscribe)
      (hcancelled : s.cancelled = true) : s.Settles := by
    have hnone : (s.tx.watchers.lookup s.nextRx).isSome = false := by
      apply Bool.eq_false_of_not_eq_true
      rw [hk.watchers]
      apply Nat.lt_irrefl
    have hs : ∃ tx, s.step .advance
        = some { s with tx := tx, nextRx := s.nextRx + 1, pc := .token s.nextRx } := by
      simp only [Loop.step, Loop.advance, Watch.Handles.step, hpc, hnone]
      exact ⟨_, rfl⟩
    obtain ⟨tx, hs⟩ := hs
    apply Settles.of_step _ (.inl rfl) hs
    exact settles_token rfl hcancelled
  have heads (s : Loop T) (hk : s.Kept) (hpc : s.pc = .head) (hcancelled : s.cancelled = true) :
      s.Settles := by
    have hs : s.step .advance
        = some (if s.pauses then s.goto true .subscribe else { s with pc := .start }) := by
      simp only [Loop.step, Loop.advance, hpc]
    apply Settles.of_step _ (.inl rfl) hs
    have hk' := hk.step hs
    split
    · next hpauses =>
      rw [if_pos hpauses] at hk'
      apply subscribes _ hk' rfl hcancelled
    · apply settles_start rfl
  cases hpc : s.pc with
  | head => apply heads s hk hpc hcancelled
  | subscribe => apply subscribes s hk hpc hcancelled
  | token rx => apply settles_token hpc hcancelled
  | poll rx | parked rx =>
    have hwaits : s.pc.Waits := by
      rw [hpc]
      trivial
    apply (h hcancelled hwaits).settles hk hwaits hcancelled
  | changed rx => apply settles_changed hpc hcancelled
  | start => apply settles_start hpc
  | sleeping delay =>
    have hs : s.step .advance = some { s with pc := .head } := by
      simp only [Loop.step, Loop.advance, hpc]
    apply Settles.of_step _ (.inl rfl) hs
    apply heads _ (hk.step hs) rfl hcancelled
  | running | returned _ | dropped =>
    rw [hpc] at hgoes
    contradiction

/-- A retryer that waits and that no change is going to wake waits on. -/
theorem waits_of_not_wakes
    (hk : s.Kept) (hpc : s.pc.Waits) (h : ¬ s.Wakes) (ha : a = .advance ∨ ∃ i, a = .proceed i)
    (hs : s.step a = some s') :
  s'.pc.Waits ∧ ¬ s'.Wakes
  := by
  rcases ha with rfl | ⟨i, rfl⟩
  · cases takes_of_advance hs with
    | @changed rx w tx hpoll hw _ hready =>
      exfalso
      apply h
      refine .inr ⟨rx, by rw [hpoll]; rfl, w, hw, ?_⟩
      intro hv
      rw [Watch.changedPoll_pending hv hk.handles.alive] at hready
      contradiction
    | @closed rx w tx error _ _ _ hpoll => exact absurd hpoll (hk.not_closed w error)
    | @park rx w tx hpoll hw htx hnone =>
      refine ⟨trivial, ?_⟩
      rintro (hcall | ⟨rx', hrx, hunseen⟩)
      · apply h (.inl hcall)
      · obtain rfl := Option.some.inj hrx
        have hv : s.tx.cell.version = w.lastSeen := by
          by_contra hv
          rw [Watch.changedPoll_ready hv] at hnone
          contradiction
        obtain ⟨tx', hs', -, hversion, hlookup, -⟩ := hk.step_park hpoll hw hv
        obtain rfl : tx = tx' := by
          have heq := hs.symm.trans hs'
          simpa using heq
        obtain ⟨w', hw', hv'⟩ := hunseen
        obtain rfl := Option.some.inj (hlookup.symm.trans hw')
        apply hv' (hversion.trans hv)
    | @resume rx hparked =>
      refine ⟨trivial, ?_⟩
      rintro (hcall | ⟨rx', hrx, hunseen⟩)
      · apply h (.inl hcall)
      · exact h (.inr ⟨rx', by rw [hparked]; exact hrx, hunseen⟩)
    | pause hpc' | pass hpc' | subscribe hpc' | cancelled hpc' | wait hpc' | unpause hpc'
    | offline hpc' | start hpc' | slept hpc' =>
      rw [hpc'] at hpc
      contradiction
  · obtain ⟨call, hcall, ⟨htest, rfl⟩ | ⟨hstore, -⟩ | ⟨hsend, -⟩⟩ := step_proceed hs
    · have hsame : s.online = call.online := by
        by_contra hne
        apply h (.inl ⟨i, call, hcall, _⟩)
        simpa only [Announces, htest] using hne
      refine ⟨hpc, ?_⟩
      rintro (⟨j, other, hj, hother⟩ | hunseen)
      · obtain ⟨-, rfl⟩ | ⟨-, hj⟩ := Table.lookup_insert_cases hj
        · simp [Announces, hsame] at hother
        · apply h (.inl ⟨j, other, hj, hother⟩)
      · apply h (.inr hunseen)
    · exfalso
      apply h (.inl ⟨i, call, hcall, _⟩)
      simp only [Announces, hstore]
    · exfalso
      apply h (.inl ⟨i, call, hcall, _⟩)
      simp only [Announces, hsend]

/-- A retryer that waits settles only if a change is going to wake it. -/
theorem wakes_of_settles (hk : s.Kept) (hpc : s.pc.Waits) (h : s.Settles) :
  s.Wakes
  := by
  obtain ⟨as, has, s', hexec, hend⟩ := h
  by_contra hwakes
  induction as generalizing s with
  | nil =>
    obtain rfl := Option.some.inj hexec
    rcases hend with hend | hend
    all_goals
      rw [hend] at hpc
      contradiction
  | cons a as ih =>
    obtain ⟨t, ht, hexec⟩ := Option.bind_eq_some_iff.mp hexec
    obtain ⟨hpc', hwakes'⟩ := waits_of_not_wakes hk hpc hwakes (has a List.mem_cons_self) ht
    apply ih (hk.step ht) hpc' (fun b hb => has b (List.mem_cons_of_mem a hb)) hexec hwakes'

/-! ### Gating -/

/-- The retryer goes on exactly when it returns nothing but `Cancelled` now. -/
theorem Finishes.goesOn_iff {result : Except QueryError T} (h : s.Finishes result s') :
  s.GoesOn result ↔
    ∀ result', s'.pc = .returned result' → result' = .error (.cancelled false false)
  := by
  cases h with
  | ok => simp [GoesOn]
  | cancelled hc => simpa [GoesOn] using .inl hc
  | retry hc hretry => simp [GoesOn, hretry]
  | @fail error hc hretry =>
    have hne : error ≠ .cancelled false false := by
      rintro rfl
      contradiction
    simp [GoesOn, hc, hretry, hne]

theorem finish_isSome (result : Except QueryError T) (hpc : s.pc = .running) :
  ∃ s', s.finish result = some s' ∧ s.Finishes result s'
  := by
  cases h : s.finish result with
  | some s' => exact ⟨s', rfl, (finishes_of_finish h).2⟩
  | none =>
    unfold finish at h
    rw [hpc] at h
    cases result with
    | ok value => contradiction
    | error error =>
      simp only at h
      split at h
      · contradiction
      · split at h
        · contradiction
        · contradiction

/-- What a call returns after its token was cancelled. -/
theorem result_of_goesOn
    {result' : Except QueryError T}
    (hfinish : ∀ result, a = .finish result → s.pc = .running → s.GoesOn result)
    (hs : s.step a = some s') (hpc' : s'.pc = .returned result')
    (hpc : ∀ result, s.pc ≠ .returned result) :
  result' = .error (.cancelled false false)
  := by
  cases a with
  | advance =>
    cases takes_of_advance hs with
    | cancelled => apply (Pc.returned.inj hpc').symm
    | _ => contradiction
  | finish result =>
    obtain ⟨hrunning, hfinishes⟩ := finishes_of_finish hs
    apply hfinishes.goesOn_iff.mp (hfinish result rfl hrunning) result' hpc'
  | _ =>
    rcases pc_of_step hs nofun nofun with h | h
    · exact absurd (h.symm.trans hpc') (hpc result')
    · rw [h] at hpc'
      contradiction

/-- What lets an attempt start. -/
theorem Logged.attempt_iff {t : Loop T × List GateEvent} (h : Logged t) (hpc : t.1.pc = .start) :
  (t.1.cancelled = false ∧ (t.1.Asks → t.1.online = true)) ↔
    Heeded t.2 ∧ (t.1.Asks → ¬ LetOnOffline t.2 t.1.attempts)
  := by
  apply and_congr
  · constructor
    · intro hcancelled l₁ l₂ hlog
      have hmem : t.1.cancelled = true := by
        apply h.cancelled.mpr
        simp [hlog]
      rw [hcancelled] at hmem
      contradiction
    · intro hheeded
      apply Bool.eq_false_of_not_eq_true
      intro hcancelled
      obtain ⟨l₁, l₂, hlog⟩ := List.append_of_mem (h.cancelled.mp hcancelled)
      apply h.heard l₁ l₂ hlog (hheeded l₁ l₂ hlog)
  · apply imp_congr_right
    intro hasks
    constructor
    · rintro honline ⟨l₁, l₂, hlog, hl₂, -⟩
      rw [h.online l₁ l₂ false hlog hl₂] at honline
      contradiction
    · intro hlet
      rcases h.start hpc with hskipped | ⟨-, hpassed⟩
      · apply Bool.eq_true_of_not_eq_false
        intro hoffline
        apply hlet ((h.offline hoffline).letOnOffline hskipped)
      · apply (hpassed hasks).resolve_right hlet

/-- The watchers are kept, the log is kept, and a cancelled retryer is going to be woken. -/
structure Watched (t : Loop T × List GateEvent) : Prop where
  kept : t.1.Kept
  woken : t.1.Woken
  logged : Logged t

theorem watched_initial (retryer : Retryer) (mode : NetworkMode) :
  Watched ((initial retryer mode, []) : Loop T × List GateEvent)
  := by
  refine ⟨kept_initial retryer mode, nofun, ?_⟩
  constructor
  · constructor
    · nofun
    · nofun
  · intro l₁ l₂ hlog
    simp at hlog
  · intro l₁ l₂ online hlog
    simp at hlog
  · nofun
  · nofun

/-- A step meets the condition exactly when it is gated. -/
theorem Watched.honours_iff {t : Loop T × List GateEvent} (h : Watched t) :
  Honours t a ↔ t.1.Gated a
  := by
  obtain ⟨hkept, hwoken, hlogged⟩ := h
  constructor
  · intro hok
    constructor
    · rintro hpc rfl
      apply (hlogged.attempt_iff hpc).mpr (hok hpc)
    · intro s' result hs hpc' hpc hcancelled
      apply result_of_goesOn _ hs hpc' hpc
      rintro result rfl hrunning
      apply hok hrunning hcancelled
    · intro s' hs hcancelled hgoes
      apply (hwoken.step hkept hok hs).settles (hkept.step hs) hcancelled hgoes
  · intro hgated
    cases a with
    | advance =>
      intro hpc
      apply (hlogged.attempt_iff hpc).mp (hgated.attempt hpc rfl)
    | finish result =>
      intro hpc hcancelled
      obtain ⟨s', hs, hfinishes⟩ := finish_isSome result hpc
      apply hfinishes.goesOn_iff.mpr
      intro result' hpc'
      apply hgated.result s' result' hs hpc' _ hcancelled
      intro result
      rw [hpc]
      nofun
    | cancel =>
      intro hwaits
      let cancelled : Loop T := { t.1 with cancelled := true }
      have hs : t.1.step .cancel = some cancelled := rfl
      have hgoes : t.1.pc.Goes := by
        cases hpc : t.1.pc with
        | poll | parked => trivial
        | _ =>
          rw [hpc] at hwaits
          contradiction
      have hsettles : cancelled.Settles := hgated.settles cancelled hs rfl hgoes
      have hwakes : cancelled.Wakes := wakes_of_settles (hkept.step hs) hwaits hsettles
      exact hwakes
    | _ => trivial

end Loop

end Retryer

end RsQuery
