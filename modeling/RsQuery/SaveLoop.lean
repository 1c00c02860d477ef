import RsQuery.Executor
import RsQuery.RestoreRetry
import RsQuery.RoundTrip

/-!
# Saving a client in the background

`persist_query_client` restores a client and then saves it once in every interval, until its
handle is unsubscribed.  The client is written meanwhile, and a save takes its time.

A program may end at any moment, and all that is left then is the stored snapshot.  If the
loop is polled and its saves succeed in time, this is no older than an interval and the
delays, so what has been cached for longer is in it, and comes back when the snapshot is
restored: `Saver.durable_of_run`.
-/

namespace RsQuery

/-- Interval between background saves. -/
def persistInterval : Duration :=
  Duration.fromSecs 1

variable {V : Type} [StringAny V]

/-- Where the save loop stands. -/
inductive SaverPc where
  /-- Spawned and not polled yet. -/
  | queued
  /-- Polls the stop signal and starts to sleep. -/
  | select
  | sleeping
  /-- Tests the stop flag. -/
  | tick
  /-- Dehydrates the client. -/
  | save
  /-- Suspended in `persist_client`. -/
  | persisting (snapshot : PersistedClient)
  | done

/-- How many snapshots are to be taken before the flag is tested again. -/
def SaverPc.pending : SaverPc → Nat
  | .save => 1
  | _ => 0

/-- The loop has slept, and has not taken a snapshot since. -/
def SaverPc.Slept : SaverPc → Prop
  | .tick | .save => True
  | _ => False

/-- A client and the loop that saves it. -/
structure Saver (V : Type) [StringAny V] where
  wall : SystemTime
  now : Instant
  client : QueryClient V
  options : PersistQueryClientOptions
  stored : Option PersistedClient
  unsubscribe : Bool
  /-- The stop signal is sent. -/
  stopped : Bool
  /-- When the sleep ends, or ended; at first, when the loop was spawned. -/
  deadline : Instant
  pc : SaverPc

namespace Saver

/-- A step of the saver. -/
inductive Action (V : Type) where
  /-- Time passes. -/
  | pass (d : Duration)
  /-- A call on the client by another thread. -/
  | call (operation : Call V)
  /-- The loop goes on. -/
  | advance
  /-- The persister is done with a snapshot. -/
  | persist (error : Option QueryError)
  /-- The stop flag is set. -/
  | unsubscribe
  /-- The stop signal is sent. -/
  | stop
  /-- The task of the loop is aborted. -/
  | abort

variable (serde : Option SerdeJson)

/-- The snapshot that `persist_query_client_save` takes. -/
def snapshot (s : Saver V) : PersistedClient where
  timestampMs := unixNowMs s.wall
  buster := s.options.buster
  clientState := s.client.dehydrate serde s.wall s.now

/-- One step of the loop. -/
def advance (s : Saver V) : Option (Saver V) :=
  match s.pc with
  | .queued => some { s with pc := .select }
  | .select =>
    if s.stopped then some { s with pc := .done }
    else some { s with deadline := s.now + persistInterval, pc := .sleeping }
  | .sleeping =>
    if s.stopped then some { s with pc := .done }
    else if s.deadline ≤ s.now then some { s with pc := .tick }
    else some s
  | .tick => some { s with pc := if s.unsubscribe then .done else .save }
  | .save => some { s with pc := .persisting (s.snapshot serde) }
  | .persisting _ | .done => none

/-- What an action does; a save that fails leaves what is stored. -/
def step (s : Saver V) : Action V → Option (Saver V)
  | .pass d => some { s with wall := s.wall + d, now := s.now + d }
  | .call operation => some { s with client := operation.apply s.now s.client }
  | .advance => s.advance serde
  | .persist error =>
    match s.pc with
    | .persisting snapshot =>
      some { s with stored := if error.isSome then s.stored else some snapshot, pc := .select }
    | _ => none
  | .unsubscribe => some { s with unsubscribe := true }
  | .stop => if s.unsubscribe then some { s with stopped := true } else none
  | .abort =>
    match s.pc with
    | .queued | .sleeping | .persisting _ => some { s with pc := .done }
    | _ => none

/-- A loop that is spawned at the given time, for a client that was just restored. -/
structure Starts (start : Instant) (s : Saver V) : Prop where
  now : s.now = start
  deadline : s.deadline = start
  unsubscribe : s.unsubscribe = false
  stopped : s.stopped = false
  pc : s.pc = .queued

/-- The saver from the time its loop is spawned. -/
def machine (start : Instant) : Machine (Saver V) (Action V) :=
  ⟨Starts start, step serde⟩

/-! ### After unsubscribing -/

/-- What the saver is told, and what it does. -/
inductive Event where
  | unsubscribed
  | saved (time : Instant)
deriving DecidableEq, Repr

/-- A snapshot is taken. -/
def Event.isSaved : Event → Bool
  | .saved _ => true
  | .unsubscribed => false

/-- What a step does. -/
def noted (s : Saver V) : Action V → List Event
  | .unsubscribe => [.unsubscribed]
  | .advance =>
    match s.pc with
    | .save => [.saved s.now]
    | _ => []
  | .pass _ | .call _ | .persist _ | .stop | .abort => []

/-- The saver with a log of what it is told and does. -/
def following (start : Instant) : Machine (Saver V × List Event) (Action V) :=
  (machine serde start).noting fun s a _ => s.noted a

/-- When snapshots were taken. -/
def times (log : List Event) : List Instant :=
  log.filterMap fun e =>
    match e with
    | .saved time => some time
    | .unsubscribed => none

/-- Snapshots are an interval apart, and at most one is taken after unsubscribing. -/
structure Paced (start : Instant) (s : Saver V) (log : List Event) : Prop where
  now : start ≤ s.now
  past : ∀ time ∈ times log, start + persistInterval ≤ time ∧ time ≤ s.now
  apart : (times log).Pairwise fun a b => a + persistInterval ≤ b
  sleeping : s.pc = .sleeping ∨ s.pc.Slept → start + persistInterval ≤ s.deadline ∧
    ∀ time ∈ times log, time + persistInterval ≤ s.deadline
  slept : s.pc.Slept → s.deadline ≤ s.now
  flag : .unsubscribed ∈ log → s.unsubscribe = true
  quiet : ∀ l₁ l₂, log = l₁ ++ .unsubscribed :: l₂ →
    l₂.countP Event.isSaved + s.pc.pending ≤ 1

variable {serde} {start : Instant} {s s' : Saver V} {log : List Event}

/-- A step that notes nothing. -/
theorem Paced.of_nothing (h : s.Paced start log) (hnow : s.now ≤ s'.now)
    (hsleeping : s'.pc = .sleeping ∨ s'.pc.Slept → start + persistInterval ≤ s'.deadline ∧
      ∀ time ∈ times log, time + persistInterval ≤ s'.deadline)
    (hslept : s'.pc.Slept → s'.deadline ≤ s'.now)
    (hflag : s'.unsubscribe = s.unsubscribe)
    (hquiet : s'.pc.pending ≤ s.pc.pending ∨ s.unsubscribe = false) :
  s'.Paced start log
  := by
  constructor
  · apply Nat.le_trans h.now hnow
  · intro time htime
    obtain ⟨hstart, hle⟩ := h.past time htime
    exact ⟨hstart, Nat.le_trans hle hnow⟩
  · apply h.apart
  · apply hsleeping
  · apply hslept
  · intro hmem
    rw [hflag, h.flag hmem]
  · intro l₁ l₂ hlog
    obtain hpending | hfalse := hquiet
    · apply Nat.le_trans (Nat.add_le_add_left hpending _) (h.quiet l₁ l₂ hlog)
    · have hflag := h.flag (by rw [hlog]; simp)
      rw [hfalse] at hflag
      contradiction

/-- The program point stays as it is, or it is one where nothing is to be done. -/
theorem Paced.of_pc {pc : SaverPc} (h : s.Paced start log) (hpc : ¬ pc.Slept)
    (hsleeping : pc ≠ .sleeping) (hpending : pc.pending = 0) :
  { s with pc := pc }.Paced start log
  := by
  refine h.of_nothing (Nat.le_refl _) ?_ ?_ rfl (.inl (hpending ▸ Nat.zero_le _))
  · rintro (h | h)
    · contradiction
    · contradiction
  · intro h
    contradiction

/-- A snapshot is taken. -/
theorem Paced.save (h : s.Paced start log) (hpc : s.pc = .save) (snapshot : PersistedClient) :
  { s with pc := .persisting snapshot }.Paced start (log ++ [Event.saved s.now])
  := by
  have hslept : s.pc.Slept := by
    rw [hpc]
    trivial
  obtain ⟨hstart, htimes⟩ := h.sleeping (.inr hslept)
  have hnow := h.slept hslept
  have happend : times (log ++ [.saved s.now]) = times log ++ [s.now] :=
    List.filterMap_append
  constructor
  · apply h.now
  · intro time htime
    rw [happend, List.mem_append, List.mem_singleton] at htime
    obtain htime | rfl := htime
    · apply h.past time htime
    · exact ⟨Nat.le_trans hstart hnow, Nat.le_refl _⟩
  · rw [happend, List.pairwise_append]
    refine ⟨h.apart, List.pairwise_singleton _ _, fun a ha b hb => ?_⟩
    obtain rfl := List.mem_singleton.mp hb
    apply Nat.le_trans (htimes a ha) hnow
  · rintro (h | h)
    · contradiction
    · contradiction
  · intro h
    contradiction
  · intro hmem
    apply h.flag
    simpa using hmem
  · intro l₁ l₂ hlog
    obtain ⟨l, hl, rfl⟩ | ⟨h, -, -⟩ := Machine.concat_eq_append_cons hlog
    · have hquiet := h.quiet l₁ l hl
      rw [hpc] at hquiet
      rw [List.countP_append]
      apply hquiet
    · contradiction

theorem pending_le (s : Saver V) :
  s.pc.pending ≤ 1
  := by
  unfold SaverPc.pending
  split
  · apply Nat.le_refl
  · apply Nat.zero_le

/-- The stop flag is set. -/
theorem Paced.unsubscribe (h : s.Paced start log) :
  { s with unsubscribe := true }.Paced start (log ++ [Event.unsubscribed])
  := by
  have happend : times (log ++ [.unsubscribed]) = times log :=
    List.filterMap_append.trans (List.append_nil _)
  constructor
  · apply h.now
  · rw [happend]
    apply h.past
  · rw [happend]
    apply h.apart
  · rw [happend]
    apply h.sleeping
  · apply h.slept
  · exact fun _ => rfl
  · intro l₁ l₂ hlog
    obtain ⟨l, hl, rfl⟩ | ⟨-, -, rfl⟩ := Machine.concat_eq_append_cons hlog
    · rw [List.countP_append]
      apply h.quiet l₁ l hl
    · rw [List.countP_nil, Nat.zero_add]
      apply pending_le

theorem Paced.advance (h : s.Paced start log) (hs : s.advance serde = some s') :
  s'.Paced start (log ++ s.noted (.advance : Action V))
  := by
  cases hpc : s.pc with
  | save =>
    simp only [Saver.advance, hpc, Option.some.injEq] at hs
    obtain rfl := hs
    simp only [noted, hpc]
    apply h.save hpc
  | queued =>
    simp only [Saver.advance, hpc, Option.some.injEq] at hs
    obtain rfl := hs
    simp only [noted, hpc, List.append_nil]
    apply h.of_pc id (by simp) rfl
  | select =>
    simp only [Saver.advance, hpc] at hs
    simp only [noted, hpc, List.append_nil]
    split at hs
    · obtain rfl := Option.some.inj hs
      apply h.of_pc id (by simp) rfl
    · obtain rfl := Option.some.inj hs
      refine h.of_nothing (Nat.le_refl _) (fun _ => ⟨?_, fun time htime => ?_⟩) False.elim rfl
        (.inl (Nat.zero_le _))
      · apply Nat.add_le_add_right h.now
      · apply Nat.add_le_add_right (h.past time htime).2
  | sleeping =>
    simp only [Saver.advance, hpc] at hs
    simp only [noted, hpc, List.append_nil]
    split at hs
    · obtain rfl := Option.some.inj hs
      apply h.of_pc id (by simp) rfl
    · split at hs
      · next hdeadline =>
        obtain rfl := Option.some.inj hs
        exact h.of_nothing (Nat.le_refl _) (fun _ => h.sleeping (.inl hpc)) (fun _ => hdeadline)
          rfl (.inl (Nat.zero_le _))
      · obtain rfl := Option.some.inj hs
        apply h
  | tick =>
    simp only [Saver.advance, hpc, Option.some.injEq] at hs
    obtain rfl := hs
    simp only [noted, hpc, List.append_nil]
    have hslept : s.pc.Slept := by
      rw [hpc]
      trivial
    by_cases hflag : s.unsubscribe = true
    · simp only [hflag, if_true]
      have hdone : { s with pc := .done }.Paced start log := h.of_pc id (by simp) rfl
      rwa [hflag] at hdone
    · exact h.of_nothing (Nat.le_refl _) (fun _ => h.sleeping (.inr hslept))
        (fun _ => h.slept hslept) rfl (.inr (Bool.of_not_eq_true hflag))
  | persisting snapshot | done =>
    simp only [Saver.advance, hpc] at hs
    contradiction

theorem Paced.step {a : Action V} (h : s.Paced start log) (hs : s.step serde a = some s') :
  s'.Paced start (log ++ s.noted a)
  := by
  cases a with
  | pass d =>
    obtain rfl := Option.some.inj hs
    rw [noted, List.append_nil]
    exact h.of_nothing (Nat.le_add_right _ _) h.sleeping
      (fun hslept => Nat.le_trans (h.slept hslept) (Nat.le_add_right _ _)) rfl
      (.inl (Nat.le_refl _))
  | call operation =>
    obtain rfl := Option.some.inj hs
    rw [noted, List.append_nil]
    exact h.of_nothing (Nat.le_refl _) h.sleeping h.slept rfl (.inl (Nat.le_refl _))
  | advance => apply h.advance hs
  | persist error =>
    simp only [Saver.step] at hs
    split at hs
    · obtain rfl := Option.some.inj hs
      rw [noted, List.append_nil]
      exact h.of_nothing (Nat.le_refl _) (fun hpc => hpc.elim (by simp) False.elim) False.elim rfl
        (.inl (Nat.zero_le _))
    · contradiction
  | unsubscribe =>
    obtain rfl := Option.some.inj hs
    apply h.unsubscribe
  | stop =>
    simp only [Saver.step] at hs
    split at hs
    · obtain rfl := Option.some.inj hs
      rw [noted, List.append_nil]
      exact h.of_nothing (Nat.le_refl _) h.sleeping h.slept rfl (.inl (Nat.le_refl _))
    · contradiction
  | abort =>
    simp only [Saver.step] at hs
    split at hs
    case h_4 => contradiction
    all_goals
      obtain rfl := Option.some.inj hs
      rw [noted, List.append_nil]
      apply h.of_pc id (by simp) rfl

/-- In every run snapshots are taken an interval apart, the first an interval after the
start, and at most one is taken after the stop flag is set. -/
theorem paced_of_reachable {t : Saver V × List Event}
    (h : (following serde start).Reachable t) :
  (∀ time ∈ times t.2, start + persistInterval ≤ time) ∧
    ((times t.2).Pairwise fun a b => a + persistInterval ≤ b) ∧
    ∀ l₁ l₂, t.2 = l₁ ++ .unsubscribed :: l₂ → l₂.countP Event.isSaved ≤ 1
  := by
  have hpaced : t.1.Paced start t.2 := by
    apply h.invariant
    · rintro ⟨s, log⟩ ⟨hs, hlog⟩
      obtain rfl : log = [] := hlog
      constructor
      · apply Nat.le_of_eq hs.now.symm
      · simp [times]
      · apply List.Pairwise.nil
      · rw [hs.pc]
        exact fun hpc => hpc.elim (by simp) False.elim
      · rw [hs.pc]
        apply False.elim
      · simp
      · simp
    · rintro t a t' _ hpaced _ hs
      obtain ⟨hstep, hlog⟩ := Machine.step_noting hs
      rw [hlog]
      apply hpaced.step hstep
  refine ⟨fun time htime => (hpaced.past time htime).1, hpaced.apart, fun l₁ l₂ hlog => ?_⟩
  apply Nat.le_trans (Nat.le_add_right _ _) (hpaced.quiet l₁ l₂ hlog)

/-- A loop is spawned for a client that has cached a user. -/
def spawned : Saver (String ⊕ Nat) where
  wall := Duration.fromSecs 1700000000
  now := 0
  client := QueryClient.adaCached
  options := {}
  stored := none
  unsubscribe := false
  stopped := false
  deadline := 0
  pc := .queued

theorem spawned_starts :
  Starts 0 spawned
  := ⟨rfl, rfl, rfl, rfl, rfl⟩

/-- The loop sleeps and saves. -/
def saves : List (Action (String ⊕ Nat)) :=
  [.advance, .advance, .pass persistInterval, .advance, .advance, .advance, .persist none]

/-- The second snapshot is taken although the stop flag is set, the flag having been tested
just before. -/
theorem paced_of_reachable_late :
  ∃ t : Saver (String ⊕ Nat) × List Event, (following none 0).Reachable t ∧
    t.2 = [.saved (Duration.fromSecs 1), .unsubscribed, .saved (Duration.fromSecs 3)] ∧
    ∀ l₁ l₂, t.2 = l₁ ++ .unsubscribed :: l₂ → l₂.countP Event.isSaved ≤ 1
  := by
  obtain ⟨t, ht, hlog⟩ := Machine.exists_reachable_of_exec
    (saves ++ [.advance, .pass (Duration.fromSecs 2), .advance, .advance, .unsubscribe, .advance,
      .stop, .persist none, .advance])
    (fun t : Saver (String ⊕ Nat) × List Event => t.2) _ (M := following none 0)
    (s := (spawned, [])) ⟨spawned_starts, rfl⟩ rfl
  exact ⟨t, ht, hlog, (paced_of_reachable ht).2.2⟩

/-! ### What is saved when the program ends -/

/-- The loop is never more than the slack behind, its saves succeed, and it is not told to
stop. -/
def Prompt (slack : Duration) (s : Saver V) : Action V → Prop
  | .pass d => s.now + d ≤ s.deadline + slack
  | .persist error => error = none
  | .call _ | .advance => True
  | .unsubscribe | .stop | .abort => False

/-- How much older than the client the stored snapshot is at most. -/
def lag (slack : Duration) : Duration :=
  persistInterval + 2 * slack

/-- The saver with all its past states. -/
def recording (serde : Option SerdeJson) (start : Instant) :
    Machine (Saver V × List (Saver V)) (Action V) :=
  (machine serde start).noting fun s _ _ => [s]

/-- The snapshot that a past state took at the time is stored; or none need be yet, the loop
having been spawned at the time. -/
def Stored (serde : Option SerdeJson) (start : Instant) (stored : Option PersistedClient)
    (past : List (Saver V)) (time : Instant) : Prop :=
  time = start ∨ ∃ m ∈ past, stored = some (m.snapshot serde) ∧ m.now = time

/-- When the next snapshot is due, the last being of the given time. -/
def Due (slack time : Instant) (s : Saver V) : Prop :=
  match s.pc with
  | .queued | .select => s.deadline ≤ time
  | .sleeping => s.deadline ≤ time + slack + persistInterval
  | .tick | .save => s.deadline ≤ time + slack + persistInterval ∧ s.deadline ≤ s.now
  | .persisting _ => s.deadline ≤ time + slack + persistInterval
  | .done => False

/-- A saver that has been prompt. -/
structure Timely (serde : Option SerdeJson) (start : Instant) (slack : Duration) (s : Saver V)
    (past : List (Saver V)) : Prop where
  clock : ∀ m ∈ past, m.now ≤ s.now ∧ m.wall + s.now = s.wall + m.now
  options : ∀ m ∈ past, m.options = s.options
  running : s.stopped = false ∧ s.unsubscribe = false
  now : s.now ≤ s.deadline + slack
  stored : ∃ time, Stored serde start s.stored past time ∧ Due slack time s
  persisting : ∀ snapshot, s.pc = .persisting snapshot →
    ∃ m ∈ past, snapshot = m.snapshot serde ∧ s.deadline ≤ m.now

variable {slack time : Duration} {past : List (Saver V)} {a : Action V}

theorem Stored.append {stored : Option PersistedClient} (h : Stored serde start stored past time)
    (l : List (Saver V)) :
  Stored serde start stored (past ++ l) time
  := by
  obtain h | ⟨m, hm, h⟩ := h
  · left
    apply h
  · right
    exact ⟨m, List.mem_append_left l hm, h⟩

/-- The two clocks go together, and the options stay. -/
theorem clock_of_step (hs : s.step serde a = some s') :
  s.now ≤ s'.now ∧ s.wall + s'.now = s'.wall + s.now ∧ s.options = s'.options
  := by
  cases a with
  | pass d =>
    obtain rfl := Option.some.inj hs
    refine ⟨Nat.le_add_right _ _, ?_, rfl⟩
    rw [Nat.add_right_comm s.wall, Nat.add_assoc]
  | call _ | unsubscribe =>
    obtain rfl := Option.some.inj hs
    exact ⟨Nat.le_refl _, rfl, rfl⟩
  | advance =>
    simp only [Saver.step, Saver.advance] at hs
    repeat' split at hs
    all_goals first
      | contradiction
      | (obtain rfl := Option.some.inj hs
         exact ⟨Nat.le_refl _, rfl, rfl⟩)
  | persist _ | stop | abort =>
    simp only [Saver.step] at hs
    split at hs
    all_goals first
      | contradiction
      | (obtain rfl := Option.some.inj hs
         exact ⟨Nat.le_refl _, rfl, rfl⟩)

/-- What a step must see to for the saver to stay prompt. -/
theorem Timely.extend (h : Timely serde start slack s past) (hs : s.step serde a = some s')
    (hrunning : s'.stopped = false ∧ s'.unsubscribe = false) (hnow : s'.now ≤ s'.deadline + slack)
    (hstored : ∃ time, Stored serde start s'.stored (past ++ [s]) time ∧ Due slack time s')
    (hpersisting : ∀ snapshot, s'.pc = .persisting snapshot →
      ∃ m ∈ past ++ [s], snapshot = m.snapshot serde ∧ s'.deadline ≤ m.now) :
  Timely serde start slack s' (past ++ [s])
  := by
  obtain ⟨hle, hwall, hoptions⟩ := clock_of_step hs
  constructor
  · intro m hm
    rw [List.mem_append, List.mem_singleton] at hm
    obtain hm | rfl := hm
    · obtain ⟨hlem, hwallm⟩ := h.clock m hm
      dsimp only [Instant, SystemTime] at *
      omega
    · exact ⟨hle, hwall⟩
  · intro m hm
    rw [List.mem_append, List.mem_singleton] at hm
    obtain hm | rfl := hm
    · rw [h.options m hm, hoptions]
    · apply hoptions
  · apply hrunning
  · apply hnow
  · apply hstored
  · apply hpersisting

/-- A step that leaves the loop where it is. -/
theorem Timely.stand (h : Timely serde start slack s past) (hs : s.step serde a = some s')
    (hpc : s'.pc = s.pc) (hdeadline : s'.deadline = s.deadline) (hstored : s'.stored = s.stored)
    (hrunning : s'.stopped = s.stopped ∧ s'.unsubscribe = s.unsubscribe)
    (hnow : s'.now ≤ s.deadline + slack) :
  Timely serde start slack s' (past ++ [s])
  := by
  have hle := (clock_of_step hs).1
  apply h.extend hs
  · rw [hrunning.1, hrunning.2]
    apply h.running
  · rwa [hdeadline]
  · obtain ⟨time, htime, hdue⟩ := h.stored
    refine ⟨time, hstored ▸ htime.append [s], ?_⟩
    revert hdue
    simp only [Due, hpc, hdeadline]
    cases s.pc with
    | tick | save => exact fun hdue => ⟨hdue.1, Nat.le_trans hdue.2 hle⟩
    | queued | select | sleeping | persisting _ | done => apply id
  · rw [hpc, hdeadline]
    intro snapshot hsnapshot
    obtain ⟨m, hm, h⟩ := h.persisting snapshot hsnapshot
    exact ⟨m, List.mem_append_left _ hm, h⟩

/-- The loop goes on to where no snapshot is at hand. -/
theorem Timely.goes {pc : SaverPc} {deadline : Instant} (h : Timely serde start slack s past)
    (hs : s.step serde a = some { s with deadline := deadline, pc := pc })
    (hnow : s.now ≤ deadline + slack) (hpc : ∀ snapshot, pc ≠ .persisting snapshot)
    (hdue : ∀ time, Due slack time s → Due slack time { s with deadline := deadline, pc := pc }) :
  Timely serde start slack { s with deadline := deadline, pc := pc } (past ++ [s])
  := by
  apply h.extend hs h.running hnow
  · obtain ⟨time, htime, h⟩ := h.stored
    exact ⟨time, htime.append [s], hdue time h⟩
  · intro snapshot hsnapshot
    exact absurd hsnapshot (hpc snapshot)

theorem Timely.advance (h : Timely serde start slack s past)
    (hs : s.step serde .advance = some s') :
  Timely serde start slack s' (past ++ [s])
  := by
  have hadvance : s.advance serde = some s' := hs
  have hnow := h.now
  cases hpc : s.pc with
  | queued =>
    simp only [Saver.advance, hpc, Option.some.injEq] at hadvance
    obtain rfl := hadvance
    refine h.goes hs hnow (by simp) ?_
    simp only [Due, hpc]
    exact fun _ => id
  | select =>
    simp only [Saver.advance, hpc] at hadvance
    rw [if_neg (Bool.not_eq_true _ ▸ h.running.1)] at hadvance
    obtain rfl := Option.some.inj hadvance
    refine h.goes hs ?_ (by simp) ?_
    · rw [Nat.add_assoc]
      apply Nat.le_add_right
    · simp only [Due, hpc]
      intro time hdue
      dsimp only [Instant, Duration] at *
      omega
  | sleeping =>
    simp only [Saver.advance, hpc] at hadvance
    rw [if_neg (Bool.not_eq_true _ ▸ h.running.1)] at hadvance
    split at hadvance
    · next hdeadline =>
      obtain rfl := Option.some.inj hadvance
      refine h.goes hs hnow (by simp) ?_
      simp only [Due, hpc]
      exact fun _ hdue => ⟨hdue, hdeadline⟩
    · obtain rfl := Option.some.inj hadvance
      apply h.stand hs rfl rfl rfl ⟨rfl, rfl⟩ hnow
  | tick =>
    simp only [Saver.advance, hpc] at hadvance
    rw [if_neg (Bool.not_eq_true _ ▸ h.running.2)] at hadvance
    obtain rfl := Option.some.inj hadvance
    refine h.goes hs hnow (by simp) ?_
    simp only [Due, hpc]
    exact fun _ => id
  | save =>
    simp only [Saver.advance, hpc, Option.some.injEq] at hadvance
    obtain rfl := hadvance
    obtain ⟨time, htime, hdue⟩ := h.stored
    simp only [Due, hpc] at hdue
    apply h.extend hs h.running hnow
    · exact ⟨time, htime.append [s], hdue.1⟩
    · intro snapshot hsnapshot
      obtain rfl := SaverPc.persisting.inj hsnapshot
      exact ⟨s, by simp, rfl, hdue.2⟩
  | persisting snapshot | done =>
    simp only [Saver.advance, hpc] at hadvance
    contradiction

theorem Timely.step (h : Timely serde start slack s past) (hok : s.Prompt slack a)
    (hs : s.step serde a = some s') :
  Timely serde start slack s' (past ++ [s])
  := by
  cases a with
  | pass d =>
    have heq := Option.some.inj hs
    subst heq
    apply h.stand hs rfl rfl rfl ⟨rfl, rfl⟩ hok
  | call operation =>
    have heq := Option.some.inj hs
    subst heq
    apply h.stand hs rfl rfl rfl ⟨rfl, rfl⟩ h.now
  | advance => apply h.advance hs
  | persist error =>
    obtain rfl : error = none := hok
    have hpersist := hs
    simp only [Saver.step] at hpersist
    split at hpersist
    · next snapshot hpc =>
      simp only [Option.isSome_none, Bool.false_eq_true, if_false, Option.some.injEq] at hpersist
      obtain ⟨m, hm, hsnapshot, hdeadline⟩ := h.persisting snapshot hpc
      subst hpersist
      apply h.extend hs h.running h.now
      · exact ⟨m.now, .inr ⟨m, List.mem_append_left _ hm, by rw [hsnapshot], rfl⟩, hdeadline⟩
      · intro _ hpersisting
        contradiction
    · contradiction
  | unsubscribe | stop | abort => contradiction

theorem timely_of_run {t : Saver V × List (Saver V)}
    (h : (recording serde start).Run (fun t => t.1.Prompt slack) t) :
  Timely serde start slack t.1 t.2
  := by
  apply h.invariant
  · rintro ⟨s, past⟩ ⟨hs, hpast⟩
    obtain rfl : past = [] := hpast
    have hdue : Due slack start s := by
      rw [Due, hs.pc]
      apply Nat.le_of_eq hs.deadline
    constructor
    · simp
    · simp
    · exact ⟨hs.stopped, hs.unsubscribe⟩
    · rw [hs.now, hs.deadline]
      apply Nat.le_add_right
    · exact ⟨start, .inl rfl, hdue⟩
    · rw [hs.pc]
      simp
  · rintro t a t' _ htimely hok hs
    obtain ⟨hstep, hpast⟩ := Machine.step_noting hs
    rw [hpast]
    apply htimely.step hok hstep

/-- Once the time for the first save is over, a snapshot of a recent state is stored. -/
theorem Timely.recent (h : Timely serde start slack s past) (hlate : start + lag slack < s.now) :
  ∃ m ∈ past, s.stored = some (m.snapshot serde) ∧ s.now ≤ m.now + lag slack
  := by
  obtain ⟨time, hstored, hdue⟩ := h.stored
  have hnow := h.now
  have hdeadline : s.deadline ≤ time + slack + persistInterval := by
    rw [Due] at hdue
    split at hdue
    · rw [Nat.add_assoc]
      apply Nat.le_trans hdue (Nat.le_add_right _ _)
    · rw [Nat.add_assoc]
      apply Nat.le_trans hdue (Nat.le_add_right _ _)
    · apply hdue
    · apply hdue.1
    · apply hdue.1
    · apply hdue
    · contradiction
  have hrecent : s.now ≤ time + lag slack := by
    rw [lag]
    dsimp only [Instant, Duration] at *
    omega
  obtain rfl | ⟨m, hm, hstored, rfl⟩ := hstored
  · exact absurd hrecent (Nat.not_le.mpr hlate)
  · exact ⟨m, hm, hstored, hrecent⟩

/-- A wall clock that shows a millisecond is not missing. -/
theorem unixNowMs_ne_zero {wall : SystemTime} (h : Duration.fromMillis 1 ≤ wall) :
  unixNowMs wall ≠ 0
  := by
  simp only [Duration.fromMillis] at h
  simp only [unixNowMs, Duration.asMillisU64, u64Max]
  dsimp only [Duration] at *
  omega

/-- Rounding makes an age greater by a millisecond at most. -/
theorem unixNowMs_sub_le
    {wall wall' : SystemTime} {age maxAge : Duration} (hage : wall' ≤ wall + age)
    (hmax : age + Duration.fromMillis 1 ≤ maxAge) :
  unixNowMs wall' - unixNowMs wall ≤ Duration.asMillisU64 maxAge
  := by
  simp only [Duration.fromMillis] at hmax
  simp only [unixNowMs, Duration.asMillisU64, u64Max]
  dsimp only [Duration, SystemTime] at *
  omega

/-- A recent snapshot can be restored if it is not out of date by then. -/
theorem Timely.valid {m : Saver V} {wall : SystemTime} {away : Duration}
    (h : Timely serde start slack s past) (hm : m ∈ past) (hrecent : s.now ≤ m.now + lag slack)
    (hwall : Duration.fromMillis 1 + lag slack ≤ s.wall) (haway : wall ≤ s.wall + away)
    (hage : away + lag slack + Duration.fromMillis 1 ≤ s.options.maxAge) :
  s.options.valid wall (m.snapshot serde) = true
  := by
  have hclock := (h.clock m hm).2
  have hlag : s.wall ≤ m.wall + lag slack := by
    dsimp only [Instant, Duration, SystemTime] at *
    omega
  have hpositive : unixNowMs m.wall ≠ 0 := by
    apply unixNowMs_ne_zero
    apply Nat.le_of_add_le_add_right (Nat.le_trans hwall hlag)
  have hfresh : unixNowMs wall - unixNowMs m.wall ≤ Duration.asMillisU64 s.options.maxAge := by
    apply unixNowMs_sub_le _ hage
    rw [Nat.add_comm away, ← Nat.add_assoc]
    apply Nat.le_trans haway (Nat.add_le_add_right hlag away)
  have hbuster : (m.snapshot serde).buster = s.options.buster := by
    rw [snapshot, h.options m hm]
  have htimestamp : (m.snapshot serde).timestampMs = unixNowMs m.wall := rfl
  simp [PersistQueryClientOptions.valid, PersistQueryClientOptions.expired, hbuster, htimestamp,
    hpositive, hfresh]

end Saver

/-- The string is cached under the key. -/
def QueryClient.HoldsString (c : QueryClient V) (k str : String) : Prop :=
  ∃ e, c.cache.lookup k = some e ∧ e.data = ofString str ∧ e.typeId = typeOf e.data

omit [StringAny V] in
theorem Trip.received_data (t : Trip) (e : CacheEntry V) :
  (t.received e).data = e.data
  := by
  rw [received]

omit [StringAny V] in
theorem Trip.received_typeId (t : Trip) (e : CacheEntry V) :
  (t.received e).typeId = e.typeId
  := by
  rw [received]

/-- An empty client that is hydrated has the strings that were dehydrated. -/
theorem QueryClient.HoldsString.restored
    {serde : Option SerdeJson} {client fresh : QueryClient V} {t : Trip} {k str : String}
    (h : client.HoldsString k str) (hserde : ∀ json ∈ serde, json.RoundTrips)
    (hempty : fresh.cache = ∅) (hdefaults : fresh.defaultOptions = none) :
  (fresh.hydrate serde t.arrival (client.dehydrate serde t.wall t.departure) {}).HoldsString k str
  := by
  obtain ⟨e, he, hdata, htype⟩ := h
  have hlookup := hydrate_dehydrate_lookup (t := t) hserde hempty hdefaults he ⟨str, hdata, htype⟩
  use t.received e, hlookup
  rw [Trip.received_data, Trip.received_typeId]
  use hdata

/-- An empty client is to be restored from what is stored. -/
structure Restoring.Starts (stored : Option PersistedClient) (r : Restoring V) : Prop where
  stored : r.persister.stored = stored
  reads : r.persister.fails r.persister.calls = none
  cache : r.client.cache = ∅
  defaults : r.client.defaultOptions = none

namespace Saver

variable {serde : Option SerdeJson} {start : Instant} {slack : Duration}

/-- Whenever a program ends whose loop was prompt, what was cached throughout the last
interval and the delays is cached again after a restore that is not too late. -/
theorem durable_of_run {t : Saver V × List (Saver V)} {k str : String}
    {wall : SystemTime} {now : Instant} {away : Duration} {r : Restoring V}
    (h : (recording serde start).Run (fun t => t.1.Prompt slack) t)
    (hserde : ∀ json ∈ serde, json.RoundTrips) (hlate : start + lag slack < t.1.now)
    (hheld : ∀ m ∈ t.2, t.1.now ≤ m.now + lag slack → m.client.HoldsString k str)
    (hwall : Duration.fromMillis 1 + lag slack ≤ t.1.wall) (haway : wall ≤ t.1.wall + away)
    (hage : away + lag slack + Duration.fromMillis 1 ≤ t.1.options.maxAge)
    (hr : r.Starts t.1.stored) :
  ∃ r', Restoring.persistQueryClientRestore serde t.1.options wall now r = (.ok (), r') ∧
    r'.client.HoldsString k str
  := by
  have htimely := timely_of_run h
  obtain ⟨m, hm, hstored, hrecent⟩ := htimely.recent hlate
  have hvalid := htimely.valid hm hrecent hwall haway hage
  have hholds := (hheld m hm hrecent).restored (t := ⟨m.wall, m.now, 0, now⟩) hserde hr.cache
    hr.defaults
  exact ⟨_, Restoring.restore_of_valid hr.reads (hr.stored.trans hstored) hvalid, hholds⟩

instance (slack : Duration) (s : Saver V) (a : Action V) : Decidable (s.Prompt slack a) := by
  unfold Prompt
  rcases a with _ | _ | _ | _ | _ | _ | _ <;> infer_instance

/-- The user who was cached before the save, and invalidated after it, is restored an hour
after the program ended. -/
theorem durable_of_run_ada :
  ∃ (t : Saver (String ⊕ Nat) × List (Saver (String ⊕ Nat))) (r' : Restoring (String ⊕ Nat)),
    (recording none 0).Run (fun t => t.1.Prompt (Duration.fromMillis 10)) t ∧
      Restoring.persistQueryClientRestore none t.1.options (Duration.fromSecs 1700003601) 0
        ⟨.new, ⟨t.1.stored, fun _ => none, 0⟩, []⟩ = (.ok (), r') ∧
      r'.client.HoldsString "user" "ada"
  := by
  have init : (recording none 0).init (spawned, []) := ⟨spawned_starts, rfl⟩
  have meets : (recording none 0).Meets (fun t => t.1.Prompt (Duration.fromMillis 10))
      (spawned, []) (saves ++ [.call (.invalidateQueries (.new "user")), .advance,
        .pass (Duration.fromMillis 500)]) := by
    decide +kernel
  let seen (t : Saver (String ⊕ Nat) × List (Saver (String ⊕ Nat))) :=
    ((t.1.now, t.1.wall, t.1.options.maxAge),
      t.2.map fun m => (m.client.cache.lookup "user").map fun e => (e.data, e.typeId))
  obtain ⟨t, ht, hseen⟩ := Machine.exists_run_of_exec _ seen
    ((Duration.fromMillis 1500, Duration.fromMillis 1700000001500,
        Duration.fromSecs (24 * 60 * 60)),
      List.replicate 10 (some (.inl "ada", 0))) init meets rfl
  simp only [seen, Prod.mk.injEq] at hseen
  obtain ⟨⟨hnow, hwall, hmaxAge⟩, hheld⟩ := hseen
  have hholds : ∀ m ∈ t.2, m.client.HoldsString "user" "ada" := by
    intro m hm
    have hseen := List.mem_map_of_mem hm (f := fun m : Saver (String ⊕ Nat) =>
      (m.client.cache.lookup "user").map fun e => (e.data, e.typeId))
    rw [hheld] at hseen
    obtain ⟨e, he, hdata⟩ := Option.map_eq_some_iff.mp (List.eq_of_mem_replicate hseen)
    obtain ⟨hdata, htype⟩ := Prod.mk.inj hdata
    exact ⟨e, he, hdata, by rw [hdata, htype]; rfl⟩
  have haway : Duration.fromSecs 1700003601 ≤ t.1.wall + Duration.fromSecs 3600 := by
    rw [hwall]
    decide
  have hage : Duration.fromSecs 3600 + lag (Duration.fromMillis 10) + Duration.fromMillis 1
      ≤ t.1.options.maxAge := by
    rw [hmaxAge]
    decide
  have hr : Restoring.Starts t.1.stored
      (⟨.new, ⟨t.1.stored, fun _ => none, 0⟩, []⟩ : Restoring (String ⊕ Nat)) :=
    ⟨rfl, rfl, rfl, rfl⟩
  obtain ⟨r', hr'⟩ := durable_of_run ht nofun (by rw [hnow]; decide) (fun m hm _ => hholds m hm)
    (by rw [hwall]; decide) haway hage hr
  exact ⟨t, r', ht, hr'⟩

end Saver

end RsQuery
