import RsQuery.Runs

/-!
# Retries and connectivity

After a failed attempt an execution checks connectivity, and waits for it if need be; then
it sleeps, and starts the next attempt without checking again.  In a run every retry starts
connected exactly when no connectivity is lost between the check it has passed and its start:
`Sys.retriesConnected_iff`.
-/

namespace RsQuery

variable {V : Type} [PartialEqAny V]

/-- An update of the connectivity, or the check after attempt `n` of execution `i`, which lets
it retry. -/
inductive ConnectivityEvent where
  | setOnline (online : Bool)
  | passed (i n : Nat)
deriving DecidableEq, Repr

/-- The last update lost connectivity, after execution `i` had passed the check that follows
its attempt `n`. -/
def LostSince (log : List ConnectivityEvent) (i n : Nat) : Prop :=
  ∃ l₁ l₂, log = l₁ ++ .setOnline false :: l₂ ∧ .passed i n ∈ l₁ ∧ ∀ online, .setOnline online ∉ l₂

theorem lostSince_concat {log : List ConnectivityEvent} {i n : Nat} (h : .passed i n ∈ log) :
  LostSince (log ++ [.setOnline false]) i n
  := ⟨log, [], rfl, h, fun _ => List.not_mem_nil⟩

/-- Connectivity that was lost is lost until it is updated. -/
theorem LostSince.append
    {log l : List ConnectivityEvent} {i n : Nat} (h : LostSince log i n)
    (honline : ∀ online, .setOnline online ∉ l) :
  LostSince (log ++ l) i n
  := by
  obtain ⟨l₁, l₂, rfl, hpassed, hl₂⟩ := h
  use l₁, l₂ ++ l
  simp only [List.append_assoc, List.cons_append, List.mem_append, not_or]
  exact ⟨trivial, hpassed, fun online => ⟨hl₂ online, honline online⟩⟩

/-! ### Checks of an execution -/

/-- The failed attempt whose check is behind, until the next attempt is under way. -/
def Pc.retries : Pc V → Option Nat
  | .fetch (.waited n) | .fetch (.sleeping n) => some n
  | .fetch (.attempt (n + 1)) | .fetch (.call (n + 1)) => some n
  | _ => none

/-- The attempt that checks its token next. -/
def Pc.called : Pc V → Option Nat
  | .fetch (.call n) => some n
  | _ => none

omit [PartialEqAny V] in
theorem Pc.called_eq_some_iff {pc : Pc V} {n : Nat} :
  pc.called = some n ↔ pc = .fetch (.call n)
  := by
  unfold Pc.called
  split
  · simp
  · next h => simpa using h n

namespace Run

variable {r : Run V} {i : Nat} {now : Instant} {c c' : QueryClient V} {o : Outcome V} {pc : Pc V}

/-- Connectivity allows a retry. -/
def connected (r : Run V) (c : QueryClient V) : Bool :=
  canRetry r.query.options.networkMode c.online.isOnline

/-- The failed attempt after which the execution checks connectivity now, and is let on. -/
def passes (r : Run V) (c : QueryClient V) (cancelled : Bool) : Option Nat :=
  match r.pc with
  | .fetch (.failed n error) =>
    if !error.isCancelled && r.shouldRetry error n && r.connected c then some n else none
  | .fetch (.waiting n) => if !cancelled && r.connected c then some n else none
  | _ => none

/-- A check is passed only while connected. -/
theorem connected_of_passes {cancelled : Bool} {n : Nat} (h : r.passes c cancelled = some n) :
  r.connected c = true
  := by
  unfold passes at h
  split at h
  · split at h
    · next hpasses => exact (Bool.and_eq_true_iff.mp hpasses).2
    · contradiction
  · split at h
    · next hpasses => exact (Bool.and_eq_true_iff.mp hpasses).2
    · contradiction
  · contradiction

theorem retries_resume {n : Nat} (h : (r.resume i c pc).2.retries = some n) :
  pc.retries = some n
  := by
  unfold resume at h
  split at h
  · contradiction
  · apply h

theorem retries_panicked (r : Run V) (payload : PanicPayload) :
  (r.panicked payload).retries = none
  := by
  unfold panicked
  split
  · rfl
  · rfl

/-- An execution comes to a retry by passing the check of connectivity, or cancelled. -/
theorem retries_advanceFetch
    {cancelled : Bool} {f : FetchPc V} {n : Nat} (hr : r.pc = .fetch f)
    (h : r.advanceFetch i now c cancelled f o = some (c', pc)) (hpc : pc.retries = some n) :
  (Pc.fetch f).retries = some n ∨ cancelled = true ∨
    (o = .next ∧ r.passes c cancelled = some n)
  := by
  have resumed {f' : FetchPc V} (h : r.resume i c (.fetch f') = (c', pc)) :
      (Pc.fetch f').retries = some n := by
    apply retries_resume (r := r) (i := i) (c := c)
    rw [h]
    apply hpc
  cases takes_of_advanceFetch h with
  | backOff herror hretry honline =>
    obtain rfl := Option.some.inj hpc
    right
    right
    simp [passes, hr, herror, hretry, connected, honline]
  | waited hwaited =>
    obtain rfl := Option.some.inj hpc
    right
    cases cancelled with
    | true => exact .inl rfl
    | false =>
      right
      simpa [passes, hr, connected] using hwaited
  | backOffOnline => exact .inl hpc
  | resumeSleep h =>
    have h := resumed h
    exact .inl h
  | @attempt n' =>
    left
    cases n' with
    | zero => contradiction
    | succ n' => apply hpc
  | resumeFetch h | resumeWait h =>
    have h := resumed h
    contradiction
  | panic | selectPanic | gone =>
    rw [retries_panicked] at hpc
    contradiction
  | _ => contradiction

theorem retries_advance {n : Nat}
    (h : r.advance i now c o = some (c', pc)) (hpc : pc.retries = some n) :
  r.pc.retries = some n ∨ i ∈ c.signals.cancelled ∨
    (o = .next ∧ r.passes c (decide (i ∈ c.signals.cancelled)) = some n)
  := by
  cases takes_of_advance h with
  | poll hr h =>
    have h' : (r.resume i c .start).2.retries = some n := by
      rw [h]
      apply hpc
    have h' := retries_resume h'
    contradiction
  | @wait w _ _ hr h =>
    obtain ⟨w', hw⟩ | ⟨R, hR⟩ := r.advanceWait_ends i now c w
    · rw [h] at hw
      obtain rfl := hw
      contradiction
    · rw [h] at hR
      obtain rfl := hR
      contradiction
  | fetch hr h =>
    rw [hr]
    simpa using retries_advanceFetch hr h hpc
  | _ => contradiction

end Run

namespace Sys

variable {s s' : Sys V} {a : Action V} {i j : Nat} {r : Run V}

/-! ### Runs and what they note -/

/-- What a step does to connectivity, or which check it is. -/
def connectivity (s : Sys V) (a : Action V) : List ConnectivityEvent :=
  match a with
  | .call (.setOnline online) => [.setOnline online]
  | .advance i .next =>
    match s.runs.lookup i with
    | some r =>
      match r.passes s.client (decide (i ∈ s.client.signals.cancelled)) with
      | some n => [.passed i n]
      | none => []
    | none => []
  | _ => []

/-- The system with a log of what happens to connectivity. -/
def watched : Machine (Sys V × List ConnectivityEvent) (Action V) :=
  machine.noting fun s a _ => s.connectivity a

/-- The step is the start of the attempt of execution `i` that follows attempt `n`. -/
def StartsRetry (s : Sys V) (a : Action V) (i n : Nat) (r : Run V) : Prop :=
  a = .advance i .next ∧ s.runs.lookup i = some r ∧ i ∉ s.client.signals.cancelled ∧
    r.pc = .fetch (.call (n + 1))

/-- A retry starts when connectivity allows it. -/
def RetriesConnected (s : Sys V × List ConnectivityEvent) (a : Action V) : Prop :=
  ∀ i n r, StartsRetry s.1 a i n r → r.connected s.1.client = true

/-- A retry that depends on connectivity starts when none was lost since the check that let
it on. -/
def StaysConnected (s : Sys V × List ConnectivityEvent) (a : Action V) : Prop :=
  ∀ i n r, StartsRetry s.1 a i n r →
    r.query.options.networkMode = .always ∨ ¬ LostSince s.2 i n

theorem setOnline_mem_connectivity {online : Bool} (h : .setOnline online ∈ s.connectivity a) :
  a = .call (.setOnline online)
  := by
  unfold connectivity at h
  split at h
  · obtain rfl : online = _ := by simpa using h
    rfl
  · split at h
    · split at h
      · simp at h
      · contradiction
    · contradiction
  · contradiction

/-- A step that is no update of the connectivity notes none, and leaves it as it is. -/
theorem online_of_step (hs : s.step a = some s') :
  (∃ online, a = .call (.setOnline online) ∧ s'.client.online.isOnline = online) ∨
    ((∀ online, .setOnline online ∉ s.connectivity a) ∧ s'.client.online = s.client.online)
  := by
  by_cases ha : ∃ online, a = .call (.setOnline online)
  · obtain ⟨online, rfl⟩ := ha
    left
    obtain rfl := Option.some.inj hs
    exact ⟨online, rfl, s.client.online.isOnline_setOnline online⟩
  · right
    constructor
    · intro online h
      apply ha ⟨online, setOnline_mem_connectivity h⟩
    · apply online_step hs
      intro online ha'
      apply ha ⟨online, ha'⟩

/-- Execution `i` is cancelled, or it has passed the check after its attempt `n` and is
connected, unless connectivity was lost since. -/
def Passed (s : Sys V × List ConnectivityEvent) (i n : Nat) (r : Run V) : Prop :=
  i ∈ s.1.client.signals.cancelled ∨
    (.passed i n ∈ s.2 ∧ (r.connected s.1.client = true ∨ LostSince s.2 i n))

/-- What a check let through stays let through. -/
theorem Passed.step
    {log : List ConnectivityEvent} {n : Nat} {r' : Run V} (h : Passed (s, log) i n r)
    (hs : s.step a = some s') (hquery : r'.query = r.query) :
  Passed (s', log ++ s.connectivity a) i n r'
  := by
  rcases h with h | ⟨hpassed, h⟩
  · left
    apply cancelled_step hs h
  · right
    use List.mem_append_left _ hpassed
    rcases online_of_step hs with ⟨online, rfl, honline⟩ | ⟨hnone, honline⟩
    · cases online with
      | true =>
        left
        rw [Run.connected, honline]
        apply canRetry_online
      | false =>
        right
        apply lostSince_concat hpassed
    · rw [Run.connected, hquery, honline]
      apply h.imp_right
      exact fun hlost => hlost.append hnone

/-- A check that is passed now lets the execution through. -/
theorem passed_of_passes
    {log : List ConnectivityEvent} {n : Nat} {r' : Run V} (hr : s.runs.lookup i = some r)
    (hpasses : r.passes s.client (decide (i ∈ s.client.signals.cancelled)) = some n)
    (hs : s.step (.advance i .next) = some s') (hquery : r'.query = r.query) :
  Passed (s', log ++ s.connectivity (.advance i .next)) i n r'
  := by
  right
  constructor
  · apply List.mem_append_right
    simp [connectivity, hr, hpasses]
  · left
    rw [Run.connected, hquery, online_step hs nofun]
    apply Run.connected_of_passes hpasses

/-- The connectivity is the one of the last update, and an execution that is past its check
was let through. -/
structure Connected (s : Sys V × List ConnectivityEvent) : Prop where
  online : ∀ l₁ l₂ online, s.2 = l₁ ++ .setOnline online :: l₂ →
    (∀ online, .setOnline online ∉ l₂) → s.1.client.online.isOnline = online
  passed : ∀ i n r, s.1.runs.lookup i = some r → r.pc.retries = some n → Passed s i n r

theorem Connected.step
    {log : List ConnectivityEvent} (hc : Connected (s, log)) (hs : s.step a = some s') :
  Connected (s', log ++ s.connectivity a)
  := by
  constructor
  · intro l₁ l₂ online hlog hl₂
    rcases online_of_step hs with ⟨online', rfl, honline⟩ | ⟨hnone, honline⟩
    · rcases Machine.concat_eq_append_cons hlog with ⟨l, -, rfl⟩ | ⟨he, -, -⟩
      · exact absurd (List.mem_append_right l List.mem_cons_self) (hl₂ online')
      · obtain rfl : online' = online := by simpa using he
        apply honline
    · obtain ⟨l, hlog', rfl⟩ := Machine.append_eq_append_cons hlog (hnone online)
      rw [honline]
      apply hc.online l₁ l online hlog'
      intro online' h
      apply hl₂ online' (List.mem_append_left _ h)
  · intro j n r' hr' hpc
    cases origin_of_step hs hr' with
    | new _ hnew =>
      rcases hnew with h | h | h
      all_goals
        rw [h] at hpc
        contradiction
    | dropped h =>
      rw [h] at hpc
      contradiction
    | @stood r hr hquery _ hstood =>
      rw [hstood] at hpc
      apply (hc.passed j n r hr hpc).step hs hquery
    | @advanced r o hr hquery _ ha hadvance =>
      subst ha
      rcases Run.retries_advance hadvance hpc with hretries | h | ⟨rfl, hpasses⟩
      · apply (hc.passed j n r hr hretries).step hs hquery
      · left
        apply cancelled_step hs h
      · apply passed_of_passes hr hpasses hs hquery

theorem connected_of_reachable
    {s : Sys V × List ConnectivityEvent} (h : watched.Reachable s) :
  Connected s
  := by
  apply h.invariant
  · rintro ⟨s, log⟩ ⟨rfl, rfl⟩
    constructor
    · intro l₁ l₂ online hlog
      simp at hlog
    · intro i n r hr
      contradiction
  · rintro ⟨s, log⟩ a ⟨s', log'⟩ - ih - hs
    obtain ⟨hstep, hlog⟩ := Machine.step_noting hs
    obtain rfl : log' = log ++ s.connectivity a := hlog
    apply ih.step hstep

/-- A retry starts connected exactly when it does not depend on connectivity or none was
lost since its check. -/
theorem Connected.staysConnected_iff
    {s : Sys V × List ConnectivityEvent} (h : Connected s) :
  RetriesConnected s a ↔ StaysConnected s a
  := by
  unfold RetriesConnected StaysConnected
  apply forall₃_congr
  intro i n r
  apply imp_congr_right
  rintro ⟨-, hr, hcancelled, hpc⟩
  rw [Run.connected, canRetry_eq_true_iff]
  constructor
  · rintro (hmode | honline)
    · left
      apply hmode
    · right
      rintro ⟨l₁, l₂, hlog, -, hl₂⟩
      rw [h.online l₁ l₂ false hlog hl₂] at honline
      contradiction
  · rintro (hmode | hlost)
    · left
      apply hmode
    · have hretries : r.pc.retries = some n := by
        rw [hpc]
        rfl
      rcases h.passed i n r hr hretries with hc | ⟨-, hconnected | hlost'⟩
      · contradiction
      · apply canRetry_eq_true_iff.mp hconnected
      · contradiction

/-- In a run every second or later attempt starts connected exactly when no connectivity is
lost between the check that let the execution on and the start. -/
theorem retriesConnected_iff (as : List (Action V)) :
  watched.Meets RetriesConnected (initial, []) as ↔
    watched.Meets StaysConnected (initial, []) as
  := by
  have init : (watched : Machine _ (Action V)).init (initial, []) := ⟨rfl, rfl⟩
  apply Machine.Reachable.meets_congr (.init init)
  intro s a hs
  apply (connected_of_reachable hs).staysConnected_iff

/-- Connectivity that is lost during the backoff does not hold up the retry. -/
theorem not_retriesConnected_backoff :
  ∃ s : Sys (String ⊕ Nat) × List ConnectivityEvent, watched.Reachable s ∧
    ∃ r, StartsRetry s.1 (.advance 0 .next) 0 0 r ∧
      r.query.options.networkMode = .online ∧ s.1.client.online.isOnline = false
  := by
  have init : (watched : Machine _ (Action (String ⊕ Nat))).init (initial, []) := ⟨rfl, rfl⟩
  obtain ⟨s, hs, hseen⟩ := Machine.exists_reachable_of_exec
    [.execute { queryK with options := {} }, .advance 0 .next, .advance 0 .next, .advance 0 .next,
      .advance 0 .next, .advance 0 .next, .advance 0 .next,
      .advance 0 (.ready (.error (.network "refused"))), .advance 0 .next,
      .call (.setOnline false), .advance 0 .next, .advance 0 .next]
    (fun s : Sys (String ⊕ Nat) × List ConnectivityEvent =>
      (s.1.client.online.isOnline, decide (0 ∈ s.1.client.signals.cancelled),
        (s.1.runs.lookup 0).map fun r => (r.query.options.networkMode, r.pc.called)))
    (false, false, some (.online, some 1)) init (by decide +kernel)
  simp only [Prod.mk.injEq] at hseen
  obtain ⟨honline, hcancelled, hseen⟩ := hseen
  obtain ⟨r, hr, hseen⟩ := Option.map_eq_some_iff.mp hseen
  obtain ⟨hmode, hcalled⟩ := Prod.mk.inj hseen
  have hpc : r.pc = .fetch (.call 1) := Pc.called_eq_some_iff.mp hcalled
  exact ⟨s, hs, r, ⟨rfl, hr, of_decide_eq_false hcancelled, hpc⟩, hmode, honline⟩

end Sys

end RsQuery
