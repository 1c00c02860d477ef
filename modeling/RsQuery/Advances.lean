import RsQuery.Calls

/-!
# What an execution does as it advances

An advance of an execution is one access to the client.  What it can be is said once, by
relations that have a rule for each of its branches, and the facts about advances are
derived from these by cases.
-/

namespace RsQuery

variable {V : Type} [PartialEqAny V]

open QueryClient

namespace Run

variable {r : Run V} {i : Nat} {now : Instant} {c c' : QueryClient V} {o : Outcome V} {pc : Pc V}
  {cancelled : Bool} {f : FetchPc V}

/-! ### Steps of a fetch -/

/-- What a step of a fetch can be: the client and the program point it leads to. -/
inductive FetchTakes (r : Run V) (i : Nat) (now : Instant) (c : QueryClient V)
    (cancelled : Bool) : FetchPc V → Outcome V → QueryClient V → Pc V → Prop where
  | loading :
      FetchTakes r i now c cancelled .loading .next
        (c.notifySubscribers r.query.key.cacheKey .loading) (.fetch .gate)
  | online :
      canFetch r.query.options.networkMode c.online.isOnline = true →
      FetchTakes r i now c cancelled .gate .next c (.fetch (.attempt 0))
  | paused :
      canFetch r.query.options.networkMode c.online.isOnline = false →
      FetchTakes r i now c cancelled .gate .next c (.fetch (.failing .paused))
  | attempt {n : Nat} : cancelled = false →
      FetchTakes r i now c cancelled (.attempt n) .next c (.fetch (.call n))
  | noAttempt {n : Nat} : cancelled = true →
      FetchTakes r i now c cancelled (.attempt n) .next c
        (.fetch (.failing (.cancelled false false)))
  | call {n : Nat} : cancelled = false →
      FetchTakes r i now c cancelled (.call n) .next c (.fetch (.fetching n))
  | noCall {n : Nat} : cancelled = true →
      FetchTakes r i now c cancelled (.call n) .next c
        (.fetch (.failed n (.cancelled false false)))
  | suspend {n : Nat} :
      FetchTakes r i now c cancelled (.fetching n) .pending c (.fetch (.fetchPending n))
  | data {n : Nat} {data : V} : typeOf data = r.query.typeId →
      FetchTakes r i now c cancelled (.fetching n) (.ready (.ok data)) c (.fetch (.fetched data))
  | error {n : Nat} {error : QueryError} :
      FetchTakes r i now c cancelled (.fetching n) (.ready (.error error)) c
        (.fetch (.failed n error))
  | cancel {n : Nat} : cancelled = true →
      FetchTakes r i now c cancelled (.fetching n) .cancelled c
        (.fetch (.failed n (.cancelled false false)))
  | panic {n : Nat} {payload : PanicPayload} :
      FetchTakes r i now c cancelled (.fetching n) (.panic payload) c (r.panicked payload)
  | resumeFetch {n : Nat} {c' : QueryClient V} {pc : Pc V} :
      r.resume i c (.fetch (.fetching n)) = (c', pc) →
      FetchTakes r i now c cancelled (.fetchPending n) .next c' pc
  | noSelect {data : V} : r.query.select = none →
      FetchTakes r i now c cancelled (.fetched data) .next c (.fetch (.selected data))
  | select {data : V} {select : V → V} : r.query.select = some select →
      FetchTakes r i now c cancelled (.fetched data) .next c (.fetch (.selected (select data)))
  | selectPanic {data : V} {payload : PanicPayload} : r.query.select.isSome = true →
      FetchTakes r i now c cancelled (.fetched data) (.panic payload) c (r.panicked payload)
  | store {data : V} :
      FetchTakes r i now c cancelled (.selected data) .next
        (c.storeQueryData now r.query.key data r.query.options) (.fetch .stored)
  | stored :
      FetchTakes r i now c cancelled .stored .next
        (c.notifySubscribers r.query.key.cacheKey .success) (.fetch .readBack)
  | readBack {data : V} : r.cached c = some data →
      FetchTakes r i now c cancelled .readBack .next c (.finish (.success data))
  | gone : r.cached c = none →
      FetchTakes r i now c cancelled .readBack .next c (r.panicked (.string "data should be set"))
  | failedCancelled {n : Nat} {error : QueryError} : error.isCancelled = true →
      FetchTakes r i now c cancelled (.failed n error) .next c
        (.fetch (.failing (.cancelled false false)))
  | backOff {n : Nat} {error : QueryError} : error.isCancelled = false →
      r.shouldRetry error n = true →
      canRetry r.query.options.networkMode c.online.isOnline = true →
      FetchTakes r i now c cancelled (.failed n error) .next c (.fetch (.sleeping n))
  | waitForOnline {n : Nat} {error : QueryError} : error.isCancelled = false →
      r.shouldRetry error n = true →
      canRetry r.query.options.networkMode c.online.isOnline = false →
      FetchTakes r i now c cancelled (.failed n error) .next c (.fetch (.waiting n))
  | giveUp {n : Nat} {error : QueryError} : error.isCancelled = false →
      r.shouldRetry error n = false →
      FetchTakes r i now c cancelled (.failed n error) .next c (.fetch (.notifyError error))
  | waited {n : Nat} :
      (cancelled || canRetry r.query.options.networkMode c.online.isOnline) = true →
      FetchTakes r i now c cancelled (.waiting n) .next c (.fetch (.waited n))
  | goOnWaiting {n : Nat} :
      (cancelled || canRetry r.query.options.networkMode c.online.isOnline) = false →
      FetchTakes r i now c cancelled (.waiting n) .next c (.fetch (.waitPending n))
  | resumeWait {n : Nat} {c' : QueryClient V} {pc : Pc V} :
      r.resume i c (.fetch (.waiting n)) = (c', pc) →
      FetchTakes r i now c cancelled (.waitPending n) .next c' pc
  | backOffOnline {n : Nat} : cancelled = false →
      FetchTakes r i now c cancelled (.waited n) .next c (.fetch (.sleeping n))
  | waitCancelled {n : Nat} : cancelled = true →
      FetchTakes r i now c cancelled (.waited n) .next c
        (.fetch (.failing (.cancelled false false)))
  | resumeSleep {n : Nat} {c' : QueryClient V} {pc : Pc V} :
      r.resume i c (.fetch (.attempt (n + 1))) = (c', pc) →
      FetchTakes r i now c cancelled (.sleeping n) .next c' pc
  | notifyError {error : QueryError} :
      FetchTakes r i now c cancelled (.notifyError error) .next
        (c.notifySubscribers r.query.key.cacheKey .error) (.fetch (.failing error))
  | fail {error : QueryError} :
      FetchTakes r i now c cancelled (.failing error) .next c
        (.finish (.error error (r.cached c)))

theorem takes_of_advanceFetch (h : r.advanceFetch i now c cancelled f o = some (c', pc)) :
  r.FetchTakes i now c cancelled f o c' pc
  := by
  unfold advanceFetch at h
  split at h
  all_goals repeat' split at h
  all_goals try contradiction
  -- a branch is a rule, and what was tested on the way is its premises
  all_goals
    first
    | obtain ⟨rfl, rfl⟩ := Prod.mk.inj (Option.some.inj h)
      constructor
      all_goals first
        | assumption
        | exact Bool.of_not_eq_true ‹_›
    | constructor
      apply Option.some.inj h

/-- What an advance can be: the client and the program point it leads to. -/
inductive Takes (r : Run V) (i : Nat) (now : Instant) (c : QueryClient V) :
    Outcome V → QueryClient V → Pc V → Prop where
  | poll {c' : QueryClient V} {pc : Pc V} : r.pc = .queued →
      r.resume i c .start = (c', pc) → Takes r i now c .next c' pc
  | restoring : r.pc = .start → c.isRestoring = true →
      Takes r i now c .next c (.finish .idle)
  | task : r.pc = .start → c.isRestoring = false → r.spawned = true →
      Takes r i now c .next c (.fetch .loading)
  | direct : r.pc = .start → c.isRestoring = false → r.spawned = false →
      Takes r i now c .next c .dedup
  | join : r.pc = .dedup → c.isInFlight r.query.key = true →
      Takes r i now c .next c (.waitForDedup .subscribe)
  | alone : r.pc = .dedup → c.isInFlight r.query.key = false →
      Takes r i now c .next c (.fetch .loading)
  | wait {w : WaitPc V} {c' : QueryClient V} {pc : Pc V} : r.pc = .waitForDedup w →
      r.advanceWait i now c w = (c', pc) → Takes r i now c .next c' pc
  | fetch {f : FetchPc V} {o : Outcome V} {c' : QueryClient V} {pc : Pc V} : r.pc = .fetch f →
      r.advanceFetch i now c (decide (i ∈ c.signals.cancelled)) f o = some (c', pc) →
      Takes r i now c o c' pc
  | deregister {result : QueryState V} : r.pc = .finish result → r.spawned = true →
      Takes r i now c .next (c.clearInFlight r.query.key) (.reply result)
  | finish {result : QueryState V} : r.pc = .finish result → r.spawned = false →
      Takes r i now c .next c (.done result)
  | reply {result : QueryState V} : r.pc = .reply result →
      Takes r i now c .next c.decFetching (.done result)

theorem takes_of_advance (h : r.advance i now c o = some (c', pc)) :
  r.Takes i now c o c' pc
  := by
  unfold advance at h
  split at h
  next hr => exact .poll hr (Option.some.inj h)
  next hr =>
    split at h
    · next hrestoring =>
      cases h
      exact .restoring hr hrestoring
    · next hrestoring =>
      have hrestoring := Bool.of_not_eq_true hrestoring
      split at h
      · next hs =>
        cases h
        exact .task hr hrestoring hs
      · next hs =>
        cases h
        exact .direct hr hrestoring (Bool.of_not_eq_true hs)
  next hr =>
    split at h
    · next hin =>
      cases h
      exact .join hr hin
    · next hin =>
      cases h
      exact .alone hr (Bool.of_not_eq_true hin)
  next hr => exact .wait hr (Option.some.inj h)
  next hr => exact .fetch hr h
  next hr =>
    split at h
    · next hs =>
      cases h
      exact .deregister hr hs
    · next hs =>
      cases h
      exact .finish hr (Bool.of_not_eq_true hs)
  next hr =>
    cases h
    exact .reply hr
  next => contradiction

/-! ### Steps in `wait_for_dedup` -/

/-- A step in `wait_for_dedup` changes the channels only. -/
theorem advanceWait_client (r : Run V) (i : Nat) (now : Instant) (c : QueryClient V)
    (w : WaitPc V) :
  ∃ subscribers, (r.advanceWait i now c w).1 = { c with subscribers := subscribers }
  := by
  cases w with
  | subscribe => exact ⟨_, rfl⟩
  | recheck rx =>
    simp only [advanceWait]
    cases r.cached c with
    | none => exact ⟨_, rfl⟩
    | some data => exact ⟨_, rfl⟩
  | judge rx data => exact ⟨_, rfl⟩
  | receive rx =>
    simp only [advanceWait, recvPoll]
    split
    · exact ⟨_, rfl⟩
    · split
      all_goals exact ⟨_, rfl⟩
  | parked rx => exact ⟨_, rfl⟩
  | received rx variant =>
    simp only [advanceWait]
    split
    all_goals exact ⟨_, rfl⟩

/-- A step in `wait_for_dedup` stays there or ends with a result. -/
theorem advanceWait_ends (r : Run V) (i : Nat) (now : Instant) (c : QueryClient V)
    (w : WaitPc V) :
  (∃ w', (r.advanceWait i now c w).2 = .waitForDedup w') ∨
    ∃ result, (r.advanceWait i now c w).2 = .finish result
  := by
  cases w with
  | subscribe => exact .inl ⟨_, rfl⟩
  | recheck rx =>
    simp only [advanceWait]
    cases r.cached c with
    | none => exact .inl ⟨_, rfl⟩
    | some data => exact .inl ⟨_, rfl⟩
  | judge rx data => exact .inr ⟨_, rfl⟩
  | receive rx =>
    simp only [advanceWait, recvPoll]
    split
    · exact .inr ⟨_, rfl⟩
    · split
      · exact .inl ⟨_, rfl⟩
      · exact .inl ⟨_, rfl⟩
      · exact .inr ⟨_, rfl⟩
  | parked rx => exact .inl ⟨_, rfl⟩
  | received rx variant =>
    simp only [advanceWait]
    split
    all_goals first
      | exact .inr ⟨_, rfl⟩
      | exact .inl ⟨_, rfl⟩

/-! ### What is registered afterwards -/

theorem frame_resume (r : Run V) (i : Nat) (c : QueryClient V) (pc : Pc V) :
  Frame c (r.resume i c pc).1
  := by
  unfold resume
  split
  · exact ⟨rfl, rfl, rfl⟩
  · exact ⟨rfl, rfl, rfl⟩

theorem frame_advanceWait (r : Run V) (i : Nat) (now : Instant) (c : QueryClient V)
    (w : WaitPc V) :
  Frame c (r.advanceWait i now c w).1
  := by
  obtain ⟨subscribers, hc⟩ := r.advanceWait_client i now c w
  rw [hc]
  exact ⟨rfl, rfl, rfl⟩

/-- Where a step of a fetch ends: in the fetch, with a result, or dropped, a task only
because it was aborted. -/
def FetchEnds (r : Run V) (i : Nat) (c : QueryClient V) (pc : Pc V) : Prop :=
  (∃ f, pc = .fetch f) ∨ (∃ result, pc = .finish result) ∨
    (pc = .dropped ∧ (r.spawned = true → i ∈ c.signals.aborted))

theorem fetchEnds_panicked (r : Run V) (i : Nat) (c : QueryClient V) (payload : PanicPayload) :
  r.FetchEnds i c (r.panicked payload)
  := by
  unfold panicked
  split
  · exact .inl ⟨_, rfl⟩
  · next hs => exact .inr (.inr ⟨rfl, fun h => absurd h hs⟩)

theorem fetchEnds_resume (r : Run V) (i : Nat) (c : QueryClient V) (f : FetchPc V) :
  r.FetchEnds i c (r.resume i c (.fetch f)).2
  := by
  unfold resume
  split
  · next h => exact .inr (.inr ⟨rfl, fun _ => h.2⟩)
  · exact .inl ⟨_, rfl⟩

/-- A step of a fetch leaves registrations and signals as they are. -/
theorem advanceFetch_frame (h : r.advanceFetch i now c cancelled f o = some (c', pc)) :
  Frame c c' ∧ r.FetchEnds i c pc
  := by
  have resumed {f' : FetchPc V} (h : r.resume i c (.fetch f') = (c', pc)) :
      Frame c c' ∧ r.FetchEnds i c pc := by
    have hf := r.frame_resume i c (.fetch f')
    have he := r.fetchEnds_resume i c f'
    rw [h] at hf he
    exact ⟨hf, he⟩
  cases takes_of_advanceFetch h with
  | resumeFetch h | resumeWait h | resumeSleep h => apply resumed h
  | loading | stored | notifyError => exact ⟨frame_notifySubscribers _ _ _, .inl ⟨_, rfl⟩⟩
  | panic | selectPanic | gone => exact ⟨⟨rfl, rfl, rfl⟩, r.fetchEnds_panicked i c _⟩
  | readBack | fail => exact ⟨⟨rfl, rfl, rfl⟩, .inr (.inl ⟨_, rfl⟩)⟩
  | _ => exact ⟨⟨rfl, rfl, rfl⟩, .inl ⟨_, rfl⟩⟩

end Run

/-- The run is over: its task has deregistered, or its future was dropped. -/
def Pc.Over : Pc V → Prop
  | .reply _ | .done _ | .dropped => True
  | _ => False

instance (pc : Pc V) : Decidable pc.Over := by
  unfold Pc.Over
  split
  all_goals infer_instance

namespace Run

variable {r : Run V} {i : Nat} {now : Instant} {c c' : QueryClient V} {o : Outcome V} {pc : Pc V}

theorem over_resume (r : Run V) (i : Nat) (c : QueryClient V) (pc : Pc V) :
  (r.resume i c pc).2.Over → pc.Over ∨ i ∈ c.signals.aborted
  := by
  unfold resume
  split
  · next h => exact fun _ => .inr h.2
  · exact .inl

theorem FetchEnds.over (h : r.FetchEnds i c pc) (hs : r.spawned = true) (hover : pc.Over) :
  i ∈ c.signals.aborted
  := by
  obtain ⟨f, rfl⟩ | ⟨result, rfl⟩ | ⟨-, h⟩ := h
  · contradiction
  · contradiction
  · apply h hs

/-- An advance is the last one of a task, which removes the registration of its key, or
it leaves registrations and signals as they are and a task is over after it only if it
was before or is aborted. -/
theorem advance_cases (h : r.advance i now c o = some (c', pc)) :
  (∃ result, r.pc = .finish result ∧ r.spawned = true ∧ c' = c.clearInFlight r.query.key ∧
    pc = .reply result) ∨
  (Frame c c' ∧ (∀ result, r.pc = .finish result → r.spawned = false) ∧ (r.pc.Over → pc.Over) ∧
    (r.spawned = true → pc.Over → r.pc.Over ∨ i ∈ c.signals.aborted))
  := by
  cases takes_of_advance h with
  | deregister hr hs => exact .inl ⟨_, hr, hs, rfl, rfl⟩
  | poll hr h =>
    have hf := r.frame_resume i c .start
    have hstart := r.over_resume i c .start
    rw [h] at hf hstart
    right
    rw [hr]
    exact ⟨hf, nofun, nofun, fun _ hover => hstart hover⟩
  | @wait w _ _ hr h =>
    have hf := r.frame_advanceWait i now c w
    have hw := r.advanceWait_ends i now c w
    rw [h] at hf hw
    right
    rw [hr]
    refine ⟨hf, nofun, nofun, ?_⟩
    intro _ hover
    obtain ⟨w', rfl⟩ | ⟨result, rfl⟩ := hw
    · contradiction
    · contradiction
  | fetch hr h =>
    obtain ⟨hf, he⟩ := advanceFetch_frame h
    right
    rw [hr]
    exact ⟨hf, nofun, nofun, fun hs hover => .inr (he.over hs hover)⟩
  | finish hr hs =>
    right
    refine ⟨⟨rfl, rfl, rfl⟩, fun _ _ => hs, ?_, fun hs' => ?_⟩
    · rw [hr]
      exact nofun
    · rw [hs] at hs'
      contradiction
  | reply hr =>
    right
    rw [hr]
    exact ⟨⟨rfl, rfl, rfl⟩, nofun, id, fun _ h => .inl h⟩
  | restoring hr _ | task hr _ _ | direct hr _ _ | join hr _ | alone hr _ =>
    right
    rw [hr]
    exact ⟨⟨rfl, rfl, rfl⟩, nofun, nofun, nofun⟩

/-! ### What is cached afterwards -/

theorem cache_resume (r : Run V) (i : Nat) (c : QueryClient V) (pc : Pc V) :
  (r.resume i c pc).1.cache = c.cache
  := by
  unfold resume
  split
  · rfl
  · rfl

theorem cache_advanceWait (r : Run V) (i : Nat) (now : Instant) (c : QueryClient V)
    (w : WaitPc V) :
  (r.advanceWait i now c w).1.cache = c.cache
  := by
  obtain ⟨subscribers, hc⟩ := r.advanceWait_client i now c w
  rw [hc]

/-- A step of a fetch that does not store its data leaves the cache as it is. -/
theorem cache_advanceFetch
    {cancelled : Bool} {f : FetchPc V}
    (h : r.advanceFetch i now c cancelled f o = some (c', pc)) (hf : ∀ data, f ≠ .selected data) :
  c'.cache = c.cache
  := by
  have resumed {f' : FetchPc V} (h : r.resume i c (.fetch f') = (c', pc)) :
      c'.cache = c.cache := by
    have hc := r.cache_resume i c (.fetch f')
    rwa [h] at hc
  cases takes_of_advanceFetch h with
  | resumeFetch h | resumeWait h | resumeSleep h => apply resumed h
  | loading | stored | notifyError => apply (c.notifySubscribers_frame _ _).1
  | store => exact absurd rfl (hf _)
  | _ => rfl

/-- A step of an execution that does not store its data leaves the cache as it is. -/
theorem cache_advance
    (h : r.advance i now c o = some (c', pc)) (hpc : ∀ data, r.pc ≠ .fetch (.selected data)) :
  c'.cache = c.cache
  := by
  cases takes_of_advance h with
  | poll hr h =>
    have hc := r.cache_resume i c .start
    rwa [h] at hc
  | @wait w _ _ hr h =>
    have hc := r.cache_advanceWait i now c w
    rwa [h] at hc
  | fetch hr h =>
    apply cache_advanceFetch h
    rintro data rfl
    apply hpc data hr
  | _ => rfl

/-- A step of an execution stores its data, or leaves the cache as it is. -/
theorem advance_stores (h : r.advance i now c o = some (c', pc)) :
  (∃ data, r.pc = .fetch (.selected data) ∧
    c' = c.storeQueryData now r.query.key data r.query.options ∧ pc = .fetch .stored) ∨
  ((∀ data, r.pc ≠ .fetch (.selected data)) ∧ c'.cache = c.cache)
  := by
  by_cases hpc : ∃ data, r.pc = .fetch (.selected data)
  · left
    obtain ⟨data, hpc⟩ := hpc
    simp only [advance, hpc] at h
    cases takes_of_advanceFetch h
    exact ⟨data, hpc, rfl, rfl⟩
  · right
    have hne (data : V) : r.pc ≠ .fetch (.selected data) := fun hdata => hpc ⟨data, hdata⟩
    exact ⟨hne, cache_advance h hne⟩

/-- The restore flag, the connectivity and the default options are the same. -/
def SameSettings (c c' : QueryClient V) : Prop :=
  c'.isRestoring = c.isRestoring ∧ c'.online = c.online ∧ c'.defaultOptions = c.defaultOptions

theorem settings_resume (r : Run V) (i : Nat) (c : QueryClient V) (pc : Pc V) :
  SameSettings c (r.resume i c pc).1
  := by
  unfold resume
  split
  · exact ⟨rfl, rfl, rfl⟩
  · exact ⟨rfl, rfl, rfl⟩

omit [PartialEqAny V] in
theorem settings_notifySubscribers (c : QueryClient V) (k : String) (v : QueryStateVariant) :
  SameSettings c (c.notifySubscribers k v)
  := by
  obtain ⟨-, -, hrestoring, honline, hdefaults, -⟩ := c.notifySubscribers_frame k v
  exact ⟨hrestoring, honline, hdefaults⟩

theorem settings_advanceWait (r : Run V) (i : Nat) (now : Instant) (c : QueryClient V)
    (w : WaitPc V) :
  SameSettings c (r.advanceWait i now c w).1
  := by
  obtain ⟨subscribers, hc⟩ := r.advanceWait_client i now c w
  rw [hc]
  exact ⟨rfl, rfl, rfl⟩

/-- A step of a fetch leaves the settings of the client as they are. -/
theorem settings_advanceFetch
    {cancelled : Bool} {f : FetchPc V}
    (h : r.advanceFetch i now c cancelled f o = some (c', pc)) :
  SameSettings c c'
  := by
  have resumed {f' : FetchPc V} (h : r.resume i c (.fetch f') = (c', pc)) :
      SameSettings c c' := by
    have hc := r.settings_resume i c (.fetch f')
    rwa [h] at hc
  cases takes_of_advanceFetch h with
  | resumeFetch h | resumeWait h | resumeSleep h => apply resumed h
  | loading | stored | notifyError => apply settings_notifySubscribers
  | _ => exact ⟨rfl, rfl, rfl⟩

/-- A step of an execution leaves the settings of the client as they are. -/
theorem settings_advance (h : r.advance i now c o = some (c', pc)) :
  SameSettings c c'
  := by
  cases takes_of_advance h with
  | poll hr h =>
    have hc := r.settings_resume i c .start
    rwa [h] at hc
  | @wait w _ _ hr h =>
    have hc := r.settings_advanceWait i now c w
    rwa [h] at hc
  | fetch hr h => apply settings_advanceFetch h
  | _ => exact ⟨rfl, rfl, rfl⟩

end Run

end RsQuery
