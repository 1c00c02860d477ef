import RsQuery.Runs

/-!
# In-flight registrations

A registration is stored after the task was spawned, overwritten by the next
registration of its key, withdrawn by the calls that cancel, and removed by key when a
task finishes, whichever task it belongs to.  So whether a key is in flight says whether
its most recently registered fetch is still going only in runs where no task finishes
before it is registered or under the registration of another one, and no handle aborts a
task that is registered.
-/

namespace RsQuery

variable {V : Type} [PartialEqAny V]

open QueryClient

namespace Sys

variable {s s' : Sys V} {i : Nat}

/-- The fetch of run `i` has neither finished nor been cancelled or aborted. -/
def Live (s : Sys V) (i : Nat) : Prop :=
  (∃ r ∈ s.runs.lookup i, ¬ r.pc.Over) ∧ i ∉ s.client.signals.cancelled ∧
    i ∉ s.client.signals.aborted

instance (s : Sys V) (i : Nat) : Decidable (s.Live i) :=
  inferInstanceAs (Decidable (_ ∧ _ ∧ _))

/-- A key is in flight exactly when its most recently registered fetch is live. -/
def InFlightSound (s : Sys V) : Prop :=
  ∀ key : QueryKey, s.client.isInFlight key = true ↔
    ∃ i ∈ s.latest.lookup key.cacheKey, s.Live i

/-- Every spawned task has completed or been aborted. -/
def AllSettled (s : Sys V) : Prop :=
  ∀ i, ∀ r ∈ s.runs.lookup i, r.spawned = true → r.pc.Over ∨ i ∈ s.client.signals.aborted

/-- What is registered under the key of run `i`. -/
def registration (s : Sys V) (i : Nat) : Option InFlightTask :=
  (s.runs.lookup i).bind fun r => s.client.inFlight.lookup r.query.key.cacheKey

/-- A task is registered before it is over, it deregisters under no registration but its
own, and its handle does not abort it while it is registered. -/
def KeepsRegistrations (s : Sys V) : Action V → Prop
  | .register i => ∀ r ∈ s.runs.lookup i, ¬ r.pc.Over
  | .advance i _ => ∀ r ∈ s.runs.lookup i,
    match r.pc with
    | .finish _ => r.spawned = true → ∀ t ∈ s.registration i, t.abort = i
    | _ => True
  | .abort i => s.registration i ≠ some ⟨i, i⟩
  | .drop i => ∀ r ∈ s.runs.lookup i, r.detached = false → s.registration i ≠ some ⟨i, i⟩
  | _ => True

instance (s : Sys V) (a : Action V) : Decidable (s.KeepsRegistrations a) := by
  have finishing (i : Nat) (r : Run V) : Decidable (match r.pc with
      | .finish _ => r.spawned = true → ∀ t ∈ s.registration i, t.abort = i
      | _ => True) := by
    rcases r.pc with _ | _ <;> infer_instance
  unfold KeepsRegistrations
  rcases a with _ | _ <;> infer_instance

/-- The registrations are those of the live ones among the most recently registered
fetches. -/
structure Tracked (s : Sys V) : Prop where
  latest : ∀ k i, s.latest.lookup k = some i → ∃ r, s.runs.lookup i = some r ∧
    r.spawned = true ∧ r.returned = true ∧ r.query.key.cacheKey = k
  live : ∀ k t, s.client.inFlight.lookup k = some t →
    s.latest.lookup k = some t.abort ∧ s.Live t.abort
  registered : ∀ k i, s.latest.lookup k = some i → s.Live i →
    s.client.inFlight.lookup k = some ⟨i, i⟩

/-- Registrations stay tracked when they stay and the registered fetches live on. -/
theorem Tracked.of_live_iff
    (h : s.Tracked) (hc : Continues s s') (hl : s'.latest = s.latest)
    (hi : s'.client.inFlight = s.client.inFlight)
    (hlive : ∀ k i, s.latest.lookup k = some i → (s'.Live i ↔ s.Live i)) :
  s'.Tracked
  := by
  constructor
  · intro k i hk
    rw [hl] at hk
    obtain ⟨r, hr, hsp, hret, hkey⟩ := h.latest k i hk
    obtain ⟨r', hr', hq', hsp', hret'⟩ := hc i r hr
    exact ⟨r', hr', hsp'.trans hsp, hret' hret, by rw [hq', hkey]⟩
  · intro k t ht
    rw [hi] at ht
    obtain ⟨hk, hlv⟩ := h.live k t ht
    rw [hl]
    exact ⟨hk, (hlive k _ hk).mpr hlv⟩
  · intro k i hk hlv
    rw [hl] at hk
    rw [hi]
    apply h.registered k i hk ((hlive k i hk).mp hlv)

theorem live_iff_of_eq
    (hr : s'.runs.lookup i = s.runs.lookup i)
    (hc : i ∈ s'.client.signals.cancelled ↔ i ∈ s.client.signals.cancelled)
    (ha : i ∈ s'.client.signals.aborted ↔ i ∈ s.client.signals.aborted) :
  s'.Live i ↔ s.Live i
  := by
  rw [Live, hr, hc, ha]
  rfl

theorem live_iff {r : Run V} (hr : s.runs.lookup i = some r) :
  s.Live i ↔ ¬ r.pc.Over ∧ i ∉ s.client.signals.cancelled ∧ i ∉ s.client.signals.aborted
  := by
  simp [Live, hr]

/-- The tasks registered under the key of a most recently registered fetch. -/
theorem Tracked.registration_eq (h : s.Tracked) {k : String} (hk : s.latest.lookup k = some i) :
  s.registration i = s.client.inFlight.lookup k
  := by
  obtain ⟨r, hr, -, -, hkey⟩ := h.latest k i hk
  rw [registration, hr, Option.bind_some, hkey]

theorem Tracked.withdraws
    (h : s.Tracked) (hsane : s.Sane) (hw : Withdraws s.client s'.client)
    (hr : s'.runs = s.runs) (hl : s'.latest = s.latest) :
  s'.Tracked
  := by
  have hlive {i : Nat} (hlv : s'.Live i) : s.Live i := by
    obtain ⟨hrun, hc, ha⟩ := hlv
    rw [hr] at hrun
    exact ⟨hrun, fun hi => hc ((hw.cancelled i).mpr (.inl hi)),
      fun hi => ha ((hw.aborted i).mpr (.inl hi))⟩
  constructor
  · rw [hr, hl]
    apply h.latest
  · intro k t ht
    obtain hnone | hkept := hw.kept k
    · rw [hnone] at ht
      contradiction
    · have ht' := hkept ▸ ht
      obtain ⟨hk, hrun, hc, ha⟩ := h.live k t ht'
      -- a registration withdrawn with the task of this one would be under its key
      have same_key (k' : String) (t' : InFlightTask)
          (ht'' : s.client.inFlight.lookup k' = some t') (heq : t'.abort = t.abort) : k' = k := by
        obtain ⟨-, r, hr, -, -, hkey⟩ := hsane.registered k t ht'
        obtain ⟨-, r', hr', -, -, hkey'⟩ := hsane.registered k' t' ht''
        rw [heq, hr] at hr'
        obtain rfl := Option.some.inj hr'
        rw [← hkey', hkey]
      rw [hl]
      refine ⟨hk, by rwa [hr], ?_, ?_⟩
      · intro hi
        obtain hi | ⟨k', t', hs, hs', heq⟩ := (hw.cancelled _).mp hi
        · apply hc hi
        · rw [(hsane.registered k' t' hs).1] at heq
          rw [same_key k' t' hs heq, ht] at hs'
          contradiction
      · intro hi
        obtain hi | ⟨k', t', hs, hs', heq⟩ := (hw.aborted _).mp hi
        · apply ha hi
        · rw [same_key k' t' hs heq, ht] at hs'
          contradiction
  · intro k i hk hlv
    rw [hl] at hk
    have hreg := h.registered k i hk (hlive hlv)
    obtain hnone | hkept := hw.kept k
    · exfalso
      apply hlv.2.1
      rw [hw.cancelled]
      right
      use k, ⟨i, i⟩, hreg, hnone
    · rw [hkept, hreg]

/-- An abort by the handle keeps registrations tracked when the task is not registered. -/
theorem Tracked.abortTask (h : s.Tracked) (hreg : s.registration i ≠ some ⟨i, i⟩) :
  (s.abortTask i).Tracked
  := by
  refine h.of_live_iff (continues_of_eq rfl) rfl rfl ?_
  intro k j hk
  by_cases hji : j = i
  · have dead : ¬ s.Live j := by
      intro hlv
      apply hreg
      rw [hji] at hk hlv
      rw [h.registration_eq hk]
      apply h.registered k i hk hlv
    constructor
    · intro hlv
      exfalso
      apply hlv.2.2
      rw [hji]
      apply Finset.mem_insert_self
    · intro hlv
      contradiction
  · refine live_iff_of_eq rfl Iff.rfl ?_
    simp [Sys.abortTask, hji]

/-- An advance that is not the last one of a task keeps registrations tracked. -/
theorem Tracked.advance
    {r : Run V} {c : QueryClient V} {pc : Pc V} (h : s.Tracked)
    (hr : s.runs.lookup i = some r) (hf : Frame s.client c)
    (hover : r.pc.Over → pc.Over)
    (habort : r.spawned = true → pc.Over → r.pc.Over ∨ i ∈ s.client.signals.aborted) :
  ({ s.setRun i { r with pc := pc } with client := c } : Sys V).Tracked
  := by
  refine h.of_live_iff (continues_of_insert hr rfl rfl rfl id) rfl hf.inFlight ?_
  intro k j hk
  by_cases hji : j = i
  · obtain ⟨r', hr', hsp, -, -⟩ := h.latest k j hk
    rw [hji, hr] at hr'
    obtain rfl := Option.some.inj hr'
    rw [hji, live_iff hr, live_iff (AList.lookup_insert _), hf.cancelled, hf.aborted]
    constructor
    · rintro ⟨hpc, hc, ha⟩
      exact ⟨fun hrpc => hpc (hover hrpc), hc, ha⟩
    · rintro ⟨hpc, hc, ha⟩
      refine ⟨?_, hc, ha⟩
      intro hpc'
      obtain h | h := habort hsp hpc'
      · apply hpc h
      · apply ha h
  · refine live_iff_of_eq (AList.lookup_insert_ne hji) ?_ ?_
    · rw [hf.cancelled]
    · rw [hf.aborted]

/-- The last advance of a task keeps registrations tracked when it finds no registration
but its own. -/
theorem Tracked.deregister
    {r : Run V} {result : QueryState V} (h : s.Tracked) (hr : s.runs.lookup i = some r)
    (hreg : ∀ t ∈ s.registration i, t.abort = i) :
  ({ s.setRun i { r with pc := .reply result } with
      client := s.client.clearInFlight r.query.key } : Sys V).Tracked
  := by
  have hreg' (t : InFlightTask)
      (ht : s.client.inFlight.lookup r.query.key.cacheKey = some t) : t.abort = i := by
    apply hreg
    rw [registration, hr]
    apply ht
  have hlive {j : Nat} (hji : j ≠ i) :
      ({ s.setRun i { r with pc := .reply result } with
        client := s.client.clearInFlight r.query.key } : Sys V).Live j ↔ s.Live j :=
    live_iff_of_eq (AList.lookup_insert_ne hji) Iff.rfl Iff.rfl
  have hcont : Continues s { s.setRun i { r with pc := .reply result } with
      client := s.client.clearInFlight r.query.key } :=
    continues_of_insert hr rfl rfl rfl id
  constructor
  · intro k j hk
    obtain ⟨q, hq, hsp, hret, hkey⟩ := h.latest k j hk
    obtain ⟨q', hq', heq, hsp', hret'⟩ := hcont j q hq
    exact ⟨q', hq', hsp'.trans hsp, hret' hret, by rw [heq, hkey]⟩
  · intro k t ht
    obtain ⟨hne, ht⟩ := Table.lookup_of_erase ht
    obtain ⟨hk, hlv⟩ := h.live k t ht
    refine ⟨hk, (hlive ?_).mpr hlv⟩
    intro hti
    obtain ⟨q, hq, -, -, hkey⟩ := h.latest k _ hk
    rw [hti, hr] at hq
    apply hne
    rw [← hkey, Option.some.inj hq]
  · intro k j hk hlv
    have hji : j ≠ i := by
      rintro rfl
      obtain ⟨⟨q, hq, hpc⟩, -⟩ := hlv
      obtain rfl := Option.some.inj ((AList.lookup_insert _).symm.trans hq)
      apply hpc
      trivial
    have hkept := h.registered k j hk ((hlive hji).mp hlv)
    simp only [clearInFlight, Table.lookup_erase_eq]
    split
    · next hkey =>
      exfalso
      rw [hkey] at hkept
      apply hji (hreg' _ hkept)
    · apply hkept

/-- A registration keeps registrations tracked when the task is not over. -/
theorem Tracked.register
    {r : Run V} (h : s.Tracked) (hsane : s.Sane) (hr : s.runs.lookup i = some r)
    (hsp : r.spawned = true) (hret : r.returned = false) (hpc : ¬ r.pc.Over) :
  ({ s.setRun i { r with returned := true } with
      client := s.client.setInFlight r.query.key ⟨i, i⟩
      latest := s.latest.insert r.query.key.cacheKey i } : Sys V).Tracked
  := by
  have unsignalled : i ∉ s.client.signals.cancelled ∧ i ∉ s.client.signals.aborted := by
    by_contra hsig
    have hsig : i ∈ s.client.signals.cancelled ∨ i ∈ s.client.signals.aborted := by tauto
    obtain ⟨q, hq, hret'⟩ := hsane.signalled i hsig
    rw [hr] at hq
    obtain rfl := Option.some.inj hq
    rw [hret] at hret'
    contradiction
  have hlive (j : Nat) : ({ s.setRun i { r with returned := true } with
      client := s.client.setInFlight r.query.key ⟨i, i⟩
      latest := s.latest.insert r.query.key.cacheKey i } : Sys V).Live j ↔ s.Live j := by
    by_cases hji : j = i
    · rw [hji, live_iff hr, live_iff (AList.lookup_insert _)]
      rfl
    · exact live_iff_of_eq (AList.lookup_insert_ne hji) Iff.rfl Iff.rfl
  have hcont : Continues s { s.setRun i { r with returned := true } with
      client := s.client.setInFlight r.query.key ⟨i, i⟩
      latest := s.latest.insert r.query.key.cacheKey i } :=
    continues_of_insert hr rfl rfl rfl fun _ => rfl
  constructor
  · intro k j hk
    obtain ⟨hkey, rfl⟩ | ⟨-, hk⟩ := Table.lookup_insert_cases hk
    · exact ⟨_, AList.lookup_insert _, hsp, rfl, hkey.symm⟩
    · obtain ⟨q, hq, hsp', hret', hkey⟩ := h.latest k j hk
      obtain ⟨q', hq', heq, hsp'', hret''⟩ := hcont j q hq
      exact ⟨q', hq', hsp''.trans hsp', hret'' hret', by rw [heq, hkey]⟩
  · intro k t ht
    simp only [setInFlight, Table.lookup_insert_eq] at ht
    rw [hlive]
    simp only [Table.lookup_insert_eq]
    split at ht
    · next hkey =>
      obtain rfl := Option.some.inj ht
      rw [if_pos hkey]
      exact ⟨rfl, ⟨r, hr, hpc⟩, unsignalled⟩
    · next hkey =>
      rw [if_neg hkey]
      apply h.live k t ht
  · intro k j hk hlv
    rw [hlive] at hlv
    simp only [Table.lookup_insert_eq] at hk
    simp only [setInFlight, Table.lookup_insert_eq]
    split at hk
    · next hkey =>
      obtain rfl := Option.some.inj hk
      rw [if_pos hkey]
    · next hkey =>
      rw [if_neg hkey]
      apply h.registered k j hk hlv

/-- A new run keeps registrations tracked. -/
theorem Tracked.of_fresh
    {r : Run V} (h : s.Tracked) (hsane : s.Sane) (hf : Frame s.client s'.client)
    (hruns : s'.runs = s.runs.insert s.nextRun r) (hl : s'.latest = s.latest) :
  s'.Tracked
  := by
  refine h.of_live_iff (hsane.continues_of_fresh hruns) hl hf.inFlight ?_
  intro k j hk
  obtain ⟨q, hq, -⟩ := h.latest k j hk
  have hne : j ≠ s.nextRun := Nat.ne_of_lt (hsane.numbered j q hq).1
  refine live_iff_of_eq ?_ ?_ ?_
  · rw [hruns, AList.lookup_insert_ne hne]
  · rw [hf.cancelled]
  · rw [hf.aborted]

/-- Every step that keeps the registrations keeps them tracked. -/
theorem Tracked.step
    {a : Action V} (h : s.Tracked) (hsane : s.Sane) (hok : s.KeepsRegistrations a)
    (hs : s.step a = some s') :
  s'.Tracked
  := by
  cases a with
  | spawn query =>
    obtain rfl := Option.some.inj hs
    obtain ⟨hf, hl, r, -, -, -, hruns, -⟩ := s.spawn_frame query
    apply h.of_fresh hsane hf hruns hl
  | register i =>
    obtain ⟨r, hr, hsp, hret, rfl⟩ := step_register hs
    apply h.register hsane hr hsp hret (hok r hr)
  | execute query =>
    obtain rfl := Option.some.inj hs
    exact h.of_fresh hsane ⟨rfl, rfl, rfl⟩ rfl rfl
  | advance i o =>
    obtain ⟨r, c, pc, hr, ha, rfl⟩ := step_advance hs
    obtain ⟨result, hpc, hsp, rfl, rfl⟩ | ⟨hf, -, hover, habort⟩ := Run.advance_cases ha
    · apply h.deregister hr
      have hok := hok r hr
      rw [hpc] at hok
      apply hok hsp
    · apply h.advance hr hf hover habort
  | abort i =>
    obtain ⟨r, hr, -, -, rfl⟩ := step_abort hs
    apply h.abortTask hok
  | detach i =>
    obtain ⟨r, hr, -, rfl⟩ := step_detach hs
    refine h.of_live_iff (continues_of_insert hr rfl rfl rfl id) rfl rfl ?_
    intro k j _
    by_cases hji : j = i
    · rw [hji, live_iff hr, live_iff (AList.lookup_insert _)]
      rfl
    · exact live_iff_of_eq (AList.lookup_insert_ne hji) Iff.rfl Iff.rfl
  | drop i =>
    obtain ⟨r, hr, -, -, rfl⟩ := step_drop hs
    split
    · apply h
    · next hd => apply h.abortTask (hok r hr (by simpa using hd))
  | dropFuture i =>
    obtain ⟨r, c, hr, hsp, hc, rfl⟩ := step_dropFuture hs
    apply h.advance hr (frame_dropFuture hc)
    · exact fun _ => trivial
    · intro hsp'
      rw [hsp] at hsp'
      contradiction
  | cancelToken i =>
    obtain ⟨r, hr, hsp, rfl⟩ := step_cancelToken hs
    refine h.of_live_iff (continues_of_eq rfl) rfl rfl ?_
    intro k j hk
    have hji : j ≠ i := by
      rintro rfl
      obtain ⟨q, hq, hsp', -⟩ := h.latest k j hk
      rw [hr] at hq
      obtain rfl := Option.some.inj hq
      rw [hsp] at hsp'
      contradiction
    refine live_iff_of_eq rfl ?_ Iff.rfl
    simp [hji]
  | call call =>
    obtain rfl := Option.some.inj hs
    exact h.withdraws hsane (call.withdraws_apply _ _) rfl rfl
  | tick n =>
    obtain rfl := Option.some.inj hs
    exact h.withdraws hsane (Withdraws.refl _) rfl rfl

theorem tracked_initial :
  (initial : Sys V).Tracked
  := by
  constructor
  · simp [initial]
  · simp [initial, QueryClient.new]
  · simp [initial]

/-- Registrations are tracked along every run whose steps keep them. -/
theorem tracked_of_run (h : machine.Run KeepsRegistrations s) :
  s.Tracked
  := by
  apply h.invariant
  · rintro s rfl
    apply tracked_initial
  · exact fun s a s' hrun ht hok hs => ht.step (sane_of_run hrun) hok hs

/-- Where registrations are tracked, a key is in flight exactly when its most recently
registered fetch is live. -/
theorem Tracked.sound (h : s.Tracked) :
  s.InFlightSound
  := by
  intro key
  rw [isInFlight, Option.isSome_iff_exists]
  constructor
  · rintro ⟨t, ht⟩
    exact ⟨t.abort, h.live _ t ht⟩
  · rintro ⟨i, hk, hlv⟩
    use ⟨i, i⟩, h.registered _ i hk hlv

/-- Along every run whose steps keep the registrations: a key is in flight exactly when
its most recently registered fetch is live, no key is once every task has settled, and
a step of a task removes no registration but its own. -/
theorem inFlightSound_of_run (h : machine.Run KeepsRegistrations s) :
  s.InFlightSound ∧ (s.AllSettled → ∀ key : QueryKey, s.client.isInFlight key = false) ∧
    ∀ i o s', s.KeepsRegistrations (.advance i o) → s.step (.advance i o) = some s' →
      ∀ k, ∀ t ∈ s.client.inFlight.lookup k, t.abort ≠ i →
        s'.client.inFlight.lookup k = some t
  := by
  have ht := tracked_of_run h
  refine ⟨ht.sound, ?_, ?_⟩
  · intro hsettled key
    rw [Bool.eq_false_iff]
    intro hkey
    obtain ⟨i, hk, ⟨r, hr, hpc⟩, -, ha⟩ := (ht.sound key).mp hkey
    obtain ⟨q, hq, hsp, -⟩ := ht.latest _ i hk
    rw [Option.mem_def.mp hr] at hq
    obtain rfl := Option.some.inj hq
    obtain hover | habort := hsettled i r hr hsp
    · apply hpc hover
    · apply ha habort
  · intro i o s' hok hs k t hk hne
    obtain ⟨r, c, pc, hr, ha, rfl⟩ := step_advance hs
    obtain ⟨result, hpc, hsp, rfl, -⟩ | ⟨hf, -⟩ := Run.advance_cases ha
    · simp only [clearInFlight, Table.lookup_erase_eq]
      split
      · next hkey =>
        exfalso
        have hok := hok r hr
        rw [hpc] at hok
        apply hne (hok hsp t _)
        rw [registration, Option.mem_def.mp hr, Option.bind_some, ← hkey]
        apply hk
      · apply hk
    · simp only
      rw [hf.inFlight]
      apply hk

/-- A step that does not keep the registrations makes them unsound. -/
theorem Tracked.keepsRegistrations_of_sound
    {a : Action V} (h : s.Tracked) (hs : s.step a = some s') (hsound : s'.InFlightSound) :
  s.KeepsRegistrations a
  := by
  -- a registration whose fetch is not live is unsound
  have unsound {k : QueryKey} {j : Nat} (hk : s'.latest.lookup k.cacheKey = some j)
      (hin : s'.client.isInFlight k = true) : s'.Live j := by
    obtain ⟨j', hk', hlv⟩ := (hsound k).mp hin
    rw [hk] at hk'
    rwa [Option.some.inj hk']
  have aborted {i : Nat} (heq : s' = s.abortTask i) : s.registration i ≠ some ⟨i, i⟩ := by
    intro hreg
    obtain ⟨r, hr, hin⟩ := Option.bind_eq_some_iff.mp hreg
    have hk := (h.live _ _ hin).1
    subst heq
    have hlv := unsound (k := r.query.key) hk (Option.isSome_iff_exists.mpr ⟨_, hin⟩)
    apply hlv.2.2
    apply Finset.mem_insert_self
  cases a with
  | register i =>
    intro q hq hover
    obtain ⟨r, hr, -, -, rfl⟩ := step_register hs
    rw [Option.mem_def.mp hq] at hr
    obtain rfl := Option.some.inj hr
    have hlv := unsound (k := q.query.key) (AList.lookup_insert _)
      (by simp [isInFlight, setInFlight])
    rw [live_iff (AList.lookup_insert _)] at hlv
    apply hlv.1 hover
  | advance i o =>
    intro q hq
    split
    case h_2 => trivial
    case h_1 result hpc =>
      intro hsp t ht
      obtain ⟨r, c, pc, hr, ha, rfl⟩ := step_advance hs
      rw [Option.mem_def.mp hq] at hr
      obtain rfl := Option.some.inj hr
      obtain ⟨result', -, -, rfl, rfl⟩ | ⟨-, hf, -⟩ := Run.advance_cases ha
      case inr => simp [hf result hpc] at hsp
      rw [registration, Option.mem_def.mp hq] at ht
      obtain ⟨hk, hlv⟩ := h.live _ t ht
      by_contra hne
      have hin : (s.client.clearInFlight q.query.key).isInFlight q.query.key = true := by
        apply (hsound q.query.key).mpr
        refine ⟨t.abort, hk, hlv.imp_left ?_⟩
        rintro ⟨q', hq', hpc⟩
        exact ⟨q', (AList.lookup_insert_ne hne).trans hq', hpc⟩
      simp [isInFlight, clearInFlight] at hin
  | abort i =>
    obtain ⟨r, -, -, -, heq⟩ := step_abort hs
    apply aborted heq
  | drop i =>
    intro q hq hd
    obtain ⟨r, hr, -, -, heq⟩ := step_drop hs
    rw [Option.mem_def.mp hq] at hr
    obtain rfl := Option.some.inj hr
    rw [hd] at heq
    apply aborted heq
  | _ => trivial

/-- A fetch goes through to its end, and another one of the key is spawned and
registered. -/
theorem inFlightSound_of_run_again :
  ∃ s : Sys (String ⊕ Nat), machine.Run KeepsRegistrations s ∧
    (s.client.cache.keys = ["k"] ∧ ¬ s.Live 0 ∧ s.latest.lookup "k" = some 1 ∧
      s.client.isInFlight queryK.key = true) ∧ s.InFlightSound
  := by
  have meets : machine.Meets KeepsRegistrations (initial : Sys (String ⊕ Nat))
      [.spawn queryK, .register 0, .advance 0 .next, .advance 0 .next, .advance 0 .next,
        .advance 0 .next, .advance 0 .next, .advance 0 .next,
        .advance 0 (.ready (.ok (.inl "data"))), .advance 0 .next, .advance 0 .next,
        .advance 0 .next, .advance 0 .next, .advance 0 .next, .spawn queryK, .register 1] := by
    decide +kernel
  obtain ⟨s, hrun, hseen⟩ := Machine.exists_run_of_exec _
    (fun s : Sys (String ⊕ Nat) => (s.client.cache.keys, decide (s.Live 0), s.latest.lookup "k",
      s.client.isInFlight queryK.key))
    (["k"], false, some 1, true) rfl meets (by decide +kernel)
  simp only [Prod.mk.injEq, decide_eq_false_iff_not] at hseen
  use s, hrun, hseen, (inFlightSound_of_run hrun).1

/-- A fetch that finishes takes away the registration of one spawned after it. -/
theorem not_inFlightSound_of_overlap :
  ¬ ∀ s : Sys (String ⊕ Nat), machine.Reachable s →
    (∀ i, ∀ r ∈ s.runs.lookup i, r.returned = true) → s.InFlightSound
  := by
  intro h
  obtain ⟨s, hs, hv⟩ := Machine.exists_reachable_of_exec (M := machine) (s := initial)
    [.spawn queryK, .register 0, .spawn queryK, .register 1, .advance 0 .next,
      .advance 0 .next, .advance 0 .next, .advance 0 .next, .advance 0 .next, .advance 0 .next,
      .advance 0 (.ready (.ok (.inl "data"))), .advance 0 .next, .advance 0 .next,
      .advance 0 .next, .advance 0 .next, .advance 0 .next]
    (fun s : Sys (String ⊕ Nat) => ((Table.values s.runs).map Run.returned,
      s.client.isInFlight queryK.key, s.latest.lookup queryK.key.cacheKey, decide (s.Live 1)))
    ([true, true], false, some 1, true) rfl (by decide +kernel)
  simp only [Prod.mk.injEq, decide_eq_true_eq] at hv
  obtain ⟨hret, hin, hlatest, hlive⟩ := hv
  have returned (i : Nat) (q) (hq : q ∈ s.runs.lookup i) : q.returned = true := by
    have hmem : q.returned ∈ (Table.values s.runs).map Run.returned :=
      List.mem_map_of_mem (Table.mem_values_iff.mpr ⟨i, hq⟩)
    rw [hret] at hmem
    simpa using hmem
  have hsound := (h s hs returned queryK.key).mpr ⟨1, hlatest, hlive⟩
  rw [hin] at hsound
  contradiction

end Sys

end RsQuery
