import RsQuery.Advances

/-!
# What the steps of the system do

Calls never register anything and runs keep their query, so whatever is registered is a
spawned task of the key it is registered under, and only tasks whose `spawn_query` has
returned and direct calls are ever cancelled or aborted.
-/

namespace RsQuery

variable {V : Type} [PartialEqAny V]

open QueryClient

/-- The action advances run `j` or drops its future. -/
def Action.Moves (a : Action V) (j : Nat) : Prop :=
  match a with
  | .advance i _ | .dropFuture i => i = j
  | _ => False

instance (a : Action V) (j : Nat) : Decidable (a.Moves j) := by
  unfold Action.Moves
  split
  all_goals infer_instance

namespace Sys

variable {s s' : Sys V} {i : Nat}

/-! ### Steps -/

theorem step_register (h : s.step (.register i) = some s') :
  ∃ r, s.runs.lookup i = some r ∧ r.spawned = true ∧ r.returned = false ∧
    s' = { s.setRun i { r with returned := true } with
      client := s.client.setInFlight r.query.key ⟨i, i⟩
      latest := s.latest.insert r.query.key.cacheKey i }
  := by
  obtain ⟨r, hr, h⟩ := Option.bind_eq_some_iff.mp h
  split at h
  · next hs => exact ⟨r, hr, hs.1, by simpa using hs.2, (Option.some.inj h).symm⟩
  · contradiction

theorem step_advance {o : Outcome V} (h : s.step (.advance i o) = some s') :
  ∃ r c pc, s.runs.lookup i = some r ∧ r.advance i s.now s.client o = some (c, pc) ∧
    s' = { s.setRun i { r with pc := pc } with client := c }
  := by
  obtain ⟨r, hr, h⟩ := Option.bind_eq_some_iff.mp h
  obtain ⟨⟨c, pc⟩, ha, h⟩ := Option.bind_eq_some_iff.mp h
  exact ⟨r, c, pc, hr, ha, (Option.some.inj h).symm⟩

theorem step_of_advance
    {r : Run V} {o : Outcome V} {c : QueryClient V} {pc : Pc V}
    (hr : s.runs.lookup i = some r) (ha : r.advance i s.now s.client o = some (c, pc)) :
  s.step (.advance i o) = some { s.setRun i { r with pc := pc } with client := c }
  := by
  simp only [step, hr, ha, Option.bind_eq_bind, Option.bind_some]

theorem step_abort (h : s.step (.abort i) = some s') :
  ∃ r, s.runs.lookup i = some r ∧ r.spawned = true ∧ r.returned = true ∧ s' = s.abortTask i
  := by
  obtain ⟨r, hr, h⟩ := Option.bind_eq_some_iff.mp h
  split at h
  · next hs => exact ⟨r, hr, hs.1, hs.2, (Option.some.inj h).symm⟩
  · contradiction

theorem step_detach (h : s.step (.detach i) = some s') :
  ∃ r, s.runs.lookup i = some r ∧ r.spawned = true ∧ s' = s.setRun i { r with detached := true }
  := by
  obtain ⟨r, hr, h⟩ := Option.bind_eq_some_iff.mp h
  split at h
  · next hs => exact ⟨r, hr, hs.1, (Option.some.inj h).symm⟩
  · contradiction

theorem step_drop (h : s.step (.drop i) = some s') :
  ∃ r, s.runs.lookup i = some r ∧ r.spawned = true ∧ r.returned = true ∧
    s' = if r.detached then s else s.abortTask i
  := by
  obtain ⟨r, hr, h⟩ := Option.bind_eq_some_iff.mp h
  split at h
  · next hs => exact ⟨r, hr, hs.1, hs.2, (Option.some.inj h).symm⟩
  · contradiction

theorem step_dropFuture (h : s.step (.dropFuture i) = some s') :
  ∃ r c, s.runs.lookup i = some r ∧ r.spawned = false ∧ r.dropFuture s.client = some c ∧
    s' = { s.setRun i { r with pc := .dropped } with client := c }
  := by
  obtain ⟨r, hr, h⟩ := Option.bind_eq_some_iff.mp h
  split at h
  · contradiction
  · next hs =>
    obtain ⟨c, hc, h⟩ := Option.bind_eq_some_iff.mp h
    exact ⟨r, c, hr, by simpa using hs, hc, (Option.some.inj h).symm⟩

theorem step_cancelToken (h : s.step (.cancelToken i) = some s') :
  ∃ r, s.runs.lookup i = some r ∧ r.spawned = false ∧
    s' = { s with client.signals.cancelled := insert i s.client.signals.cancelled }
  := by
  obtain ⟨r, hr, h⟩ := Option.bind_eq_some_iff.mp h
  split at h
  · contradiction
  · next hs => exact ⟨r, hr, by simpa using hs, (Option.some.inj h).symm⟩

theorem spawn_frame (s : Sys V) (query : Query V) :
  Frame s.client (s.spawn query).client ∧ (s.spawn query).latest = s.latest ∧
    ∃ r, r.query = query ∧ r.spawned = true ∧ (r.pc = .queued ∨ r.pc = .done .idle) ∧
      (s.spawn query).runs = s.runs.insert s.nextRun r ∧
      (s.spawn query).nextRun = s.nextRun + 1
  := by
  unfold spawn
  split
  · exact ⟨⟨rfl, rfl, rfl⟩, rfl, _, rfl, rfl, .inr rfl, rfl, rfl⟩
  · exact ⟨⟨rfl, rfl, rfl⟩, rfl, _, rfl, rfl, .inl rfl, rfl, rfl⟩

theorem frame_dropFuture {r : Run V} {c c' : QueryClient V} (h : r.dropFuture c = some c') :
  Frame c c'
  := by
  unfold Run.dropFuture at h
  split at h
  all_goals try contradiction
  all_goals
    rw [← Option.some.inj h]
    exact ⟨rfl, rfl, rfl⟩

/-! ### Where runs come from -/

/-- A run that is there after a step is new, or its future was dropped, or it stands where
it stood, or it was advanced. -/
inductive Origin (s s' : Sys V) (a : Action V) (j : Nat) (r' : Run V) : Prop where
  | new : j = s.nextRun → r'.pc = .queued ∨ r'.pc = .done .idle ∨ r'.pc = .start →
    Origin s s' a j r'
  | dropped : r'.pc = .dropped → Origin s s' a j r'
  | stood {r : Run V} : s.runs.lookup j = some r → r'.query = r.query →
    r'.spawned = r.spawned → r'.pc = r.pc → ¬ a.Moves j → Origin s s' a j r'
  | advanced {r : Run V} {o : Outcome V} : s.runs.lookup j = some r → r'.query = r.query →
    r'.spawned = r.spawned → a = .advance j o →
    r.advance j s.now s.client o = some (s'.client, r'.pc) → Origin s s' a j r'

theorem origin_of_step
    {a : Action V} {j : Nat} {r' : Run V} (hs : s.step a = some s')
    (hr' : s'.runs.lookup j = some r') :
  Origin s s' a j r'
  := by
  -- a run that a step leaves alone
  have same (hr' : s.runs.lookup j = some r') (ha : ¬ a.Moves j) : Origin s s' a j r' :=
    .stood hr' rfl rfl rfl ha
  -- a run whose handle or registration a step concerns
  have kept {i : Nat} {q q' : Run V} (hq : s.runs.lookup i = some q)
      (hruns : s'.runs = s.runs.insert i q') (hquery : q'.query = q.query)
      (hspawned : q'.spawned = q.spawned) (hpc : q'.pc = q.pc) (ha : ¬ a.Moves j) :
      Origin s s' a j r' := by
    rw [hruns] at hr'
    obtain ⟨hji, rfl⟩ | ⟨-, hr'⟩ := Table.lookup_insert_cases hr'
    · rw [← hji] at hq
      exact .stood hq hquery hspawned hpc ha
    · apply same hr' ha
  have fresh {q : Run V} (hruns : s'.runs = s.runs.insert s.nextRun q)
      (hq : q.pc = .queued ∨ q.pc = .done .idle ∨ q.pc = .start) (ha : ¬ a.Moves j) :
      Origin s s' a j r' := by
    rw [hruns] at hr'
    obtain ⟨hj, rfl⟩ | ⟨-, hr'⟩ := Table.lookup_insert_cases hr'
    · exact .new hj hq
    · apply same hr' ha
  cases a with
  | spawn query =>
    obtain rfl := Option.some.inj hs
    obtain ⟨-, -, q, -, -, hpc, hruns, -⟩ := s.spawn_frame query
    apply fresh hruns _ id
    rcases hpc with hpc | hpc
    · left
      apply hpc
    · right
      left
      apply hpc
  | register i =>
    obtain ⟨r, hr, -, -, rfl⟩ := step_register hs
    apply kept hr rfl rfl rfl rfl id
  | execute query =>
    obtain rfl := Option.some.inj hs
    apply fresh rfl (.inr (.inr rfl)) id
  | advance i o =>
    obtain ⟨r, c, pc, hr, ha, rfl⟩ := step_advance hs
    by_cases hij : i = j
    · obtain rfl := hij
      obtain rfl := Option.some.inj ((AList.lookup_insert _).symm.trans hr')
      exact .advanced hr rfl rfl rfl ha
    · apply same ((AList.lookup_insert_ne (Ne.symm hij)).symm.trans hr') hij
  | abort i =>
    obtain ⟨r, -, -, -, rfl⟩ := step_abort hs
    apply same hr' id
  | detach i =>
    obtain ⟨r, hr, -, rfl⟩ := step_detach hs
    apply kept hr rfl rfl rfl rfl id
  | drop i =>
    obtain ⟨r, -, -, -, rfl⟩ := step_drop hs
    split at hr'
    · apply same hr' id
    · apply same hr' id
  | dropFuture i =>
    obtain ⟨r, c, hr, -, -, rfl⟩ := step_dropFuture hs
    by_cases hij : i = j
    · obtain rfl := hij
      obtain rfl := Option.some.inj ((AList.lookup_insert _).symm.trans hr')
      exact .dropped rfl
    · apply same ((AList.lookup_insert_ne (Ne.symm hij)).symm.trans hr') hij
  | cancelToken i =>
    obtain ⟨r, -, -, rfl⟩ := step_cancelToken hs
    apply same hr' id
  | call call =>
    obtain rfl := Option.some.inj hs
    apply same hr' id
  | tick n =>
    obtain rfl := Option.some.inj hs
    apply same hr' id

/-! ### What is registered -/

/-- Numbers are given out in order. -/
theorem nextRun_le_of_step {a : Action V} (hs : s.step a = some s') :
  s.nextRun ≤ s'.nextRun
  := by
  cases a with
  | spawn query =>
    obtain rfl := Option.some.inj hs
    obtain ⟨-, -, r, -, -, -, -, hnext⟩ := s.spawn_frame query
    rw [hnext]
    apply Nat.le_succ
  | register i =>
    obtain ⟨r, -, -, -, rfl⟩ := step_register hs
    apply Nat.le_refl
  | execute query =>
    obtain rfl := Option.some.inj hs
    apply Nat.le_succ
  | advance i o =>
    obtain ⟨r, c, pc, -, -, rfl⟩ := step_advance hs
    apply Nat.le_refl
  | abort i =>
    obtain ⟨r, -, -, -, rfl⟩ := step_abort hs
    apply Nat.le_refl
  | detach i =>
    obtain ⟨r, -, -, rfl⟩ := step_detach hs
    apply Nat.le_refl
  | drop i =>
    obtain ⟨r, -, -, -, rfl⟩ := step_drop hs
    split
    · apply Nat.le_refl
    · apply Nat.le_refl
  | dropFuture i =>
    obtain ⟨r, c, -, -, -, rfl⟩ := step_dropFuture hs
    apply Nat.le_refl
  | cancelToken i =>
    obtain ⟨r, -, -, rfl⟩ := step_cancelToken hs
    apply Nat.le_refl
  | call call =>
    obtain rfl := Option.some.inj hs
    apply Nat.le_refl
  | tick n =>
    obtain rfl := Option.some.inj hs
    apply Nat.le_refl

theorem cache_spawn (s : Sys V) (query : Query V) :
  (s.spawn query).client.cache = s.client.cache
  := by
  unfold spawn
  split
  · rfl
  · rfl

theorem cache_dropFuture {r : Run V} {c c' : QueryClient V} (h : r.dropFuture c = some c') :
  c'.cache = c.cache
  := by
  unfold Run.dropFuture at h
  split at h
  all_goals try contradiction
  all_goals rw [← Option.some.inj h]
  rfl

theorem online_dropFuture {r : Run V} {c c' : QueryClient V} (h : r.dropFuture c = some c') :
  c'.online = c.online
  := by
  unfold Run.dropFuture at h
  split at h
  all_goals try contradiction
  all_goals rw [← Option.some.inj h]
  rfl

/-- Time does not go back. -/
theorem now_le_of_step {a : Action V} (hs : s.step a = some s') :
  s.now ≤ s'.now
  := by
  cases a with
  | spawn query =>
    obtain rfl := Option.some.inj hs
    unfold spawn
    split
    · apply Nat.le_refl
    · apply Nat.le_refl
  | register i =>
    obtain ⟨r, -, -, -, rfl⟩ := step_register hs
    apply Nat.le_refl
  | execute query =>
    obtain rfl := Option.some.inj hs
    apply Nat.le_refl
  | advance i o =>
    obtain ⟨r, c, pc, -, -, rfl⟩ := step_advance hs
    apply Nat.le_refl
  | abort i =>
    obtain ⟨r, -, -, -, rfl⟩ := step_abort hs
    apply Nat.le_refl
  | detach i =>
    obtain ⟨r, -, -, rfl⟩ := step_detach hs
    apply Nat.le_refl
  | drop i =>
    obtain ⟨r, -, -, -, rfl⟩ := step_drop hs
    split
    · apply Nat.le_refl
    · apply Nat.le_refl
  | dropFuture i =>
    obtain ⟨r, c, -, -, -, rfl⟩ := step_dropFuture hs
    apply Nat.le_refl
  | cancelToken i =>
    obtain ⟨r, -, -, rfl⟩ := step_cancelToken hs
    apply Nat.le_refl
  | call call =>
    obtain rfl := Option.some.inj hs
    apply Nat.le_refl
  | tick n =>
    obtain rfl := Option.some.inj hs
    apply Nat.le_add_right

/-- Runs are numbered below `nextRun`, a registration is that of a task of its key, and
only tasks whose spawning call has returned and direct calls are cancelled or aborted. -/
structure Sane (s : Sys V) : Prop where
  numbered : ∀ i r, s.runs.lookup i = some r →
    i < s.nextRun ∧ (r.spawned = false → r.returned = true)
  registered : ∀ k t, s.client.inFlight.lookup k = some t → t.cancelToken = t.abort ∧
    ∃ r, s.runs.lookup t.abort = some r ∧ r.spawned = true ∧ r.returned = true ∧
      r.query.key.cacheKey = k
  signalled : ∀ i, i ∈ s.client.signals.cancelled ∨ i ∈ s.client.signals.aborted →
    ∃ r, s.runs.lookup i = some r ∧ r.returned = true

/-- Every run of `s` is one of `s'`, of the same query, and has returned if it had. -/
def Continues (s s' : Sys V) : Prop :=
  ∀ i r, s.runs.lookup i = some r → ∃ r', s'.runs.lookup i = some r' ∧ r'.query = r.query ∧
    r'.spawned = r.spawned ∧ (r.returned = true → r'.returned = true)

theorem continues_of_insert
    {r r' : Run V} (hr : s.runs.lookup i = some r) (hs : s'.runs = s.runs.insert i r')
    (hq : r'.query = r.query) (hsp : r'.spawned = r.spawned)
    (hret : r.returned = true → r'.returned = true) :
  Continues s s'
  := by
  intro j q hj
  rw [hs, Table.lookup_insert_eq]
  split
  · next h =>
    rw [h, hr] at hj
    obtain rfl := Option.some.inj hj
    exact ⟨r', rfl, hq, hsp, hret⟩
  · exact ⟨q, hj, rfl, rfl, id⟩

theorem continues_of_eq (h : s'.runs = s.runs) :
  Continues s s'
  := by
  intro j q hj
  rw [h]
  exact ⟨q, hj, rfl, rfl, id⟩

theorem Sane.continues_of_fresh
    {r : Run V} (h : s.Sane) (hs : s'.runs = s.runs.insert s.nextRun r) :
  Continues s s'
  := by
  intro j q hj
  have hne : j ≠ s.nextRun := Nat.ne_of_lt (h.numbered j q hj).1
  rw [hs, Table.lookup_insert_eq, if_neg hne]
  exact ⟨q, hj, rfl, rfl, id⟩

theorem Sane.numbered_of_insert
    {r r' : Run V} (h : s.Sane) (hr : s.runs.lookup i = some r)
    (hs : s'.runs = s.runs.insert i r') (hn : s'.nextRun = s.nextRun)
    (hsp : r'.spawned = r.spawned) (hret : r.returned = true → r'.returned = true) :
  ∀ j q, s'.runs.lookup j = some q → j < s'.nextRun ∧ (q.spawned = false → q.returned = true)
  := by
  intro j q hj
  rw [hs, Table.lookup_insert_eq] at hj
  rw [hn]
  split at hj
  · next hji =>
    obtain rfl := Option.some.inj hj
    obtain ⟨hlt, hd⟩ := h.numbered i r hr
    rw [hji, hsp]
    exact ⟨hlt, fun hf => hret (hd hf)⟩
  · apply h.numbered j q hj

theorem Sane.numbered_of_fresh
    {r : Run V} (h : s.Sane) (hs : s'.runs = s.runs.insert s.nextRun r)
    (hn : s'.nextRun = s.nextRun + 1) (hret : r.spawned = false → r.returned = true) :
  ∀ j q, s'.runs.lookup j = some q → j < s'.nextRun ∧ (q.spawned = false → q.returned = true)
  := by
  intro j q hj
  rw [hs, Table.lookup_insert_eq] at hj
  rw [hn]
  split at hj
  · next hji =>
    obtain rfl := Option.some.inj hj
    exact ⟨by omega, hret⟩
  · obtain ⟨hlt, hd⟩ := h.numbered j q hj
    exact ⟨by omega, hd⟩

/-- A sane system stays sane when every registration was there before and everything
signalled was before or is a task registered before. -/
theorem Sane.of_fewer
    (h : s.Sane) (hc : Continues s s')
    (hn : ∀ i r, s'.runs.lookup i = some r →
      i < s'.nextRun ∧ (r.spawned = false → r.returned = true))
    (hreg : ∀ k t, s'.client.inFlight.lookup k = some t → s.client.inFlight.lookup k = some t)
    (hsig : ∀ i, i ∈ s'.client.signals.cancelled ∨ i ∈ s'.client.signals.aborted →
      (i ∈ s.client.signals.cancelled ∨ i ∈ s.client.signals.aborted) ∨
        ∃ k t, s.client.inFlight.lookup k = some t ∧ (t.cancelToken = i ∨ t.abort = i)) :
  s'.Sane
  := by
  constructor
  case numbered => apply hn
  case registered =>
    intro k t ht
    obtain ⟨heq, r, hr, hs, hret, hk⟩ := h.registered k t (hreg k t ht)
    obtain ⟨r', hr', hq', hs', hret'⟩ := hc _ r hr
    exact ⟨heq, r', hr', hs'.trans hs, hret' hret, by rw [hq', hk]⟩
  case signalled =>
    intro i hi
    suffices h : ∃ r, s.runs.lookup i = some r ∧ r.returned = true by
      obtain ⟨r, hr, hret⟩ := h
      obtain ⟨r', hr', -, -, hret'⟩ := hc _ r hr
      exact ⟨r', hr', hret' hret⟩
    obtain hi | ⟨k, t, ht, heq⟩ := hsig i hi
    · apply h.signalled i hi
    · obtain ⟨hct, r, hr, -, hret, -⟩ := h.registered k t ht
      rw [hct, or_self] at heq
      rw [← heq]
      exact ⟨r, hr, hret⟩

/-- Withdrawing registrations keeps a sane system sane. -/
theorem Sane.of_withdraws
    (h : s.Sane) (hw : Withdraws s.client s'.client) (hc : Continues s s')
    (hn : ∀ i r, s'.runs.lookup i = some r →
      i < s'.nextRun ∧ (r.spawned = false → r.returned = true)) :
  s'.Sane
  := by
  apply h.of_fewer hc hn
  · intro k t ht
    obtain hnone | hkept := hw.kept k
    · rw [hnone] at ht
      contradiction
    · rw [← hkept, ht]
  · rintro i (hi | hi)
    · obtain hi | ⟨k, t, ht, -, heq⟩ := (hw.cancelled i).mp hi
      · exact .inl (.inl hi)
      · exact .inr ⟨k, t, ht, .inl heq⟩
    · obtain hi | ⟨k, t, ht, -, heq⟩ := (hw.aborted i).mp hi
      · exact .inl (.inr hi)
      · exact .inr ⟨k, t, ht, .inr heq⟩

/-- Signalling a task whose call has returned, or a direct call, keeps a sane system
sane. -/
theorem Sane.of_signal
    {r : Run V} (h : s.Sane) (hr : s.runs.lookup i = some r) (hret : r.returned = true)
    (hruns : s'.runs = s.runs) (hnext : s'.nextRun = s.nextRun)
    (hin : s'.client.inFlight = s.client.inFlight)
    (hsig : ∀ j, j ∈ s'.client.signals.cancelled ∨ j ∈ s'.client.signals.aborted →
      j = i ∨ j ∈ s.client.signals.cancelled ∨ j ∈ s.client.signals.aborted) :
  s'.Sane
  := by
  constructor
  · rw [hruns, hnext]
    apply h.numbered
  · rw [hruns, hin]
    apply h.registered
  · intro j hj
    rw [hruns]
    obtain rfl | hj := hsig j hj
    · exact ⟨r, hr, hret⟩
    · apply h.signalled j hj

theorem Sane.abortTask {r : Run V} (h : s.Sane) (hr : s.runs.lookup i = some r)
    (hret : r.returned = true) :
  (s.abortTask i).Sane
  := by
  refine h.of_signal hr hret rfl rfl rfl ?_
  rintro j (hj | hj)
  · exact .inr (.inl hj)
  · obtain rfl | hj := Finset.mem_insert.mp hj
    · exact .inl rfl
    · exact .inr (.inr hj)

theorem sane_initial :
  (initial : Sys V).Sane
  := by
  constructor
  · simp [initial]
  · simp [initial, QueryClient.new]
  · simp [initial, QueryClient.new]

/-- Runs go on being runs of their query. -/
theorem Sane.continues_step {a : Action V} (h : s.Sane) (hs : s.step a = some s') :
  Continues s s'
  := by
  cases a with
  | spawn query =>
    obtain rfl := Option.some.inj hs
    obtain ⟨-, -, r, -, -, -, hruns, -⟩ := s.spawn_frame query
    apply h.continues_of_fresh hruns
  | register i =>
    obtain ⟨r, hr, -, -, rfl⟩ := step_register hs
    exact continues_of_insert hr rfl rfl rfl fun _ => rfl
  | execute query =>
    obtain rfl := Option.some.inj hs
    exact h.continues_of_fresh rfl
  | advance i o =>
    obtain ⟨r, c, pc, hr, -, rfl⟩ := step_advance hs
    exact continues_of_insert hr rfl rfl rfl id
  | detach i =>
    obtain ⟨r, hr, -, rfl⟩ := step_detach hs
    exact continues_of_insert hr rfl rfl rfl id
  | drop i =>
    obtain ⟨r, -, -, -, rfl⟩ := step_drop hs
    split
    · exact continues_of_eq rfl
    · exact continues_of_eq rfl
  | dropFuture i =>
    obtain ⟨r, c, hr, -, -, rfl⟩ := step_dropFuture hs
    exact continues_of_insert hr rfl rfl rfl id
  | abort i =>
    obtain ⟨r, -, -, -, rfl⟩ := step_abort hs
    exact continues_of_eq rfl
  | cancelToken i =>
    obtain ⟨r, -, -, rfl⟩ := step_cancelToken hs
    exact continues_of_eq rfl
  | call call =>
    obtain rfl := Option.some.inj hs
    exact continues_of_eq rfl
  | tick n =>
    obtain rfl := Option.some.inj hs
    exact continues_of_eq rfl

/-- Every step keeps a sane system sane. -/
theorem Sane.step {a : Action V} (h : s.Sane) (hs : s.step a = some s') :
  s'.Sane
  := by
  have hcont := h.continues_step hs
  cases a with
  | spawn query =>
    obtain rfl := Option.some.inj hs
    obtain ⟨hf, -, r, -, hsp, -, hruns, hnext⟩ := s.spawn_frame query
    apply h.of_withdraws hf.withdraws hcont
    apply h.numbered_of_fresh hruns hnext
    simp [hsp]
  | register i =>
    obtain ⟨r, hr, hsp, hret, rfl⟩ := step_register hs
    have hsane : (s.setRun i { r with returned := true }).Sane := by
      refine h.of_withdraws (Withdraws.refl _) (continues_of_insert hr rfl rfl rfl ?_) ?_
      · exact fun _ => rfl
      · exact h.numbered_of_insert hr rfl rfl rfl fun _ => rfl
    constructor
    · apply hsane.numbered
    · intro k t ht
      simp only [setInFlight] at ht
      obtain ⟨hk, rfl⟩ | ⟨-, ht⟩ := Table.lookup_insert_cases ht
      · exact ⟨rfl, { r with returned := true }, AList.lookup_insert _, hsp, rfl, hk.symm⟩
      · apply hsane.registered k t ht
    · apply hsane.signalled
  | execute query =>
    obtain rfl := Option.some.inj hs
    refine h.of_withdraws (Withdraws.refl _) ?_ ?_
    · apply hcont
    · exact h.numbered_of_fresh rfl rfl fun _ => rfl
  | advance i o =>
    obtain ⟨r, c, pc, hr, ha, rfl⟩ := step_advance hs
    have hn : ∀ j q, (s.setRun i { r with pc := pc }).runs.lookup j = some q →
        j < s.nextRun ∧ (q.spawned = false → q.returned = true) :=
      h.numbered_of_insert hr rfl rfl rfl id
    obtain ⟨result, -, -, rfl, -⟩ | ⟨hf, -⟩ := Run.advance_cases ha
    · refine h.of_fewer hcont hn ?_ fun i hi => .inl hi
      intro k t ht
      obtain ⟨-, ht⟩ := Table.lookup_of_erase ht
      apply ht
    · exact h.of_withdraws hf.withdraws hcont hn
  | abort i =>
    obtain ⟨r, hr, -, hret, rfl⟩ := step_abort hs
    apply h.abortTask hr hret
  | detach i =>
    obtain ⟨r, hr, -, rfl⟩ := step_detach hs
    refine h.of_withdraws (Withdraws.refl _) ?_ ?_
    · apply hcont
    · exact h.numbered_of_insert hr rfl rfl rfl id
  | drop i =>
    obtain ⟨r, hr, -, hret, rfl⟩ := step_drop hs
    split
    · apply h
    · apply h.abortTask hr hret
  | dropFuture i =>
    obtain ⟨r, c, hr, -, hc, rfl⟩ := step_dropFuture hs
    exact h.of_withdraws (frame_dropFuture hc).withdraws hcont
      (h.numbered_of_insert hr rfl rfl rfl id)
  | cancelToken i =>
    obtain ⟨r, hr, hsp, rfl⟩ := step_cancelToken hs
    refine h.of_signal hr ((h.numbered i r hr).2 hsp) rfl rfl rfl ?_
    rintro j (hj | hj)
    · obtain rfl | hj := Finset.mem_insert.mp hj
      · exact .inl rfl
      · exact .inr (.inl hj)
    · exact .inr (.inr hj)
  | call call =>
    obtain rfl := Option.some.inj hs
    exact h.of_withdraws (call.withdraws_apply _ _) hcont h.numbered
  | tick n =>
    obtain rfl := Option.some.inj hs
    refine h.of_withdraws (Withdraws.refl _) ?_ h.numbered
    apply hcont

/-- The run stands where it stood; only a task has a handle that may have changed, and a
registration. -/
structure Stays (r r' : Run V) : Prop where
  query : r'.query = r.query
  spawned : r'.spawned = r.spawned
  pc : r'.pc = r.pc
  direct : r.spawned = false → r' = r

/-- A run stands where it stood after a step that does not move it. -/
theorem Sane.stays_step
    {a : Action V} {r : Run V} (h : s.Sane) (hs : s.step a = some s')
    (hr : s.runs.lookup i = some r) (ha : ¬ a.Moves i) :
  ∃ r', s'.runs.lookup i = some r' ∧ Stays r r'
  := by
  have hne : i ≠ s.nextRun := Nat.ne_of_lt (h.numbered i r hr).1
  have same (hr' : s'.runs.lookup i = some r) : ∃ r', s'.runs.lookup i = some r' ∧ Stays r r' :=
    ⟨r, hr', rfl, rfl, rfl, fun _ => rfl⟩
  -- a task whose handle or registration a step concerns
  have kept {j : Nat} {q q' : Run V} (hq : s.runs.lookup j = some q)
      (hruns : s'.runs = s.runs.insert j q') (htask : q.spawned = true)
      (hquery : q'.query = q.query) (hsp : q'.spawned = q.spawned) (hpc : q'.pc = q.pc) :
      ∃ r', s'.runs.lookup i = some r' ∧ Stays r r' := by
    by_cases hij : i = j
    · rw [← hij, hr] at hq
      obtain rfl := Option.some.inj hq
      refine ⟨q', ?_, hquery, hsp, hpc, ?_⟩
      · rw [hruns, hij, AList.lookup_insert]
      · intro hdirect
        rw [hdirect] at htask
        contradiction
    · apply same
      rw [hruns, AList.lookup_insert_ne hij, hr]
  cases a with
  | spawn query =>
    obtain rfl := Option.some.inj hs
    obtain ⟨-, -, q, -, -, -, hruns, -⟩ := s.spawn_frame query
    apply same
    rw [hruns, AList.lookup_insert_ne hne, hr]
  | register j =>
    obtain ⟨q, hq, hsp, -, rfl⟩ := step_register hs
    apply kept hq rfl hsp rfl rfl rfl
  | execute query =>
    obtain rfl := Option.some.inj hs
    apply same ((AList.lookup_insert_ne hne).trans hr)
  | advance j o =>
    obtain ⟨q, c, pc, -, -, rfl⟩ := step_advance hs
    apply same ((AList.lookup_insert_ne (Ne.symm ha)).trans hr)
  | abort j =>
    obtain ⟨q, -, -, -, rfl⟩ := step_abort hs
    apply same hr
  | detach j =>
    obtain ⟨q, hq, hsp, rfl⟩ := step_detach hs
    apply kept hq rfl hsp rfl rfl rfl
  | drop j =>
    obtain ⟨q, -, -, -, rfl⟩ := step_drop hs
    apply same
    split
    · apply hr
    · apply hr
  | dropFuture j =>
    obtain ⟨q, c, -, -, -, rfl⟩ := step_dropFuture hs
    apply same ((AList.lookup_insert_ne (Ne.symm ha)).trans hr)
  | cancelToken j =>
    obtain ⟨q, -, -, rfl⟩ := step_cancelToken hs
    apply same hr
  | call call =>
    obtain rfl := Option.some.inj hs
    apply same hr
  | tick n =>
    obtain rfl := Option.some.inj hs
    apply same hr

/-- A direct call is as it was. -/
theorem Sane.lookup_step
    {a : Action V} {r : Run V} (h : s.Sane) (hs : s.step a = some s')
    (hr : s.runs.lookup i = some r) (hdirect : r.spawned = false) (ha : ¬ a.Moves i) :
  s'.runs.lookup i = some r
  := by
  obtain ⟨r', hr', hstays⟩ := h.stays_step hs hr ha
  rw [hr', hstays.direct hdirect]

/-- A cancelled token stays cancelled. -/
theorem cancelled_step {a : Action V} (hs : s.step a = some s') :
  s.client.signals.cancelled ⊆ s'.client.signals.cancelled
  := by
  intro j hj
  cases a with
  | spawn query =>
    obtain rfl := Option.some.inj hs
    rw [(s.spawn_frame query).1.cancelled]
    apply hj
  | register i =>
    obtain ⟨r, -, -, -, rfl⟩ := step_register hs
    apply hj
  | execute query =>
    obtain rfl := Option.some.inj hs
    apply hj
  | advance i o =>
    obtain ⟨r, c, pc, -, ha, rfl⟩ := step_advance hs
    obtain ⟨result, -, -, rfl, -⟩ | ⟨hf, -⟩ := Run.advance_cases ha
    · apply hj
    · apply hf.cancelled ▸ hj
  | abort i =>
    obtain ⟨r, -, -, -, rfl⟩ := step_abort hs
    apply hj
  | detach i =>
    obtain ⟨r, -, -, rfl⟩ := step_detach hs
    apply hj
  | drop i =>
    obtain ⟨r, -, -, -, rfl⟩ := step_drop hs
    split
    · apply hj
    · apply hj
  | dropFuture i =>
    obtain ⟨r, c, -, -, hc, rfl⟩ := step_dropFuture hs
    apply (frame_dropFuture hc).cancelled ▸ hj
  | cancelToken i =>
    obtain ⟨r, -, -, rfl⟩ := step_cancelToken hs
    apply Finset.mem_insert_of_mem hj
  | call call =>
    obtain rfl := Option.some.inj hs
    apply ((call.withdraws_apply _ _).cancelled j).mpr (.inl hj)
  | tick n =>
    obtain rfl := Option.some.inj hs
    apply hj

/-- Only `set_online` changes the connectivity. -/
theorem online_step {a : Action V} (hs : s.step a = some s')
    (ha : ∀ online, a ≠ .call (.setOnline online)) :
  s'.client.online = s.client.online
  := by
  cases a with
  | spawn query =>
    obtain rfl := Option.some.inj hs
    unfold spawn
    split
    · rfl
    · rfl
  | register i =>
    obtain ⟨r, -, -, -, rfl⟩ := step_register hs
    rfl
  | execute query =>
    obtain rfl := Option.some.inj hs
    rfl
  | advance i o =>
    obtain ⟨r, c, pc, -, ha, rfl⟩ := step_advance hs
    apply (Run.settings_advance ha).2.1
  | abort i =>
    obtain ⟨r, -, -, -, rfl⟩ := step_abort hs
    rfl
  | detach i =>
    obtain ⟨r, -, -, rfl⟩ := step_detach hs
    rfl
  | drop i =>
    obtain ⟨r, -, -, -, rfl⟩ := step_drop hs
    split
    · rfl
    · rfl
  | dropFuture i =>
    obtain ⟨r, c, -, -, hc, rfl⟩ := step_dropFuture hs
    apply online_dropFuture hc
  | cancelToken i =>
    obtain ⟨r, -, -, rfl⟩ := step_cancelToken hs
    rfl
  | call call =>
    obtain rfl := Option.some.inj hs
    have haside := call.aside_apply s.now s.client fun online h => ha online (h ▸ rfl)
    apply (Prod.mk.inj haside).1
  | tick n =>
    obtain rfl := Option.some.inj hs
    rfl

/-- Every state reached is sane. -/
theorem sane_of_run {ok : Sys V → Action V → Prop} (h : machine.Run ok s) :
  s.Sane
  := by
  apply h.invariant
  · rintro s rfl
    apply sane_initial
  · exact fun s a s' _ hsane _ hs => hsane.step hs

/-- What a step does to the runs there are, to what is registered and what is aborted. -/
structure Effect (s s' : Sys V) (a : Action V) : Prop where
  nextRun : s.nextRun ≤ s'.nextRun
  runs : ∀ i r', s'.runs.lookup i = some r' →
    (∃ r, s.runs.lookup i = some r) ∨ s.nextRun ≤ i ∧ i < s'.nextRun
  inFlight : ∀ k task, s'.client.inFlight.lookup k = some task →
    s.client.inFlight.lookup k = some task ∨
      ∃ i r, a = .register i ∧ s.runs.lookup i = some r ∧ r.query.key.cacheKey = k ∧
        task.cancelToken = i
  aborted : s.client.signals.aborted ⊆ s'.client.signals.aborted

theorem runs_of_insert {s : Sys V} {i : Nat} {r r' : Run V}
    (hr : s.runs.lookup i = some r) {n : Nat} :
  ∀ j q, (s.runs.insert i r').lookup j = some q →
    (∃ r, s.runs.lookup j = some r) ∨ s.nextRun ≤ j ∧ j < n
  := by
  intro j q hj
  left
  rw [Table.lookup_insert_eq] at hj
  split at hj
  · next h =>
    rw [h]
    exact ⟨r, hr⟩
  · exact ⟨q, hj⟩

theorem runs_of_fresh {s : Sys V} {r' : Run V} :
  ∀ j q, (s.runs.insert s.nextRun r').lookup j = some q →
    (∃ r, s.runs.lookup j = some r) ∨ s.nextRun ≤ j ∧ j < s.nextRun + 1
  := by
  intro j q hj
  rw [Table.lookup_insert_eq] at hj
  split at hj
  · next h =>
    right
    omega
  · left
    exact ⟨q, hj⟩

/-- A step that keeps registrations and signals has its effect on the runs only. -/
theorem effect_of_frame
    {a : Action V} (hnext : s.nextRun ≤ s'.nextRun)
    (hruns : ∀ i r', s'.runs.lookup i = some r' →
      (∃ r, s.runs.lookup i = some r) ∨ s.nextRun ≤ i ∧ i < s'.nextRun)
    (hf : QueryClient.Frame s.client s'.client) :
  Effect s s' a
  := by
  constructor
  · apply hnext
  · apply hruns
  · intro k task h
    left
    rwa [← hf.inFlight]
  · rw [hf.aborted]

/-- Every step has its effect. -/
theorem effect_of_step {a : Action V} (hs : s.step a = some s') :
  Effect s s' a
  := by
  have hkept : ∀ i r', s.runs.lookup i = some r' →
      (∃ r, s.runs.lookup i = some r) ∨ s.nextRun ≤ i ∧ i < s.nextRun :=
    fun i r hi => .inl ⟨r, hi⟩
  cases a with
  | spawn query =>
    obtain rfl := Option.some.inj hs
    obtain ⟨hf, -, r, -, -, -, hruns, hnext⟩ := s.spawn_frame query
    apply effect_of_frame _ _ hf
    · omega
    · rw [hruns, hnext]
      apply runs_of_fresh
  | register i =>
    obtain ⟨r, hr, -, -, rfl⟩ := step_register hs
    constructor
    case nextRun => apply Nat.le_refl
    case runs => apply runs_of_insert hr
    case inFlight =>
      intro k task hk
      simp only [QueryClient.setInFlight, Table.lookup_insert_eq] at hk
      split at hk
      · next heq =>
        right
        obtain rfl := Option.some.inj hk
        exact ⟨i, r, rfl, hr, heq.symm, rfl⟩
      · left
        apply hk
    case aborted => exact subset_rfl
  | execute query =>
    obtain rfl := Option.some.inj hs
    exact effect_of_frame (Nat.le_succ _) runs_of_fresh ⟨rfl, rfl, rfl⟩
  | advance i o =>
    obtain ⟨r, c, pc, hr, ha, rfl⟩ := step_advance hs
    obtain ⟨result, -, -, rfl, -⟩ | ⟨hf, -⟩ := Run.advance_cases ha
    · constructor
      case nextRun => apply Nat.le_refl
      case runs => apply runs_of_insert hr
      case inFlight =>
        intro k task hk
        obtain ⟨-, hk⟩ := Table.lookup_of_erase hk
        left
        apply hk
      case aborted => exact subset_rfl
    · exact effect_of_frame (Nat.le_refl _) (runs_of_insert hr) hf
  | abort i =>
    obtain ⟨r, -, -, -, rfl⟩ := step_abort hs
    constructor
    case nextRun => apply Nat.le_refl
    case runs => apply hkept
    case inFlight => exact fun k task hk => .inl hk
    case aborted => apply Finset.subset_insert
  | detach i =>
    obtain ⟨r, hr, -, rfl⟩ := step_detach hs
    exact effect_of_frame (Nat.le_refl _) (runs_of_insert hr) ⟨rfl, rfl, rfl⟩
  | drop i =>
    obtain ⟨r, -, -, -, rfl⟩ := step_drop hs
    split
    · apply effect_of_frame (Nat.le_refl _) hkept ⟨rfl, rfl, rfl⟩
    · constructor
      case nextRun => apply Nat.le_refl
      case runs => apply hkept
      case inFlight => exact fun k task hk => .inl hk
      case aborted => apply Finset.subset_insert
  | dropFuture i =>
    obtain ⟨r, c, hr, -, hc, rfl⟩ := step_dropFuture hs
    exact effect_of_frame (Nat.le_refl _) (runs_of_insert hr) (frame_dropFuture hc)
  | cancelToken i =>
    obtain ⟨r, hr, -, rfl⟩ := step_cancelToken hs
    constructor
    case nextRun => apply Nat.le_refl
    case runs => apply hkept
    case inFlight => exact fun k task hk => .inl hk
    case aborted => exact subset_rfl
  | call call =>
    obtain rfl := Option.some.inj hs
    have hw := call.withdraws_apply s.now s.client
    constructor
    case nextRun => apply Nat.le_refl
    case runs => apply hkept
    case inFlight =>
      intro k task hk
      left
      obtain hnone | hsame := hw.kept k
      · rw [hnone] at hk
        contradiction
      · rwa [← hsame]
    case aborted => exact fun j hj => (hw.aborted j).mpr (.inl hj)
  | tick n =>
    obtain rfl := Option.some.inj hs
    exact effect_of_frame (Nat.le_refl _) hkept ⟨rfl, rfl, rfl⟩

end Sys

end RsQuery
