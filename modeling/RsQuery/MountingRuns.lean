import RsQuery.Mounting

/-!
# Runs of mounts and unmounts

What is kept of a client and its reconnect watchers along every run: a mount spawns a watcher
when none is live, an unmount stops the live one when it is the last, and `set_online` is told
to every watcher.  So one watcher not told to stop is there while the client is mounted, a
watcher told to stop exits when it is polled, and none misses a restored connection.
-/

namespace RsQuery

namespace Mounting

variable {V : Type}

namespace Clones

section Step

variable {s s' : Clones V} {a : Action V} {i : Nat} {w w' : ReconnectWatcher} {e : Event}

/-! ### The calls -/

/-- What is kept of a watcher that a step is not about. -/
theorem Kept.spares
    (h : s.Kept) (hi : s.watchers.lookup i = some w) (htx : s.tx.Spares s'.tx i)
    (hsetting : s.setting = .send true →
      s'.setting = .send true ∨ s.tx.sent.length < s'.tx.sent.length)
    (hlog : SparesLog s.log s'.log i (s'.setting = .send true)) :
  s'.KeptWatcher i w
  := by
  obtain ⟨rx, hrx⟩ := Option.isSome_iff_exists.mp (h.watchers i w hi).subscribed
  apply (h.watchers i w hi).of_spares (h.handles.sees i rx hrx).le htx hsetting hlog

/-- A step that is about no watcher and changes neither the mount count nor what is spawned. -/
theorem Kept.of_call
    (h : s.Kept) (hhandles : s'.tx.Kept true) (htold : s'.Told)
    (hwatchers : ∀ i w, s'.watchers.lookup i = some w → s'.KeptWatcher i w)
    (hlive : ∀ i, s'.Live i ↔ s.Live i)
    (hlookup : ∀ i, (s'.watchers.lookup i).isSome = (s.watchers.lookup i).isSome)
    (htx : ∀ i, s'.tx.watchers.lookup i = s.tx.watchers.lookup i)
    (hlog : ∀ e ∈ s'.log, e ∈ s.log ∨ e.watcher = none)
    (hnext : s'.nextWatcher = s.nextWatcher) (htask : s'.reconnectTask = s.reconnectTask)
    (hcount : s'.mountCount = s.mountCount) :
  s'.Kept
  := by
  constructor
  case handles => apply hhandles
  case told => apply htold
  case watchers => apply hwatchers
  case numbered =>
    intro i hi
    rw [hlookup] at hi
    rw [hnext]
    apply h.numbered i hi
  case unsubscribed =>
    intro i hi
    rw [hnext] at hi
    rw [htx]
    apply h.unsubscribed i hi
  case logged =>
    intro e he i hi
    rw [hlookup]
    rcases hlog e he with he | hnone
    · apply h.logged e he i hi
    · rw [hnone] at hi
      contradiction
  case task =>
    intro i
    rw [htask, hlive]
    apply h.task i
  case count =>
    rw [htask, hcount]
    apply h.count

/-- `set_online` tests the flag. -/
theorem Kept.setOnline (h : s.Kept) {setting : Setting} (hidle : s.setting = .idle)
    (hset : setting = .idle ∨ ∃ online, setting = .store online) :
  Kept { s with setting := setting }
  := by
  have hsend (online : Bool) : s.setting ≠ .send online ∧ setting ≠ .send online := by
    rcases hset with rfl | ⟨_, rfl⟩
    · simp [hidle]
    · simp [hidle]
  refine h.of_call h.handles ⟨?_, ?_, h.told.changed, ?_⟩ ?_ (fun _ => .rfl) (fun _ => rfl)
    (fun _ => rfl) (fun _ => .inl) rfl rfl rfl
  · exact fun _ => h.told.sent fun online => (hsend online).1
  · exact fun online heq => absurd heq (hsend online).2
  · exact fun _ => h.told.hand (by simp [hidle])
  · intro i w hi
    refine h.spares hi (.refl _) ?_ ?_
    · exact fun heq => absurd heq (hsend true).1
    · left
      rfl

/-- `set_online` stores the flag. -/
theorem Kept.store {online : Bool} (h : s.Kept) (hset : s.setting = .store online) :
  Kept { s with online := online, setting := .send online, log := s.log ++ [.changed online] }
  := by
  refine h.of_call h.handles ⟨?_, ?_, ?_, ?_⟩ ?_ (fun _ => .rfl) (fun _ => rfl)
    (fun _ => rfl) ?_ rfl rfl rfl
  · exact fun hne => absurd rfl (hne online)
  · intro online' heq
    apply Setting.send.inj heq
  · intro online' hlast
    rcases lastChange_concat.mp hlast with heq | ⟨-, hne⟩
    · apply Event.changed.inj heq
    · exact absurd rfl (hne online)
  · exact fun _ => h.told.hand (by simp [hset])
  · intro i w hi
    refine h.spares hi (.refl _) ?_ ?_
    · simp [hset]
    · right
      use .changed online, rfl
      simp [Event.watcher]
  · intro e he
    rw [List.mem_append, List.mem_singleton] at he
    apply he.imp_right
    rintro rfl
    rfl

/-- `set_online` sends. -/
theorem Kept.send
    {online : Bool} {t : Watch.Handles Bool} (h : s.Kept) (hset : s.setting = .send online)
    (ht : s.tx.step (.send online) = some t) :
  Kept { s with tx := t, setting := .wake }
  := by
  have hspares (i : Nat) : s.tx.Spares t i := Watch.Handles.spares_of_step ht id
  have hkept := h.handles.step ht
  obtain rfl := Option.some.inj ht
  refine h.of_call hkept ⟨?_, ?_, h.told.changed, ?_⟩ ?_ (fun _ => .rfl) (fun _ => rfl)
    (fun i => (hspares i).watchers) (fun _ => .inl) rfl rfl rfl
  · intro
    simp [Watch.Handles.latest, h.told.sending online hset]
  · exact fun online' heq => by contradiction
  · exact fun hne => absurd rfl hne
  · intro i w hi
    refine h.spares hi (hspares i) ?_ ?_
    · intro
      right
      simp
    · left
      rfl

/-- `set_online` returns. -/
theorem Kept.return (h : s.Kept) (hset : s.setting = .wake) (hhand : s.tx.hand = []) :
  Kept { s with setting := .idle }
  := by
  refine h.of_call h.handles ⟨?_, ?_, h.told.changed, fun _ => hhand⟩ ?_ (fun _ => .rfl)
    (fun _ => rfl) (fun _ => rfl) (fun _ => .inl) rfl rfl rfl
  · exact fun _ => h.told.sent (by simp [hset])
  · exact fun online heq => by contradiction
  · intro i w hi
    refine h.spares hi (.refl _) ?_ ?_
    · simp [hset]
    · left
      rfl

/-- `set_online` wakes a task. -/
theorem Kept.wake
    {j : Nat} {t : Watch.Handles Bool} (h : s.Kept) (ht : s.tx.step (.wake j) = some t) :
  Kept { s with
    tx := t
    watchers := Table.adjust j (fun w => { w with woken := true }) s.watchers }
  := by
  have hspares (i : Nat) (hi : j ≠ i) : s.tx.Spares t i := Watch.Handles.spares_of_step ht hi
  have hkept := h.handles.step ht
  simp only [Watch.Handles.step] at ht
  split at ht
  · next hmem =>
    obtain rfl := Option.some.inj ht
    have hlookup (i : Nat) (w : ReconnectWatcher)
        (hi : (Table.adjust j (fun w => { w with woken := true }) s.watchers).lookup i = some w) :
        ∃ w₀, s.watchers.lookup i = some w₀ ∧ (w = w₀ ∧ j ≠ i ∨ w = { w₀ with woken := true }) := by
      rw [Table.lookup_adjust] at hi
      split at hi
      · obtain ⟨w₀, hw₀, rfl⟩ := Option.map_eq_some_iff.mp hi
        use w₀, hw₀
        right
        rfl
      · next hne =>
        use w, hi
        left
        exact ⟨rfl, Ne.symm hne⟩
    refine h.of_call hkept ⟨h.told.sent, h.told.sending, h.told.changed, ?_⟩ ?_ ?_ ?_
      (fun _ => rfl) (fun _ => .inl) rfl rfl rfl
    · intro hne
      rw [h.told.hand hne] at hmem
      contradiction
    · intro i w hi
      obtain ⟨w₀, hw₀, ⟨rfl, hne⟩ | rfl⟩ := hlookup i w hi
      · exact h.spares hw₀ (hspares i hne) .inl (.inl rfl)
      · have hw := h.watchers i w₀ hw₀
        exact { hw with waits := fun _ => .inl rfl }
    · intro i
      constructor
      · rintro ⟨w, hi, hvalue⟩
        obtain ⟨w₀, hw₀, ⟨rfl, -⟩ | rfl⟩ := hlookup i w hi
        · exact ⟨w, hw₀, hvalue⟩
        · exact ⟨w₀, hw₀, hvalue⟩
      · rintro ⟨w, hi, hvalue⟩
        simp only [Live, Table.lookup_adjust, hi, Option.map_some]
        split
        · exact ⟨_, rfl, hvalue⟩
        · exact ⟨_, rfl, hvalue⟩
    · intro i
      rw [Table.lookup_adjust]
      split
      · apply Option.isSome_map
      · rfl
  · contradiction

/-- The client is used. -/
theorem Kept.use (h : s.Kept) (c : QueryClient V) :
  Kept { s with client := c }
  := by
  refine h.of_call h.handles ⟨h.told.sent, h.told.sending, h.told.changed, h.told.hand⟩ ?_
    (fun _ => .rfl) (fun _ => rfl) (fun _ => rfl) (fun _ => .inl) rfl rfl rfl
  intro i w hi
  exact h.spares hi (.refl _) .inl (.inl rfl)

/-- A mount or an unmount counts. -/
theorem Kept.count_eq {n : Nat} (h : s.Kept) (hn : n ≠ 0) (hcount : s.mountCount ≠ 0) :
  Kept { s with mountCount := n }
  := by
  have htask : s.reconnectTask ≠ none := fun heq => hcount (h.count.mp heq)
  refine { h with told := ?_, watchers := ?_, count := ?_ }
  · exact ⟨h.told.sent, h.told.sending, h.told.changed, h.told.hand⟩
  · intro i w hi
    exact h.spares hi (.refl _) .inl (.inl rfl)
  · simp [hn, htask]

/-- Nothing has happened to a watcher that is still to be spawned. -/
theorem Kept.not_logged
    (h : s.Kept) (he : e.watcher = some i) (hi : s.nextWatcher ≤ i) :
  e ∉ s.log
  := by
  intro hmem
  have hlt := h.numbered i (h.logged e hmem i he)
  omega

/-- The first mount spawns a watcher. -/
theorem Kept.spawn
    {t : Watch.Handles Bool} (h : s.Kept) (hcount : s.mountCount = 0)
    (ht : s.tx.step (.subscribe s.nextWatcher) = some t) :
  Kept ({ s with
    mountCount := 1
    reconnectTask := some s.nextWatcher
    tx := t
    nextWatcher := s.nextWatcher + 1
  }.goto s.nextWatcher ⟨(Watch.new false).1, (Watch.new false).2, .parked, true⟩
    [.subscribed s.nextWatcher])
  := by
  have hspares (i : Nat) (hi : i ≠ s.nextWatcher) : s.tx.Spares t i :=
    Watch.Handles.spares_of_step ht (Ne.symm hi)
  have hkept := h.handles.step ht
  have hfresh (e : Event) (he : e.watcher = some s.nextWatcher) : e ∉ s.log :=
    h.not_logged he (Nat.le_refl _)
  have hnew : Doomed s.log s.nextWatcher → False := fun hd => hfresh _ rfl hd.stopped
  simp only [Watch.Handles.step, h.unsubscribed s.nextWatcher (Nat.le_refl _)] at ht
  obtain rfl := Option.some.inj ht
  refine h.of_watcher (m := 1) (n := s.nextWatcher + 1) (c := s.client) (Nat.le_succ _)
    (Nat.lt_succ_self _) hkept hspares rfl rfl (by simp [Event.watcher]) (Nat.le_refl _)
    (by simp) ?_ ?_
  · -- nothing else is live, the client was not mounted
    have hdead (i : Nat) : ¬ s.Live i := by
      rw [← h.task i, h.count.mpr hcount]
      simp
    intro i
    rw [Live, lookup_goto]
    constructor
    · intro heq
      rw [if_pos (Option.some.inj heq).symm]
      exact ⟨_, rfl, rfl⟩
    · rintro ⟨w, hi, hvalue⟩
      split at hi
      · next heq =>
        rw [heq]
      · apply (hdead i ⟨w, hi, hvalue⟩).elim
  · constructor
    case subscribed => simp [Clones.goto, Watch.Handles.setWatcher]
    case alive => rfl
    case version => rfl
    case unseen => exact fun _ => rfl
    case told => simpa [Clones.goto, Watch.new] using hfresh (.stopped s.nextWatcher) rfl
    case exited => exact fun hpc => by contradiction
    case waits => exact fun _ => .inl rfl
    case owed =>
      intro ho
      obtain ⟨⟨l₁, l₂, hlog, -, hsub, -⟩, -⟩ := ho.of_concat (by simp)
      apply absurd _ (hfresh (.subscribed s.nextWatcher) rfl)
      rw [hlog]
      apply List.mem_append_left _ hsub
    case doomed =>
      intro hd
      rcases doomed_concat.mp hd with hd | ⟨heq, -⟩
      · apply (hnew hd).elim
      · contradiction
    case quiet =>
      apply quiet_concat.mpr
      refine ⟨?_, fun hd => (hnew hd).elim⟩
      intro l₁ l₂ hlog hstop
      apply (hnew ⟨l₁, l₂, hlog, hstop⟩).elim

/-- The last unmount stops the watcher. -/
theorem Kept.stop {woken : Bool} (h : s.Kept) (htask : s.reconnectTask = some i)
    (hi : s.watchers.lookup i = some w) (hwoken : w.woken = true → woken = true) :
  Kept ({ s with mountCount := 0, reconnectTask := none }.goto i
    { w with stopTx := (Watch.send w.stopTx true).1, woken := woken } [.stopped i])
  := by
  have hw := h.watchers i w hi
  have hvalue : w.stopTx.value = false := by
    obtain ⟨w', hi', hvalue⟩ := (h.task i).mp htask
    rwa [Option.some.inj (hi.symm.trans hi')]
  have hnew (hd : Doomed s.log i) : False := by
    have htold := hw.told.mpr hd.stopped
    rw [hvalue] at htold
    contradiction
  have hlt : i < s.nextWatcher := h.numbered i (by rw [hi]; rfl)
  refine h.of_watcher (m := 0) (n := s.nextWatcher) (t := s.tx) (c := s.client) (Nat.le_refl _)
    hlt h.handles (fun _ _ => .refl _) rfl rfl (by simp [Event.watcher]) (Nat.le_refl _)
    (by simp) ?_ ?_
  · intro j
    constructor
    · intro heq
      contradiction
    · rintro ⟨v, hj, hfalse⟩
      rw [lookup_goto] at hj
      split at hj
      · obtain rfl := Option.some.inj hj
        contradiction
      · next hne =>
        have heq := (h.task j).mpr ⟨v, hj, hfalse⟩
        rw [htask] at heq
        exact absurd (Option.some.inj heq).symm hne
  · have hversion := hw.version
    rw [hvalue] at hversion
    constructor
    case subscribed => apply hw.subscribed
    case alive => apply hw.alive
    case version => apply congrArg (· + 1) hversion
    case unseen => apply hw.unseen
    case told => simp [Clones.goto, Watch.send]
    case exited => exact fun _ => rfl
    case waits => exact fun hwaits => (hw.waits hwaits).imp_left hwoken
    case owed =>
      intro ho
      apply hw.owed (ho.of_concat (by simp)).1
    case doomed =>
      intro hd
      rcases doomed_concat.mp hd with hd | ⟨heq, -⟩
      · apply (hnew hd).elim
      · contradiction
    case quiet =>
      apply quiet_concat.mpr
      exact ⟨hw.quiet, fun hd => (hnew hd).elim⟩

/-! ### Runs -/

theorem kept_initial (client : QueryClient V) :
  (initial client).Kept
  := by
  constructor
  case handles => apply Watch.Handles.kept_initial true
  case told =>
    refine ⟨fun _ => rfl, fun _ heq => by contradiction, ?_, fun _ => rfl⟩
    rintro online ⟨l₁, l₂, hlog, -⟩
    simp [initial] at hlog
  case watchers => exact fun i w hi => by contradiction
  case numbered => exact fun i hi => by contradiction
  case unsubscribed =>
    intro i hi
    have hne : i ≠ 0 := Nat.one_le_iff_ne_zero.mp hi
    simp only [initial, Watch.Handles.initial]
    rw [AList.lookup_insert_ne hne]
    rfl
  case logged => exact fun e he => by contradiction
  case task =>
    intro i
    constructor
    · intro heq
      contradiction
    · rintro ⟨w, hi, -⟩
      contradiction
  case count => exact ⟨fun _ => rfl, fun _ => rfl⟩

theorem Kept.mount (h : s.Kept) (hs : s.mount = some s') :
  s'.Kept
  := by
  simp only [Clones.mount] at hs
  split at hs
  · next hone =>
    obtain ⟨t, ht, hs⟩ := Option.bind_eq_some_iff.mp hs
    obtain rfl := Option.some.inj hs
    rw [hone]
    apply h.spawn (Nat.succ_inj.mp hone) ht
  · next hone =>
    obtain rfl := Option.some.inj hs
    apply h.count_eq (Nat.succ_ne_zero _)
    omega

theorem Kept.unmount (h : s.Kept) (hcount : 0 < s.mountCount) :
  s.unmount.Kept
  := by
  rw [Clones.unmount]
  rcases htask : s.reconnectTask with _ | i
  · have hzero := h.count.mp htask
    omega
  · obtain ⟨w, hi, -⟩ := (h.task i).mp htask
    simp only
    split
    · next hone =>
      have hzero : s.mountCount - 1 = 0 := by omega
      simp only [Clones.stop, hi, hzero]
      apply h.stop htask hi
      intro hwoken
      rw [hwoken, Bool.true_or]
    · next hone =>
      rw [← htask]
      apply h.count_eq
      · omega
      · omega

theorem Kept.proceed (h : s.Kept) (hs : s.proceed = some s') :
  s'.Kept
  := by
  simp only [Clones.proceed] at hs
  split at hs
  · contradiction
  · next online hset =>
    obtain rfl := Option.some.inj hs
    apply h.store hset
  · next online hset =>
    obtain ⟨t, ht, rfl⟩ := Option.map_eq_some_iff.mp hs
    apply h.send hset ht
  · next hset =>
    split at hs
    · next hhand =>
      obtain rfl := Option.some.inj hs
      apply h.return hset hhand
    · contradiction

theorem Kept.step (h : s.Kept) (hok : s.StopFirst a) (hs : s.step a = some s') :
  s'.Kept
  := by
  cases a with
  | mount => apply h.mount hs
  | unmount =>
    simp only [Clones.step] at hs
    split at hs
    · next hcount =>
      obtain rfl := Option.some.inj hs
      apply h.unmount hcount
    · contradiction
  | setOnline online =>
    simp only [Clones.step] at hs
    split at hs
    · next hidle =>
      obtain rfl := Option.some.inj hs
      apply h.setOnline hidle
      split
      · right
        exact ⟨online, rfl⟩
      · left
        rfl
    · contradiction
  | proceed => apply h.proceed hs
  | wake j =>
    obtain ⟨t, ht, rfl⟩ := Option.map_eq_some_iff.mp hs
    apply h.wake ht
  | poll i =>
    obtain ⟨w, hi, hs⟩ := Option.bind_eq_some_iff.mp hs
    split at hs
    · next hpc =>
      obtain rfl := Option.some.inj hs
      apply h.poll hi hpc
    · contradiction
  | select i first =>
    obtain ⟨w, hi, hs⟩ := Option.bind_eq_some_iff.mp hs
    obtain rfl : first = .stop := hok
    split at hs
    · next hpc =>
      obtain rfl := Option.some.inj hs
      apply h.select hi hpc
    · contradiction
  | advance i now =>
    obtain ⟨w, hi, hs⟩ := Option.bind_eq_some_iff.mp hs
    apply h.advance hi hs
  | use c =>
    obtain rfl := Option.some.inj hs
    apply h.use c

theorem kept_of_run (h : machine.Run StopFirst s) :
  s.Kept
  := by
  apply h.invariant
  · rintro s ⟨client, rfl⟩
    apply kept_initial
  · intro s a s' _ ih hok hs
    apply ih.step hok hs

/-- A mount is never held up. -/
theorem Kept.mount_isSome (h : s.Kept) :
  s.mount.isSome = true
  := by
  rw [Clones.mount]
  split
  · simp [Watch.Handles.step, h.unsubscribed s.nextWatcher (Nat.le_refl _)]
  · rfl

/-- A watcher that is being polled goes on. -/
theorem Kept.advance_isSome
    {now : Instant} (h : s.Kept) (hi : s.watchers.lookup i = some w)
    (hpc : w.pc ≠ .parked ∧ w.pc ≠ .select ∧ w.pc ≠ .exited) :
  (s.advance i w now).isSome = true
  := by
  obtain ⟨hparked, hselect, hexited⟩ := hpc
  have hw := h.watchers i w hi
  obtain ⟨rx, hrx⟩ := Option.isSome_iff_exists.mp hw.subscribed
  cases hpc : w.pc with
  | polling sides =>
    rcases sides with _ | ⟨stop | online, sides⟩
    · simp [Clones.advance, hpc]
    · simp only [Clones.advance, hpc, hw.changedPoll_stop hexited]
      split
      · rfl
      · rfl
    · by_cases hv : s.tx.cell.version = rx.lastSeen
      · simp [Clones.advance, hpc, hrx, Watch.Handles.step,
          Watch.changedPoll_pending hv h.handles.alive]
      · simp [Clones.advance, hpc, hrx, Watch.Handles.step, Watch.changedPoll_ready hv]
  | borrow => simp [Clones.advance, hpc, hrx, Watch.Handles.step]
  | reconnect => simp [Clones.advance, hpc]
  | parked => contradiction
  | select => contradiction
  | exited => contradiction

/-- A watcher told to stop exits when it polls its stop cell. -/
theorem KeptWatcher.step_exit
    {sides : List Side} (h : s.KeptWatcher i w) (hi : s.watchers.lookup i = some w)
    (hpc : w.pc = .polling (.stop :: sides)) (htold : w.stopTx.value = true) (now : Instant) :
  s.step (.advance i now)
    = some (s.goto i { w with stopRx.lastSeen := 1, pc := .exited } [])
  := by
  have hpoll := h.changedPoll_stop (by simp [hpc])
  rw [if_pos htold] at hpoll
  simp only [Clones.step, hi, Option.bind_eq_bind, Option.bind_some, Clones.advance, hpc, hpoll]

/-- A watcher polled after it was told to stop has polled its stop cell, or does so next. -/
theorem Kept.exits (h : s.Kept) (hi : s.watchers.lookup i = some w) (hd : Doomed s.log i) :
  s.Exits i
  := by
  have hw := h.watchers i w hi
  have htold := hw.told.mpr hd.stopped
  rcases hw.doomed hd with hpc | hpc | hpc
  · -- it selects first
    have hselect : machine.step s (.select i .stop)
        = some (s.goto i { w with pc := .polling [.stop, .online] } []) := by
      simp only [machine, Clones.step, hi, Option.bind_eq_bind, Option.bind_some, hpc, if_true,
        Side.order]
    have hi' := lookup_goto (s := s) (i := i) (w := { w with pc := .polling [.stop, .online] }) [] i
    rw [if_pos rfl] at hi'
    have hexit := ((h.select hi hpc).watchers i _ hi').step_exit hi' rfl htold 0
    refine ⟨[.select i .stop, .advance i 0], _, _, ?_,
      (Machine.exec_cons hselect).trans (Machine.exec_cons hexit), ?_,
      (lookup_goto [] i).trans (if_pos rfl), rfl⟩
    · simp
    · simp [Clones.goto]
  · have hexit := hw.step_exit hi hpc htold 0
    refine ⟨[.advance i 0], _, _, ?_, Machine.exec_cons hexit, ?_,
      (lookup_goto [] i).trans (if_pos rfl), rfl⟩
    · simp
    · simp [Clones.goto]
  · exact ⟨[], s, w, by simp, rfl, rfl, hi, hpc⟩

end Step

/-- Whatever the order of mounts, unmounts, changes of the connectivity and polls, one
watcher that is not told to stop is there while the client is mounted, a watcher told to stop
exits when it is polled, and none misses a restored connection. -/
theorem watches_of_run {s : Clones V} (h : machine.Run StopFirst s) :
  s.Watches
  := by
  have hkept := kept_of_run h
  constructor
  case told => exact fun i w hi => (hkept.watchers i w hi).told
  case live =>
    split
    · next hmounted =>
      have htask : s.reconnectTask ≠ none := fun heq => hmounted.ne' (hkept.count.mp heq)
      obtain ⟨i, hi⟩ := Option.ne_none_iff_exists'.mp htask
      use i, (hkept.task i).mp hi
      intro j hj
      have hsame := (hkept.task j).mpr hj
      rw [hi] at hsame
      apply (Option.some.inj hsame).symm
    · next hmounted =>
      intro i hi
      rw [← hkept.task i, hkept.count.mpr (by omega)] at hi
      contradiction
  case exits =>
    intro i l₁ l₂ hlog hstop
    have hd : Doomed s.log i := ⟨l₁, l₂, hlog, hstop⟩
    obtain ⟨w, hi⟩ := Option.isSome_iff_exists.mp (hkept.logged _ hd.stopped i rfl)
    obtain ⟨hreconnect, hpark, hpoll⟩ := (hkept.watchers i w hi).quiet l₁ l₂ hlog hstop
    exact ⟨hreconnect, hpark, hpoll, hkept.exits hi hd⟩
  case reconnects =>
    intro i w hi hpc hwoken hidle howed
    have hw := hkept.watchers i w hi
    -- it waits, has seen the latest version, and nobody is about to wake it
    have hpending : s.tx.pending.lookup i = some i := by
      rcases hw.waits (by simp [hpc, Pc.Waits]) with hwoken' | hpending
      · rw [hwoken] at hwoken'
        contradiction
      · apply hpending
    obtain ⟨rx, hrx, hhand | ⟨hseen, -⟩⟩ := hkept.handles.pending i i hpending
    · rw [hkept.told.hand (by simp [hidle])] at hhand
      contradiction
    · rcases hw.owed howed with hset | hobserved | hpc'
      · rw [hidle] at hset
        contradiction
      · apply (hkept.handles.changed_iff hrx).mp hobserved hseen.symm
      · simp [hpc] at hpc'

/-- A watcher parks; the connectivity goes and comes back before it is polled again, and it
runs `handle_reconnect`; the client is unmounted and mounted again, and it exits. -/
theorem watches_of_run_remounted :
  ∃ s : Clones Nat, machine.Run StopFirst s ∧
    (s.mountCount = 1 ∧ s.log = [.subscribed 1, .polled 1, .parked 1, .changed false,
      .changed true, .polled 1, .reconnected 1, .parked 1, .stopped 1, .subscribed 2,
      .polled 1]) ∧
    s.Watches
  := by
  have init : machine.init (initial (QueryClient.new : QueryClient Nat)) := ⟨_, rfl⟩
  have meets : machine.Meets StopFirst (initial (QueryClient.new : QueryClient Nat))
      ([.mount, .poll 1, .select 1 .stop, .advance 1 0, .advance 1 0, .advance 1 0,
        .setOnline false, .proceed, .proceed, .wake 1, .proceed, .setOnline true, .proceed,
        .proceed, .proceed, .poll 1, .select 1 .stop, .advance 1 0, .advance 1 0, .advance 1 0,
        .advance 1 0, .select 1 .stop, .advance 1 0, .advance 1 0, .advance 1 0, .unmount,
        .mount, .poll 1, .select 1 .stop, .advance 1 0] : List (Action Nat)) := by
    decide +kernel
  obtain ⟨s, hs, hseen⟩ := Machine.exists_run_of_exec _
    (fun s : Clones Nat => (s.mountCount, s.log)) (1, [.subscribed 1, .polled 1, .parked 1,
      .changed false, .changed true, .polled 1, .reconnected 1, .parked 1, .stopped 1,
      .subscribed 2, .polled 1]) init meets (by decide +kernel)
  exact ⟨s, hs, Prod.mk.inj hseen, watches_of_run hs⟩

end Clones

end Mounting

end RsQuery
