import RsQuery.Retryer

/-!
# The pause of the retryer

In its pause the retryer waits on the watch cell of the connectivity.  It subscribes after it
has tested the connectivity, so what is sent in between it does not find; and nothing wakes it
when its token is cancelled.  In a run it is never parked online or cancelled without a
wake-up pending, nor comes to be on its own, exactly when neither happens:
`Retryer.Loop.neverStranded_iff`.
-/

namespace RsQuery

namespace Retryer

variable {T : Type}

/-- The watcher of the pause. -/
def Pc.rx : Pc T → Option Nat
  | .token rx | .poll rx | .parked rx | .changed rx => some rx
  | _ => none

/-- Before the token is checked in the pause. -/
def Pc.Pauses : Pc T → Prop
  | .subscribe | .token _ => True
  | _ => False

/-- Past the check of the token, and nothing was found yet. -/
def Pc.Waits : Pc T → Prop
  | .poll _ | .parked _ => True
  | _ => False

theorem Pc.eq_subscribe {pc : Pc T} (h : pc.Pauses) (hrx : pc.rx = none) :
  pc = .subscribe
  := by
  cases pc with
  | subscribe => rfl
  | _ => contradiction

theorem Pc.rx_of_waits {pc : Pc T} (h : pc.Waits) :
  ∃ rx, pc.rx = some rx
  := by
  cases pc with
  | poll rx | parked rx => exact ⟨rx, rfl⟩
  | _ => contradiction

namespace Loop

/-- A call of `set_online` has stored the flag and is still to send. -/
def Sends (s : Loop T) : Prop :=
  ∃ i call, s.calls.lookup i = some call ∧ call.pc = .send

/-- A call other than `i` has stored the flag and is still to send. -/
def OtherSends (s : Loop T) (i : Nat) : Prop :=
  ∃ j call, s.calls.lookup j = some call ∧ call.pc = .send ∧ j ≠ i

/-- The retryer was woken since it parked, or its waker was taken, or is going to be. -/
def WakePending (s : Loop T) (rx : Nat) : Prop :=
  s.tx.pending.lookup rx = none ∨ task ∈ s.tx.hand ∨ s.Sends

/-- The retryer is parked online or cancelled, and no wake-up is pending. -/
def Stranded (s : Loop T) : Prop :=
  ∃ rx, s.pc = .parked rx ∧ (s.online = true ∨ s.cancelled = true) ∧ ¬ s.WakePending rx

/-- The retryer is stranded, or comes to be by its own steps and pending wake-ups. -/
def Strands (s : Loop T) : Prop :=
  ∃ as, (∀ a ∈ as, a = .advance ∨ a = .wake task) ∧ ∃ s', machine.exec s as = some s' ∧ s'.Stranded

/-- The watcher has a change to find. -/
def Unseen (s : Loop T) (rx : Nat) : Prop :=
  ∃ w, s.tx.watchers.lookup rx = some w ∧ s.tx.cell.version ≠ w.lastSeen

/-- A change is there for the retryer to find, or still to be sent. -/
def Coming (s : Loop T) : Prop :=
  s.Sends ∨ ∃ rx, s.pc.rx = some rx ∧ s.Unseen rx

/-- No call is done sending while the retryer is about to subscribe, unless the manager is
offline, the token cancelled or another call still to send; and the token is not cancelled
while the retryer waits and no change is coming. -/
def Attended (s : Loop T) : Action T → Prop
  | .proceed i =>
    s.pc = .subscribe → ∀ call ∈ s.calls.lookup i, call.pc = .send →
      s.online = false ∨ s.cancelled = true ∨ s.OtherSends i
  | .cancel => s.pc.Waits → s.Coming
  | _ => True

variable {s s' : Loop T} {a : Action T} {rx : Nat} {w : Watch.Watcher} {tx : Watch.Handles Bool}

/-! ### Watchers and calls -/

/-- The watchers and the calls are numbered, the retryer holds a watcher where it uses one,
and nothing but its task waits. -/
structure Kept (s : Loop T) : Prop where
  handles : s.tx.Kept true
  watchers : ∀ i, (s.tx.watchers.lookup i).isSome ↔ i < s.nextRx
  held : ∀ rx, s.pc.rx = some rx → rx < s.nextRx
  waker : ∀ i t, s.tx.pending.lookup i = some t → t = task
  numbered : ∀ i call, s.calls.lookup i = some call → i < s.nextCall

theorem kept_initial (retryer : Retryer) (mode : NetworkMode) :
  (initial retryer mode : Loop T).Kept
  := by
  constructor
  · apply Watch.Handles.kept_initial
  · intro i
    simp only [initial, Watch.Handles.initial, Table.lookup_insert_eq]
    split
    · next hi => simp [hi]
    · next hi => simpa using hi
  · intro rx hrx
    contradiction
  · intro i t hp
    contradiction
  · intro i call hi
    contradiction

/-- The cell takes a step of its own, or is polled by the task of the retryer. -/
theorem Kept.of_tx
    {b : Watch.Handles.Action Bool} {pc : Pc T} (h : s.Kept) (htx : s.tx.step b = some tx)
    (hsubscribe : ∀ i, b ≠ .subscribe i) (hclone : ∀ i j, b ≠ .clone i j)
    (hwaker : ∀ i t, b = .changed i t → t = task) (hpc : ∀ rx, pc.rx = some rx → rx < s.nextRx) :
  Kept { s with tx := tx, pc := pc }
  := by
  constructor
  · apply h.handles.step htx
  · intro i
    rw [Watch.Handles.isSome_watchers_step htx, h.watchers]
    simp [hsubscribe, hclone]
  · apply hpc
  · intro i t hp
    rcases Watch.Handles.pending_of_step htx hp with hp | hb
    · apply h.waker i t hp
    · apply hwaker i t hb
  · apply h.numbered

/-- The retryer goes elsewhere with the watcher it has. -/
theorem Kept.goto
    {pc : Pc T} {retryer : Retryer} {attempts : Nat} (h : s.Kept)
    (hpc : ∀ rx, pc.rx = some rx → s.pc.rx = some rx) :
  Kept { s with retryer := retryer, attempts := attempts, pc := pc }
  := ⟨h.handles, h.watchers, fun rx hrx => h.held rx (hpc rx hrx), h.waker, h.numbered⟩

/-- A call of `set_online` goes on. -/
theorem Kept.setCall
    {i : Nat} {call : Connectivity.SetOnline} (h : s.Kept) (hi : s.calls.lookup i = some call)
    (pc : Connectivity.Pc) :
  (s.setCall i call pc).Kept
  := by
  refine ⟨h.handles, h.watchers, h.held, h.waker, ?_⟩
  intro j other hj
  simp only [Loop.setCall, Table.lookup_insert_eq] at hj
  split at hj
  · next hji =>
    rw [hji]
    apply h.numbered i call hi
  · apply h.numbered j other hj

theorem Kept.advance (h : s.Kept) (hs : s.advance = some s') :
  s'.Kept
  := by
  cases takes_of_advance hs with
  | pause | pass | cancelled | unpause | start | slept =>
    apply h.goto
    intro rx hrx
    contradiction
  | @wait rx hpc | @resume rx hpc | @offline rx hpc =>
    apply h.goto
    intro rx' hrx
    rw [hpc]
    apply hrx
  | subscribe hpc htx =>
    constructor
    · apply h.handles.step htx
    · intro i
      rw [Watch.Handles.isSome_watchers_step htx, h.watchers]
      simp only [Watch.Handles.Action.subscribe.injEq, reduceCtorEq, exists_false, or_false]
      omega
    · intro rx hrx
      obtain rfl := Option.some.inj hrx
      apply Nat.lt_succ_self
    · intro i t hp
      rcases Watch.Handles.pending_of_step htx hp with hp | hb
      · apply h.waker i t hp
      · contradiction
    · apply h.numbered
  | @changed rx w tx hpc hw htx | @closed rx w tx _ hpc hw htx | @park rx w tx hpc hw htx =>
    have hrx : rx < s.nextRx := h.held rx (by rw [hpc]; rfl)
    apply h.of_tx htx
    · intro i hb
      contradiction
    · intro i j hb
      contradiction
    · intro i t hb
      cases hb
      rfl
    · intro rx' hrx'
      obtain rfl := Option.some.inj hrx'
      apply hrx

theorem Kept.step (h : s.Kept) (hs : s.step a = some s') :
  s'.Kept
  := by
  cases a with
  | advance => apply h.advance hs
  | finish result =>
    cases (finishes_of_finish hs).2 with
    | _ =>
      apply h.goto
      intro rx hrx
      contradiction
  | drop =>
    simp only [Loop.step] at hs
    split at hs
    all_goals try contradiction
    all_goals
      obtain rfl := Option.some.inj hs
      apply h.goto
      intro rx hrx
      contradiction
  | cancel =>
    obtain rfl := Option.some.inj hs
    exact ⟨h.handles, h.watchers, h.held, h.waker, h.numbered⟩
  | setOnline online =>
    obtain rfl := Option.some.inj hs
    refine ⟨h.handles, h.watchers, h.held, h.waker, ?_⟩
    intro i call hi
    simp only [Table.lookup_insert_eq] at hi
    split at hi
    · next heq =>
      rw [heq]
      apply Nat.lt_succ_self
    · apply (h.numbered i call hi).trans (Nat.lt_succ_self _)
  | proceed i =>
    obtain ⟨call, hcall, ⟨-, rfl⟩ | ⟨-, rfl⟩ | ⟨-, tx, htx, rfl⟩⟩ := step_proceed hs
    · apply h.setCall hcall
    · obtain ⟨hhandles, hwatchers, hheld, hwaker, hnumbered⟩ := h.setCall hcall .send
      exact ⟨hhandles, hwatchers, hheld, hwaker, hnumbered⟩
    · apply (h.setCall hcall .returned).of_tx htx
      · intro i hb
        contradiction
      · intro i j hb
        contradiction
      · intro i t hb
        contradiction
      · apply h.held
  | wake t =>
    obtain ⟨tx, htx, rfl⟩ := Option.map_eq_some_iff.mp hs
    apply h.of_tx htx
    · intro i hb
      contradiction
    · intro i j hb
      contradiction
    · intro i t hb
      contradiction
    · apply h.held

/-! ### Changes to come -/

/-- Until it has checked its token, the retryer is offline or cancelled unless a change is
coming, and after that it is offline and not cancelled unless one is. -/
structure Awaited (s : Loop T) : Prop where
  pauses : s.pc.Pauses → s.Coming ∨ s.online = false ∨ s.cancelled = true
  waits : s.pc.Waits → s.Coming ∨ s.online = false ∧ s.cancelled = false

/-- A call that is still to send is so after another has gone on. -/
theorem sends_setCall
    {i j : Nat} {call other : Connectivity.SetOnline} {pc : Connectivity.Pc}
    (hj : s.calls.lookup j = some other) (hsend : other.pc = .send) (hne : j ≠ i) :
  (s.setCall i call pc).Sends
  := by
  use j, other
  simp only [Loop.setCall, Table.lookup_insert_eq, if_neg hne]
  exact ⟨hj, hsend⟩

/-- A change that is sent is there to be found. -/
theorem Kept.unseen_send
    {online : Bool} (h : s.Kept) (hrx : s.pc.rx = some rx)
    (htx : s.tx.step (.send online) = some tx) :
  Unseen { s with tx := tx } rx
  := by
  obtain rfl := Option.some.inj htx
  obtain ⟨w, hw⟩ := Option.isSome_iff_exists.mp ((h.watchers rx).mpr (h.held rx hrx))
  use w, hw
  obtain ⟨hseen, hle, -⟩ := h.handles.sees rx w hw
  rw [hseen]
  apply Nat.ne_of_gt
  apply Nat.lt_succ_of_le
  rw [h.handles.version]
  apply hle

/-- A watcher whose poll is pending has no change to find. -/
theorem not_unseen_of_pending
    (hw : s.tx.watchers.lookup rx = some w)
    (hpoll : (Watch.changedPoll s.tx.cell w task).2.2 = none) :
  ¬ s.Unseen rx
  := by
  rintro ⟨w', hw', hv⟩
  obtain rfl := Option.some.inj (hw.symm.trans hw')
  rw [Watch.changedPoll_ready hv] at hpoll
  contradiction

/-- The cell is never closed. -/
theorem Kept.not_closed (h : s.Kept) (w : Watch.Watcher) (error : Watch.ChangeError) :
  (Watch.changedPoll s.tx.cell w task).2.2 ≠ some (.error error)
  := by
  intro hpoll
  by_cases hv : s.tx.cell.version = w.lastSeen
  · rw [Watch.changedPoll_pending hv h.handles.alive] at hpoll
    contradiction
  · rw [Watch.changedPoll_ready hv] at hpoll
    cases hpoll

/-- A change that is coming is so wherever the retryer uses its watcher. -/
theorem Coming.goto {pc : Pc T} (h : s.Coming) (hpc : pc.rx = s.pc.rx) :
  Coming { s with pc := pc }
  := by
  apply h.imp_right
  rintro ⟨rx, hrx, hunseen⟩
  exact ⟨rx, hpc.trans hrx, hunseen⟩

theorem Awaited.advance (h : s.Awaited) (hk : s.Kept) (hs : s.advance = some s') :
  s'.Awaited
  := by
  cases takes_of_advance hs with
  | pass | cancelled | changed | unpause | start | slept => exact ⟨False.elim, False.elim⟩
  | pause hpc hpauses =>
    refine ⟨fun _ => .inr (.inl ?_), False.elim⟩
    cases honline : s.online with
    | false => apply honline
    | true => simp [Loop.pauses, honline, canRetry_online] at hpauses
  | subscribe hpc htx =>
    refine ⟨fun _ => ?_, False.elim⟩
    apply (h.pauses (by rw [hpc]; trivial)).imp_left
    rintro (hsends | ⟨rx, hrx, -⟩)
    · left
      apply hsends
    · rw [hpc] at hrx
      contradiction
  | @wait rx hpc hcancelled =>
    refine ⟨False.elim, fun _ => ?_⟩
    rcases h.pauses (by rw [hpc]; trivial) with hcoming | honline | hc
    · left
      apply hcoming.goto
      rw [hpc]
      rfl
    · right
      exact ⟨honline, hcancelled⟩
    · rw [hcancelled] at hc
      contradiction
  | @closed rx w tx error hpc hw htx hpoll => exact absurd hpoll (hk.not_closed w error)
  | @park rx w tx hpc hw htx hpoll =>
    refine ⟨False.elim, fun _ => ?_⟩
    apply (h.waits (by rw [hpc]; trivial)).imp_left
    rintro (hsends | ⟨rx', hrx, hunseen⟩)
    · left
      apply hsends
    · rw [hpc] at hrx
      obtain rfl := Option.some.inj hrx
      exact absurd hunseen (not_unseen_of_pending hw hpoll)
  | @resume rx hpc =>
    refine ⟨False.elim, fun _ => ?_⟩
    apply (h.waits (by rw [hpc]; trivial)).imp_left
    intro hcoming
    apply hcoming.goto
    rw [hpc]
    rfl
  | @offline rx hpc honline => exact ⟨fun _ => .inr (.inl honline), False.elim⟩

/-- The retryer stands where it stood, with what was coming. -/
theorem Awaited.of_coming
    (h : s.Awaited) (hpc : s'.pc = s.pc) (honline : s'.online = s.online)
    (hcancelled : s'.cancelled = s.cancelled) (hcoming : s.Coming → s'.Coming) :
  s'.Awaited
  := by
  constructor
  · rw [hpc, honline, hcancelled]
    intro hpauses
    apply (h.pauses hpauses).imp_left hcoming
  · rw [hpc, honline, hcancelled]
    intro hwaits
    apply (h.waits hwaits).imp_left hcoming

/-- A call of `set_online` goes on. -/
theorem Awaited.proceed {i : Nat} (h : s.Awaited) (hk : s.Kept) (hok : s.Attended (.proceed i))
    (hs : s.proceed i = some s') :
  s'.Awaited
  := by
  obtain ⟨call, hcall, ⟨hpc, rfl⟩ | ⟨hpc, rfl⟩ | ⟨hpc, tx, htx, rfl⟩⟩ := step_proceed hs
  · -- the call was not one that is still to send
    refine h.of_coming rfl rfl rfl ?_
    rintro (⟨j, other, hj, hsend⟩ | hunseen)
    · left
      apply sends_setCall hj hsend
      rintro rfl
      obtain rfl := Option.some.inj (hcall.symm.trans hj)
      rw [hpc] at hsend
      contradiction
    · exact .inr hunseen
  · -- now it is
    have hsends : Sends { s.setCall i call .send with online := call.online } :=
      ⟨i, _, AList.lookup_insert _, rfl⟩
    exact ⟨fun _ => .inl (.inl hsends), fun _ => .inl (.inl hsends)⟩
  · cases hrx : s.pc.rx with
    | some rx =>
      have hcoming : Coming { s.setCall i call .returned with tx := tx } := by
        right
        use rx, hrx
        apply (hk.setCall hcall .returned).unseen_send hrx htx
      exact ⟨fun _ => .inl hcoming, fun _ => .inl hcoming⟩
    | none =>
      constructor
      · intro hpauses
        rcases hok (Pc.eq_subscribe hpauses hrx) call hcall hpc with honline | hc | hother
        · exact .inr (.inl honline)
        · exact .inr (.inr hc)
        · obtain ⟨j, other, hj, hsend, hne⟩ := hother
          left
          left
          apply sends_setCall hj hsend hne
      · intro hwaits
        obtain ⟨rx, hrx'⟩ := Pc.rx_of_waits hwaits
        cases hrx.symm.trans hrx'

theorem Awaited.step
    (h : s.Awaited) (hk : s.Kept) (hok : s.Attended a) (hs : s.step a = some s') :
  s'.Awaited
  := by
  cases a with
  | advance => apply h.advance hk hs
  | finish result =>
    cases (finishes_of_finish hs).2 with
    | _ => exact ⟨False.elim, False.elim⟩
  | drop =>
    simp only [Loop.step] at hs
    split at hs
    all_goals try contradiction
    all_goals
      obtain rfl := Option.some.inj hs
      exact ⟨False.elim, False.elim⟩
  | cancel =>
    obtain rfl := Option.some.inj hs
    constructor
    · exact fun _ => .inr (.inr rfl)
    · intro hwaits
      left
      apply hok hwaits
  | setOnline online =>
    obtain rfl := Option.some.inj hs
    refine h.of_coming rfl rfl rfl ?_
    apply Or.imp_left
    rintro ⟨j, other, hj, hsend⟩
    use j, other
    have hne : j ≠ s.nextCall := Nat.ne_of_lt (hk.numbered j other hj)
    simp only [Table.lookup_insert_eq, if_neg hne]
    exact ⟨hj, hsend⟩
  | proceed i => apply h.proceed hk hok hs
  | wake t =>
    obtain ⟨tx, htx, rfl⟩ := Option.map_eq_some_iff.mp hs
    refine h.of_coming rfl rfl rfl ?_
    apply Or.imp_right
    rintro ⟨rx, hrx, hunseen⟩
    use rx, hrx
    simp only [Watch.Handles.step] at htx
    split at htx
    · obtain rfl := Option.some.inj htx
      apply hunseen
    · contradiction

/-! ### Strandings -/

/-- A retryer with a change coming, or with nothing to wake up for, is not stranded. -/
theorem Awaited.not_stranded (h : s.Awaited) (hk : s.Kept) :
  ¬ s.Stranded
  := by
  rintro ⟨rx, hpc, hreason, hwake⟩
  rcases h.waits (by rw [hpc]; trivial) with hcoming | ⟨honline, hcancelled⟩
  · apply hwake
    rcases hcoming with hsends | ⟨rx', hrx, w, hw, hv⟩
    · exact .inr (.inr hsends)
    · rw [hpc] at hrx
      obtain rfl := Option.some.inj hrx
      cases hp : s.tx.pending.lookup rx with
      | none => exact .inl hp
      | some t =>
        obtain rfl := hk.waker rx t hp
        obtain ⟨w', hw', hhand | ⟨hseen, -⟩⟩ := hk.handles.pending rx task hp
        · exact .inr (.inl hhand)
        · obtain rfl := Option.some.inj (hw.symm.trans hw')
          exact absurd hseen.symm hv
  · rw [honline, hcancelled] at hreason
    simp at hreason

theorem Awaited.not_strands (h : s.Awaited) (hk : s.Kept) :
  ¬ s.Strands
  := by
  rintro ⟨as, has, s', hexec, hstranded⟩
  induction as generalizing s with
  | nil =>
    obtain rfl := Option.some.inj hexec
    apply h.not_stranded hk hstranded
  | cons a as ih =>
    obtain ⟨t, ht, hexec⟩ := Option.bind_eq_some_iff.mp hexec
    have hok : s.Attended a := by
      rcases has a List.mem_cons_self with rfl | rfl
      · trivial
      · trivial
    apply ih (h.step hk hok ht) (hk.step ht) (fun b hb => has b (List.mem_cons_of_mem a hb)) hexec

theorem Stranded.strands (h : s.Stranded) :
  s.Strands
  := ⟨[], nofun, s, rfl, h⟩

theorem Strands.of_step
    (h : s'.Strands) (ha : a = .advance ∨ a = .wake task) (hs : s.step a = some s') :
  s.Strands
  := by
  obtain ⟨as, has, t, hexec, hstranded⟩ := h
  refine ⟨a :: as, ?_, t, (Machine.exec_cons hs).trans hexec, hstranded⟩
  intro b hb
  rcases List.mem_cons.mp hb with rfl | hb
  · apply ha
  · apply has b hb

/-- A poll that finds nothing parks. -/
theorem Kept.step_park
    (h : s.Kept) (hpc : s.pc = .poll rx) (hw : s.tx.watchers.lookup rx = some w)
    (hv : s.tx.cell.version = w.lastSeen) :
  ∃ tx, s.step .advance = some { s with tx := tx, pc := .parked rx } ∧
    tx.hand = s.tx.hand ∧ tx.cell.version = s.tx.cell.version ∧
    tx.watchers.lookup rx = some w ∧ tx.pending.lookup rx = some task
  := by
  have hpoll : Watch.changedPoll s.tx.cell w task = _ :=
    Watch.changedPoll_pending hv h.handles.alive
  let tx : Watch.Handles Bool :=
    { s.tx.setWatcher { s.tx.cell with waiters := s.tx.cell.waiters.insert w.id task } rx w
        (s.tx.observed rx) with
      pending := s.tx.pending.insert rx task }
  have htx : s.tx.step (.changed rx task) = some tx := by
    simp only [Watch.Handles.step, hw, hpoll, Option.bind_eq_bind, Option.bind_some]
    rfl
  refine ⟨tx, ?_, rfl, rfl, AList.lookup_insert _, AList.lookup_insert _⟩
  simp only [Loop.step, Loop.advance, hpc, hw, htx, hpoll, Option.bind_eq_bind, Option.bind_some]

/-- A waker in hand is woken. -/
theorem step_wake (s : Loop T) (hmem : task ∈ s.tx.hand) :
  ∃ tx, s.step (.wake task) = some { s with tx := tx } ∧ tx.hand = s.tx.hand.erase task ∧
    tx.cell = s.tx.cell ∧ tx.watchers = s.tx.watchers
  := by
  let tx : Watch.Handles Bool :=
    { s.tx with
      hand := s.tx.hand.erase task
      pending := Table.retain (fun _ t => t ≠ task) s.tx.pending }
  use tx
  simp only [Loop.step, Watch.Handles.step, if_pos hmem, Option.map_some]
  exact ⟨rfl, rfl, rfl, rfl⟩

/-- A retryer that finds nothing, and has reason to go on, strands once its wakers in hand
are spent. -/
theorem Kept.strands_poll
    (h : s.Kept) (hpc : s.pc = .poll rx) (hw : s.tx.watchers.lookup rx = some w)
    (hv : s.tx.cell.version = w.lastSeen) (hsends : ¬ s.Sends)
    (hreason : s.online = true ∨ s.cancelled = true) :
  s.Strands
  := by
  induction hn : s.tx.hand.count task generalizing s with
  | zero =>
    obtain ⟨tx, hs, hhand, -, -, hp⟩ := h.step_park hpc hw hv
    let parked : Loop T := { s with tx := tx, pc := .parked rx }
    have hstranded : parked.Stranded := by
      refine ⟨rx, rfl, hreason, ?_⟩
      rintro (hnone | hmem | hsends')
      · cases hp.symm.trans hnone
      · rw [hhand] at hmem
        apply List.count_eq_zero.mp hn hmem
      · apply hsends hsends'
    apply hstranded.strands.of_step (.inl rfl) hs
  | succ n ih =>
    -- it parks, is woken in vain, and polls again
    obtain ⟨tx, hs, hhand, hversion, hwatchers, -⟩ := h.step_park hpc hw hv
    let parked : Loop T := { s with tx := tx, pc := .parked rx }
    have hmem : task ∈ parked.tx.hand := by
      apply List.count_pos_iff.mp
      rw [hhand, hn]
      apply Nat.succ_pos
    obtain ⟨tx', hwake, hhand', hcell, hwatchers'⟩ := parked.step_wake hmem
    let polling : Loop T := { s with tx := tx', pc := .poll rx }
    have hresume : ({ parked with tx := tx' } : Loop T).step .advance = some polling := rfl
    have hstrands : polling.Strands := by
      apply ih (((h.step hs).step hwake).step hresume) rfl
      · rw [hwatchers']
        apply hwatchers
      · rw [hcell]
        apply hversion.trans hv
      · apply hsends
      · apply hreason
      · rw [hhand', List.count_erase_self, hhand, hn]
        rfl
    have hwoken := hstrands.of_step (.inl rfl) hresume
    have hparked := hwoken.of_step (.inr rfl) hwake
    apply hparked.of_step (.inl rfl) hs

/-- A retryer that waits, with nothing coming and reason to go on, strands. -/
theorem Kept.strands_waits
    (h : s.Kept) (hwaits : s.pc.Waits) (hcoming : ¬ s.Coming)
    (hreason : s.online = true ∨ s.cancelled = true) :
  s.Strands
  := by
  obtain ⟨rx, hrx⟩ := Pc.rx_of_waits hwaits
  obtain ⟨w, hw⟩ := Option.isSome_iff_exists.mp ((h.watchers rx).mpr (h.held rx hrx))
  have hsends : ¬ s.Sends := fun hsends => hcoming (.inl hsends)
  have hv : s.tx.cell.version = w.lastSeen := by
    by_contra hv
    apply hcoming (.inr ⟨rx, hrx, w, hw, hv⟩)
  cases hpc : s.pc with
  | poll rx' =>
    rw [hpc] at hrx
    obtain rfl := Option.some.inj hrx
    apply h.strands_poll hpc hw hv hsends hreason
  | parked rx' =>
    rw [hpc] at hrx
    obtain rfl := Option.some.inj hrx
    let polling : Loop T := { s with pc := .poll rx' }
    have hresume : s.step .advance = some polling := by
      simp only [Loop.step, Loop.advance, hpc]
      rfl
    have hstrands : polling.Strands := (h.step hresume).strands_poll rfl hw hv hsends hreason
    apply hstrands.of_step (.inl rfl) hresume
  | _ =>
    rw [hpc] at hwaits
    contradiction

/-- A retryer that subscribes online strands when nothing is still to be sent. -/
theorem Kept.strands_subscribe
    (h : s.Kept) (hpc : s.pc = .subscribe) (honline : s.online = true)
    (hcancelled : s.cancelled = false) (hsends : ¬ s.Sends) :
  s.Strands
  := by
  have hnone : (s.tx.watchers.lookup s.nextRx).isSome = false := by
    apply Bool.eq_false_of_not_eq_true
    rw [h.watchers]
    apply Nat.lt_irrefl
  let tx : Watch.Handles Bool := s.tx.setWatcher (Watch.subscribe s.tx.cell).1 s.nextRx
    (Watch.subscribe s.tx.cell).2 s.tx.sent.length
  have htx : s.tx.step (.subscribe s.nextRx) = some tx := by
    simp only [Watch.Handles.step, hnone]
    rfl
  let subscribed : Loop T := { s with tx := tx, nextRx := s.nextRx + 1, pc := .token s.nextRx }
  have hsubscribe : s.step .advance = some subscribed := by
    simp only [Loop.step, Loop.advance, hpc, htx, Option.map_some]
    rfl
  let polling : Loop T := { subscribed with pc := .poll s.nextRx }
  have hwait : subscribed.step .advance = some polling :=
    congrArg some (if_neg (ne_true_of_eq_false hcancelled))
  have hstrands : polling.Strands := by
    apply ((h.step hsubscribe).step hwait).strands_waits trivial _ (.inl honline)
    rintro (hsends' | ⟨rx, hrx, w, hw, hv⟩)
    · apply hsends hsends'
    · obtain rfl := Option.some.inj hrx
      obtain rfl := Option.some.inj ((AList.lookup_insert _).symm.trans hw)
      apply hv rfl
  apply Strands.of_step _ (.inl rfl) hsubscribe
  apply hstrands.of_step (.inl rfl) hwait

/-- A step that does not meet the condition comes to where the retryer strands. -/
theorem Kept.strands_of_not_attended (h : s.Kept) (hok : ¬ s.Attended a) :
  ∃ s', s.step a = some s' ∧ s'.Strands
  := by
  cases a with
  | proceed i =>
    simp only [Attended, Classical.not_imp, not_forall, not_or] at hok
    obtain ⟨hpc, call, hcall, hsend, honline, hcancelled, hother⟩ := hok
    let tx : Watch.Handles Bool :=
      { s.tx with
        cell := (Watch.send s.tx.cell call.online).1
        hand := (Watch.send s.tx.cell call.online).2 ++ s.tx.hand
        sent := s.tx.sent ++ [call.online] }
    let sent : Loop T := { s.setCall i call .returned with tx := tx }
    have hs : s.step (.proceed i) = some sent := by
      have hcall : s.calls.lookup i = some call := hcall
      simp only [Loop.step, Loop.proceed, hcall, hsend, Option.bind_eq_bind, Option.bind_some]
      rfl
    use sent, hs
    apply (h.step hs).strands_subscribe hpc
    · apply Bool.eq_true_of_not_eq_false honline
    · apply Bool.eq_false_of_not_eq_true hcancelled
    · rintro ⟨j, other, hj, hsend'⟩
      simp only [sent, Loop.setCall] at hj
      obtain ⟨-, rfl⟩ | ⟨hne, hj⟩ := Table.lookup_insert_cases hj
      · contradiction
      · apply hother ⟨j, other, hj, hsend', hne⟩
  | cancel =>
    obtain ⟨hwaits, hcoming⟩ := Classical.not_imp.mp hok
    let cancelled : Loop T := { s with cancelled := true }
    have hs : s.step .cancel = some cancelled := rfl
    use cancelled, hs
    apply (h.step hs).strands_waits hwaits hcoming (.inr rfl)
  | _ => exact absurd trivial hok

/-- In a run the retryer is never stranded, nor comes to be on its own, exactly when every
step meets the condition. -/
theorem neverStranded_iff (retryer : Retryer) (mode : NetworkMode) (as : List (Action T)) :
  machine.Meets (fun s a => ∀ s' ∈ s.step a, ¬ s'.Strands) (initial retryer mode) as ↔
    machine.Meets Attended (initial retryer mode) as
  := by
  symm
  apply Machine.meets_congr (I := fun s => s.Awaited ∧ s.Kept)
  · exact ⟨⟨False.elim, False.elim⟩, kept_initial retryer mode⟩
  · rintro s a ⟨hawaited, hkept⟩
    constructor
    · intro hok s' hs
      apply (hawaited.step hkept hok hs).not_strands (hkept.step hs)
    · intro hnever
      by_contra hok
      obtain ⟨s', hs, hstrands⟩ := hkept.strands_of_not_attended hok
      apply hnever s' hs hstrands
  · rintro s a s' ⟨hawaited, hkept⟩ hok hs
    exact ⟨hawaited.step hkept hok hs, hkept.step hs⟩

/-- The manager comes back online between the test and the subscription of the pause, and
the retryer parks for good. -/
theorem not_neverStranded_overtaken :
  ∃ s : Loop Nat, machine.Reachable s ∧ s.Stranded ∧ s.online = true
  := by
  have init : machine.init (initial ⟨.always, 0, none, false⟩ .online : Loop Nat) := ⟨_, _, rfl⟩
  obtain ⟨s, hs, hseen⟩ := Machine.exists_reachable_of_exec
    [.advance, .advance, .setOnline false, .proceed 0, .proceed 0, .proceed 0,
      .finish (.error (.network "refused")), .advance, .advance,
      .setOnline true, .proceed 1, .proceed 1, .proceed 1,
      .advance, .advance, .advance]
    (fun s : Loop Nat => (s.pc.suspended, s.online, s.tx.pending.lookup 1, s.tx.hand,
      decide (∃ i call, s.calls.lookup i = some call ∧ call.pc = .send)))
    (some 1, true, some task, [], false) init (by decide +kernel)
  simp only [Prod.mk.injEq] at hseen
  obtain ⟨hparked, honline, hpending, hhand, hsends⟩ := hseen
  refine ⟨s, hs, ⟨1, Pc.suspended_eq_some_iff.mp hparked, .inl honline, ?_⟩, honline⟩
  rintro (hnone | hmem | hsends')
  · cases hpending.symm.trans hnone
  · rw [hhand] at hmem
    contradiction
  · apply of_decide_eq_false hsends hsends'

end Loop

end Retryer

end RsQuery
