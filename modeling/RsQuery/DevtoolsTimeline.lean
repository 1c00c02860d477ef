import RsQuery.Client
import RsQuery.Lib.Machine

/-!
# The timeline of the devtools

The devtools record the notifications of a client through a collector, a task with a
subscription to the state changes and one to the activity events.  `stop_recording` raises
a flag that the collector reads after it has received something; until then it is still
there.  `record_from_client` lowers the flag again for the collector it starts, and a
collector that is still there goes on as well.  Only where recording starts with no collector
left is there one at most, and every notification recorded once.

Notifications are numbered in the order they are sent, so that those that look alike can be
told apart.
-/

namespace RsQuery

namespace Devtools

/-- Kind of a timeline event. -/
inductive TimelineKind where
  | loading
  | refetching
  | success
  | stale
  | error
  | activity
deriving DecidableEq, Repr

/-- What happened, to which key, when. -/
structure TimelineEvent where
  timestampMs : Nat
  cacheKey : String
  kind : TimelineKind
  fetchingCount : Option Nat
  mutatingCount : Option Nat
deriving DecidableEq, Repr

def mapVariant : QueryStateVariant → TimelineKind
  | .idle | .stale => .stale
  | .loading => .loading
  | .refetching => .refetching
  | .success => .success
  | .error => .error

/-- The timeline event of a state change. -/
def updateEvent (nowMs : Nat) (update : QueryStateUpdate) : TimelineEvent :=
  ⟨nowMs, update.key, mapVariant update.stateVariant, none, none⟩

/-- The timeline event of an activity event. -/
def activityEvent (nowMs : Nat) : ActivityEvent → TimelineEvent
  | .fetchingCountChanged count => ⟨nowMs, "", .activity, some count, none⟩
  | .mutatingCountChanged count => ⟨nowMs, "", .activity, none, some count⟩

/-- Appends an event to a timeline; the oldest is dropped where it is full. -/
def pushCappedEvent (timeline : List TimelineEvent) (event : TimelineEvent) (capacity : Nat) :
    List TimelineEvent :=
  (if timeline.length ≥ capacity then timeline.tail else timeline) ++ [event]

/-- The devtools, without the client they observe. -/
structure DevtoolsState where
  timeline : List TimelineEvent
  capacity : Nat
  /-- Whether a collector is currently running. -/
  recording : Bool
  /-- Cooperatively stops the running collector. -/
  stop : Bool

/-- Devtools with a bounded timeline. -/
def withCapacity (capacity : Nat) : DevtoolsState :=
  ⟨[], max capacity 1, false, false⟩

/-- A collector that has not ended, by its two receivers. -/
structure Collector where
  updates : Nat
  activity : Nat
deriving DecidableEq, Repr

/-- A value with the number of its notification. -/
abbrev Numbered (T : Type) := Nat × T

/-- The two channels of the client, on which every value has its number. -/
structure Channels where
  updates : Bus.Shared (Numbered QueryStateUpdate)
  activity : Bus.Shared (Numbered ActivityEvent)

/-- Devtools and the channels of their client; the collectors that have not ended, and how
many were spawned; how many notifications were sent, and how many of them before
`record_from_client` was last called; and the numbers of those that were appended to the
timeline. -/
structure Recording where
  devtools : DevtoolsState
  channels : Channels
  collectors : Table Nat Collector
  spawned : Nat
  sent : Nat
  since : Nat
  appended : List Nat

/-- A step of the system. -/
inductive Action where
  | recordFromClient
  | stopRecording
  /-- The client notifies a state change. -/
  | notify (update : QueryStateUpdate)
  /-- The client sends an activity event. -/
  | sendActivity (event : ActivityEvent)
  /-- The collector `j` goes through its loop once: until it suspends, begins again, or
  ends. -/
  | turn (j nowMs : Nat)

namespace Collector

/-- What `select` of the two `recv` futures gives: an activity event if there is one, and a
state change otherwise. -/
def select (c : Collector) (channels : Channels) (j nowMs : Nat) :
    Channels × Poll (Except Bus.RecvError (Numbered TimelineEvent)) :=
  let (activity, ready) := Bus.recvPoll channels.activity c.activity j
  let channels := { channels with activity }
  match ready with
  | some incoming => (channels, some (incoming.map (Prod.map id (activityEvent nowMs))))
  | none =>
    let (updates, ready) := Bus.recvPoll channels.updates c.updates j
    ({ channels with updates },
      ready.map fun incoming => incoming.map (Prod.map id (updateEvent nowMs)))

/-- The receivers of a collector are dropped when it ends. -/
def dropReceivers (c : Collector) (channels : Channels) : Channels where
  updates := Bus.dropReceiver channels.updates c.updates
  activity := Bus.dropReceiver channels.activity c.activity

end Collector

namespace Recording

/-- The devtools of a new client. -/
def initial (capacity : Nat) : Recording where
  devtools := withCapacity capacity
  channels := ⟨QueryClient.senderOnly 64, QueryClient.senderOnly 16⟩
  collectors := ∅
  spawned := 0
  sent := 0
  since := 0
  appended := []

/-- Starts recording, unless it was started. -/
def recordFromClient (s : Recording) : Recording :=
  if s.devtools.recording then { s with since := s.sent }
  else
    let (updates, rxUpdates) := Bus.subscribe s.channels.updates
    let (activity, rxActivity) := Bus.subscribe s.channels.activity
    { s with
        devtools := { s.devtools with recording := true, stop := false }
        channels := ⟨updates, activity⟩
        collectors := s.collectors.insert s.spawned ⟨rxUpdates, rxActivity⟩
        spawned := s.spawned + 1
        since := s.sent }

/-- Asks the collector to stop. -/
def stopRecording (s : Recording) : Recording :=
  { s with devtools := { s.devtools with recording := false, stop := true } }

/-- The collector `j` ends. -/
def finish (s : Recording) (j : Nat) (c : Collector) : Recording :=
  { s with
      channels := c.dropReceivers s.channels
      collectors := s.collectors.erase j }

/-- Records an event, which is that of the notification `n`. -/
def append (s : Recording) (n : Nat) (event : TimelineEvent) : Recording :=
  { s with
      devtools := { s.devtools with
        timeline := pushCappedEvent s.devtools.timeline event s.devtools.capacity }
      appended := s.appended ++ [n] }

/-- One turn of the loop of a collector. -/
def collect (s : Recording) (j nowMs : Nat) (c : Collector) : Recording :=
  let (channels, ready) := c.select s.channels j nowMs
  let s := { s with channels }
  match ready with
  | none | some (.error (.lagged _)) => s
  | some (.error .closed) => s.finish j c
  | some (.ok (n, event)) => if s.devtools.stop then s.finish j c else s.append n event

/-- The state after an action, if it is enabled. -/
def step (s : Recording) : Action → Option Recording
  | .recordFromClient => some s.recordFromClient
  | .stopRecording => some s.stopRecording
  | .notify update =>
    some { s with
      channels := { s.channels with updates := (Bus.send s.channels.updates (s.sent, update)).1 }
      sent := s.sent + 1 }
  | .sendActivity event =>
    some { s with
      channels := { s.channels with activity := (Bus.send s.channels.activity (s.sent, event)).1 }
      sent := s.sent + 1 }
  | .turn j nowMs => (s.collectors.lookup j).map fun c => s.collect j nowMs c

/-- Devtools of this capacity, and every step. -/
def machine (capacity : Nat) : Machine Recording Action :=
  ⟨fun s => s = initial capacity, step⟩

/-! ### Recording once -/

/-- At most one collector goes on to append what it receives. -/
def OneAccepts (s : Recording) : Prop :=
  s.devtools.stop = false →
    ∀ i c j d, s.collectors.lookup i = some c → s.collectors.lookup j = some d → i = j

/-- The notifications sent since `record_from_client` was last called were appended once at
most. -/
def AppendedOnce (s : Recording) : Prop :=
  (s.appended.filter (s.since ≤ ·)).Nodup

instance (s : Recording) : Decidable s.AppendedOnce :=
  inferInstanceAs (Decidable (List.Nodup _))

/-- What is asked of a step: afterwards one collector at most accepts events, and every
notification since the last call was appended once at most; and nothing is appended while
nothing is recorded. -/
def RecordsOnce (s : Recording) (a : Action) : Prop :=
  ∀ s' ∈ s.step a, s'.OneAccepts ∧ s'.AppendedOnce ∧
    (s.devtools.recording = false → s'.appended = s.appended)

/-- No collector is left. -/
def Idle (s : Recording) : Prop :=
  ∀ j, s.collectors.lookup j = none

/-- Recording starts only after every collector has ended. -/
def StartsAfresh (s : Recording) : Action → Prop
  | .recordFromClient => s.devtools.recording = false → s.Idle
  | _ => True

end Recording

/-! ### What is queued for a collector -/

section Queued

variable {T : Type}

/-- The numbers of the notifications queued at a receiver. -/
def numbers (channel : Bus.Shared (Numbered T)) (rx : Nat) : List Nat :=
  ((channel.receivers.lookup rx).map fun r => r.queue.map Prod.fst).getD []

theorem numbers_subscribe (channel : Bus.Shared (Numbered T)) :
  numbers (Bus.subscribe channel).1 (Bus.subscribe channel).2 = []
  := by
  rw [numbers, Bus.subscribe_lookup, Bus.subscribe, if_pos rfl]
  rfl

/-- A notification is queued last, and the first may be dropped. -/
theorem numbers_send (channel : Bus.Shared (Numbered T)) (n : Nat) (value : T) (rx : Nat) :
  (numbers (Bus.send channel (n, value)).1 rx).Sublist (numbers channel rx ++ [n])
  := by
  rw [numbers, numbers, Bus.send_lookup]
  cases channel.receivers.lookup rx with
  | none => simp
  | some r =>
    simp only [Option.map_some, Option.getD_some, Bus.RecvState.push]
    split
    · apply List.sublist_append_left
    · split
      · rw [List.map_append]
        apply List.Sublist.append_right
        apply (List.tail_sublist r.queue).map
      · rw [List.map_append]
        rfl

/-- A poll takes the first notification, or none. -/
theorem numbers_recvPoll (channel : Bus.Shared (Numbered T)) (rx : Nat) (waker : Waker) :
  match (Bus.recvPoll channel rx waker).2 with
  | some (.ok value) =>
    numbers channel rx = value.1 :: numbers (Bus.recvPoll channel rx waker).1 rx
  | _ => numbers (Bus.recvPoll channel rx waker).1 rx = numbers channel rx
  := by
  cases hr : channel.receivers.lookup rx with
  | none => simp [Bus.recvPoll, Bus.pollState, hr]
  | some r =>
    by_cases hm : r.missed > 0
    · simp [Bus.recvPoll, Bus.pollState, hr, hm, numbers]
    · cases hq : r.queue with
      | cons value rest => simp [Bus.recvPoll, Bus.pollState, hr, hm, hq, numbers]
      | nil =>
        cases ho : channel.sendersAlive with
        | false => simp [Bus.recvPoll, Bus.pollState, hr, hm, hq, ho, numbers]
        | true => simp [Bus.recvPoll, Bus.pollState, hr, hm, hq, ho, numbers]

end Queued

/-- The numbers of the notifications queued for a collector. -/
def Collector.queued (c : Collector) (channels : Channels) : List Nat :=
  numbers channels.activity c.activity ++ numbers channels.updates c.updates

/-- A collector takes one of the notifications queued for it, or none. -/
theorem Collector.queued_select (c : Collector) (channels : Channels) (j nowMs : Nat) :
  match (c.select channels j nowMs).2 with
  | some (.ok (n, _)) => (c.queued channels).Perm (n :: c.queued (c.select channels j nowMs).1)
  | _ => c.queued (c.select channels j nowMs).1 = c.queued channels
  := by
  have hactivity := numbers_recvPoll channels.activity c.activity j
  have hupdates := numbers_recvPoll channels.updates c.updates j
  simp only [select, queued]
  generalize Bus.recvPoll channels.activity c.activity j = activity at hactivity
  generalize Bus.recvPoll channels.updates c.updates j = updates at hupdates
  obtain ⟨activity, _ | incoming⟩ := activity
  · obtain ⟨updates, _ | incoming⟩ := updates
    · -- nothing is there
      simp only [Option.map_none] at hactivity hupdates ⊢
      rw [hactivity, hupdates]
    · cases incoming with
      | error e =>
        simp only [Option.map_some, Except.map] at hactivity hupdates ⊢
        rw [hactivity, hupdates]
      | ok value =>
        simp only [Option.map_some, Except.map, Prod.map] at hactivity hupdates ⊢
        rw [hactivity, hupdates]
        apply List.perm_middle
  · cases incoming with
    | error e =>
      simp only [Except.map] at hactivity ⊢
      rw [hactivity]
    | ok value =>
      simp only [Except.map, Prod.map] at hactivity ⊢
      rw [hactivity]
      apply List.Perm.refl

namespace Recording

variable {s s' : Recording} {a : Action} {capacity : Nat} {c : Collector}

/-- What is kept while recording starts afresh: there is one collector at most, and none
goes on that was asked to stop; nothing was appended twice, and what is queued for the
collector was not appended yet. -/
structure Kept (s : Recording) : Prop where
  single : ∀ i c j d, s.collectors.lookup i = some c → s.collectors.lookup j = some d → i = j
  spawned : ∀ i c, s.collectors.lookup i = some c → i < s.spawned
  stopped : s.devtools.recording = false → s.devtools.stop = true ∨ s.Idle
  nodup : s.appended.Nodup
  sent : ∀ n ∈ s.appended, n < s.sent
  queued : ∀ j c, s.collectors.lookup j = some c → (c.queued s.channels).Nodup ∧
    ∀ n ∈ c.queued s.channels, n < s.sent ∧ n ∉ s.appended

theorem kept_initial (capacity : Nat) :
  (initial capacity).Kept
  := by
  constructor
  · intro i c j d hi
    contradiction
  · intro i c hi
    contradiction
  · intro _
    right
    intro j
    rfl
  · apply List.nodup_nil
  · intro n hn
    contradiction
  · intro j c hj
    contradiction

/-- A collector is started, and there was none. -/
theorem Kept.start (h : s.Kept) (hidle : s.devtools.recording = false → s.Idle) :
  s.recordFromClient.Kept
  := by
  unfold recordFromClient
  split
  · exact ⟨h.single, h.spawned, h.stopped, h.nodup, h.sent, h.queued⟩
  · next hrecording =>
    have hidle := hidle (by simpa using hrecording)
    have hlookup (j : Nat) (d : Collector) (c : Collector)
        (hj : (s.collectors.insert s.spawned c).lookup j = some d) : j = s.spawned ∧ d = c := by
      rw [Table.lookup_insert_eq] at hj
      split at hj
      · next heq => exact ⟨heq, (Option.some.inj hj).symm⟩
      · cases (hidle j).symm.trans hj
    constructor
    · intro i c j d hi hj
      rw [(hlookup i c _ hi).1, (hlookup j d _ hj).1]
    · intro i c hi
      rw [(hlookup i c _ hi).1]
      apply Nat.lt_succ_self
    · intro hfalse
      contradiction
    · apply h.nodup
    · apply h.sent
    · intro j c hj
      obtain ⟨-, rfl⟩ := hlookup j c _ hj
      simp only [Collector.queued]
      rw [numbers_subscribe, numbers_subscribe]
      simp

theorem Kept.stop (h : s.Kept) :
  s.stopRecording.Kept
  := ⟨h.single, h.spawned, fun _ => .inl rfl, h.nodup, h.sent, h.queued⟩

/-- A notification is sent, and is queued last. -/
theorem Kept.send (h : s.Kept) (channels : Channels)
    (hqueued : ∀ c : Collector, ∃ l l', c.queued s.channels = l ++ l' ∧
      (c.queued channels).Sublist (l ++ s.sent :: l')) :
  Kept { s with channels, sent := s.sent + 1 }
  := by
  constructor
  · apply h.single
  · apply h.spawned
  · apply h.stopped
  · apply h.nodup
  · intro n hn
    apply Nat.lt_succ_of_lt (h.sent n hn)
  · intro j c hj
    obtain ⟨hnodup, hnew⟩ := h.queued j c hj
    obtain ⟨l, l', heq, hsublist⟩ := hqueued c
    rw [heq] at hnodup hnew
    have hfresh : s.sent ∉ l ++ l' := by
      intro hmem
      apply Nat.lt_irrefl _ (hnew s.sent hmem).1
    constructor
    · apply List.Nodup.sublist hsublist
      rw [List.nodup_middle]
      exact List.nodup_cons.mpr ⟨hfresh, hnodup⟩
    · intro n hn
      rcases List.mem_cons.mp (List.perm_middle.mem_iff.mp (hsublist.subset hn)) with rfl | hn
      · use Nat.lt_succ_self _
        intro hmem
        apply Nat.lt_irrefl _ (h.sent _ hmem)
      · obtain ⟨hlt, hnot⟩ := hnew n hn
        use Nat.lt_succ_of_lt hlt

/-- The only collector ends. -/
theorem Kept.finish {j : Nat} (h : s.Kept) (hj : s.collectors.lookup j = some c)
    (channels : Channels) :
  Kept { s with channels, collectors := s.collectors.erase j }
  := by
  have hidle (i : Nat) : (s.collectors.erase j).lookup i = none := by
    rw [Table.lookup_erase_eq]
    split
    · rfl
    · next hne =>
      rw [← Option.not_isSome_iff_eq_none]
      intro hsome
      obtain ⟨d, hi⟩ := Option.isSome_iff_exists.mp hsome
      apply hne (h.single i d j c hi hj)
  constructor
  · intro i c k d hi
    cases (hidle i).symm.trans hi
  · intro i c hi
    cases (hidle i).symm.trans hi
  · intro _
    right
    apply hidle
  · apply h.nodup
  · apply h.sent
  · intro i c hi
    cases (hidle i).symm.trans hi

/-- A turn takes nothing from the queues, or ends the collector, or records what it takes. -/
theorem collect_cases (s : Recording) (j nowMs : Nat) (c : Collector) :
  let channels := (c.select s.channels j nowMs).1
  s.collect j nowMs c = { s with channels } ∧ c.queued channels = c.queued s.channels ∨
    s.collect j nowMs c = { s with channels }.finish j c ∨
    ∃ n event, s.collect j nowMs c = { s with channels }.append n event ∧
      s.devtools.stop = false ∧ (c.queued s.channels).Perm (n :: c.queued channels)
  := by
  have hselect := c.queued_select s.channels j nowMs
  unfold collect
  generalize c.select s.channels j nowMs = selected at hselect
  obtain ⟨channels, _ | incoming⟩ := selected
  · left
    exact ⟨rfl, hselect⟩
  · cases incoming with
    | error e =>
      cases e with
      | lagged missed =>
        left
        exact ⟨rfl, hselect⟩
      | closed =>
        right
        left
        rfl
    | ok value =>
      right
      cases hstop : s.devtools.stop with
      | true =>
        left
        simp [hstop]
      | false =>
        right
        use value.1, value.2
        simp only [hstop, Bool.false_eq_true, if_false, true_and]
        apply hselect

/-- The only collector makes a turn. -/
theorem Kept.collect {j : Nat} (h : s.Kept) (hj : s.collectors.lookup j = some c) (nowMs : Nat) :
  (s.collect j nowMs c).Kept
  := by
  obtain ⟨hnodup, hnew⟩ := h.queued j c hj
  have hother (i : Nat) (d : Collector) (hi : s.collectors.lookup i = some d) : d = c := by
    obtain rfl := h.single i d j c hi hj
    apply Option.some.inj (hi.symm.trans hj)
  rcases s.collect_cases j nowMs c with ⟨hcollect, hsame⟩ | hcollect |
    ⟨n, event, hcollect, -, htaken⟩
  · rw [hcollect]
    constructor
    · apply h.single
    · apply h.spawned
    · apply h.stopped
    · apply h.nodup
    · apply h.sent
    · intro i d hi
      rw [hother i d hi, hsame]
      exact ⟨hnodup, hnew⟩
  · rw [hcollect]
    apply h.finish hj
  · rw [hcollect]
    -- the notification was queued once, and is now appended
    obtain ⟨hnot, hrest⟩ := List.nodup_cons.mp (htaken.nodup_iff.mp hnodup)
    have hn := hnew n (htaken.mem_iff.mpr List.mem_cons_self)
    constructor
    · apply h.single
    · apply h.spawned
    · apply h.stopped
    · apply List.Nodup.append h.nodup (List.nodup_singleton n)
      simpa using hn.2
    · intro m hm
      rcases List.mem_append.mp hm with hm | hm
      · apply h.sent m hm
      · rw [List.mem_singleton.mp hm]
        apply hn.1
    · intro i d hi
      rw [hother i d hi]
      use hrest
      intro m hm
      obtain ⟨hlt, hfresh⟩ := hnew m (htaken.mem_iff.mpr (List.mem_cons_of_mem n hm))
      use hlt
      rw [append, List.mem_append, List.mem_singleton, not_or]
      use hfresh
      rintro rfl
      apply hnot hm

theorem Kept.step (h : s.Kept) (hok : s.StartsAfresh a) (hs : s.step a = some s') :
  s'.Kept
  := by
  cases a with
  | recordFromClient =>
    cases hs
    apply h.start hok
  | stopRecording =>
    cases hs
    apply h.stop
  | notify update =>
    cases hs
    apply h.send
    intro c
    use c.queued s.channels, []
    rw [List.append_nil]
    use rfl
    rw [Collector.queued, Collector.queued, List.append_assoc]
    apply List.Sublist.append_left
    apply numbers_send
  | sendActivity event =>
    cases hs
    apply h.send
    intro c
    use numbers s.channels.activity c.activity, numbers s.channels.updates c.updates, rfl
    rw [Collector.queued, ← List.singleton_append, ← List.append_assoc]
    apply List.Sublist.append_right
    apply numbers_send
  | turn j nowMs =>
    obtain ⟨c, hj, rfl⟩ := Option.map_eq_some_iff.mp hs
    apply h.collect hj

/-- Nothing is appended while nothing is recorded. -/
theorem Kept.appended_of_step (h : s.Kept) (hs : s.step a = some s')
    (hrecording : s.devtools.recording = false) :
  s'.appended = s.appended
  := by
  cases a with
  | recordFromClient =>
    cases hs
    rw [recordFromClient, hrecording]
    rfl
  | stopRecording =>
    cases hs
    rfl
  | notify update =>
    cases hs
    rfl
  | sendActivity event =>
    cases hs
    rfl
  | turn j nowMs =>
    obtain ⟨c, hj, rfl⟩ := Option.map_eq_some_iff.mp hs
    rcases s.collect_cases j nowMs c with ⟨hcollect, -⟩ | hcollect | ⟨n, event, -, hstop, -⟩
    · rw [hcollect]
    · rw [hcollect]
      rfl
    · exfalso
      rcases h.stopped hrecording with hstopped | hidle
      · cases hstop.symm.trans hstopped
      · cases (hidle j).symm.trans hj

/-- A collector that is started beside another goes on with it. -/
theorem Kept.idle_of_oneAccepts (h : s.Kept) (hrecording : s.devtools.recording = false)
    (hone : s.recordFromClient.OneAccepts) :
  s.Idle
  := by
  intro j
  cases hj : s.collectors.lookup j with
  | none => rfl
  | some c =>
    exfalso
    have hlt := h.spawned j c hj
    simp only [recordFromClient, hrecording, OneAccepts] at hone
    have heq := hone rfl j c s.spawned _ ((AList.lookup_insert_ne hlt.ne).trans hj)
      (AList.lookup_insert _)
    apply hlt.ne heq

theorem Kept.recordsOnce_iff (h : s.Kept) :
  s.RecordsOnce a ↔ s.StartsAfresh a
  := by
  constructor
  · intro honce
    cases a with
    | recordFromClient =>
      intro hrecording
      apply h.idle_of_oneAccepts hrecording (honce _ rfl).1
    | stopRecording => trivial
    | notify update => trivial
    | sendActivity event => trivial
    | turn j nowMs => trivial
  · intro hok s' hs
    have hs' := h.step hok hs
    constructor
    · intro _ i c j d
      apply hs'.single
    constructor
    · apply hs'.nodup.filter
    · apply h.appended_of_step hs

end Recording

/-- In every run, one collector at most accepts events, every notification is recorded once
at most and nothing while nothing is recorded, exactly if recording starts only after every
collector has ended. -/
theorem recordsOnce_iff_startsAfresh (capacity : Nat) (as : List Action) :
  (Recording.machine capacity).Meets Recording.RecordsOnce (.initial capacity) as
    ↔ (Recording.machine capacity).Meets Recording.StartsAfresh (.initial capacity) as
  := by
  apply Machine.meets_congr (Recording.kept_initial capacity)
  · intro s a hs
    apply hs.recordsOnce_iff
  · intro s a s' hs hok hstep
    apply hs.step (hs.recordsOnce_iff.mp hok) hstep

/-- Recording is stopped and started again before the collector is polled; both collectors
record the next notification. -/
theorem not_recordsOnce_restarted :
  ¬ ∀ (capacity : Nat) (as : List Action),
    (Recording.machine capacity).Meets Recording.RecordsOnce (.initial capacity) as
  := by
  intro h
  have hmeets := h 512 [.recordFromClient, .stopRecording, .recordFromClient,
    .notify ⟨"users", .success⟩, .turn 0 5, .turn 1 5]
  have hlast := (((((hmeets.2 _ rfl).2 _ rfl).2 _ rfl).2 _ rfl).2 _ rfl).1 _ rfl
  have honce := hlast.2.1
  revert honce
  decide

end Devtools

end RsQuery
