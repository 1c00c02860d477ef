import RsQuery.Lib.Machine
import RsQuery.Lib.Table

/-!
# Batched notifications

`NotifyManager` queues callbacks and runs them when no batch is open.  Threads call it from
their programs, from the bodies of batches and from the callbacks themselves; a step is one
operation on the queue or on the depth counter, or the beginning or the end of user code.

A callback that is queued while no batch is open has a call about to look: the `notify` that
pushed it, or the end of the batch it was pushed in.  So nothing is left in the queue when
no call is in progress.
-/

namespace RsQuery

namespace NotifyManager

/-- A callback, named by its place in the order of submission. -/
abbrev CallbackId := Nat

/-- What a thread is in the midst of. -/
inductive Frame where
  /-- `notify`, about to look at the depth. -/
  | notify
  /-- `batch`, running its body. -/
  | batch
  /-- `flush`, about to drain the queue. -/
  | drain
  /-- `flush`, about to run the callbacks it has drained and not started yet. -/
  | run (pending : List CallbackId)
  /-- A callback. -/
  | callback (id : CallbackId)
deriving DecidableEq, Repr

/-- The manager, the frames of each thread with the innermost first, and the callbacks
started so far. -/
structure Threads where
  queue : List CallbackId
  batchDepth : Nat
  callStacks : Table Nat (List Frame)
  nextId : CallbackId
  started : List CallbackId

/-- A step of a thread: its user code makes a call, or it goes on with its innermost frame. -/
inductive Action where
  | notify (t : Nat)
  | batch (t : Nat)
  | flush (t : Nat)
  | advance (t : Nat)
deriving DecidableEq, Repr

/-- User code is running: a program, a callback or the body of a batch. -/
def InUserCode : List Frame → Prop
  | [] | .batch :: _ | .callback _ :: _ => True
  | _ => False

instance (frames : List Frame) : Decidable (InUserCode frames) := by
  unfold InUserCode
  split
  all_goals infer_instance

namespace Threads

/-- Nothing was submitted and no call is in progress. -/
def initial : Threads :=
  ⟨[], 0, ∅, 0, []⟩

/-- The frames of a thread. -/
def stack (s : Threads) (t : Nat) : List Frame :=
  (s.callStacks.lookup t).getD []

/-- The thread has the frames. -/
def setStack (s : Threads) (t : Nat) (frames : List Frame) : Threads :=
  { s with callStacks := s.callStacks.insert t frames }

/-- `notify` pushes its callback. -/
def push (s : Threads) (t : Nat) : Threads :=
  { s with
      queue := s.queue ++ [s.nextId]
      nextId := s.nextId + 1 }.setStack t (.notify :: s.stack t)

/-- `batch` increments the depth. -/
def openBatch (s : Threads) (t : Nat) : Threads :=
  { s with batchDepth := s.batchDepth + 1 }.setStack t (.batch :: s.stack t)

/-- `notify` loads the depth, and flushes outside any batch. -/
def loadDepth (s : Threads) (t : Nat) (rest : List Frame) : Threads :=
  s.setStack t (if s.batchDepth = 0 then .drain :: rest else rest)

/-- The body of a batch has returned: the depth is decremented, and the outermost batch
flushes. -/
def closeBatch (s : Threads) (t : Nat) (rest : List Frame) : Threads :=
  { s with batchDepth := s.batchDepth - 1 }.setStack t
    (if s.batchDepth = 1 then .drain :: rest else rest)

/-- `flush` drains the queue into a list of its own. -/
def drainQueue (s : Threads) (t : Nat) (rest : List Frame) : Threads :=
  { s with queue := [] }.setStack t (.run s.queue :: rest)

/-- `flush` starts a callback. -/
def startCallback (s : Threads) (t : Nat) (id : CallbackId) (pending : List CallbackId)
    (rest : List Frame) : Threads :=
  { s with started := s.started ++ [id] }.setStack t (.callback id :: .run pending :: rest)

/-- The state after a step. -/
def step (s : Threads) : Action → Option Threads
  | .notify t => if InUserCode (s.stack t) then some (s.push t) else none
  | .batch t => if InUserCode (s.stack t) then some (s.openBatch t) else none
  | .flush t =>
    if InUserCode (s.stack t) then some (s.setStack t (.drain :: s.stack t)) else none
  | .advance t =>
    match s.stack t with
    | [] => none
    | .notify :: rest => some (s.loadDepth t rest)
    | .batch :: rest => some (s.closeBatch t rest)
    | .drain :: rest => some (s.drainQueue t rest)
    | .run (id :: pending) :: rest => some (s.startCallback t id pending rest)
    | .run [] :: rest => some (s.setStack t rest)
    | .callback _ :: rest => some (s.setStack t rest)

/-- The threads and their interleavings. -/
def machine : Machine Threads Action where
  init s := s = initial
  step := step

/-- What a step can be. -/
inductive Takes (s : Threads) : Action → Threads → Prop where
  | push {t : Nat} : InUserCode (s.stack t) → Takes s (.notify t) (s.push t)
  | openBatch {t : Nat} : InUserCode (s.stack t) → Takes s (.batch t) (s.openBatch t)
  | flush {t : Nat} : InUserCode (s.stack t) →
      Takes s (.flush t) (s.setStack t (.drain :: s.stack t))
  | loadDepth {t : Nat} {rest : List Frame} : s.stack t = .notify :: rest →
      Takes s (.advance t) (s.loadDepth t rest)
  | closeBatch {t : Nat} {rest : List Frame} : s.stack t = .batch :: rest →
      Takes s (.advance t) (s.closeBatch t rest)
  | drainQueue {t : Nat} {rest : List Frame} : s.stack t = .drain :: rest →
      Takes s (.advance t) (s.drainQueue t rest)
  | startCallback {t : Nat} {id : CallbackId} {pending : List CallbackId} {rest : List Frame} :
      s.stack t = .run (id :: pending) :: rest →
      Takes s (.advance t) (s.startCallback t id pending rest)
  | endFlush {t : Nat} {rest : List Frame} : s.stack t = .run [] :: rest →
      Takes s (.advance t) (s.setStack t rest)
  | endCallback {t : Nat} {id : CallbackId} {rest : List Frame} :
      s.stack t = .callback id :: rest → Takes s (.advance t) (s.setStack t rest)

variable {s s' : Threads} {a : Action}

theorem takes_of_step (hs : s.step a = some s') :
  s.Takes a s'
  := by
  cases a with
  | notify t =>
    obtain ⟨hu, hs⟩ := Option.ite_none_right_eq_some.mp hs
    obtain rfl := Option.some.inj hs
    apply Takes.push hu
  | batch t =>
    obtain ⟨hu, hs⟩ := Option.ite_none_right_eq_some.mp hs
    obtain rfl := Option.some.inj hs
    apply Takes.openBatch hu
  | flush t =>
    obtain ⟨hu, hs⟩ := Option.ite_none_right_eq_some.mp hs
    obtain rfl := Option.some.inj hs
    apply Takes.flush hu
  | advance t =>
    cases hst : s.stack t with
    | nil => simp [step, hst] at hs
    | cons frame rest =>
      simp only [step, hst] at hs
      cases frame with
      | notify =>
        obtain rfl := Option.some.inj hs
        apply Takes.loadDepth hst
      | batch =>
        obtain rfl := Option.some.inj hs
        apply Takes.closeBatch hst
      | drain =>
        obtain rfl := Option.some.inj hs
        apply Takes.drainQueue hst
      | run pending =>
        cases pending with
        | nil =>
          obtain rfl := Option.some.inj hs
          apply Takes.endFlush hst
        | cons id pending =>
          obtain rfl := Option.some.inj hs
          apply Takes.startCallback hst
      | callback id =>
        obtain rfl := Option.some.inj hs
        apply Takes.endCallback hst

/-! ### What the frames weigh -/

/-- The frames of all threads, weighed together. -/
def weigh (s : Threads) (f : Frame → Nat) : Nat :=
  Table.total (fun frames => (frames.map f).sum) s.callStacks

/-- The frames of a thread are weighed instead of those they replace. -/
theorem weigh_insert (f : Frame → Nat) {t : Nat} {frames : List Frame}
    (hstacks : s'.callStacks = s.callStacks.insert t frames) :
  s'.weigh f + ((s.stack t).map f).sum = s.weigh f + (frames.map f).sum
  := by
  have h := Table.total_insert (fun frames : List Frame => (frames.map f).sum) t frames s.callStacks
  have hold : (s.callStacks.lookup t).elim 0 (fun frames => (frames.map f).sum)
      = ((s.stack t).map f).sum := by
    rw [stack]
    cases s.callStacks.lookup t with
    | none => rfl
    | some frames => rfl
  rwa [hold, ← hstacks] at h

/-- The frames weigh something when one of them does. -/
theorem weigh_pos_iff {f : Frame → Nat} :
  0 < s.weigh f ↔ ∃ t, ∃ frame ∈ s.stack t, 0 < f frame
  := by
  rw [weigh, Table.total_pos_iff]
  have hsum (frames : List Frame) :
      0 < (frames.map f).sum ↔ ∃ frame ∈ frames, 0 < f frame := by
    rw [List.sum_pos_iff_exists_pos_nat]
    simp
  simp only [hsum]
  constructor
  · rintro ⟨t, frames, ht, hf⟩
    use t
    rwa [stack, ht, Option.getD_some]
  · rintro ⟨t, frame, hframe, hf⟩
    rw [stack] at hframe
    cases ht : s.callStacks.lookup t with
    | none => simp [ht] at hframe
    | some frames =>
      rw [ht, Option.getD_some] at hframe
      use t, frames, ht, frame, hframe

/-- No call is in progress and no callback is running. -/
def Idle (s : Threads) : Prop :=
  ∀ t, s.stack t = []

theorem Idle.weigh_eq_zero (h : s.Idle) (f : Frame → Nat) :
  s.weigh f = 0
  := by
  apply Table.total_eq_zero
  intro t frames ht
  have hst : frames = [] := by
    rw [← h t, stack, ht, Option.getD_some]
  rw [hst]
  rfl

end Threads

namespace Frame

/-- Whether it is a batch. -/
def opened : Frame → Nat
  | .batch => 1
  | _ => 0

/-- Whether it is about to look at the depth or to drain the queue. -/
def looking : Frame → Nat
  | .notify | .drain => 1
  | _ => 0

/-- How often the callback is among those it is to run. -/
def holding (id : CallbackId) : Frame → Nat
  | .run pending => pending.count id
  | _ => 0

/-- The number of steps to its end, when user code makes no calls. -/
def work : Frame → Nat
  | .notify | .batch => 3
  | .drain => 2
  | .run pending => 3 * pending.length + 1
  | .callback _ => 1

end Frame

namespace Threads

variable {s s' : Threads} {a : Action}

/-! ### Nothing is lost -/

/-- The depth counts the open batches.  What is queued has a batch to wait for, or a call
that looks.  Every callback submitted is queued, drained or started, and only once. -/
structure Kept (s : Threads) : Prop where
  depth : s.batchDepth = s.weigh Frame.opened
  looked : s.queue = [] ∨ 0 < s.batchDepth ∨ 0 < s.weigh Frame.looking
  once : ∀ id, s.queue.count id + s.weigh (Frame.holding id) + s.started.count id
    = (List.range s.nextId).count id

theorem kept_initial :
  initial.Kept
  := by
  constructor
  · rfl
  · left
    rfl
  · intro id
    rfl

/-- A frame that is about to drain the queue looks. -/
theorem looking_drain_pos (rest : List Frame) :
  0 < ((.drain :: rest).map Frame.looking).sum
  := by
  rw [List.map_cons, List.sum_cons]
  apply Nat.add_pos_left Nat.one_pos

/-- What a flush to come does not weigh. -/
theorem sum_ite_drain {f : Frame → Nat} (hf : f .drain = 0) (p : Prop) [Decidable p]
    (rest : List Frame) :
  ((if p then .drain :: rest else rest).map f).sum = (rest.map f).sum
  := by
  split
  · rw [List.map_cons, List.sum_cons, hf, Nat.zero_add]
  · rfl

/-- A step is judged by the frames of its thread. -/
theorem Kept.of_frames {t : Nat} {frames : List Frame} (h : s.Kept)
    (hstacks : s'.callStacks = s.callStacks.insert t frames)
    (hdepth : s'.batchDepth + ((s.stack t).map Frame.opened).sum
      = s.batchDepth + (frames.map Frame.opened).sum)
    (hlooked : s'.queue = [] ∨ 0 < s'.batchDepth ∨ 0 < (frames.map Frame.looking).sum ∨
      s'.queue = s.queue ∧ s'.batchDepth = s.batchDepth ∧
        (frames.map Frame.looking).sum = ((s.stack t).map Frame.looking).sum)
    (honce : ∀ id, s'.queue.count id + (frames.map (Frame.holding id)).sum + s'.started.count id
        + (List.range s.nextId).count id
      = s.queue.count id + ((s.stack t).map (Frame.holding id)).sum + s.started.count id
        + (List.range s'.nextId).count id) :
  s'.Kept
  := by
  constructor
  case depth =>
    have hw := weigh_insert Frame.opened hstacks
    have hd := h.depth
    omega
  case looked =>
    have hw := weigh_insert Frame.looking hstacks
    rcases hlooked with hempty | hopen | hlook | ⟨hqueue, hdepth, hsame⟩
    · left
      apply hempty
    · right
      left
      apply hopen
    · right
      right
      apply Table.total_pos_iff.mpr
      use t, frames
      rw [hstacks, AList.lookup_insert]
      exact ⟨rfl, hlook⟩
    · rw [hqueue, hdepth]
      rcases h.looked with hempty | hopen | hlook
      · left
        apply hempty
      · right
        left
        apply hopen
      · right
        right
        omega
  case once =>
    intro id
    have hw := weigh_insert (Frame.holding id) hstacks
    have ho := h.once id
    have hid := honce id
    omega

/-- A frame that weighs nothing is left. -/
theorem Kept.leave {t : Nat} {frame : Frame} {rest : List Frame} (h : s.Kept)
    (hst : s.stack t = frame :: rest) (hopened : frame.opened = 0) (hlooking : frame.looking = 0)
    (hholding : ∀ id, frame.holding id = 0) :
  (s.setStack t rest).Kept
  := by
  refine h.of_frames (t := t) rfl ?_ ?_ ?_
  · simp [setStack, hst, hopened]
  · right
    right
    right
    simp [setStack, hst, hlooking]
  · intro id
    simp [setStack, hst, hholding]

theorem Kept.step (h : s.Kept) (hs : s.step a = some s') :
  s'.Kept
  := by
  cases takes_of_step hs with
  | @push t hu =>
    refine h.of_frames (t := t) rfl ?_ ?_ ?_
    · simp [push, setStack, Frame.opened]
    · right
      right
      left
      rw [List.map_cons, List.sum_cons]
      apply Nat.add_pos_left Nat.one_pos
    · intro id
      simp only [push, setStack, List.range_succ, List.count_append, List.map_cons, Frame.holding,
        List.sum_cons]
      omega
  | @openBatch t hu =>
    refine h.of_frames (t := t) rfl ?_ ?_ ?_
    · simp only [openBatch, setStack, List.map_cons, Frame.opened, List.sum_cons]
      omega
    · right
      left
      apply Nat.succ_pos
    · intro id
      simp [openBatch, setStack, Frame.holding]
  | @flush t hu =>
    refine h.of_frames (t := t) rfl ?_ ?_ ?_
    · simp [setStack, Frame.opened]
    · right
      right
      left
      apply looking_drain_pos
    · intro id
      simp [setStack, Frame.holding]
  | @loadDepth t rest hst =>
    refine h.of_frames (t := t) rfl ?_ ?_ ?_
    · rw [hst, sum_ite_drain rfl]
      simp [loadDepth, setStack, Frame.opened]
    · -- the depth is not zero, or the queue is drained next
      right
      split
      · right
        left
        apply looking_drain_pos
      · next hdepth =>
        left
        apply Nat.pos_of_ne_zero hdepth
    · intro id
      rw [hst, sum_ite_drain rfl]
      simp [loadDepth, setStack, Frame.holding]
  | @closeBatch t rest hst =>
    have hopen : 0 < s.batchDepth := by
      rw [h.depth]
      apply weigh_pos_iff.mpr
      use t, .batch
      rw [hst]
      exact ⟨List.mem_cons_self, Nat.one_pos⟩
    refine h.of_frames (t := t) rfl ?_ ?_ ?_
    · rw [hst, sum_ite_drain rfl]
      simp only [closeBatch, setStack, List.map_cons, Frame.opened, List.sum_cons]
      omega
    · -- another batch is open, or the queue is drained next
      right
      split
      · right
        left
        apply looking_drain_pos
      · left
        simp only [closeBatch, setStack]
        omega
    · intro id
      rw [hst, sum_ite_drain rfl]
      simp [closeBatch, setStack, Frame.holding]
  | @drainQueue t rest hst =>
    refine h.of_frames (t := t) rfl ?_ ?_ ?_
    · rw [hst]
      simp [drainQueue, setStack, Frame.opened]
    · left
      rfl
    · intro id
      rw [hst]
      simp [drainQueue, setStack, Frame.holding]
  | @startCallback t id pending rest hst =>
    refine h.of_frames (t := t) rfl ?_ ?_ ?_
    · rw [hst]
      simp [startCallback, setStack, Frame.opened]
    · right
      right
      right
      rw [hst]
      exact ⟨rfl, rfl, by simp [Frame.looking]⟩
    · intro id'
      rw [hst]
      simp only [startCallback, setStack, List.map_cons, Frame.holding, List.sum_cons,
        List.count_append, List.count_cons, List.count_nil]
      omega
  | endFlush hst =>
    apply h.leave hst rfl rfl
    intro id
    rfl
  | endCallback hst =>
    apply h.leave hst rfl rfl
    intro id
    rfl

theorem kept_of_reachable (h : machine.Reachable s) :
  s.Kept
  := by
  apply h.invariant
  · rintro s rfl
    apply kept_initial
  · intro s a s' _ ih _ hs
    apply ih.step hs

theorem count_range {id n : CallbackId} (hid : id < n) :
  (List.range n).count id = 1
  := List.count_eq_one_of_mem List.nodup_range (List.mem_range.mpr hid)

/-- A callback that was submitted was started, is queued, or was drained by a flush. -/
theorem Kept.placed (h : s.Kept) {id : CallbackId} (hid : id < s.nextId) :
  id ∈ s.started ∨ id ∈ s.queue ∨ ∃ t pending, .run pending ∈ s.stack t ∧ id ∈ pending
  := by
  have honce := h.once id
  rw [count_range hid] at honce
  have hplace : 0 < s.started.count id ∨ 0 < s.queue.count id ∨
      0 < s.weigh (Frame.holding id) := by
    omega
  rcases hplace with hstarted | hqueue | hheld
  · left
    apply List.count_pos_iff.mp hstarted
  · right
    left
    apply List.count_pos_iff.mp hqueue
  · right
    right
    obtain ⟨t, frame, hframe, hpos⟩ := weigh_pos_iff.mp hheld
    cases frame with
    | run pending => exact ⟨t, pending, hframe, List.count_pos_iff.mp hpos⟩
    | _ => simp [Frame.holding] at hpos

/-! ### Calls come to an end -/

/-- The number of steps to the end of everything in progress, when user code makes no
calls. -/
def work (s : Threads) : Nat :=
  3 * s.queue.length + s.weigh Frame.work

/-- Going on with a frame is work done. -/
theorem work_advance {t : Nat} (hs : s.step (.advance t) = some s') :
  s'.work < s.work
  := by
  have work_lt {frames : List Frame} (hstacks : s'.callStacks = s.callStacks.insert t frames)
      (hlt : 3 * s'.queue.length + (frames.map Frame.work).sum
        < 3 * s.queue.length + ((s.stack t).map Frame.work).sum) : s'.work < s.work := by
    have hw := weigh_insert Frame.work hstacks
    simp only [work]
    omega
  cases takes_of_step hs with
  | loadDepth hst =>
    apply work_lt rfl
    rw [hst]
    split
    · simp [loadDepth, setStack, Frame.work]
    · simp [loadDepth, setStack, Frame.work]
  | closeBatch hst =>
    apply work_lt rfl
    rw [hst]
    split
    · simp [closeBatch, setStack, Frame.work]
    · simp [closeBatch, setStack, Frame.work]
  | drainQueue hst =>
    apply work_lt rfl
    rw [hst]
    simp only [drainQueue, setStack, Frame.work, List.map_cons, List.sum_cons, List.length_nil]
    omega
  | startCallback hst =>
    apply work_lt rfl
    rw [hst]
    simp only [startCallback, setStack, Frame.work, List.map_cons, List.sum_cons,
      List.length_cons]
    omega
  | endFlush hst =>
    apply work_lt rfl
    rw [hst]
    simp [setStack, Frame.work]
  | endCallback hst =>
    apply work_lt rfl
    rw [hst]
    simp [setStack, Frame.work]

/-- Every callback submitted is started at most once, and is started, queued, or drained by
a flush in progress; once no call is in progress the queue is empty and every callback was
started.  Whatever is in progress can go on, and ends when user code makes no more calls. -/
structure Delivers (s : Threads) : Prop where
  atMostOnce : ∀ id, s.started.count id ≤ 1
  submitted : ∀ id ∈ s.started, id < s.nextId
  pending : ∀ id < s.nextId, id ∈ s.started ∨ id ∈ s.queue ∨
    ∃ t pending, .run pending ∈ s.stack t ∧ id ∈ pending
  idle : s.Idle → s.queue = [] ∧ ∀ id < s.nextId, s.started.count id = 1
  goesOn : ∀ t, s.stack t ≠ [] → (s.step (.advance t)).isSome = true
  ends : ∀ (ts : List Nat) (s' : Threads),
    machine.exec s (ts.map .advance) = some s' → ts.length ≤ s.work

/-- Advances are bounded by the work there is. -/
theorem length_le_work {ts : List Nat} (hs : machine.exec s (ts.map .advance) = some s') :
  ts.length ≤ s.work
  := by
  induction ts generalizing s with
  | nil => apply Nat.zero_le
  | cons t ts ih =>
    obtain ⟨s₁, h₁, hs⟩ := Option.bind_eq_some_iff.mp hs
    have hlt : s₁.work < s.work := work_advance h₁
    have hle := ih hs
    rw [List.length_cons]
    omega

/-- In every interleaving nothing that is submitted is lost or run twice. -/
theorem delivers_of_reachable (h : machine.Reachable s) :
  s.Delivers
  := by
  have hkept := kept_of_reachable h
  have count_le (id : CallbackId) : (List.range s.nextId).count id ≤ 1 :=
    List.nodup_iff_count_le_one.mp List.nodup_range id
  constructor
  case atMostOnce =>
    intro id
    have honce := hkept.once id
    have hle := count_le id
    omega
  case submitted =>
    intro id hid
    have honce := hkept.once id
    have hpos := List.count_pos_iff.mpr hid
    apply List.mem_range.mp
    apply List.count_pos_iff.mp
    omega
  case pending =>
    intro id hid
    apply hkept.placed hid
  case idle =>
    intro hidle
    have hdepth := hkept.depth
    rw [hidle.weigh_eq_zero] at hdepth
    have hlooked := hkept.looked
    rw [hidle.weigh_eq_zero, hdepth] at hlooked
    have hqueue : s.queue = [] := by
      simpa using hlooked
    use hqueue
    intro id hid
    have honce := hkept.once id
    rw [hqueue, hidle.weigh_eq_zero, count_range hid] at honce
    simpa using honce
  case goesOn =>
    intro t ht
    obtain ⟨frame, rest, hst⟩ := List.exists_cons_of_ne_nil ht
    simp only [step, hst]
    cases frame with
    | run pending =>
      cases pending with
      | nil => rfl
      | cons id pending => rfl
    | _ => rfl
  case ends =>
    intro ts s' hs
    apply length_le_work hs

/-- A thread closes the batch in which another has submitted a callback, and the callback
submits one more. -/
theorem delivers_of_reachable_nested :
  ∃ s, machine.Reachable s ∧ (s.queue = [] ∧ s.started = [0, 1]) ∧ s.Delivers
  := by
  have init : machine.init initial := rfl
  obtain ⟨s, hs, hseen⟩ := Machine.exists_reachable_of_exec
    ([.batch 0, .notify 1, .advance 1, .advance 0, .advance 0, .advance 0, .notify 0, .advance 0,
      .advance 0, .advance 0, .advance 0, .advance 0, .advance 0, .advance 0] : List Action)
    (fun s : Threads => (s.queue, s.started)) ([], [0, 1]) init (by decide +kernel)
  exact ⟨s, hs, Prod.mk.inj hseen, delivers_of_reachable hs⟩

end Threads

end NotifyManager

end RsQuery
