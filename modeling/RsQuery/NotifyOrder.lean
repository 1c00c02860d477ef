import Mathlib.Data.List.Chain
import RsQuery.NotifyManager

/-!
# The order of notifications

A single thread starts callbacks in the order of their submission as long as no callback
submits another.  A flush drains the queue into a list of its own, so a callback it runs can
submit another one outside any batch, which is run at once, before what the flush has not
started yet.  A callback starts before one submitted earlier in no other way.
-/

namespace RsQuery

namespace NotifyManager

/-- The callbacks that a frame has drained and not started. -/
def Frame.pending : Frame → List CallbackId
  | .run pending => pending
  | _ => []

/-- The callbacks that the frames have drained and not started, those of the outermost
first. -/
def waiting : List Frame → List CallbackId
  | [] => []
  | frame :: rest => waiting rest ++ frame.pending

/-- Only a callback is above a flush that runs callbacks. -/
def Above (upper lower : Frame) : Prop :=
  ∀ pending, lower = .run pending → ∃ id, upper = .callback id

/-- Where flushes run callbacks under another frame, a callback of theirs is running. -/
theorem exists_callback_of_isChain {top : Frame} {frames : List Frame} {pending : List CallbackId}
    (h : List.IsChain Above (top :: frames)) (hmem : .run pending ∈ frames) :
  ∃ id, [.callback id, .run pending] <:+: top :: frames
  := by
  induction frames generalizing top with
  | nil => contradiction
  | cons frame frames ih =>
    obtain ⟨habove, hrest⟩ := List.isChain_cons_cons.mp h
    rcases List.mem_cons.mp hmem with rfl | hmem
    · obtain ⟨id, rfl⟩ := habove pending rfl
      use id, [], frames
      rfl
    · obtain ⟨id, hinfix⟩ := ih hrest hmem
      use id
      apply hinfix.trans (List.suffix_cons _ _).isInfix

namespace Threads

/-- All steps are taken by the thread. -/
def OneThread (t : Nat) (_ : Threads) (a : Action) : Prop :=
  match a with
  | .notify t' | .batch t' | .flush t' | .advance t' => t' = t

instance (t : Nat) (s : Threads) (a : Action) : Decidable (OneThread t s a) := by
  unfold OneThread
  split
  all_goals infer_instance

/-- Only the thread has frames.  What its flushes have drained was submitted in the order in
which the flushes were entered, and what is queued after that. -/
structure InTurn (t : Nat) (s : Threads) : Prop where
  others : ∀ t', t' ≠ t → s.stack t' = []
  above : List.IsChain Above (s.stack t)
  sorted : (waiting (s.stack t) ++ s.queue).Pairwise (· < ·)
  numbered : ∀ id ∈ s.queue, id < s.nextId
  drained : ∀ id ∈ waiting (s.stack t), id < s.nextId

variable {s s' : Threads} {a : Action} {t : Nat}

theorem stack_of_insert {frames : List Frame}
    (hstacks : s'.callStacks = s.callStacks.insert t frames) (t' : Nat) :
  s'.stack t' = if t' = t then frames else s.stack t'
  := by
  rw [stack, hstacks, Table.lookup_insert_eq]
  split
  · rfl
  · rfl

/-- A step of the thread that submits nothing and keeps the order of what waits. -/
theorem InTurn.of_frames {frames : List Frame} (h : s.InTurn t)
    (hstacks : s'.callStacks = s.callStacks.insert t frames) (hnext : s'.nextId = s.nextId)
    (habove : List.IsChain Above frames)
    (hsub : (waiting frames ++ s'.queue).Sublist (waiting (s.stack t) ++ s.queue)) :
  s'.InTurn t
  := by
  have hstack : s'.stack t = frames := by
    rw [stack_of_insert hstacks, if_pos rfl]
  have below (id : CallbackId) (hid : id ∈ waiting frames ++ s'.queue) : id < s.nextId := by
    rcases List.mem_append.mp (hsub.subset hid) with hid | hid
    · apply h.drained id hid
    · apply h.numbered id hid
  constructor
  case others =>
    intro t' ht'
    rw [stack_of_insert hstacks, if_neg ht']
    apply h.others t' ht'
  case above => rwa [hstack]
  case sorted =>
    rw [hstack]
    apply h.sorted.sublist hsub
  case numbered =>
    intro id hid
    rw [hnext]
    apply below id (List.mem_append_right _ hid)
  case drained =>
    intro id hid
    rw [hstack] at hid
    rw [hnext]
    apply below id (List.mem_append_left _ hid)

/-- A frame can go on top of user code. -/
theorem isChain_of_inUserCode {frames : List Frame} (frame : Frame) (hu : InUserCode frames)
    (h : List.IsChain Above frames) :
  List.IsChain Above (frame :: frames)
  := by
  apply h.cons
  intro lower hlower pending hpending
  cases frames with
  | nil => contradiction
  | cons top frames =>
    obtain rfl := Option.some.inj hlower
    rw [hpending] at hu
    contradiction

/-- A frame that is no callback can be replaced by any other. -/
theorem isChain_replace {frame : Frame} {rest : List Frame} (frame' : Frame)
    (h : List.IsChain Above (frame :: rest)) (hframe : ∀ id, frame ≠ .callback id) :
  List.IsChain Above (frame' :: rest)
  := by
  apply h.tail.cons
  intro lower hlower pending hpending
  obtain ⟨id, hid⟩ := h.rel_head? hlower pending hpending
  exact absurd hid (hframe id)

theorem inTurn_initial :
  initial.InTurn t
  := by
  constructor
  · intro t' _
    rfl
  · apply List.IsChain.nil
  · apply List.Pairwise.nil
  · intro id hid
    contradiction
  · intro id hid
    contradiction

theorem InTurn.above_cons {frame : Frame} {rest : List Frame} (h : s.InTurn t)
    (hst : s.stack t = frame :: rest) :
  List.IsChain Above (frame :: rest)
  := by
  rw [← hst]
  apply h.above

/-- The callback that is pushed comes after all that waits. -/
theorem InTurn.push (h : s.InTurn t) (hu : InUserCode (s.stack t)) :
  (s.push t).InTurn t
  := by
  have hstacks : (s.push t).callStacks = s.callStacks.insert t (.notify :: s.stack t) := rfl
  have hstack : (s.push t).stack t = .notify :: s.stack t := by
    rw [stack_of_insert hstacks, if_pos rfl]
  have hwaiting : waiting (.notify :: s.stack t) = waiting (s.stack t) := List.append_nil _
  constructor
  case others =>
    intro t' ht'
    rw [stack_of_insert hstacks, if_neg ht']
    apply h.others t' ht'
  case above =>
    rw [hstack]
    apply isChain_of_inUserCode _ hu h.above
  case sorted =>
    rw [hstack, hwaiting, Threads.push, setStack, ← List.append_assoc]
    apply List.pairwise_append.mpr
    refine ⟨h.sorted, List.pairwise_singleton _ _, ?_⟩
    intro id hid next hnext
    obtain rfl := List.mem_singleton.mp hnext
    rcases List.mem_append.mp hid with hid | hid
    · apply h.drained id hid
    · apply h.numbered id hid
  case numbered =>
    intro id hid
    apply Nat.lt_succ_iff.mpr
    rcases List.mem_append.mp hid with hid | hid
    · apply (h.numbered id hid).le
    · rw [List.mem_singleton.mp hid]
  case drained =>
    intro id hid
    rw [hstack, hwaiting] at hid
    apply Nat.lt_succ_of_lt (h.drained id hid)

theorem InTurn.step (h : s.InTurn t) (hok : OneThread t s a) (hs : s.step a = some s') :
  s'.InTurn t
  := by
  cases takes_of_step hs with
  | push hu =>
    obtain rfl := hok
    apply h.push hu
  | openBatch hu =>
    obtain rfl := hok
    refine h.of_frames rfl rfl ?_ ?_
    · apply isChain_of_inUserCode _ hu h.above
    · simp [openBatch, setStack, waiting, Frame.pending]
  | flush hu =>
    obtain rfl := hok
    refine h.of_frames rfl rfl ?_ ?_
    · apply isChain_of_inUserCode _ hu h.above
    · simp [setStack, waiting, Frame.pending]
  | loadDepth hst =>
    obtain rfl := hok
    have habove := h.above_cons hst
    refine h.of_frames rfl rfl ?_ ?_
    · split
      · apply isChain_replace _ habove (by simp)
      · apply habove.tail
    · rw [hst]
      split
      · simp [loadDepth, setStack, waiting, Frame.pending]
      · simp [loadDepth, setStack, waiting, Frame.pending]
  | closeBatch hst =>
    obtain rfl := hok
    have habove := h.above_cons hst
    refine h.of_frames rfl rfl ?_ ?_
    · split
      · apply isChain_replace _ habove (by simp)
      · apply habove.tail
    · rw [hst]
      split
      · simp [closeBatch, setStack, waiting, Frame.pending]
      · simp [closeBatch, setStack, waiting, Frame.pending]
  | drainQueue hst =>
    obtain rfl := hok
    have habove := h.above_cons hst
    refine h.of_frames rfl rfl ?_ ?_
    · apply isChain_replace _ habove (by simp)
    · rw [hst]
      simp [drainQueue, setStack, waiting, Frame.pending]
  | @startCallback _ id pending rest hst =>
    obtain rfl := hok
    have habove := h.above_cons hst
    refine h.of_frames rfl rfl ?_ ?_
    · apply List.isChain_cons_cons.mpr
      constructor
      · intro _ _
        use id
      · apply isChain_replace _ habove (by simp)
    · rw [hst]
      simp [startCallback, setStack, waiting, Frame.pending]
  | endFlush hst =>
    obtain rfl := hok
    have habove := h.above_cons hst
    refine h.of_frames rfl rfl ?_ ?_
    · apply habove.tail
    · rw [hst]
      simp [setStack, waiting, Frame.pending]
  | endCallback hst =>
    obtain rfl := hok
    have habove := h.above_cons hst
    refine h.of_frames rfl rfl ?_ ?_
    · apply habove.tail
    · rw [hst]
      simp [setStack, waiting, Frame.pending]

theorem inTurn_of_run (h : machine.Run (OneThread t) s) :
  s.InTurn t
  := by
  apply h.invariant
  · rintro s rfl
    apply inTurn_initial
  · intro s a s' _ ih hok hs
    apply ih.step hok hs

/-- A callback that starts is the next of a flush, whose other callbacks were submitted
later.  What was submitted before it has started, or was drained by a flush that is running
a callback still, within which the new flush was entered. -/
structure StartsInTurn (t : Nat) (s : Threads) (id : CallbackId) : Prop where
  next : ∃ pending rest, s.stack t = .run (id :: pending) :: rest ∧ ∀ d ∈ pending, id < d
  before : ∀ d < id, d ∈ s.started ∨
    ∃ running pending, [.callback running, .run pending] <:+: s.stack t ∧ d ∈ pending

/-- The callbacks of a single thread start in the order of their submission, but for those
that are drained by a flush when one of its callbacks has others run. -/
theorem startsInTurn_of_run {id : CallbackId} (h : machine.Run (OneThread t) s)
    (hok : OneThread t s a) (hs : s.step a = some s') (hstart : s'.started = s.started ++ [id]) :
  s.StartsInTurn t id
  := by
  have hturn := inTurn_of_run h
  have hkept := kept_of_reachable h.reachable
  have hne : s'.started ≠ s.started := by
    simp [hstart]
  cases takes_of_step hs with
  | @startCallback t' id' pending rest hst =>
    obtain rfl : t' = t := hok
    obtain rfl : id' = id := by simpa [startCallback, setStack] using hstart
    have hsorted := hturn.sorted
    rw [hst, waiting, Frame.pending, List.append_assoc] at hsorted
    obtain ⟨-, hlater, -⟩ := List.pairwise_append.mp hsorted
    have hafter (d : CallbackId) (hd : d ∈ pending ++ s.queue) : id' < d :=
      List.rel_of_pairwise_cons hlater hd
    constructor
    case next =>
      use pending, rest, hst
      intro d hd
      apply hafter d (List.mem_append_left _ hd)
    case before =>
      intro d hd
      have hid : id' < s.nextId := by
        apply hturn.drained
        rw [hst]
        apply List.mem_append_right _ List.mem_cons_self
      rcases hkept.placed (hd.trans hid) with hstarted | hqueue | ⟨t'', pending', hrun, hmem⟩
      · left
        apply hstarted
      · exact absurd (hafter d (List.mem_append_right _ hqueue)) hd.asymm
      · right
        by_cases ht : t'' = t'
        · rw [ht, hst] at hrun
          rw [hst]
          rcases List.mem_cons.mp hrun with heq | hrest
          · -- the flush that starts the callback has nothing earlier left
            obtain rfl := Frame.run.inj heq
            rcases List.mem_cons.mp hmem with rfl | hmem
            · exact absurd hd (lt_irrefl _)
            · exact absurd (hafter d (List.mem_append_left _ hmem)) hd.asymm
          · obtain ⟨running, hinfix⟩ := exists_callback_of_isChain (hturn.above_cons hst) hrest
            use running, pending'
        · rw [hturn.others t'' ht] at hrun
          contradiction
  | _ => exact absurd rfl hne

/-- The first of two callbacks of a batch submits a third, which is about to start. -/
theorem startsInTurn_of_run_nested :
  ∃ s s', machine.Run (OneThread 0) s ∧ s.step (.advance 0) = some s' ∧ s.started = [0] ∧
    s'.started = s.started ++ [2] ∧ s.StartsInTurn 0 2
  := by
  have init : machine.init initial := rfl
  have meets : machine.Meets (OneThread 0) initial [.batch 0, .notify 0, .advance 0, .notify 0,
      .advance 0, .advance 0, .advance 0, .advance 0, .notify 0, .advance 0, .advance 0] := by
    decide +kernel
  obtain ⟨s, hs, hseen⟩ := Machine.exists_run_of_exec _
    (fun s : Threads => (s.started, (s.step (.advance 0)).map Threads.started))
    ([0], some [0, 2]) init meets (by decide +kernel)
  obtain ⟨hstarted, hnext⟩ := Prod.mk.inj hseen
  obtain ⟨s', hs', hstarted'⟩ := Option.map_eq_some_iff.mp hnext
  have hstart : s'.started = s.started ++ [2] := by
    rw [hstarted, hstarted']
    rfl
  have own : OneThread 0 s (.advance 0) := rfl
  exact ⟨s, s', hs, hs', hstarted, hstart, startsInTurn_of_run hs own hs' hstart⟩

/-- The first of two callbacks of a batch submits a third, which starts before the
second. -/
theorem not_inOrder_nested :
  ∃ s, machine.Run (OneThread 0) s ∧ s.started = [0, 2, 1] ∧ ¬ s.started.Pairwise (· < ·)
  := by
  have init : machine.init initial := rfl
  have meets : machine.Meets (OneThread 0) initial [.batch 0, .notify 0, .advance 0, .notify 0,
      .advance 0, .advance 0, .advance 0, .advance 0, .notify 0, .advance 0, .advance 0,
      .advance 0, .advance 0, .advance 0, .advance 0, .advance 0] := by
    decide +kernel
  obtain ⟨s, hs, hstarted⟩ := Machine.exists_run_of_exec _ (fun s : Threads => s.started)
    [0, 2, 1] init meets (by decide +kernel)
  refine ⟨s, hs, hstarted, ?_⟩
  rw [hstarted]
  decide

end Threads

end NotifyManager

end RsQuery
