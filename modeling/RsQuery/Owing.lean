import RsQuery.Dedup

/-!
# What a fetch owes

Between its start and its notification a fetch owes the calls that wait for its data a
release.  It ends without one when it finds the client restoring or offline, when user
code panics, when its function fails with a cancellation, and when it is stopped: an
abort, a dropped handle or future, a cancelled token or registration.
-/

namespace RsQuery

variable {V : Type} [PartialEqAny V]

open QueryClient

namespace Run

variable {r r' : Run V} {i : Nat} {now : Instant} {c c' : QueryClient V} {o : Outcome V}
  {pc : Pc V}

/-- A cancellation or an abort stops the fetch before it tells how it ended. -/
def Stoppable (r : Run V) : Prop :=
  match r.pc with
  | .queued | .start => True
  | .fetch (.fetched _) | .fetch (.selected _) | .fetch .stored | .fetch .readBack
  | .fetch (.notifyError _) | .fetch (.failing _) => False
  | .fetch (.failed n error) => r.shouldRetry error n = true
  | .fetch _ => True
  | _ => False

/-- The fetch has stored its data and not told so. -/
def HasStored (r : Run V) : Prop :=
  match r.pc with
  | .fetch .stored => True
  | _ => False

/-- Neither cancelled nor aborted. -/
def Unstopped (r : Run V) (i : Nat) (c : QueryClient V) : Prop :=
  i ∉ c.signals.cancelled ∧ (r.spawned = true → i ∉ c.signals.aborted)

/-- The fetch has something to tell the calls that wait for its data. -/
def WillTell (r : Run V) (c : QueryClient V) : Prop :=
  match r.pc with
  | .queued | .start => r.spawned = true
  | .fetch (.fetched data) | .fetch (.selected data) => typeOf data = r.query.typeId
  | .fetch .stored => (r.slotOf c).hasData r.query.typeId = true
  | .fetch (.failed _ error) => error.isCancelled = false
  | .fetch .readBack | .fetch (.failing _) => False
  | .fetch _ => True
  | _ => False

/-- The fetch of run `i` owes a release to the calls that wait for its data. -/
def Owes (r : Run V) (i : Nat) (c : QueryClient V) : Prop :=
  r.WillTell c ∧ (r.Stoppable → r.Unstopped i c)

/-- The next step of a fetch ends what it owes: it notifies, or ends without. -/
def Lapses (r : Run V) (c : QueryClient V) (o : Outcome V) : Prop :=
  match r.pc, o with
  | .start, _ => c.isRestoring = true
  | .fetch .gate, _ => canFetch r.query.options.networkMode c.online.isOnline = false
  | .fetch (.fetching _), .ready (.error error) => error.isCancelled = true
  | .fetch (.fetching _), .panic _ | .fetch (.fetched _), .panic _ => True
  | .fetch .stored, _ | .fetch (.notifyError _), _ => True
  | _, _ => False

instance : Decidable r.Stoppable := by
  unfold Stoppable
  split
  all_goals infer_instance

instance : Decidable r.HasStored := by
  unfold HasStored
  split
  all_goals infer_instance

instance : Decidable (r.Unstopped i c) :=
  inferInstanceAs (Decidable (_ ∧ _))

instance : Decidable (r.WillTell c) := by
  unfold WillTell
  split
  all_goals infer_instance

instance : Decidable (r.Owes i c) :=
  inferInstanceAs (Decidable (_ ∧ (_ → _)))

instance : Decidable (r.Lapses c o) := by
  unfold Lapses
  split
  all_goals infer_instance

/-- A fetch goes on owing where it stands, unless it is stopped or its data is gone. -/
theorem Owes.of_same
    (h : r.Owes i c) (hq : r'.query = r.query) (hsp : r'.spawned = r.spawned)
    (hpc : r'.pc = r.pc) (hun : r.Stoppable → r.Unstopped i c → r.Unstopped i c')
    (hdata : r.HasStored → (r.slotOf c).hasData r.query.typeId = true →
      (r.slotOf c').hasData r.query.typeId = true) :
  r'.Owes i c'
  := by
  obtain ⟨query, spawned, returned, detached, pc⟩ := r
  obtain ⟨query', spawned', returned', detached', pc'⟩ := r'
  obtain rfl : query' = query := hq
  obtain rfl : spawned' = spawned := hsp
  obtain rfl : pc' = pc := hpc
  obtain ⟨htell, hstop⟩ := h
  refine ⟨?_, fun hs => hun hs (hstop hs)⟩
  unfold WillTell at htell ⊢
  cases pc' with
  | fetch f =>
    cases f with
    | stored => apply hdata trivial htell
    | _ => apply htell
  | _ => apply htell

theorem resume_of_unstopped (h : r.Unstopped i c) (pc : Pc V) :
  r.resume i c pc = (c, pc)
  := by
  rw [resume, if_neg]
  exact fun hs => h.2 hs.1 hs.2

/-- A fetch that does not lapse will still tell, and where it can be stopped afterwards
it could before. -/
theorem WillTell.advanceFetch
    {f : FetchPc V} (hr : r.pc = .fetch f) (h : r.WillTell c)
    (hun : r.Stoppable → r.Unstopped i c) (hl : ¬ r.Lapses c o)
    (ha : r.advanceFetch i now c (decide (i ∈ c.signals.cancelled)) f o = some (c', pc)) :
  ({ r with pc := pc } : Run V).WillTell c' ∧
    (({ r with pc := pc } : Run V).Stoppable → r.Stoppable)
  := by
  have uncancelled (hs : r.Stoppable) : decide (i ∈ c.signals.cancelled) = false := by
    rw [decide_eq_false_iff_not]
    apply (hun hs).1
  -- a fetch that can be stopped goes on to where it will tell
  have goes {c₁ : QueryClient V} {pc₁ : Pc V} (hs : r.Stoppable)
      (hf : ({ r with pc := pc₁ } : Run V).WillTell c₁) :
      ({ r with pc := pc₁ } : Run V).WillTell c₁ ∧
        (({ r with pc := pc₁ } : Run V).Stoppable → r.Stoppable) :=
    ⟨hf, fun _ => hs⟩
  have resumed {f' : FetchPc V} (hs : r.Stoppable)
      (hresume : r.resume i c (.fetch f') = (c', pc))
      (hf : ({ r with pc := .fetch f' } : Run V).WillTell c) :
      ({ r with pc := pc } : Run V).WillTell c' ∧
        (({ r with pc := pc } : Run V).Stoppable → r.Stoppable) := by
    rw [resume_of_unstopped (hun hs)] at hresume
    cases hresume
    exact goes hs hf
  cases takes_of_advanceFetch ha with
  | loading | online | attempt | call | suspend | waited | goOnWaiting | backOffOnline =>
    exact goes (by simp [Stoppable, hr]) trivial
  | resumeFetch hresume | resumeWait hresume | resumeSleep hresume =>
    exact resumed (by simp [Stoppable, hr]) hresume trivial
  | noAttempt hc | noCall hc | cancel hc | waitCancelled hc =>
    rw [uncancelled (by simp [Stoppable, hr])] at hc
    contradiction
  | paused hgate => simp [Lapses, hr, hgate] at hl
  | panic | selectPanic | stored | notifyError => simp [Lapses, hr] at hl
  | data htype => exact goes (by simp [Stoppable, hr]) htype
  | error =>
    apply goes (by simp [Stoppable, hr])
    simpa [Lapses, WillTell, hr] using hl
  | noSelect =>
    refine ⟨?_, False.elim⟩
    simpa [WillTell, hr] using h
  | @select data select hselect =>
    have htype : typeOf data = r.query.typeId := by simpa [WillTell, hr] using h
    exact ⟨r.query.select_typeOf select hselect data htype, False.elim⟩
  | @store data =>
    have htype : typeOf data = r.query.typeId := by simpa [WillTell, hr] using h
    refine ⟨?_, False.elim⟩
    simp only [WillTell, slotOf, slot_storeQueryData, if_pos, hasData_newEntry, htype]
    simp
  | readBack | gone | fail => simp [WillTell, hr] at h
  | failedCancelled hkind => simp [WillTell, hr, hkind] at h
  | backOff _ hretry _ | waitForOnline _ hretry _ =>
    exact goes (by simpa [Stoppable, hr] using hretry) trivial
  | giveUp => exact ⟨trivial, False.elim⟩

/-- A fetch that does not lapse goes on owing. -/
theorem Owes.advance
    (h : r.Owes i c) (hl : ¬ r.Lapses c o) (ha : r.advance i now c o = some (c', pc)) :
  ({ r with pc := pc } : Run V).Owes i c'
  := by
  obtain ⟨htell, hun⟩ := h
  have hsignals : Frame c c' := by
    obtain ⟨result, hpc, -⟩ | ⟨hf, -⟩ := advance_cases ha
    · simp [WillTell, hpc] at htell
    · apply hf
  suffices hnext : ({ r with pc := pc } : Run V).WillTell c' ∧
      (({ r with pc := pc } : Run V).Stoppable → r.Stoppable) by
    refine ⟨hnext.1, fun hs => ?_⟩
    rw [Unstopped, hsignals.cancelled, hsignals.aborted]
    apply hun (hnext.2 hs)
  cases takes_of_advance ha with
  | poll hr hresume =>
    have hs : r.Stoppable := by simp [Stoppable, hr]
    rw [resume_of_unstopped (hun hs)] at hresume
    cases hresume
    exact ⟨by simpa [WillTell, hr] using htell, fun _ => hs⟩
  | restoring hr hrestoring => simp [Lapses, hr, hrestoring] at hl
  | task hr _ _ => exact ⟨trivial, fun _ => by simp [Stoppable, hr]⟩
  | direct hr _ hsp => simp [WillTell, hr, hsp] at htell
  | fetch hr ha => apply htell.advanceFetch hr hun hl ha
  | join hr _ | alone hr _ | wait hr _ | deregister hr _ | finish hr _ | reply hr =>
    simp [WillTell, hr] at htell

/-- The execution is about to look for a fetch in flight. -/
def AtDedup (r : Run V) : Prop :=
  match r.pc with
  | .dedup => True
  | _ => False

instance : Decidable r.AtDedup := by
  unfold AtDedup
  split
  all_goals infer_instance

/-- The execution fetches. -/
def Fetching (r : Run V) : Prop :=
  match r.pc with
  | .queued | .fetch _ => True
  | .start => r.spawned = true
  | _ => False

instance : Decidable r.Fetching := by
  unfold Fetching
  split
  all_goals infer_instance

theorem WillTell.fetching (h : r.WillTell c) :
  r.Fetching
  := by
  unfold Fetching
  cases hr : r.pc with
  | queued => trivial
  | start => simpa [WillTell, hr] using h
  | fetch f => trivial
  | _ => simp [WillTell, hr] at h

/-- The receiver on which a waiting call is parked. -/
def parked (r : Run V) : Option Nat :=
  match r.pc with
  | .waitForDedup (.parked rx) => some rx
  | _ => none

/-- A waiting call is parked, and its receiver has nothing queued. -/
def ParkedEmpty (r : Run V) (c : QueryClient V) : Prop :=
  ∃ rx ∈ r.parked, ∀ st ∈ (r.slotOf c).receiver rx, st.queue = []

instance : Decidable (r.ParkedEmpty c) :=
  inferInstanceAs (Decidable (∃ rx ∈ _, ∀ st ∈ _, _))

/-- How an execution comes to wait, or waits on. -/
theorem advance_waitForDedup
    {w' : WaitPc V} (h : r.advance i now c o = some (c', .waitForDedup w')) :
  (∃ w, r.pc = .waitForDedup w ∧ r.advanceWait i now c w = (c', .waitForDedup w')) ∨
    (r.pc = .dedup ∧ c.isInFlight r.query.key = true ∧ w' = .subscribe ∧ c' = c)
  := by
  generalize hpc : Pc.waitForDedup w' = pc at h
  cases takes_of_advance h with
  | wait hr hw =>
    left
    exact ⟨_, hr, hw⟩
  | join hr hin =>
    right
    cases hpc
    exact ⟨hr, hin, rfl, rfl⟩
  | poll _ hresume =>
    unfold resume at hresume
    split at hresume
    · cases (Prod.mk.inj hresume).2.trans hpc.symm
    · cases (Prod.mk.inj hresume).2.trans hpc.symm
  | fetch _ ha =>
    obtain ⟨-, ⟨f, rfl⟩ | ⟨result, rfl⟩ | ⟨rfl, -⟩⟩ := advanceFetch_frame ha
    · contradiction
    · contradiction
    · contradiction
  | _ => contradiction

end Run

end RsQuery
