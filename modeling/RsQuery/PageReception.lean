import RsQuery.Infinite

/-!
# How a loop receives its requests

Whatever is done to the requests of a loop is done by steps of `PageRequests`, by the loop
those of the receiver and by its observer those of the sender: `Pages.exists_exec_requests`.
A loop hears its observer if it comes to every request in its slot by steps of its own.  It
does so while no request is sent between its finding the slot empty and its subscription,
and not after one that is: `Pages.hears_iff_inTime`.
-/

namespace RsQuery

variable {V T P : Type} [StringAny V] [InfiniteAny V T P]

/-- The receiver of the loop is where the loop says, and while the observer is there it
subscribes before anything is announced. -/
structure PageLoop.Attends (l : PageLoop T P) : Prop where
  idle : l.pc ≠ .recv → l.pc ≠ .ended → l.requests.receiver = .idle
  waits : l.pc = .recv → l.requests.receiver ≠ .ended
  ended : l.pc = .ended → l.requests.receiver = .ended
  inTime : l.observed = true →
    PageRequests.machine.Run PageRequests.SubscribesInTime l.requests
  empty : l.observed = true → l.requests.Between → l.requests.slot = none

namespace Pages

/-- Every loop that waits, with its observer there, comes to the request in its slot by
steps of its own. -/
def Hears (s : Pages V T P) : Prop :=
  ∀ j l request, s.loops.lookup j = some l → l.pc = .recv → l.observed = true →
    l.requests.slot = some request →
    ∃ n t l', machine.exec s (List.replicate n (.advance j .next)) = some t ∧
      t.loops.lookup j = some l' ∧ l'.pc = .readData request

/-- The step sends no request to a loop that has found the slot empty and not yet
subscribed. -/
def InTime (s : Pages V T P) : Action V T P → Prop
  | .request j _ => ∀ l ∈ s.loops.lookup j, l.observed = true → ¬ l.requests.Between
  | .requestWith j cancelRefetch _ => ∀ l ∈ s.loops.lookup j, l.observed = true →
    (s.sys.client.isInFlight l.query.key = true → cancelRefetch = true) → ¬ l.requests.Between
  | _ => True

instance (s : Pages V T P) (a : Action V T P) : Decidable (s.InTime a) := by
  unfold InTime
  rcases a with _ | _ <;> infer_instance

/-- Every loop attends to its requests. -/
def Attends (s : Pages V T P) : Prop :=
  ∀ j l, s.loops.lookup j = some l → l.Attends

end Pages

namespace PageLoop

variable {l l' : PageLoop T P} {request : PageRequest}

omit [StringAny V] [InfiniteAny V T P] in
theorem sender_of_observed (h : l.observed = true) :
  l.requests.sender = .idle
  := of_decide_eq_true h

/-- A new loop. -/
theorem attends_spawn (query : InfiniteQuery T P) :
  Attends { query := query }
  := by
  constructor
  · exact fun _ _ => rfl
  · exact nofun
  · exact nofun
  · exact fun _ => .init rfl
  · exact fun _ => nofun

/-- A loop goes on attending. -/
theorem Attends.advance
    {fresh : Token} {now : Instant} {c c' : QueryClient V} {o : PageOutcome T} (h : l.Attends)
    (ha : l.advance fresh now c o = some (c', l')) :
  l'.Attends
  := by
  by_cases hpc : l.pc = .recv
  · obtain ⟨requests, -, ⟨-, hreceive, rfl⟩ | ⟨-, hresume, rfl⟩⟩ := recv_cases ha hpc
    · obtain ⟨hsender, hcases⟩ := received_cases hreceive
      have hobserved (ho : observed { l with requests := requests, pc := l.received requests }) :
          l.observed = true := by
        rwa [observed, hsender] at ho
      constructor
      case idle =>
        intro hrecv hended
        obtain ⟨request, -, -, hidle, -⟩ | ⟨-, -, -, hgoto⟩ | ⟨-, -, -, hgoto⟩ := hcases
        · exact hidle
        · contradiction
        · contradiction
      case waits =>
        intro hrecv
        obtain ⟨request, -, -, -, hgoto⟩ | ⟨-, -, -, hgoto⟩ | ⟨-, -, hended, -⟩ := hcases
        · cases hgoto.symm.trans hrecv
        · cases hgoto.symm.trans hrecv
        · exact hended
      case ended =>
        intro hover
        obtain ⟨request, -, -, -, hgoto⟩ | ⟨-, -, hended, -⟩ | ⟨-, -, -, hgoto⟩ := hcases
        · cases hgoto.symm.trans hover
        · exact hended
        · cases hgoto.symm.trans hover
      case inTime =>
        intro ho
        apply (h.inTime (hobserved ho)).step _ hreceive
        apply PageRequests.subscribesInTime_receiveStep (sender_of_observed (hobserved ho))
        apply h.empty (hobserved ho)
      case empty =>
        intro ho hbetween
        apply PageRequests.slot_of_between hreceive (h.empty (hobserved ho)) hbetween
    · obtain ⟨w, t, -, hresumed⟩ := PageRequests.resume_cases hresume
      have hobserved (ho : observed { l with requests := requests, pc := .recv }) :
          l.observed = true := by
        rwa [observed, hresumed] at ho
      constructor
      case idle => exact fun hrecv => absurd rfl hrecv
      case waits => simp [hresumed]
      case ended => exact nofun
      case inTime =>
        intro ho
        have hstep : PageRequests.machine.step l.requests .resume = some requests := hresume
        refine (h.inTime (hobserved ho)).step ?_ hstep
        trivial
      case empty =>
        intro _ hbetween
        simp [hresumed, PageRequests.Between] at hbetween
  · obtain ⟨hrequests, hended, hended'⟩ := requests_of_advance ha hpc
    have hidle := h.idle hpc hended
    rw [← hrequests] at hidle
    constructor
    case idle => exact fun _ _ => hidle
    case waits => simp [hidle]
    case ended => exact fun hover => absurd hover hended'
    case inTime =>
      rw [observed, hrequests]
      exact h.inTime
    case empty =>
      intro _ hbetween
      simp [hidle, PageRequests.Between] at hbetween

omit [StringAny V] [InfiniteAny V T P] in
/-- What the sender does leaves the receiver where the loop says. -/
theorem Attends.of_wakeAll
    {requests : PageRequests} {wakers : List Waker} (h : l.Attends)
    (hreceiver : requests.receiver = PageRequests.wakeAll wakers l.requests.receiver)
    (hinTime : observed { l with requests := requests } = true →
      PageRequests.machine.Run PageRequests.SubscribesInTime requests)
    (hempty : observed { l with requests := requests } = true →
      requests.Between → requests.slot = none) :
  Attends { l with requests := requests }
  := by
  obtain hsame | ⟨w, t, hparked, hpoll⟩ := PageRequests.wakeAll_cases wakers l.requests.receiver
  · rw [hsame] at hreceiver
    constructor
    case idle => simpa only [hreceiver] using h.idle
    case waits => simpa only [hreceiver] using h.waits
    case ended => simpa only [hreceiver] using h.ended
    case inTime => exact hinTime
    case empty => exact hempty
  · rw [hpoll] at hreceiver
    constructor
    case idle =>
      intro hrecv hended
      cases (h.idle hrecv hended).symm.trans hparked
    case waits => simp [hreceiver]
    case ended =>
      intro hover
      cases (h.ended hover).symm.trans hparked
    case inTime => exact hinTime
    case empty => exact hempty

omit [StringAny V] [InfiniteAny V T P] in
/-- A request is sent while the loop is not about to subscribe. -/
theorem Attends.trySend
    (h : l.Attends) (hobserved : l.observed = true) (hbetween : ¬ l.requests.Between)
    (request : PageRequest) :
  (l.trySend request).Attends
  := by
  cases hslot : l.requests.slot with
  | some pending =>
    have hsame : l.trySend request = l := by
      rw [PageLoop.trySend, PageRequests.trySend, hslot]
      rfl
    rwa [hsame]
  | none =>
    obtain ⟨as, has, hexec⟩ :=
      PageRequests.exists_exec_trySend (sender_of_observed hobserved) request
    have hsent : (l.requests.trySend request).receiver = PageRequests.wakeAll
        (Watch.send l.requests.release ()).2 l.requests.receiver := by
      rw [PageRequests.trySend_of_empty request hslot]
    apply h.of_wakeAll hsent
    · exact fun _ => PageRequests.Run.send (h.inTime hobserved) has hexec
    · intro _ hb
      unfold PageRequests.Between at hb hbetween
      rw [hsent] at hb
      obtain hsame | ⟨w, t, -, hpoll⟩ := PageRequests.wakeAll_cases
        (Watch.send l.requests.release ()).2 l.requests.receiver
      · rw [hsame] at hb
        contradiction
      · simp [hpoll] at hb

omit [StringAny V] [InfiniteAny V T P] in
/-- The observer is dropped. -/
theorem Attends.dropSender
    {requests : PageRequests} (h : l.Attends) (hdrop : l.requests.dropSender = some requests) :
  Attends { l with requests := requests }
  := by
  unfold PageRequests.dropSender at hdrop
  split at hdrop
  · obtain rfl := Option.some.inj hdrop
    apply h.of_wakeAll rfl
    · exact nofun
    · exact nofun
  · obtain rfl := Option.some.inj hdrop
    have hreceiver : PageRequests.receiver { l.requests with sender := .gone } =
        PageRequests.wakeAll [] l.requests.receiver := rfl
    apply Attends.of_wakeAll h hreceiver
    · exact nofun
    · exact nofun
  · contradiction

end PageLoop

namespace Pages

variable {s s' : Pages V T P} {a : Action V T P} {j : Nat} {l l' : PageLoop T P}

/-- A step of the system takes the requests of a loop by steps of the slot, which are those
of the sender if the step is not one of the loop. -/
theorem exists_exec_requests (hs : s.step a = some s') (hl' : s'.loops.lookup j = some l') :
  s.loops.lookup j = none ∧ l'.requests = .initial ∨
    ∃ l as, s.loops.lookup j = some l ∧
      PageRequests.machine.exec l.requests as = some l'.requests ∧
      (a.Advances j ∨ ∀ b ∈ as, b.Sends)
  := by
  have hkept (hl : s.loops.lookup j = some l') :
      ∃ l as, s.loops.lookup j = some l ∧
        PageRequests.machine.exec l.requests as = some l'.requests ∧
        (a.Advances j ∨ ∀ b ∈ as, b.Sends) :=
    ⟨l', [], hl, rfl, .inr nofun⟩
  have hsend {l₁ : PageLoop T P} {request : PageRequest} (hl₁ : s.loops.lookup j = some l₁)
      (ho : l₁.observed = true) :
      ∃ l as, s.loops.lookup j = some l ∧
        PageRequests.machine.exec l.requests as = some (l₁.trySend request).requests ∧
        (a.Advances j ∨ ∀ b ∈ as, b.Sends) := by
    obtain ⟨as, has, hexec⟩ :=
      PageRequests.exists_exec_trySend (PageLoop.sender_of_observed ho) request
    exact ⟨l₁, as, hl₁, hexec, .inr has⟩
  cases a with
  | sys a =>
    right
    apply hkept
    rwa [(step_sys hs).2] at hl'
  | spawn i query =>
    obtain ⟨hi, rfl⟩ := step_spawn hs
    obtain ⟨rfl, rfl⟩ | ⟨-, hl⟩ := Table.lookup_insert_cases hl'
    · left
      exact ⟨hi, rfl⟩
    · right
      apply hkept hl
  | request i request =>
    right
    have hs₀ := hs
    obtain ⟨l₁, hi, rfl⟩ := step_request hs
    obtain ⟨rfl, rfl⟩ | ⟨-, hl⟩ := Table.lookup_insert_cases hl'
    · apply hsend hi
      apply observed_of_requests _ hs₀ hi
      rfl
    · apply hkept hl
  | requestWith i cancelRefetch request =>
    right
    have hs₀ := hs
    obtain ⟨l₁, hi, rfl⟩ := step_requestWith hs
    obtain ⟨rfl, rfl⟩ | ⟨-, hl⟩ := Table.lookup_insert_cases hl'
    · obtain hsame | hsent := fetchPageWith_loop s.sys.client l₁ cancelRefetch request
      · rw [hsame]
        exact ⟨l₁, [], hi, rfl, .inr nofun⟩
      · rw [hsent]
        apply hsend hi
        apply observed_of_requests _ hs₀ hi
        rfl
    · apply hkept hl
  | dropObserver i =>
    right
    obtain ⟨l₁, requests, hi, hdrop, rfl⟩ := step_dropObserver hs
    obtain ⟨rfl, rfl⟩ | ⟨-, hl⟩ := Table.lookup_insert_cases hl'
    · obtain ⟨as, has, hexec⟩ := PageRequests.exists_exec_dropSender hdrop
      exact ⟨l₁, as, hi, hexec, .inr has⟩
    · apply hkept hl
  | advance i o =>
    right
    obtain ⟨l₁, c, l₂, hi, ha, rfl⟩ := step_advance hs
    obtain ⟨rfl, rfl⟩ | ⟨-, hl⟩ := Table.lookup_insert_cases hl'
    · refine ⟨l₁, ?_⟩
      by_cases hpc : l₁.pc = .recv
      · obtain ⟨requests, -, ⟨-, hreceive, rfl⟩ | ⟨-, hresume, rfl⟩⟩ := PageLoop.recv_cases ha hpc
        · exact ⟨[l₁.requests.receiveStep], hi, Machine.exec_cons hreceive, .inl rfl⟩
        · exact ⟨[.resume], hi, Machine.exec_cons hresume, .inl rfl⟩
      · rw [(PageLoop.requests_of_advance ha hpc).1]
        exact ⟨[], hi, rfl, .inl rfl⟩
    · apply hkept hl
  | append key page pageParam maxPages =>
    right
    apply hkept
    simp only [step] at hs
    split at hs
    all_goals
      obtain rfl := Option.some.inj hs
      exact hl'
  | prepend key page pageParam maxPages =>
    right
    obtain rfl := Option.some.inj hs
    apply hkept hl'
  | hydrate serde state options =>
    right
    obtain rfl := Option.some.inj hs
    apply hkept hl'
  | restore options wall key data dataUpdatedAtMs =>
    right
    obtain rfl := Option.some.inj hs
    apply hkept hl'

/-- The requests of a loop are in a state that the slot of `PageRequests` reaches. -/
theorem reachable_requests (h : machine.Reachable s) :
  ∀ j l, s.loops.lookup j = some l → PageRequests.machine.Reachable l.requests
  := by
  apply h.invariant
  · rintro s rfl j l hl
    contradiction
  · intro s a s' _ ih _ hs j l' hl'
    obtain ⟨-, hinitial⟩ | ⟨l, as, hl, hexec, -⟩ := exists_exec_requests hs hl'
    · rw [hinitial]
      apply Machine.Run.init rfl
    · apply (ih j l hl).exec hexec

omit [InfiniteAny V T P] in
theorem attends_initial :
  Attends (⟨.initial, ∅⟩ : Pages V T P)
  := by
  intro j l hl
  contradiction

omit [InfiniteAny V T P] in
/-- A step that puts back a loop that attends keeps them attending. -/
theorem Attends.setLoop
    {c : QueryClient V} {n : Token} (h : s.Attends) (hl : l.Attends)
    (hs : s' = { s with sys.client := c, sys.nextRun := n, loops := s.loops.insert j l }) :
  s'.Attends
  := by
  intro i l₁ hi
  rw [hs] at hi
  obtain ⟨-, rfl⟩ | ⟨-, hi⟩ := Table.lookup_insert_cases hi
  · apply hl
  · apply h i l₁ hi

/-- A step that sends every request in time keeps the loops attending. -/
theorem Attends.step (h : s.Attends) (hok : s.InTime a) (hs : s.step a = some s') :
  s'.Attends
  := by
  cases a with
  | sys a =>
    intro i l hl
    rw [(step_sys hs).2] at hl
    apply h i l hl
  | spawn i query =>
    obtain ⟨-, hs⟩ := step_spawn hs
    apply h.setLoop (PageLoop.attends_spawn query) hs
  | request i request =>
    have ho {l : PageLoop T P} (hl : s.loops.lookup i = some l) : l.observed = true := by
      apply observed_of_requests _ hs hl
      rfl
    obtain ⟨l, hl, hs⟩ := step_request hs
    apply h.setLoop ((h i l hl).trySend (ho hl) (hok l hl (ho hl)) request) hs
  | requestWith i cancelRefetch request =>
    have ho {l : PageLoop T P} (hl : s.loops.lookup i = some l) : l.observed = true := by
      apply observed_of_requests _ hs hl
      rfl
    obtain ⟨l, hl, hs⟩ := step_requestWith hs
    apply h.setLoop _ hs
    have hbetween := hok l hl (ho hl)
    unfold fetchPageWith
    split
    · next hflight =>
      split
      · next hcancel => exact (h i l hl).trySend (ho hl) (hbetween fun _ => hcancel) request
      · apply h i l hl
    · next hflight =>
      apply (h i l hl).trySend (ho hl) (hbetween fun hf => absurd hf hflight)
  | dropObserver i =>
    obtain ⟨l, requests, hl, hdrop, hs⟩ := step_dropObserver hs
    apply h.setLoop ((h i l hl).dropSender hdrop) hs
  | advance i o =>
    obtain ⟨l, c, l', hl, ha, hs⟩ := step_advance hs
    apply h.setLoop ((h i l hl).advance ha) hs
  | append key page pageParam maxPages =>
    simp only [Pages.step] at hs
    split at hs
    all_goals
      obtain rfl := Option.some.inj hs
      exact h
  | prepend key page pageParam maxPages =>
    obtain rfl := Option.some.inj hs
    exact h
  | hydrate serde state options =>
    obtain rfl := Option.some.inj hs
    exact h
  | restore options wall key data dataUpdatedAtMs =>
    obtain rfl := Option.some.inj hs
    exact h

/-- The step of a loop that waits. -/
theorem step_recv
    {requests : PageRequests} (hl : s.loops.lookup j = some l) (hpc : l.pc = .recv)
    (hreceive : l.requests.step l.requests.receiveStep = some requests) :
  ∃ s', s.step (.advance j .next) = some s' ∧
    s'.loops.lookup j = some { l with requests := requests, pc := l.received requests }
  := by
  let l' : PageLoop T P := { l with requests := requests, pc := l.received requests }
  use (s.fresh.1.setClient s.sys.client).setLoop j l'
  constructor
  · simp [step, hl, fresh, PageLoop.advance, hpc, hreceive, l']
  · exact AList.lookup_insert _

/-- A loop that is about to look into its slot serves what is there. -/
theorem serves_of_take
    {request : PageRequest} (hl : s.loops.lookup j = some l) (hpc : l.pc = .recv)
    (htake : l.requests.receiver = .take) (hidle : l.requests.sender = .idle)
    (hslot : l.requests.slot = some request) :
  ∃ s' l', s.step (.advance j .next) = some s' ∧ s'.loops.lookup j = some l' ∧
    l'.pc = .readData request
  := by
  obtain ⟨s', hs, hl'⟩ := step_recv hl hpc (PageRequests.step_take htake hidle hslot)
  refine ⟨s', _, hs, hl', ?_⟩
  simp only [PageLoop.received, hslot, Option.elim_some]

/-- A loop that attends hears its observer. -/
theorem hears_of_attends (h : s.Attends) :
  s.Hears
  := by
  intro j l request hl hpc ho hslot
  obtain ⟨-, hwaits, -, hinTime, hempty⟩ := h j l hl
  have hidle := PageLoop.sender_of_observed ho
  have hbetween : ¬ l.requests.Between := by
    intro hb
    rw [hempty ho hb] at hslot
    contradiction
  obtain htake | ⟨requests, hreceive, htake, hslot', hidle'⟩ :=
    (PageRequests.kept_of_run (hinTime ho)).take hidle hslot hbetween (hwaits hpc)
  · obtain ⟨s', l', hs, hl', hserves⟩ := serves_of_take hl hpc htake hidle hslot
    exact ⟨1, s', l', Machine.exec_cons hs, hl', hserves⟩
  · obtain ⟨s₁, hs₁, hl₁⟩ := step_recv hl hpc hreceive
    have hrecv : l.received requests = .recv := by
      simp only [PageLoop.received, htake]
    obtain ⟨s₂, l₂, hs₂, hl₂, hserves⟩ := serves_of_take hl₁ hrecv htake
      (hidle'.trans hidle) (hslot'.trans hslot)
    refine ⟨2, s₂, l₂, ?_, hl₂, hserves⟩
    rw [List.replicate_succ, Machine.exec_cons hs₁, List.replicate_one, Machine.exec_cons hs₂,
      Machine.exec_nil]

/-- A loop whose receiver is on its way to park stays at its requests. -/
theorem recv_of_deaf
    {n : Nat} {t : Pages V T P} (hl : s.loops.lookup j = some l) (hpc : l.pc = .recv)
    (hdeaf : l.requests.Deaf)
    (hexec : machine.exec s (List.replicate n (.advance j .next)) = some t) :
  ∃ l', t.loops.lookup j = some l' ∧ l'.pc = .recv
  := by
  induction n generalizing s l with
  | zero =>
    obtain rfl := Option.some.inj hexec
    exact ⟨l, hl, hpc⟩
  | succ n ih =>
    obtain ⟨u, hu, hexec⟩ := Option.bind_eq_some_iff.mp hexec
    obtain ⟨l₀, c, l', hl₀, ha, rfl⟩ := step_advance hu
    obtain rfl := Option.some.inj (hl.symm.trans hl₀)
    obtain ⟨requests, -, ⟨-, hreceive, rfl⟩ | ⟨ho, -⟩⟩ := PageLoop.recv_cases ha hpc
    · have hdeaf' := hdeaf.receive hreceive
      apply ih (AList.lookup_insert _) _ hdeaf' hexec
      unfold PageLoop.received
      obtain hbetween | ⟨w, hw, -⟩ | ⟨w, t', hw⟩ := hdeaf'.receiver
      · unfold PageRequests.Between at hbetween
        split
        · next hr => simp [hr] at hbetween
        · next hr => simp [hr] at hbetween
        · rfl
      · rw [hw]
      · rw [hw]
    · contradiction

/-- A request that is sent to a loop about to subscribe is not heard. -/
theorem not_hears_of_between
    {request : PageRequest} (h : s.Attends) (hl : s.loops.lookup j = some l)
    (ho : l.observed = true) (hbetween : l.requests.Between)
    (hl' : s'.loops.lookup j = some (l.trySend request)) :
  ¬ s'.Hears
  := by
  obtain ⟨hidle, -, hover, hinTime, hempty⟩ := h j l hl
  have hslot := hempty ho hbetween
  have hpc : l.pc = .recv := by
    unfold PageRequests.Between at hbetween
    by_contra hrecv
    by_cases hended : l.pc = .ended
    · simp [hover hended] at hbetween
    · simp [hidle hrecv hended] at hbetween
  have hreceiver : PageRequests.wakeAll (Watch.send l.requests.release ()).2
      l.requests.receiver = l.requests.receiver := by
    obtain hsame | ⟨w, t, hparked, -⟩ := PageRequests.wakeAll_cases
      (Watch.send l.requests.release ()).2 l.requests.receiver
    · exact hsame
    · simp [PageRequests.Between, hparked] at hbetween
  have hsent := PageRequests.trySend_of_empty request hslot
  rw [hreceiver] at hsent
  have hdeaf : (l.requests.trySend request).Deaf := by
    rw [hsent]
    exact ⟨(PageRequests.kept_of_run (hinTime ho)).alive, PageLoop.sender_of_observed ho, by simp,
      .inl hbetween⟩
  intro hhears
  have hobserved : (l.trySend request).observed = true := decide_eq_true hdeaf.idle
  obtain ⟨n, t, l₁, hexec, hl₁, hserves⟩ := hhears j _ request hl' hpc hobserved
    (congrArg PageRequests.slot hsent)
  obtain ⟨l₂, hl₂, hrecv⟩ := recv_of_deaf hl' hpc hdeaf hexec
  obtain rfl := Option.some.inj (hl₁.symm.trans hl₂)
  cases hrecv.symm.trans hserves

/-- The loops hear their observers after a step exactly if it sends every request in
time. -/
theorem hears_iff_inTime (h : s.Attends) :
  (∀ s' ∈ s.step a, s'.Hears) ↔ s.InTime a
  := by
  constructor
  · intro hhears
    cases a with
    | request i request =>
      intro l hl ho hbetween
      have hs : s.step (.request i request) = some (s.setLoop i (l.trySend request)) := by
        simp [step, Option.mem_def.mp hl, ho]
      apply not_hears_of_between h hl ho hbetween (AList.lookup_insert _) (hhears _ hs)
    | requestWith i cancelRefetch request =>
      intro l hl ho hsends hbetween
      let c := (fetchPageWith s.sys.client l cancelRefetch request).1
      have hsent : (fetchPageWith s.sys.client l cancelRefetch request).2 =
          l.trySend request := by
        unfold fetchPageWith
        split
        · next hflight => rw [if_pos (hsends hflight)]
        · rfl
      have hs : s.step (.requestWith i cancelRefetch request) =
          some ((s.setClient c).setLoop i (l.trySend request)) := by
        simp [step, Option.mem_def.mp hl, ho, hsent, c]
      apply not_hears_of_between h hl ho hbetween (AList.lookup_insert _) (hhears _ hs)
    | _ => trivial
  · intro hok s' hs
    apply hears_of_attends (h.step hok hs)

end Pages

end RsQuery
