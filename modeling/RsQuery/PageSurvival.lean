import RsQuery.PageCancellation
import RsQuery.PageReception

/-!
# The end of a page fetch

After a fetch has ended a loop announces the error if there was one, deregisters and waits
for the next request.  Nothing does that for a loop that panics: the fetch function and the
functions that give the page parameters are called without a guard, and so is the trimming,
which panics when there are fewer parameters than pages to remove.  And a request that is
sent while the loop is between finding its slot empty and its subscription is not heard.  The
loops survive every step of a run exactly if none of their steps panics and every request is
sent in time: `Pages.survives_iff`.  A loop that does is back at its requests after at most
two steps of its own: `Pages.stepsLeft_of_exec`.
-/

namespace RsQuery

variable {V T P : Type} [StringAny V] [InfiniteAny V T P]

namespace LoopPc

/-- The loop polls the fetch function. -/
def Fetches : LoopPc T P → Prop
  | .fetchInitial | .fetching .. => True
  | _ => False

/-- How many steps a loop whose fetch has ended is away from its requests. -/
def stepsLeft : LoopPc T P → Option Nat
  | .storeInitial _ | .add .. | .failed _ => some 2
  | .stored | .initialFailed | .deregister _ => some 1
  | .recv => some 0
  | _ => none

/-- The loop waits for a request or is about to fetch the page of one. -/
def Serves : LoopPc T P → Prop
  | .recv | .readData _ | .checkInFlight .. | .askParam .. | .register .. => True
  | _ => False

/-- The loop has an error to announce. -/
def OwesError : LoopPc T P → Prop
  | .initialFailed | .failed _ => True
  | _ => False

/-- The loop is about to deregister. -/
def Deregisters : LoopPc T P → Prop
  | .deregister _ => True
  | _ => False

variable {pc : LoopPc T P}

theorem Fetches.waits (h : pc.Fetches) :
  pc.stepsLeft = none ∧ pc ≠ .recv ∧ ¬ pc.OwesError ∧ ¬ pc.Deregisters
  := by
  cases pc with
  | fetchInitial | fetching => simp [stepsLeft, OwesError, Deregisters]
  | _ => contradiction

theorem Serves.waits (h : pc.Serves) :
  (∀ n, pc.stepsLeft ≠ some (n + 1)) ∧ pc.token = none ∧ ¬ pc.Fetches ∧ ¬ pc.OwesError ∧
    ¬ pc.Deregisters
  := by
  cases pc with
  | recv | readData | checkInFlight | askParam | register =>
    simp [stepsLeft, token, Fetches, OwesError, Deregisters]
  | _ => contradiction

theorem running_of_stepsLeft (h : pc.stepsLeft.isSome) :
  pc ≠ .ended ∧ pc ≠ .panicked ∧ ¬ pc.Fetches
  := by
  cases pc with
  | fetchInitial | fetching | ended | panicked => simp [stepsLeft] at h
  | _ => simp [Fetches]

end LoopPc

namespace PageOutcome

/-- The fetch is over. -/
def Ends : PageOutcome T → Prop
  | .ready _ | .panic => True
  | _ => False

/-- The fetch is over and there is no page. -/
def Fails : PageOutcome T → Prop
  | .ready (.error _) | .panic => True
  | _ => False

end PageOutcome

namespace PageLoop

/-- The step panics: in user code, or because a parameter is to be removed and there is
none. -/
def Panics (l : PageLoop T P) (c : QueryClient V) : PageOutcome T → Prop
  | .panic =>
    match l.pc with
    | .fetchInitial | .askParam .. | .fetching .. => True
    | _ => False
  | .next =>
    match l.pc with
    | .add .next param page _ =>
      ∃ data ∈ c.pagesOf (T := T) (P := P) l.query.key,
        data.append page param l.query.maxPages = none
    | _ => False
  | _ => False

instance (l : PageLoop T P) (c : QueryClient V) (o : PageOutcome T) :
    Decidable (l.Panics c o) := by
  unfold Panics
  generalize l.pc = pc
  casesm* PageOutcome _, LoopPc _ _, PageRequest <;> infer_instance

end PageLoop

namespace Pages

/-- The loop goes on after a step of its own. -/
structure GoesOn (s : Pages V T P) (j : Nat) (l : PageLoop T P) (o : PageOutcome T)
    (s' : Pages V T P) (l' : PageLoop T P) : Prop where
  /-- Whatever the others do, the loop can take its next step, if it does not wait for a
  request and is not over for want of an observer. -/
  runs : l'.pc.Fetches ∨ l'.pc = .recv ∨ (l'.pc = .ended ∧ l.observed = false) ∨
    ∀ (t : Pages V T P) (l₁ : PageLoop T P), t.loops.lookup j = some l₁ → l₁.pc = l'.pc →
      (t.step (.advance j .next)).isSome
  /-- After a fetch has ended the loop is on its way back to its requests. -/
  returns : l.pc.Fetches → o.Ends → l'.pc.stepsLeft.isSome
  nearer : ∀ n, l.pc.stepsLeft = some (n + 1) → l'.pc.stepsLeft = some n
  /-- What it has registered it deregisters. -/
  deregisters : l.pc.token.isSome → l'.pc.token = none →
    s'.sys.client.isInFlight l.query.key = false
  announces : l.pc.Fetches → o.Fails → l'.pc.OwesError
  notifies : l.pc.OwesError →
    s'.sys.client = s.sys.client.notifySubscribers l.query.key.cacheKey .error
  leavesPages : (l.pc.Fetches ∧ o.Fails) ∨ l.pc.OwesError ∨ l.pc.Deregisters →
    s'.sys.client.cache = s.sys.client.cache

/-- The loop that takes the step goes on, and after it every loop comes to the request in
its slot. -/
structure Survives (s : Pages V T P) (a : Action V T P) : Prop where
  goesOn : ∀ j o l s' l', a = .advance j o → s.loops.lookup j = some l → s.step a = some s' →
    s'.loops.lookup j = some l' → s.GoesOn j l o s' l'
  hears : ∀ s' ∈ s.step a, s'.Hears

/-- The step is not a panic. -/
def Unpanicking (s : Pages V T P) : Action V T P → Prop
  | .advance j o => ∀ l ∈ s.loops.lookup j, ¬ l.Panics s.sys.client o
  | _ => True

instance (s : Pages V T P) (a : Action V T P) : Decidable (s.Unpanicking a) := by
  unfold Unpanicking
  rcases a with _ | _ <;> infer_instance

/-- The step is not a panic, and no request that comes while its loop is about to
subscribe. -/
def Harmless (s : Pages V T P) (a : Action V T P) : Prop :=
  s.Unpanicking a ∧ s.InTime a

instance (s : Pages V T P) (a : Action V T P) : Decidable (s.Harmless a) :=
  inferInstanceAs (Decidable (_ ∧ _))

end Pages

/-! ### One step of a loop -/

namespace PageLoop

variable {l l' : PageLoop T P} {fresh : Token} {now : Instant} {c c' : QueryClient V}
  {o : PageOutcome T}

/-- A loop that neither waits nor is over can take a step. -/
theorem isSome_advance_next
    (fresh : Token) (now : Instant) (c : QueryClient V) (hfetches : ¬ l.pc.Fetches)
    (hrecv : l.pc ≠ .recv) (hended : l.pc ≠ .ended) (hpanicked : l.pc ≠ .panicked) :
  (l.advance fresh now c .next).isSome
  := by
  cases hpc : l.pc with
  | fetchInitial | fetching => simp [hpc, LoopPc.Fetches] at hfetches
  | recv => contradiction
  | ended => contradiction
  | panicked => contradiction
  | add request =>
    simp only [advance, hpc]
    cases request with
    | next =>
      dsimp only
      split
      · rfl
      · rfl
    | previous => rfl
  | _ =>
    simp only [advance, hpc]
    repeat' split
    all_goals rfl

/-- Where a page cannot be appended there are pages whose trimming panics. -/
theorem exists_of_appendInfinitePage
    {key : QueryKey} {page : T} {param : P} {maxPages : Option Nat}
    (h : c.appendInfinitePage now key page param maxPages = none) :
  ∃ data ∈ c.pagesOf (T := T) (P := P) key, data.append page param maxPages = none
  := by
  unfold QueryClient.appendInfinitePage at h
  cases hpages : c.pagesOf (T := T) (P := P) key with
  | none => simp [hpages] at h
  | some data =>
    use data, rfl
    cases happend : data.append page param maxPages with
    | none => rfl
    | some newData => simp [hpages, happend] at h

/-- What a step of a loop means for its survival. -/
inductive Turn (l : PageLoop T P) (c : QueryClient V) :
    PageOutcome T → QueryClient V → LoopPc T P → Prop where
  /-- The fetch is not over. -/
  | poll : l.pc.Fetches → Turn l c .pending c l.pc
  | fetched {o : PageOutcome T} {pc : LoopPc T P} : l.pc.Fetches → pc.stepsLeft.isSome →
    (o.Fails → pc.OwesError) → pc.token = l.pc.token → Turn l c o c pc
  /-- What is left to do after a fetch. -/
  | windUp {c' : QueryClient V} {pc : LoopPc T P} {n : Nat} : l.pc.stepsLeft = some (n + 1) →
    pc.stepsLeft = some n →
    (l.pc.OwesError → c' = c.notifySubscribers l.query.key.cacheKey .error) →
    (pc.token = l.pc.token ∨ c' = c.clearInFlight l.query.key) →
    (l.pc.Deregisters → c'.cache = c.cache) → Turn l c .next c' pc
  | serve {o : PageOutcome T} {c' : QueryClient V} {pc : LoopPc T P} : l.pc.Serves →
    pc ≠ .ended → pc ≠ .panicked → Turn l c o c' pc
  | finish : l.pc = .recv → l.observed = false → Turn l c .next c .ended
  | panic {o : PageOutcome T} : l.Panics c o → Turn l c o c .panicked

/-- A step that panics leaves the client as it is. -/
theorem advance_of_panics (fresh : Token) (now : Instant) (hpanics : l.Panics c o) :
  l.advance fresh now c o = some (c, l.goto .panicked)
  := by
  cases o with
  | next =>
    cases hl : l.pc with
    | add request param page token =>
      cases request with
      | next =>
        rw [Panics, hl] at hpanics
        obtain ⟨data, hdata, happend⟩ := hpanics
        simp only [advance, hl, QueryClient.appendInfinitePage, Option.mem_def.mp hdata, happend]
      | previous => simp [Panics, hl] at hpanics
    | _ => simp [Panics, hl] at hpanics
  | panic =>
    cases hl : l.pc with
    | fetchInitial | askParam | fetching => simp only [advance, hl]
    | _ => simp [Panics, hl] at hpanics
  | _ => contradiction

/-- A fetch that is over. -/
theorem turn_fetched
    (h : l.advance fresh now c o = some (c', l')) (hfetches : l.pc.Fetches) :
  l.Turn c o c' l'.pc
  := by
  cases hl : l.pc with
  | fetchInitial | fetching =>
    cases o with
    | next => simp [advance, hl] at h
    | pending =>
      simp only [advance, hl] at h
      obtain ⟨rfl, rfl⟩ := Prod.mk.inj (Option.some.inj h)
      apply Turn.poll hfetches
    | ready result =>
      cases result with
      | ok page | error error =>
        simp only [advance, hl] at h
        obtain ⟨rfl, rfl⟩ := Prod.mk.inj (Option.some.inj h)
        apply Turn.fetched hfetches
        · rfl
        · simp [goto, PageOutcome.Fails, LoopPc.OwesError]
        · simp [goto, hl, LoopPc.token]
    | panic =>
      simp only [advance, hl] at h
      obtain ⟨rfl, rfl⟩ := Prod.mk.inj (Option.some.inj h)
      apply Turn.panic
      simp [Panics, hl]
  | _ => simp [hl, LoopPc.Fetches] at hfetches

/-- A loop that does not wait and calls no user code goes on by itself. -/
theorem eq_next_of_advance
    (h : l.advance fresh now c o = some (c', l')) (hfetches : ¬ l.pc.Fetches)
    (hrecv : l.pc ≠ .recv)
    (hask : ∀ request data, l.pc ≠ .askParam request data) :
  o = .next
  := by
  cases o with
  | next => rfl
  | ready result => cases result with
    | ok | error => cases hl : l.pc with
      | fetchInitial | fetching => simp [hl, LoopPc.Fetches] at hfetches
      | _ => simp [advance, hl] at h
  | pending | panic => cases hl : l.pc with
    | fetchInitial | fetching => simp [hl, LoopPc.Fetches] at hfetches
    | recv => contradiction
    | askParam request data => exact absurd hl (hask request data)
    | _ => simp [advance, hl] at h

theorem turn_windUp
    {n : Nat} (h : l.advance fresh now c o = some (c', l'))
    (hleft : l.pc.stepsLeft = some (n + 1)) :
  l.Turn c o c' l'.pc
  := by
  have hfetches := (LoopPc.running_of_stepsLeft (Option.isSome_iff_exists.mpr ⟨_, hleft⟩)).2.2
  have hask (request : PageRequest) (data : InfiniteData T P) : l.pc ≠ .askParam request data := by
    intro hl
    simp [hl, LoopPc.stepsLeft] at hleft
  have hrecv : l.pc ≠ .recv := by
    intro hl
    simp [hl, LoopPc.stepsLeft] at hleft
  obtain rfl := eq_next_of_advance h hfetches hrecv hask
  cases hl : l.pc with
  | storeInitial | stored | initialFailed | failed | deregister =>
    simp only [advance, hl] at h
    obtain ⟨rfl, rfl⟩ := Prod.mk.inj (Option.some.inj h)
    apply Turn.windUp (by rw [hl]; rfl) rfl
    all_goals simp [goto, hl, LoopPc.OwesError, LoopPc.token, LoopPc.Deregisters,
      QueryClient.clearInFlight]
  | add request param page token =>
    cases request with
    | next =>
      simp only [advance, hl] at h
      split at h
      · obtain ⟨rfl, rfl⟩ := Prod.mk.inj (Option.some.inj h)
        apply Turn.windUp (by rw [hl]; rfl) rfl
        all_goals simp [goto, hl, LoopPc.OwesError, LoopPc.token, LoopPc.Deregisters]
      · next hnone =>
        obtain ⟨rfl, rfl⟩ := Prod.mk.inj (Option.some.inj h)
        apply Turn.panic
        rw [Panics, hl]
        apply exists_of_appendInfinitePage hnone
    | previous =>
      simp only [advance, hl] at h
      obtain ⟨rfl, rfl⟩ := Prod.mk.inj (Option.some.inj h)
      apply Turn.windUp (by rw [hl]; rfl) rfl
      all_goals simp [goto, hl, LoopPc.OwesError, LoopPc.token, LoopPc.Deregisters]
  | _ => simp [hl, LoopPc.stepsLeft] at hleft

theorem turn_serve (h : l.advance fresh now c o = some (c', l')) (hserves : l.pc.Serves) :
  l.Turn c o c' l'.pc
  := by
  have hfetches := hserves.waits.2.2.1
  cases hl : l.pc with
  | recv =>
    obtain ⟨requests, rfl, ⟨rfl, hreceive, rfl⟩ | ⟨-, -, rfl⟩⟩ := recv_cases h hl
    · obtain ⟨-, ⟨request, -, -, -, hgoto⟩ | ⟨-, hgone, -, hgoto⟩ | ⟨-, -, -, hgoto⟩⟩ :=
        received_cases hreceive
      · rw [hgoto]
        exact Turn.serve hserves (by simp) (by simp)
      · rw [hgoto]
        apply Turn.finish hl
        simp [observed, hgone]
      · rw [hgoto]
        exact Turn.serve hserves (by simp) (by simp)
    · exact Turn.serve hserves (by simp) (by simp)
  | readData | checkInFlight | register =>
    obtain rfl := eq_next_of_advance h hfetches (by simp [hl]) (by simp [hl])
    simp only [advance, hl] at h
    repeat' split at h
    all_goals
      obtain ⟨rfl, rfl⟩ := Prod.mk.inj (Option.some.inj h)
      apply Turn.serve hserves
      · simp [goto]
      · simp [goto]
  | askParam =>
    cases o with
    | next =>
      simp only [advance, hl] at h
      split at h
      all_goals
        obtain ⟨rfl, rfl⟩ := Prod.mk.inj (Option.some.inj h)
        apply Turn.serve hserves
        · simp [goto]
        · simp [goto]
    | panic =>
      simp only [advance, hl] at h
      obtain ⟨rfl, rfl⟩ := Prod.mk.inj (Option.some.inj h)
      apply Turn.panic
      simp [Panics, hl]
    | pending => simp [advance, hl] at h
    | ready result => cases result with
      | ok | error => simp [advance, hl] at h
  | _ => simp [hl, LoopPc.Serves] at hserves

theorem turn_of_advance (h : l.advance fresh now c o = some (c', l')) :
  l.Turn c o c' l'.pc
  := by
  cases hl : l.pc with
  | fetchInitial | fetching =>
    apply turn_fetched h
    rw [hl]
    trivial
  | recv | readData | checkInFlight | askParam | register =>
    apply turn_serve h
    rw [hl]
    trivial
  | ended | panicked =>
    obtain rfl := eq_next_of_advance h (by simp [hl, LoopPc.Fetches]) (by simp [hl])
      (by simp [hl])
    simp [advance, hl] at h
  | _ =>
    apply turn_windUp h
    rw [hl]
    rfl

end PageLoop

namespace Pages

variable {s s' : Pages V T P} {j : Nat} {l l' : PageLoop T P} {o : PageOutcome T}

/-- A loop that neither waits nor is over runs on. -/
theorem runs_of_pc
    (hrecv : l'.pc ≠ .recv) (hended : l'.pc ≠ .ended) (hpanicked : l'.pc ≠ .panicked) (hfetches : ¬ l'.pc.Fetches)
    (t : Pages V T P) (l₁ : PageLoop T P) (hl₁ : t.loops.lookup j = some l₁)
    (hpc : l₁.pc = l'.pc) :
  (t.step (.advance j .next)).isSome
  := by
  rw [← hpc] at hrecv hended hpanicked hfetches
  obtain ⟨result, hresult⟩ := Option.isSome_iff_exists.mp (PageLoop.isSome_advance_next
    t.sys.nextRun t.sys.now t.sys.client hfetches hrecv hended hpanicked)
  simp [step, hl₁, fresh, hresult]

/-- The state after a step of the loop that leaves this client. -/
def afterStep (s : Pages V T P) (j : Nat) (c : QueryClient V) (l' : PageLoop T P) : Pages V T P :=
  (s.fresh.1.setClient c).setLoop j l'

theorem goesOn_poll (hfetches : l.pc.Fetches) (hpc : l'.pc = l.pc) :
  s.GoesOn j l .pending (s.afterStep j s.sys.client l') l'
  := by
  obtain ⟨hleft, hrecv, howes, hdereg⟩ := hfetches.waits
  constructor
  case runs =>
    left
    rwa [hpc]
  case returns =>
    intro _ hends
    contradiction
  case nearer => simp [hleft]
  case deregisters =>
    intro hsome hnone
    simp [← hpc, hnone] at hsome
  case announces =>
    intro _ hfails
    contradiction
  case notifies =>
    intro h
    contradiction
  case leavesPages =>
    intro _
    rfl

theorem goesOn_fetched
    (hfetches : l.pc.Fetches) (hleft : l'.pc.stepsLeft.isSome)
    (howes : o.Fails → l'.pc.OwesError) (htoken : l'.pc.token = l.pc.token) :
  s.GoesOn j l o (s.afterStep j s.sys.client l') l'
  := by
  obtain ⟨hnone, hrecv, hquiet, hdereg⟩ := hfetches.waits
  obtain ⟨hended, hpanicked, hdone⟩ := LoopPc.running_of_stepsLeft hleft
  constructor
  case runs =>
    by_cases hrecv' : l'.pc = .recv
    · right; left
      apply hrecv'
    · right; right; right
      apply runs_of_pc hrecv' hended hpanicked hdone
  case returns =>
    intro _ _
    apply hleft
  case nearer => simp [hnone]
  case deregisters =>
    intro hsome hnone
    simp [← htoken, hnone] at hsome
  case announces =>
    intro _
    apply howes
  case notifies =>
    intro h
    contradiction
  case leavesPages =>
    intro _
    rfl

theorem goesOn_windUp
    {c : QueryClient V} {n : Nat} (hleft : l.pc.stepsLeft = some (n + 1))
    (hleft' : l'.pc.stepsLeft = some n)
    (howes : l.pc.OwesError → c = s.sys.client.notifySubscribers l.query.key.cacheKey .error)
    (htoken : l'.pc.token = l.pc.token ∨ c = s.sys.client.clearInFlight l.query.key)
    (hcache : l.pc.Deregisters → c.cache = s.sys.client.cache) :
  s.GoesOn j l .next (s.afterStep j c l') l'
  := by
  obtain ⟨-, -, hbusy⟩ := LoopPc.running_of_stepsLeft (Option.isSome_of_eq_some hleft)
  obtain ⟨hended, hpanicked, hdone⟩ :=
    LoopPc.running_of_stepsLeft (Option.isSome_of_eq_some hleft')
  constructor
  case runs =>
    by_cases hrecv : l'.pc = .recv
    · right; left
      apply hrecv
    · right; right; right
      apply runs_of_pc hrecv hended hpanicked hdone
  case returns =>
    intro h
    contradiction
  case nearer =>
    intro m hm
    cases hleft.symm.trans hm
    apply hleft'
  case deregisters =>
    intro hsome hnone
    obtain hkept | rfl := htoken
    · simp [← hkept, hnone] at hsome
    · simp [QueryClient.isInFlight, QueryClient.clearInFlight, afterStep, setLoop, setClient]
  case announces =>
    intro h
    contradiction
  case notifies => apply howes
  case leavesPages =>
    rintro (⟨h, -⟩ | h | h)
    · contradiction
    · have hclient := howes h
      rw [afterStep, setLoop, setClient, hclient]
      apply (QueryClient.notifySubscribers_frame _ _ _).1
    · apply hcache h

theorem goesOn_serve
    {c : QueryClient V} (hserves : l.pc.Serves) (hended : l'.pc ≠ .ended)
    (hpanicked : l'.pc ≠ .panicked) :
  s.GoesOn j l o (s.afterStep j c l') l'
  := by
  obtain ⟨hleft, htoken, hbusy, howes, hdereg⟩ := hserves.waits
  constructor
  case runs =>
    by_cases hfetches : l'.pc.Fetches
    · left
      apply hfetches
    by_cases hrecv : l'.pc = .recv
    · right; left
      apply hrecv
    · right; right; right
      apply runs_of_pc hrecv hended hpanicked hfetches
  case returns =>
    intro h
    contradiction
  case nearer =>
    intro n hn
    apply absurd hn (hleft n)
  case deregisters => simp [htoken]
  case announces =>
    intro h
    contradiction
  case notifies =>
    intro h
    contradiction
  case leavesPages =>
    rintro (⟨h, -⟩ | h | h)
    · contradiction
    · contradiction
    · contradiction

theorem goesOn_finish
    {c : QueryClient V} (hrecv : l.pc = .recv) (hobserved : l.observed = false)
    (hpc : l'.pc = .ended) :
  s.GoesOn j l .next (s.afterStep j c l') l'
  := by
  constructor
  case runs =>
    right; right; left
    exact ⟨hpc, hobserved⟩
  all_goals simp [hrecv, LoopPc.Fetches, LoopPc.stepsLeft, LoopPc.token, LoopPc.OwesError,
    LoopPc.Deregisters]

/-- A loop whose step is no panic survives it, and no other does. -/
theorem goesOn_iff
    (hl : s.loops.lookup j = some l) (hs : s.step (.advance j o) = some s')
    (hl' : s'.loops.lookup j = some l') :
  s.GoesOn j l o s' l' ↔ ¬ l.Panics s.sys.client o
  := by
  obtain ⟨l₀, c, l₁, hl₀, ha, rfl⟩ := step_advance hs
  obtain rfl : l = l₀ := Option.some.inj (hl.symm.trans hl₀)
  have hl₁ : (s.loops.insert j l₁).lookup j = some l₁ := AList.lookup_insert _
  obtain rfl : l₁ = l' := Option.some.inj (hl₁.symm.trans hl')
  constructor
  · intro hgoes hpanics
    cases (PageLoop.advance_of_panics _ _ hpanics).symm.trans ha
    obtain hfetches | hrecv | ⟨hended, -⟩ | hstep := hgoes.runs
    · contradiction
    · contradiction
    · contradiction
    · have hnext := hstep _ _ hl' rfl
      simp [step, setLoop, setClient, fresh, PageLoop.advance, PageLoop.goto] at hnext
  · intro hpanics
    have hturn := PageLoop.turn_of_advance ha
    generalize hpc : l₁.pc = pc at hturn
    cases hturn with
    | poll hfetches => apply goesOn_poll hfetches hpc
    | fetched hfetches hleft howes htoken =>
      rw [← hpc] at hleft howes htoken
      apply goesOn_fetched hfetches hleft howes htoken
    | windUp hleft hleft' howes htoken hcache =>
      rw [← hpc] at hleft' htoken
      apply goesOn_windUp hleft hleft' howes htoken hcache
    | serve hserves hended hpanicked =>
      rw [← hpc] at hended hpanicked
      apply goesOn_serve hserves hended hpanicked
    | finish hrecv hobserved => apply goesOn_finish hrecv hobserved hpc
    | panic hpanics' => exact absurd hpanics' hpanics

/-- A loop goes on after exactly the steps that are no panic. -/
theorem goesOn_iff_unpanicking (s : Pages V T P) (a : Action V T P) :
  (∀ j o l s' l', a = .advance j o → s.loops.lookup j = some l → s.step a = some s' →
    s'.loops.lookup j = some l' → s.GoesOn j l o s' l') ↔ s.Unpanicking a
  := by
  cases a with
  | advance j o =>
    constructor
    · intro h l hl hpanics
      let s' := (s.fresh.1.setClient s.sys.client).setLoop j (l.goto .panicked)
      have hs : s.step (.advance j o) = some s' := by
        simp [step, Option.mem_def.mp hl, fresh, PageLoop.advance_of_panics _ _ hpanics, s']
      have hl' : s'.loops.lookup j = some (l.goto .panicked) := AList.lookup_insert _
      apply (goesOn_iff hl hs hl').mp (h j o l s' _ rfl hl hs hl') hpanics
    · intro h i o' l s' l' ha hl hs hl'
      obtain ⟨rfl, rfl⟩ := Action.advance.inj ha
      apply (goesOn_iff hl hs hl').mpr (h l hl)
  | _ =>
    constructor
    · intro _
      trivial
    · intro _ i o l s' l' ha
      contradiction

/-- The loops survive exactly the steps that are no panic and send requests in time. -/
theorem survives_iff_harmless {a : Action V T P} (h : s.Attends) :
  s.Survives a ↔ s.Harmless a
  := by
  constructor
  · rintro ⟨hgoes, hhears⟩
    exact ⟨(s.goesOn_iff_unpanicking a).mp hgoes, (hears_iff_inTime h).mp hhears⟩
  · rintro ⟨hunpanicking, hinTime⟩
    exact ⟨(s.goesOn_iff_unpanicking a).mpr hunpanicking, (hears_iff_inTime h).mpr hinTime⟩

/-- A step that the loops survive keeps them attending. -/
theorem Attends.survives {a : Action V T P} (h : s.Attends) (hok : s.Survives a)
    (hs : s.step a = some s') :
  s'.Attends
  := h.step ((survives_iff_harmless h).mp hok).2 hs

/-- The steps of a loop. -/
def ownSteps (j : Nat) (as : List (Action V T P)) : Nat :=
  as.countP fun a => a.Advances j

/-- Whatever the others do in between, a loop whose fetch has ended is back at its requests
after as many steps of its own as it was away from them. -/
theorem stepsLeft_of_exec
    {as : List (Action V T P)} {t : Pages V T P} {n : Nat} (hl : s.loops.lookup j = some l)
    (hleft : l.pc.stepsLeft = some n) (hok : machine.Meets Survives s as)
    (hexec : machine.exec s as = some t) (hown : ownSteps j as ≤ n) :
  ∃ l', t.loops.lookup j = some l' ∧ l'.pc.stepsLeft = some (n - ownSteps j as)
  := by
  induction as generalizing s l n with
  | nil =>
    obtain rfl := Option.some.inj hexec
    exact ⟨l, hl, hleft⟩
  | cons a as ih =>
    obtain ⟨u, hu, hexec⟩ := Option.bind_eq_some_iff.mp hexec
    obtain ⟨hsurvives, hok⟩ := hok
    by_cases ha : a.Advances j
    · have hcount : ownSteps j (a :: as) = ownSteps j as + 1 := by
        simp [ownSteps, ha]
      rw [hcount] at hown ⊢
      obtain ⟨m, rfl⟩ : ∃ m, n = m + 1 := ⟨n - 1, by omega⟩
      cases a with
      | advance i o =>
        obtain rfl : i = j := ha
        obtain ⟨_, c, l', _, _, rfl⟩ := step_advance hu
        have hl' : ((s.fresh.1.setClient c).setLoop i l').loops.lookup i = some l' :=
          AList.lookup_insert _
        have hnearer := (hsurvives.goesOn i o l _ l' rfl hl hu hl').nearer m hleft
        rw [Nat.add_sub_add_right]
        apply ih hl' hnearer (hok _ hu) hexec (by omega)
      | _ => contradiction
    · have hcount : ownSteps j (a :: as) = ownSteps j as := by
        simp [ownSteps, ha]
      rw [hcount] at hown ⊢
      obtain ⟨l', hl', hpc, -⟩ := loop_of_step hu ha hl
      apply ih hl' (by rw [hpc, hleft]) (hok _ hu) hexec hown

end Pages

end RsQuery
