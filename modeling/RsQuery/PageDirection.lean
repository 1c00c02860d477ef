import RsQuery.PageSurvival

/-!
# The direction of a page fetch

The observer of an infinite query keeps the direction of the last request made through it,
served or not, and calls whatever is in flight under the key a page fetch in that direction.
The calls of several threads store the direction first and send the request afterwards, and
the loop advances in between.  The flags describe the page fetch of the loop in every state
of a run exactly if nothing was in flight at the start, every page fetch is registered under
the direction of its request, no other direction is stored before it is deregistered, and
none panics: `Directed.describes_iff`.
-/

namespace RsQuery

variable {V T P : Type} [StringAny V] [InfiniteAny V T P]

/-- Direction marker for page-fetch requests. -/
inductive FetchDirection where
  | forward
  | backward
deriving DecidableEq, Repr

/-- The direction a request is made in. -/
def PageRequest.direction : PageRequest → FetchDirection
  | .next => .forward
  | .previous => .backward

/-- A loop with what its observer keeps for the flags, and the client of both. -/
structure Directed (V T P : Type) [PartialEqAny V] where
  client : QueryClient V
  loop : PageLoop T P
  fetchDirection : FetchDirection := .forward
  /-- The calls that have stored their direction and not sent their request. -/
  calls : Table Nat PageRequest := ∅
  /-- The request whose page fetch the loop has registered and not deregistered. -/
  serving : Option PageRequest := none
  fresh : Token := 0

namespace PageLoop

variable {l l' : PageLoop T P} {fresh : Token} {now : Instant} {c c' : QueryClient V}
  {o : PageOutcome T}

/-- A loop registers its page fetch, deregisters it, or leaves its key as it is. -/
theorem isInFlight_of_advance (h : l.advance fresh now c o = some (c', l')) :
  match l.pc with
  | .register .. => c'.isInFlight l.query.key = true
  | .deregister _ => c'.isInFlight l.query.key = false
  | _ => c'.isInFlight l.query.key = c.isInFlight l.query.key
  := by
  have hframe (hf : QueryClient.Frame c c') :
      c'.isInFlight l.query.key = c.isInFlight l.query.key := by
    rw [QueryClient.isInFlight, QueryClient.isInFlight, hf.inFlight]
  cases hl : l.pc with
  | register request param =>
    obtain rfl :=
      eq_next_of_advance h (by simp [hl, LoopPc.Fetches]) (by simp [hl]) (by simp [hl])
    simp only [advance, hl] at h
    obtain ⟨rfl, -⟩ := Prod.mk.inj (Option.some.inj h)
    simp [QueryClient.isInFlight, QueryClient.setInFlight]
  | deregister token =>
    obtain rfl :=
      eq_next_of_advance h (by simp [hl, LoopPc.Fetches]) (by simp [hl]) (by simp [hl])
    simp only [advance, hl] at h
    obtain ⟨rfl, -⟩ := Prod.mk.inj (Option.some.inj h)
    simp [QueryClient.isInFlight, QueryClient.clearInFlight]
  | _ =>
    dsimp only
    cases step_of_advance h with
    | notifyInitial | notifyFailed => apply hframe (c.frame_notifySubscribers _ _)
    | append _ happend => apply hframe (QueryClient.frame_appendInfinitePage happend)
    | prepend => apply hframe (c.frame_prependInfinitePage _ _ _ _ _)
    | register hpc => cases hl.symm.trans hpc
    | deregister hpc => cases hl.symm.trans hpc
    | _ => rfl

end PageLoop

namespace Directed

/-- The loop and its observer when they are spawned. -/
def spawn (client : QueryClient V) (query : InfiniteQuery T P) : Directed V T P :=
  { client := client, loop := { query := query } }

/-- Whether a page fetch (either direction) is currently in flight. -/
def isFetching (s : Directed V T P) : Bool :=
  s.client.isInFlight s.loop.query.key

def isFetchingNextPage (s : Directed V T P) : Bool :=
  s.isFetching && s.fetchDirection = .forward

def isFetchingPreviousPage (s : Directed V T P) : Bool :=
  s.isFetching && s.fetchDirection = .backward

/-- A step of an observer and its loop. -/
inductive Action (T : Type) where
  /-- `fetch_next_page` and `fetch_previous_page` store their direction. -/
  | store (i : Nat) (request : PageRequest)
  /-- The call sends its request, which is dropped while another is pending. -/
  | send (i : Nat)
  | advance (now : Instant) (o : PageOutcome T)

/-- The request the loop serves after a step. -/
def nextServing (s : Directed V T P) (o : PageOutcome T) : Option PageRequest :=
  if s.loop.Panics s.client o then none
  else
    match s.loop.pc with
    | .register request _ => some request
    | .deregister _ => none
    | _ => s.serving

/-- The state after an action, if it is enabled. -/
def step (s : Directed V T P) : Action T → Option (Directed V T P)
  | .store i request =>
    if s.calls.lookup i = none then
      some { s with fetchDirection := request.direction, calls := s.calls.insert i request }
    else none
  | .send i => do
    let request ← s.calls.lookup i
    some { s with loop := s.loop.trySend request, calls := s.calls.erase i }
  | .advance now o => do
    let (c, l) ← s.loop.advance s.fresh now s.client o
    some { s with
      client := c
      loop := l
      serving := s.nextServing o
      fresh := s.fresh + 1 }

/-- A loop that was just spawned, and every step. -/
def machine : Machine (Directed V T P) (Action T) :=
  ⟨fun s => ∃ client query, s = spawn client query, step⟩

/-- The flags are those of the page fetch that is running. -/
structure Describes (s : Directed V T P) : Prop where
  next : s.isFetchingNextPage = true ↔ s.serving = some .next
  previous : s.isFetchingPreviousPage = true ↔ s.serving = some .previous

instance (s : Directed V T P) : Decidable s.Describes :=
  decidable_of_iff ((s.isFetchingNextPage = true ↔ s.serving = some .next) ∧
    (s.isFetchingPreviousPage = true ↔ s.serving = some .previous))
    ⟨fun h => ⟨h.1, h.2⟩, fun h => ⟨h.next, h.previous⟩⟩

/-- No direction is stored but that of the page fetch that is running, which is registered
under its own and does not panic. -/
def Steers (s : Directed V T P) : Action T → Prop
  | .store i request => s.calls.lookup i = none →
    ∀ running ∈ s.serving, request.direction = running.direction
  | .send _ => True
  | .advance _ o => (s.serving.isSome → ¬ s.loop.Panics s.client o) ∧
    match s.loop.pc with
    | .register request _ => o = .next → s.fetchDirection = request.direction
    | _ => True

/-- The key is in flight exactly while the loop serves a request. -/
def Registered (s : Directed V T P) : Prop :=
  s.isFetching = s.serving.isSome

variable {s s' : Directed V T P} {a : Action T}

omit [InfiniteAny V T P] in
/-- The flags tell the request that is served by its direction. -/
theorem Registered.describes_iff_direction (h : s.Registered) :
  s.Describes ↔ ∀ running ∈ s.serving, s.fetchDirection = running.direction
  := by
  have hfetching : s.isFetching = s.serving.isSome := h
  constructor
  · intro hd running hrunning
    rw [Option.mem_def.mp hrunning] at hfetching
    cases running with
    | next =>
      have hnext := hd.next.mpr hrunning
      simpa [isFetchingNextPage, hfetching, PageRequest.direction] using hnext
    | previous =>
      have hprevious := hd.previous.mpr hrunning
      simpa [isFetchingPreviousPage, hfetching, PageRequest.direction] using hprevious
  · intro hdirection
    cases hserving : s.serving with
    | none =>
      rw [hserving] at hfetching
      constructor
      · simp [isFetchingNextPage, hfetching, hserving]
      · simp [isFetchingPreviousPage, hfetching, hserving]
    | some running =>
      have hdirection := hdirection running hserving
      rw [hserving] at hfetching
      cases running with
      | next | previous =>
        constructor
        · simp [isFetchingNextPage, hfetching, hserving, hdirection, PageRequest.direction]
        · simp [isFetchingPreviousPage, hfetching, hserving, hdirection, PageRequest.direction]

omit [InfiniteAny V T P] in
/-- What is in flight while nothing is served has a flag of its own. -/
theorem not_describes_of_isFetching
    (hfetching : s.isFetching = true) (hserving : s.serving = none) :
  ¬ s.Describes
  := by
  intro h
  cases hdirection : s.fetchDirection with
  | forward =>
    have hnext := h.next.mp (by simp [isFetchingNextPage, hfetching, hdirection])
    cases hserving.symm.trans hnext
  | backward =>
    have hprevious := h.previous.mp (by simp [isFetchingPreviousPage, hfetching, hdirection])
    cases hserving.symm.trans hprevious

theorem step_advance {now : Instant} {o : PageOutcome T}
    (hs : s.step (.advance now o) = some s') :
  ∃ c l, s.loop.advance s.fresh now s.client o = some (c, l) ∧
    s' = { s with client := c, loop := l, serving := s.nextServing o, fresh := s.fresh + 1 }
  := by
  obtain ⟨⟨c, l⟩, ha, hs⟩ := Option.bind_eq_some_iff.mp hs
  exact ⟨c, l, ha, (Option.some.inj hs).symm⟩

/-- A step without a panic registers what it serves. -/
theorem Registered.advance
    {now : Instant} {o : PageOutcome T} (h : s.Registered) (hpanics : ¬ s.loop.Panics s.client o)
    (hs : s.step (.advance now o) = some s') :
  s'.Registered
  := by
  obtain ⟨c, l, ha, rfl⟩ := step_advance hs
  have hquery := (PageLoop.step_of_advance ha).registrations.2.1
  have hflight := PageLoop.isInFlight_of_advance ha
  have hkept : s.client.isInFlight s.loop.query.key = s.serving.isSome := h
  rw [Registered, isFetching, nextServing, if_neg hpanics, hquery]
  cases hl : s.loop.pc with
  | register | deregister =>
    rw [hl] at hflight
    apply hflight
  | _ =>
    rw [hl] at hflight
    apply hflight.trans hkept

omit [InfiniteAny V T P] in
/-- The flags are read from the client, the key and what is kept for them. -/
theorem registered_of_eq
    (h : s.Registered) (hclient : s'.client = s.client)
    (hquery : s'.loop.query = s.loop.query) (hserving : s'.serving = s.serving) :
  s'.Registered
  := by
  rw [Registered, isFetching, hclient, hquery, hserving]
  apply h

/-- After a panic the flags describe nothing exactly if nothing was served. -/
theorem Registered.describes_panic_iff
    {now : Instant} {o : PageOutcome T} (h : s.Registered) (hpanics : s.loop.Panics s.client o) :
  (∀ t ∈ s.step (.advance now o), t.Describes) ↔ s.serving = none
  := by
  let t : Directed V T P :=
    { s with loop := s.loop.goto .panicked, serving := none, fresh := s.fresh + 1 }
  have hs : s.step (.advance now o) = some t := by
    simp [step, PageLoop.advance_of_panics _ _ hpanics, nextServing, hpanics, t]
  rw [hs]
  constructor
  · intro hafter
    by_contra hserving
    have hfetching : t.isFetching = true := h.trans (Option.isSome_iff_ne_none.mpr hserving)
    apply not_describes_of_isFetching hfetching rfl (hafter t rfl)
  · rintro hserving _ ⟨⟩
    have ht : t.Registered := registered_of_eq h rfl rfl hserving.symm
    apply ht.describes_iff_direction.mpr
    intro running hrunning
    contradiction

/-- Without a panic the flags describe the page fetch exactly if it is registered under its
direction. -/
theorem Registered.describes_advance_iff
    {now : Instant} {o : PageOutcome T} (h : s.Registered) (hd : s.Describes)
    (hpanics : ¬ s.loop.Panics s.client o) :
  (∀ t ∈ s.step (.advance now o), t.Describes) ↔
    match s.loop.pc with
    | .register request _ => o = .next → s.fetchDirection = request.direction
    | _ => True
  := by
  have hdirection := h.describes_iff_direction.mp hd
  have hafter (t : Directed V T P) (hs : s.step (.advance now o) = some t) :
      t.Describes ↔ ∀ running ∈ s.nextServing o, s.fetchDirection = running.direction := by
    rw [(h.advance hpanics hs).describes_iff_direction]
    obtain ⟨c, l, -, rfl⟩ := step_advance hs
    rfl
  cases hl : s.loop.pc with
  | register request param =>
    have hserving : s.nextServing o = some request := by
      simp [nextServing, hpanics, hl]
    dsimp only
    constructor
    · rintro hdescribes rfl
      obtain ⟨t, hs⟩ : ∃ t, s.step (.advance now .next) = some t := by
        simp [step, PageLoop.advance, hl]
      apply (hafter t hs).mp (hdescribes t hs) request hserving
    · intro hregister t hs
      obtain ⟨c, l, ha, -⟩ := step_advance hs
      obtain rfl := PageLoop.eq_next_of_advance ha (by simp [hl, LoopPc.Fetches])
        (by simp [hl]) (by simp [hl])
      apply (hafter t hs).mpr
      intro running hrunning
      cases hserving.symm.trans hrunning
      apply hregister rfl
  | deregister token =>
    simp only [iff_true]
    intro t hs
    apply (hafter t hs).mpr
    intro running hrunning
    simp [nextServing, hpanics, hl] at hrunning
  | _ =>
    simp only [iff_true]
    intro t hs
    apply (hafter t hs).mpr
    simpa [nextServing, hpanics, hl] using hdirection

/-- Where the flags describe the page fetch they do after a step exactly if it steers. -/
theorem Registered.describes_step_iff (h : s.Registered) (hd : s.Describes) :
  (∀ t ∈ s.step a, t.Describes) ↔ s.Steers a
  := by
  have hdirection := h.describes_iff_direction.mp hd
  cases a with
  | store i request =>
    let t : Directed V T P :=
      { s with fetchDirection := request.direction, calls := s.calls.insert i request }
    have ht : t.Registered := registered_of_eq h rfl rfl rfl
    constructor
    · intro hafter hfree
      apply ht.describes_iff_direction.mp (hafter t (if_pos hfree))
    · intro hsteers t' hs
      obtain ⟨hfree, hs⟩ := Option.ite_none_right_eq_some.mp hs
      obtain rfl := Option.some.inj hs
      apply ht.describes_iff_direction.mpr (hsteers hfree)
  | send i =>
    refine ⟨fun _ => trivial, fun _ t hs => ?_⟩
    obtain ⟨request, -, hs⟩ := Option.bind_eq_some_iff.mp hs
    obtain rfl := Option.some.inj hs
    have ht : Registered { s with
        loop := s.loop.trySend request
        calls := s.calls.erase i } := registered_of_eq h rfl rfl rfl
    apply ht.describes_iff_direction.mpr hdirection
  | advance now o =>
    by_cases hpanics : s.loop.Panics s.client o
    · rw [h.describes_panic_iff hpanics]
      constructor
      · intro hserving
        constructor
        · simp [hserving]
        · cases hl : s.loop.pc with
          | register =>
            cases o with
            | next | panic => simp [PageLoop.Panics, hl] at hpanics
            | _ => contradiction
          | _ => trivial
      · intro hsteers
        by_contra hserving
        apply hsteers.1 (Option.isSome_iff_ne_none.mpr hserving) hpanics
    · rw [h.describes_advance_iff hd hpanics]
      simp [Steers, hpanics]

/-- A step that steers registers what is served. -/
theorem Registered.step (h : s.Registered) (hok : s.Steers a) (hs : s.step a = some s') :
  s'.Registered
  := by
  cases a with
  | store i request =>
    obtain ⟨-, hs⟩ := Option.ite_none_right_eq_some.mp hs
    obtain rfl := Option.some.inj hs
    apply registered_of_eq h rfl rfl rfl
  | send i =>
    obtain ⟨request, -, hs⟩ := Option.bind_eq_some_iff.mp hs
    obtain rfl := Option.some.inj hs
    apply registered_of_eq h
    · rfl
    · rfl
    · rfl
  | advance now o =>
    by_cases hpanics : s.loop.Panics s.client o
    · obtain ⟨c, l, ha, rfl⟩ := step_advance hs
      cases (PageLoop.advance_of_panics _ _ hpanics).symm.trans ha
      have hserving : s.serving = none := by
        by_contra hserving
        apply hok.1 (Option.isSome_iff_ne_none.mpr hserving) hpanics
      apply registered_of_eq h
      · rfl
      · rfl
      · simp [nextServing, hpanics, hserving]
    · apply h.advance hpanics hs

omit [InfiniteAny V T P] in
/-- Nothing is served at the start. -/
theorem describes_spawn_iff (client : QueryClient V) (query : InfiniteQuery T P) :
  (spawn client query).Describes ↔ client.isInFlight query.key = false
  := by
  constructor
  · intro h
    by_contra hflight
    rw [Bool.not_eq_false] at hflight
    have hfetching : (spawn client query).isFetching = true := hflight
    apply not_describes_of_isFetching hfetching rfl h
  · intro hflight
    have hs : (spawn client query).Registered := hflight
    apply hs.describes_iff_direction.mpr
    intro running hrunning
    contradiction

/-- The flags describe the page fetch of a loop from its start on and after every step of a
run exactly if nothing was in flight at the start and the steps of the run steer. -/
theorem describes_iff
    (client : QueryClient V) (query : InfiniteQuery T P) (as : List (Action T)) :
  (spawn client query).Describes ∧
      machine.Meets (fun s a => ∀ t ∈ s.step a, t.Describes) (spawn client query) as ↔
    client.isInFlight query.key = false ∧ machine.Meets Steers (spawn client query) as
  := by
  rw [describes_spawn_iff]
  apply and_congr_right
  intro hflight
  have hspawn : (spawn client query).Registered ∧ (spawn client query).Describes :=
    ⟨hflight, (describes_spawn_iff client query).mpr hflight⟩
  apply Machine.meets_congr (I := fun s => s.Registered ∧ s.Describes) hspawn
  · rintro s a ⟨hs, hd⟩
    apply hs.describes_step_iff hd
  · rintro s a s' ⟨hs, hd⟩ hok hstep
    constructor
    · apply hs.step ((hs.describes_step_iff hd).mp hok) hstep
    · apply hok s' hstep

/-- A request in the other direction turns the flags of the page fetch that is running. -/
theorem not_describes_store :
  ¬ ∀ (client : QueryClient (String ⊕ InfiniteData String Nat)) (as : List (Action String)),
    client.isInFlight Pages.lengthQuery.key = false →
      (machine (P := Nat)).Meets (fun s a => ∀ t ∈ s.step a, t.Describes)
        (spawn client Pages.lengthQuery) as
  := by
  intro h
  have hmeets := h .new [.advance 0 (.ready (.ok "a")), .advance 0 .next, .advance 0 .next,
    .store 0 .next, .send 0, .advance 0 .next, .advance 0 .next, .advance 0 .next,
    .advance 0 .next, .advance 0 .next, .advance 0 .next, .store 0 .previous] (by decide +kernel)
  revert hmeets
  decide +kernel

end Directed

end RsQuery
