import RsQuery.EntrySteps

/-!
# Collecting in the background

A client is made with a thread that sleeps for an interval and removes the entries that have
outlived their gc time, over and over.  Nothing else bounds the cache.  If the thread is
never late by more than a slack, then everything cached has been written within its gc time,
an interval and the slack, whatever executions, loops and callers do to the client:
`Collecting.recent_of_run`.
-/

namespace RsQuery

/-- Paces the background garbage-collection loop. -/
def gcInterval : Duration :=
  Duration.fromSecs 60

variable {V T P : Type} [StringAny V] [InfiniteAny V T P]

omit [StringAny V] in
/-- What a gc pass leaves has not expired. -/
theorem QueryClient.lookup_of_lookup_gc
    {c : QueryClient V} {now : Instant} {k : String} {e : CacheEntry V}
    (h : (c.gc now).cache.lookup k = some e) :
  c.cache.lookup k = some e ∧ now ≤ e.lastAccessed + e.options.gcTime
  := by
  rw [QueryClient.gc, Table.lookup_retain] at h
  obtain ⟨he, hage⟩ := Option.filter_eq_some_iff.mp h
  have hage := of_decide_eq_true hage
  simp only [Instant.elapsed] at hage
  use he
  dsimp only [Instant, Duration] at *
  omega

/-- A system and the thread that collects. -/
structure Collecting (V T P : Type) [PartialEqAny V] where
  pages : Pages V T P
  /-- When the sleep ends, or ended; at first, when the client was made. -/
  deadline : Instant
  asleep : Bool

namespace Collecting

/-- A step of the system or of the thread. -/
inductive Action (V T P : Type) [PartialEqAny V] where
  | client (a : Pages.Action V T P)
  | gc

/-- The thread goes to sleep, or removes the expired entries when its sleep is over. -/
def gcLoop (s : Collecting V T P) : Option (Collecting V T P) :=
  let now := s.pages.sys.now
  if s.asleep then
    if s.deadline ≤ now then
      some { s with pages := s.pages.setClient (s.pages.sys.client.gc now), asleep := false }
    else none
  else some { s with deadline := now + gcInterval, asleep := true }

/-- What a step does. -/
def step (s : Collecting V T P) : Action V T P → Option (Collecting V T P)
  | .client a => (s.pages.step a).map fun pages => { s with pages := pages }
  | .gc => s.gcLoop

/-- What has happened to the client. -/
abbrev Past (V T P : Type) [PartialEqAny V] :=
  List (Pages V T P × Pages.Action V T P)

/-- A step of the system is logged. -/
def noted (s : Collecting V T P) : Action V T P → Past V T P
  | .client a => [(s.pages, a)]
  | .gc => []

/-- A client has been made. -/
def initial : Collecting V T P :=
  ⟨⟨.initial, ∅⟩, 0, false⟩

/-- A new client and its thread, with a log of what happens to the client. -/
def machine : Machine (Collecting V T P × Past V T P) (Action V T P) :=
  Machine.noting ⟨fun s => s = initial, step⟩ fun s a _ => s.noted a

/-- The thread is never more than the slack behind. -/
def Prompt (slack : Duration) (s : Collecting V T P) : Action V T P → Prop
  | .client a => ∀ pages ∈ s.pages.step a, pages.sys.now ≤ s.deadline + slack
  | .gc => True

/-- How long an expired entry stays at most. -/
def lag (slack : Duration) : Duration :=
  gcInterval + 2 * slack

/-- The entry was written under the key when it was dated. -/
def Written (past : Past V T P) (k : String) (e : CacheEntry V) : Prop :=
  ∃ m ∈ past, m.1.Writes k m.2 ∧ m.1.sys.now = e.lastAccessed

/-- A thread that has been prompt, the last pass being of the given time. -/
structure Timely (slack : Duration) (pass : Instant) (s : Collecting V T P)
    (past : Past V T P) : Prop where
  since : pass ≤ s.pages.sys.now
  now : s.pages.sys.now ≤ s.deadline + slack
  deadline : s.deadline ≤ pass + if s.asleep then slack + gcInterval else 0
  cached : ∀ k e, s.pages.sys.client.cache.lookup k = some e →
    pass ≤ e.lastAccessed + e.options.gcTime ∧ Written past k e

variable {slack : Duration} {pass : Instant} {s s' : Collecting V T P} {past : Past V T P}

/-- A step of the system. -/
theorem Timely.client {a : Pages.Action V T P} (h : Timely slack pass s past)
    (hok : s.Prompt slack (.client a)) (hs : s.step (.client a) = some s') :
  Timely slack pass s' (past ++ s.noted (.client a))
  := by
  obtain ⟨pages, hpages, rfl⟩ := Option.map_eq_some_iff.mp hs
  constructor
  · apply Nat.le_trans h.since (Pages.now_le_of_step hpages)
  · apply hok pages hpages
  · apply h.deadline
  · intro k e he
    obtain ⟨hwrites, hnow⟩ | ⟨e₀, he₀, hdate, hoptions⟩ :=
      (Pages.entrySteps_step hpages k e he).dated
    · constructor
      · rw [hnow]
        apply Nat.le_trans h.since (Nat.le_add_right _ _)
      · exact ⟨(s.pages, a), by simp [noted], hwrites, hnow.symm⟩
    · obtain ⟨hpass, m, hm, hwrites, hwritten⟩ := h.cached k e₀ he₀
      rw [hdate, hoptions]
      exact ⟨hpass, m, List.mem_append_left _ hm, hwrites, hwritten.trans hdate.symm⟩

omit [InfiniteAny V T P] in
/-- A step of the thread. -/
theorem Timely.gc (h : Timely slack pass s past) (hs : s.gcLoop = some s') :
  ∃ pass', Timely slack pass' s' past
  := by
  simp only [gcLoop] at hs
  split at hs
  · next hasleep =>
    split at hs
    · next hdeadline =>
      obtain rfl := Option.some.inj hs
      refine ⟨s.pages.sys.now, Nat.le_refl _, h.now, hdeadline, ?_⟩
      intro k e he
      obtain ⟨he, hage⟩ := QueryClient.lookup_of_lookup_gc he
      exact ⟨hage, (h.cached k e he).2⟩
    · contradiction
  · next hawake =>
    obtain rfl := Option.some.inj hs
    refine ⟨pass, h.since, ?_, ?_, h.cached⟩
    · rw [Nat.add_assoc]
      apply Nat.le_add_right
    · have hnow := h.now
      have hdeadline := h.deadline
      rw [if_neg hawake, Nat.add_zero] at hdeadline
      simp only [if_true]
      dsimp only [Instant, Duration] at *
      omega

/-- In every run with a prompt thread, what is cached was written when it was dated, no
longer ago than its gc time and the delays of the thread. -/
theorem recent_of_run {t : Collecting V T P × Past V T P}
    (h : machine.Run (fun t => t.1.Prompt slack) t) {k : String} {e : CacheEntry V}
    (he : t.1.pages.sys.client.cache.lookup k = some e) :
  ∃ m ∈ t.2, m.1.Writes k m.2 ∧ m.1.sys.now = e.lastAccessed ∧
    t.1.pages.sys.now ≤ m.1.sys.now + e.options.gcTime + lag slack
  := by
  have htimely : ∃ pass, Timely slack pass t.1 t.2 := by
    apply h.invariant
    · rintro ⟨s, past⟩ ⟨hs, hpast⟩
      obtain rfl : s = initial := hs
      refine ⟨0, Nat.le_refl _, Nat.zero_le _, Nat.le_refl _, ?_⟩
      intro k e he
      contradiction
    · rintro t a t' _ ⟨pass, htimely⟩ hok hs
      obtain ⟨hstep, hpast⟩ := Machine.step_noting hs
      rw [hpast]
      cases a with
      | client a => exact ⟨pass, htimely.client hok hstep⟩
      | gc =>
        rw [noted, List.append_nil]
        apply htimely.gc hstep
  obtain ⟨pass, htimely⟩ := htimely
  obtain ⟨hpass, m, hm, hwrites, hwritten⟩ := htimely.cached k e he
  refine ⟨m, hm, hwrites, hwritten, ?_⟩
  have hnow := htimely.now
  have hdeadline : t.1.deadline ≤ pass + (slack + gcInterval) := by
    apply Nat.le_trans htimely.deadline
    split
    · apply Nat.le_refl
    · apply Nat.add_le_add_left (Nat.zero_le _)
  rw [hwritten, lag]
  dsimp only [Instant, Duration] at *
  omega

instance (slack : Duration) (s : Collecting V T P) (a : Action V T P) :
    Decidable (s.Prompt slack a) := by
  unfold Prompt
  rcases a with _ | _ <;> infer_instance

/-- An entry that expires after ten seconds is written while the thread sleeps, and is there
when the thread is about to wake. -/
def untilWoken : List (Action (String ⊕ InfiniteData String Nat) String Nat) :=
  [.gc, .client (.sys (.tick (Duration.fromSecs 5))),
    .client (.sys (.call (.setQueryData (.new "user") (.inl "ada")
      { gcTime := Duration.fromSecs 10 }))),
    .client (.sys (.tick (Duration.fromSecs 55)))]

theorem recent_of_run_untilWoken :
  ∃ (t : Collecting (String ⊕ InfiniteData String Nat) String Nat × Past _ String Nat)
    (e : CacheEntry (String ⊕ InfiniteData String Nat)),
    machine.Run (fun t => t.1.Prompt 0) t ∧
      t.1.pages.sys.client.cache.lookup "user" = some e ∧
      ∃ m ∈ t.2, m.1.Writes "user" m.2 ∧ m.1.sys.now = e.lastAccessed ∧
        t.1.pages.sys.now ≤ m.1.sys.now + e.options.gcTime + lag 0
  := by
  let M := machine (V := String ⊕ InfiniteData String Nat) (T := String) (P := Nat)
  have init : M.init (initial, []) := ⟨rfl, rfl⟩
  have meets : M.Meets (fun t => t.1.Prompt 0) (initial, []) untilWoken := by
    decide +kernel
  obtain ⟨t, ht, hseen⟩ := Machine.exists_run_of_exec untilWoken
    (fun t => (t.1.pages.sys.client.cache.lookup "user").isSome) true init meets rfl
  obtain ⟨e, he⟩ := Option.isSome_iff_exists.mp hseen
  exact ⟨t, e, ht, he, recent_of_run ht he⟩

end Collecting

end RsQuery
