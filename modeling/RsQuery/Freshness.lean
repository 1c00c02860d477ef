import RsQuery.Retention

/-!
# Data is fresh when it is written

`set_query_data` builds a new entry, with the stale flag down.  Adding a page patches the
entry of its key: the data, the date and the access are replaced, the stale flag is not
touched, so a page added to an invalidated entry leaves it stale.  A run leaves what it
writes fresh exactly when it adds pages to unflagged entries only:
`Pages.writesFresh_iff`.
-/

namespace RsQuery

variable {V T P : Type}

namespace QueryClient

/-- The entry of a key was fetched now and is not stale. -/
def Fresh (c : QueryClient V) (now : Instant) (key : QueryKey) : Prop :=
  (∃ e ∈ c.cache.lookup key.cacheKey, e.fetchedAt = now) ∧ c.isStale now key = false

/-- Data fetched now is stale exactly when it is flagged. -/
theorem entryIsStale_of_fetchedAt {e : CacheEntry V} {now : Instant} (h : e.fetchedAt = now) :
  entryIsStale now e = e.isStale
  := by
  simp [entryIsStale, Instant.elapsed, h]

/-- An entry fetched now is fresh exactly when it is not flagged. -/
theorem fresh_iff
    {c : QueryClient V} {now : Instant} {key : QueryKey} {e : CacheEntry V}
    (he : c.cache.lookup key.cacheKey = some e) (hfetched : e.fetchedAt = now) :
  c.Fresh now key ↔ e.isStale = false
  := by
  have hstale : c.isStale now key = e.isStale := by
    rw [isStale, he, ← entryIsStale_of_fetchedAt hfetched]
  rw [Fresh, hstale]
  constructor
  · rintro ⟨-, h⟩
    apply h
  · intro h
    exact ⟨⟨e, he, hfetched⟩, h⟩

/-- Storing data makes the entry of its key fresh. -/
theorem fresh_storeQueryData
    [PartialEqAny V] (c : QueryClient V) (now : Instant) (key : QueryKey) (data : V)
    (options : QueryOptions) :
  (c.storeQueryData now key data options).Fresh now key
  := by
  have hentry : (c.storeQueryData now key data options).cache.lookup key.cacheKey
      = some (c.newEntry now key data options) := AList.lookup_insert _
  apply (fresh_iff hentry rfl).mpr rfl

theorem fresh_of_cache {c c' : QueryClient V} {now : Instant} {key : QueryKey}
    (hcache : c'.cache = c.cache) :
  c'.Fresh now key ↔ c.Fresh now key
  := by
  rw [Fresh, Fresh, isStale, isStale, hcache]

theorem fresh_setQueryData
    [PartialEqAny V] (c : QueryClient V) (now : Instant) (key : QueryKey) (data : V)
    (options : QueryOptions) :
  (c.setQueryData now key data options).Fresh now key
  := by
  apply (fresh_of_cache (notifySubscribers_frame _ _ _).1).mpr
  apply fresh_storeQueryData

variable [StringAny V] [InfiniteAny V T P]

/-- Sets infinite query data. -/
def setInfiniteData (c : QueryClient V) (now : Instant) (key : QueryKey) (data : InfiniteData T P)
    (options : QueryOptions) : QueryClient V :=
  c.setQueryData now key (ofInfinite data) options

/-- Adds a page at the end that a request is for. -/
def addPage (c : QueryClient V) (now : Instant) (key : QueryKey) (request : PageRequest) (page : T)
    (pageParam : P) (maxPages : Option Nat) : Option (QueryClient V × Option (InfiniteData T P)) :=
  match request with
  | .next => c.appendInfinitePage now key page pageParam maxPages
  | .previous => some (c.prependInfinitePage now key page pageParam maxPages)

/-- A page is added to the pages there are, or nothing changes. -/
theorem addPage_cases
    {c c' : QueryClient V} {now : Instant} {key : QueryKey} {request : PageRequest} {page : T}
    {pageParam : P} {maxPages : Option Nat} {result : Option (InfiniteData T P)}
    (h : c.addPage now key request page pageParam maxPages = some (c', result)) :
  (result = none ∧ c' = c) ∨
    ∃ (data d : InfiniteData T P), c.pagesOf key = some data ∧ result = some d ∧
      c' = c.replacePages now key d
  := by
  cases request with
  | next =>
    simp only [addPage, appendInfinitePage] at h
    split at h
    · obtain ⟨rfl, rfl⟩ := Prod.mk.inj (Option.some.inj h)
      left
      exact ⟨rfl, rfl⟩
    · next data hdata =>
      split at h
      · contradiction
      · next d _ =>
        obtain ⟨rfl, rfl⟩ := Prod.mk.inj (Option.some.inj h)
        right
        exact ⟨data, d, hdata, rfl, rfl⟩
  | previous =>
    simp only [addPage, prependInfinitePage] at h
    split at h
    · obtain ⟨rfl, rfl⟩ := Prod.mk.inj (Option.some.inj h)
      left
      exact ⟨rfl, rfl⟩
    · next data hdata =>
      obtain ⟨rfl, rfl⟩ := Prod.mk.inj (Option.some.inj h)
      right
      exact ⟨data, _, hdata, rfl, rfl⟩

/-- Adding a page that is added patches the entry of its key. -/
theorem addPage_lookup
    {c c' : QueryClient V} {now : Instant} {key : QueryKey} {request : PageRequest} {page : T}
    {pageParam : P} {maxPages : Option Nat} {d : InfiniteData T P}
    (h : c.addPage now key request page pageParam maxPages = some (c', some d)) :
  ∃ e, c.cache.lookup key.cacheKey = some e ∧
    c'.cache.lookup key.cacheKey =
      some { e with data := ofInfinite d, fetchedAt := now, lastAccessed := now }
  := by
  obtain ⟨hnone, -⟩ | ⟨data, d', hdata, hd, rfl⟩ := addPage_cases h
  · contradiction
  · obtain rfl := Option.some.inj hd
    obtain ⟨e, he, -⟩ := Option.bind_eq_some_iff.mp hdata
    use e, he
    rw [replacePages_lookup, if_pos rfl, he, Option.map_some]

/-- A page that is added leaves the entry fresh exactly when it was not flagged. -/
theorem fresh_addPage_iff
    {c c' : QueryClient V} {now : Instant} {key : QueryKey} {request : PageRequest} {page : T}
    {pageParam : P} {maxPages : Option Nat} {d : InfiniteData T P}
    (h : c.addPage now key request page pageParam maxPages = some (c', some d)) :
  c'.Fresh now key ↔ ∀ e ∈ c.cache.lookup key.cacheKey, e.isStale = false
  := by
  obtain ⟨e, he, he'⟩ := addPage_lookup h
  rw [fresh_iff he' rfl, he]
  simp

end QueryClient

/-! ### Runs -/

variable [StringAny V] [InfiniteAny V T P]

namespace PageLoop

/-- What adding the page does that the loop is about to add. -/
def added (l : PageLoop T P) (now : Instant) (c : QueryClient V) :
    Option (QueryClient V × Option (InfiniteData T P)) :=
  match l.pc with
  | .add request param page _ =>
    c.addPage now l.query.key request page param l.query.maxPages
  | _ => none

end PageLoop

namespace Pages

variable {s s' : Pages V T P} {key : QueryKey}

/-- The call of `set_infinite_data` is one of `set_query_data`. -/
theorem step_setInfiniteData
    (s : Pages V T P) (key : QueryKey) (data : InfiniteData T P) (options : QueryOptions) :
  s.step (.sys (.call (.setQueryData key (ofInfinite data) options))) =
    some (s.setClient (s.sys.client.setInfiniteData s.sys.now key data options))
  := rfl

/-- The step sets the data of a key: a call does, an execution stores what it fetched, or a
loop its first page. -/
def Sets (s : Pages V T P) (key : QueryKey) : Action V T P → Prop
  | .sys (.call (.setQueryData k _ _)) => k = key
  | .sys (.advance i _) => ∃ r ∈ s.sys.runs.lookup i,
    (∃ data, r.pc = .fetch (.selected data)) ∧ r.query.key = key
  | .advance j _ => ∃ l ∈ s.loops.lookup j,
    (∃ page, l.pc = .storeInitial page) ∧ l.query.key = key
  | _ => False

/-- The step adds a page to the data of a key. -/
def Adds (s : Pages V T P) (key : QueryKey) : Action V T P → Prop
  | .append k page pageParam maxPages => k = key ∧
    ((s.sys.client.addPage s.sys.now k .next page pageParam maxPages).bind Prod.snd).isSome
  | .prepend k page pageParam maxPages => k = key ∧
    ((s.sys.client.addPage s.sys.now k .previous page pageParam maxPages).bind Prod.snd).isSome
  | .advance j .next => ∃ l ∈ s.loops.lookup j, l.query.key = key ∧
    ((l.added s.sys.now s.sys.client).bind Prod.snd).isSome
  | _ => False

/-- What the step writes is fresh afterwards. -/
def LeavesFresh (s : Pages V T P) (a : Action V T P) : Prop :=
  ∀ s' ∈ s.step a, ∀ key, s.Sets key a ∨ s.Adds key a → s'.sys.client.Fresh s'.sys.now key

/-- A page is added to an entry whose stale flag is not set. -/
def AddsUnflagged (s : Pages V T P) (a : Action V T P) : Prop :=
  ∀ key, s.Adds key a → ∀ e ∈ s.sys.client.cache.lookup key.cacheKey, e.isStale = false

/-- Data that is set is fresh. -/
theorem fresh_of_sets {a : Action V T P} (h : s.Sets key a) (hs : s.step a = some s') :
  s'.sys.client.Fresh s'.sys.now key
  := by
  unfold Sets at h
  split at h
  · next k data options =>
    subst h
    obtain rfl := Option.some.inj hs
    apply QueryClient.fresh_setQueryData
  · next i o =>
    obtain ⟨r, hr, ⟨data, hpc⟩, rfl⟩ := h
    obtain ⟨hsys, -⟩ := step_sys hs
    obtain ⟨r', c, pc, hr', ha, hs'⟩ := Sys.step_advance hsys
    obtain rfl := Option.some.inj (hr.symm.trans hr')
    rw [hs']
    obtain ⟨data', -, rfl, -⟩ | ⟨hne, -⟩ := Run.advance_stores ha
    · apply QueryClient.fresh_storeQueryData
    · exact absurd hpc (hne data)
  · next j o =>
    obtain ⟨l, hl, ⟨page, hpc⟩, rfl⟩ := h
    obtain ⟨l', c, l'', hl', ha, rfl⟩ := step_advance hs
    obtain rfl := Option.some.inj (hl.symm.trans hl')
    simp only [PageLoop.advance, hpc] at ha
    split at ha
    all_goals try contradiction
    obtain ⟨rfl, -⟩ := Prod.mk.inj (Option.some.inj ha)
    apply QueryClient.fresh_storeQueryData
  · contradiction

/-- A step that adds a page is enabled, and its page is added. -/
theorem step_of_adds {a : Action V T P} (h : s.Adds key a) :
  ∃ s' request page pageParam maxPages d, s.step a = some s' ∧
    s.sys.client.addPage s.sys.now key request page pageParam maxPages =
      some (s'.sys.client, some (d : InfiniteData T P)) ∧ s'.sys.now = s.sys.now
  := by
  have hsome {x : Option (QueryClient V × Option (InfiniteData T P))}
      (hx : (x.bind Prod.snd).isSome = true) : ∃ c d, x = some (c, some d) := by
    obtain ⟨d, hd⟩ := Option.isSome_iff_exists.mp hx
    obtain ⟨⟨c, d'⟩, rfl, hd⟩ := Option.bind_eq_some_iff.mp hd
    obtain rfl : d' = some d := hd
    exact ⟨c, d, rfl⟩
  unfold Adds at h
  split at h
  · next k page pageParam maxPages =>
    obtain ⟨rfl, hx⟩ := h
    obtain ⟨c, d, hadd⟩ := hsome hx
    refine ⟨s.setClient c, .next, page, pageParam, maxPages, d, ?_, hadd, rfl⟩
    simp only [QueryClient.addPage] at hadd
    simp only [step, hadd]
  · next k page pageParam maxPages =>
    obtain ⟨rfl, hx⟩ := h
    obtain ⟨c, d, hadd⟩ := hsome hx
    refine ⟨s.setClient c, .previous, page, pageParam, maxPages, d, ?_, hadd, rfl⟩
    simp only [QueryClient.addPage, Option.some.injEq] at hadd
    simp only [step, hadd]
  · next j =>
    obtain ⟨l, hl, rfl, hx⟩ := h
    obtain ⟨c, d, hadd⟩ := hsome hx
    unfold PageLoop.added at hadd
    split at hadd
    · next request param page token hpc =>
      have ha : l.advance s.sys.nextRun s.sys.now s.sys.client .next
          = some (c, l.goto (.deregister token)) := by
        cases request with
        | next =>
          simp only [QueryClient.addPage] at hadd
          simp only [PageLoop.advance, hpc, hadd]
        | previous =>
          simp only [QueryClient.addPage, Option.some.injEq] at hadd
          simp only [PageLoop.advance, hpc, hadd]
      have hl : s.loops.lookup j = some l := hl
      refine ⟨(s.fresh.1.setClient c).setLoop j (l.goto (.deregister token)), request, page, param,
        l.query.maxPages, d, ?_, hadd, rfl⟩
      simp only [step, hl, Option.bind_eq_bind, Option.bind_some]
      exact Option.bind_eq_some_iff.mpr ⟨_, ha, rfl⟩
    · contradiction
  · contradiction

/-- A step leaves what it writes fresh exactly when it adds no page to a flagged entry. -/
theorem leavesFresh_iff_addsUnflagged (s : Pages V T P) (a : Action V T P) :
  s.LeavesFresh a ↔ s.AddsUnflagged a
  := by
  constructor
  · intro h key hadds
    obtain ⟨s', request, page, pageParam, maxPages, d, hs, hadd, hnow⟩ := step_of_adds hadds
    apply (QueryClient.fresh_addPage_iff hadd).mp
    rw [← hnow]
    apply h s' hs key (.inr hadds)
  · rintro h s' hs key (hsets | hadds)
    · apply fresh_of_sets hsets hs
    · obtain ⟨s'', request, page, pageParam, maxPages, d, hs'', hadd, hnow⟩ := step_of_adds hadds
      obtain rfl := Option.some.inj (hs.symm.trans hs'')
      rw [hnow]
      apply (QueryClient.fresh_addPage_iff hadd).mpr (h key hadds)

/-- A run leaves fresh what its steps write exactly when its steps add pages to unflagged
entries only. -/
theorem writesFresh_iff (as : List (Action V T P)) :
  machine.Meets LeavesFresh ⟨.initial, ∅⟩ as ↔ machine.Meets AddsUnflagged ⟨.initial, ∅⟩ as
  := by
  apply Machine.Reachable.meets_congr (.init rfl)
  intro s a _
  apply leavesFresh_iff_addsUnflagged

/-- The page fetched for an invalidated query leaves it stale. -/
theorem not_writesFresh_invalidated :
  ∃ (s s' : Pages (String ⊕ InfiniteData String Nat) String Nat) (a : _) (key : QueryKey),
    machine.Reachable s ∧ s.step a = some s' ∧ s.Adds key a ∧
      s'.sys.client.isStale s'.sys.now key = true
  := by
  let pages : InfiniteData String Nat := ⟨["ada"], [0]⟩
  let add : Action (String ⊕ InfiniteData String Nat) String Nat :=
    .append (.new "users") "grace" 1 none
  have init : machine.init (⟨.initial, ∅⟩ : Pages (String ⊕ InfiniteData String Nat) String Nat) :=
    rfl
  obtain ⟨s, hs, hseen⟩ := Machine.exists_reachable_of_exec
    [.sys (.call (.setQueryData (.new "users") (ofInfinite pages) {})),
      .sys (.call (.invalidateQueries (.new "users")))]
    (fun s : Pages (String ⊕ InfiniteData String Nat) String Nat =>
      (((s.sys.client.addPage s.sys.now (.new "users") .next "grace" 1 none).bind
          (Prod.snd : _ → Option (InfiniteData String Nat))).isSome,
        (s.step add).map fun s' => s'.sys.client.isStale s'.sys.now (.new "users")))
    (true, some true) init (by decide +kernel)
  obtain ⟨hadds, hstep⟩ := Prod.mk.inj hseen
  obtain ⟨s', hs', hstale⟩ := Option.map_eq_some_iff.mp hstep
  exact ⟨s, s', add, .new "users", hs, hs', ⟨rfl, hadds⟩, hstale⟩

end Pages

end RsQuery
