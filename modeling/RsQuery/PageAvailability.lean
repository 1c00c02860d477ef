import RsQuery.Infinite
import RsQuery.Observer

/-!
# Whether there are more pages

The observer that is handed out when an infinite query is spawned is never updated: the loop
updates a clone of its own.  It goes by the pages it was created over, and looks in the cache
only if there were none.  What it says of more pages is what the query says of the cached
pages in every state of a run exactly if no step of the run changes that for an observer
that was created over pages: `PageObservers.current_iff`.
-/

namespace RsQuery

variable {V T P : Type} [StringAny V] [InfiniteAny V T P]

namespace InfiniteQuery

/-- Whether the page parameter function yields a parameter; there is none without data. -/
def hasPage (query : InfiniteQuery T P) (request : PageRequest) :
    Option (InfiniteData T P) → Bool
  | some data => (query.pageParam data request).isSome
  | none => false

def hasNextPage (query : InfiniteQuery T P) (data : Option (InfiniteData T P)) : Bool :=
  query.hasPage .next data

def hasPreviousPage (query : InfiniteQuery T P) (data : Option (InfiniteData T P)) : Bool :=
  query.hasPage .previous data

/-- There are the same pages to be had from both. -/
structure SameAvailable (query : InfiniteQuery T P) (d d' : Option (InfiniteData T P)) :
    Prop where
  next : query.hasNextPage d = query.hasNextPage d'
  previous : query.hasPreviousPage d = query.hasPreviousPage d'

end InfiniteQuery

/-- Observer for an infinite query, as far as it is read for the availability of pages. -/
structure InfiniteQueryObserver (V T P : Type) where
  observer : QueryObserver V
  query : InfiniteQuery T P

namespace InfiniteQueryObserver

/-- The data of the observer's own state. -/
def ownData (o : InfiniteQueryObserver V T P) : Option (InfiniteData T P) :=
  o.observer.state.data.bind asInfinite

/-- The newest known pages: the observer state, else the cache. -/
def data (o : InfiniteQueryObserver V T P) (c : QueryClient V) : Option (InfiniteData T P) :=
  o.ownData.or (c.getInfiniteData o.query.key)

def hasNextPage (o : InfiniteQueryObserver V T P) (c : QueryClient V) : Bool :=
  o.query.hasNextPage (o.data c)

def hasPreviousPage (o : InfiniteQueryObserver V T P) (c : QueryClient V) : Bool :=
  o.query.hasPreviousPage (o.data c)

/-- What the observer says of more pages is what its query says of the cached ones. -/
structure Current (o : InfiniteQueryObserver V T P) (c : QueryClient V) : Prop where
  next : o.hasNextPage c = o.query.hasNextPage (c.getInfiniteData o.query.key)
  previous : o.hasPreviousPage c = o.query.hasPreviousPage (c.getInfiniteData o.query.key)

instance (o : InfiniteQueryObserver V T P) (c : QueryClient V) : Decidable (o.Current c) :=
  decidable_of_iff
    (o.hasNextPage c = o.query.hasNextPage (c.getInfiniteData o.query.key) ∧
      o.hasPreviousPage c = o.query.hasPreviousPage (c.getInfiniteData o.query.key))
    ⟨fun h => ⟨h.1, h.2⟩, fun h => ⟨h.next, h.previous⟩⟩

/-- The change of the client changes nothing about the pages to be had, or the observer was
not created over pages. -/
def Unaffected (o : InfiniteQueryObserver V T P) (c c' : QueryClient V) : Prop :=
  o.ownData.isSome →
    o.query.SameAvailable (c'.getInfiniteData o.query.key) (c.getInfiniteData o.query.key)

variable {o : InfiniteQueryObserver V T P} {c c' : QueryClient V}

/-- An observer that was created over no pages is current. -/
theorem current_of_ownData (hown : o.ownData = none) :
  o.Current c
  := by
  have hdata : o.data c = c.getInfiniteData o.query.key := by
    rw [data, hown, Option.none_or]
  constructor
  · rw [hasNextPage, hdata]
  · rw [hasPreviousPage, hdata]

/-- An observer that is current stays so exactly if it is unaffected. -/
theorem current_iff_unaffected (h : o.Current c) :
  o.Current c' ↔ o.Unaffected c c'
  := by
  cases hown : o.ownData with
  | none =>
    constructor
    · intro _ hsome
      simp [hown] at hsome
    · intro _
      apply current_of_ownData hown
  | some d =>
    -- the observer goes by `d` before and after
    have hdata (c : QueryClient V) : o.data c = some d := by
      rw [data, hown, Option.some_or]
    obtain ⟨hnext, hprevious⟩ := h
    rw [hasNextPage, hdata] at hnext
    rw [hasPreviousPage, hdata] at hprevious
    constructor
    · rintro ⟨hnext', hprevious'⟩ -
      rw [hasNextPage, hdata] at hnext'
      rw [hasPreviousPage, hdata] at hprevious'
      exact ⟨hnext'.symm.trans hnext, hprevious'.symm.trans hprevious⟩
    · intro hunaffected
      obtain ⟨hsame, hsame'⟩ := hunaffected (by rw [hown]; rfl)
      constructor
      · rw [hasNextPage, hdata, hnext, hsame]
      · rw [hasPreviousPage, hdata, hprevious, hsame']

theorem getInfiniteData_congr (hcache : c'.cache = c.cache) (key : QueryKey) :
  c'.getInfiniteData key = (c.getInfiniteData key : Option (InfiniteData T P))
  := by
  rw [QueryClient.getInfiniteData, QueryClient.getInfiniteData, QueryClient.getQueryData, hcache,
    QueryClient.getQueryData]

/-- A client with the same cache affects no observer. -/
theorem unaffected_of_cache (hcache : c'.cache = c.cache) :
  o.Unaffected c c'
  := by
  intro _
  rw [getInfiniteData_congr hcache]
  exact ⟨rfl, rfl⟩

end InfiniteQueryObserver

/-- Loops with the observers that were handed out when they were spawned. -/
structure PageObservers (V T P : Type) [PartialEqAny V] where
  pages : Pages V T P
  observers : Table Nat (InfiniteQueryObserver V T P)

namespace PageObservers

/-- `spawn_infinite_query` as far as the client goes: it subscribes the observer and its
clone. -/
def handOut (c : QueryClient V) (now : Instant) (query : InfiniteQuery T P) :
    QueryClient V × InfiniteQueryObserver V T P :=
  let (c, observer) := QueryObserver.withOptions c now query.key
    (InfiniteAny.infiniteType V T P) query.options
  let (c, _) := c.subscribe query.key.cacheKey
  (c, ⟨observer, query⟩)

/-- The state after an action, if it is enabled. -/
def step (s : PageObservers V T P) : Pages.Action V T P → Option (PageObservers V T P)
  | .spawn j query => do
    let (c, o) := handOut s.pages.sys.client s.pages.sys.now query
    let pages ← (s.pages.setClient c).step (.spawn j query)
    some ⟨pages, s.observers.insert j o⟩
  | .dropObserver j => do
    let pages ← s.pages.step (.dropObserver j)
    some ⟨pages, s.observers.erase j⟩
  | a => do
    let pages ← s.pages.step a
    some { s with pages := pages }

/-- A new client with no run, no loop and no observer, and every step. -/
def machine : Machine (PageObservers V T P) (Pages.Action V T P) :=
  ⟨fun s => s = ⟨⟨.initial, ∅⟩, ∅⟩, step⟩

/-- Every observer is current. -/
def Current (s : PageObservers V T P) : Prop :=
  ∀ j o, s.observers.lookup j = some o → o.Current s.pages.sys.client

instance (s : PageObservers V T P) : Decidable s.Current :=
  inferInstanceAs (Decidable (∀ j o, s.observers.lookup j = some o → _))

/-- The step leaves the observers unaffected. -/
def Leaves (s : PageObservers V T P) (a : Pages.Action V T P) : Prop :=
  ∀ s' ∈ s.step a, ∀ j o, s.observers.lookup j = some o →
    o.Unaffected s.pages.sys.client s'.pages.sys.client

/-- A new observer has the pages that are cached. -/
theorem ownData_handOut (c : QueryClient V) (now : Instant) (query : InfiniteQuery T P) :
  (handOut c now query).2.ownData = c.getInfiniteData query.key
  := by
  have hstate : (handOut c now query).2.observer.state.data =
      c.getQueryData query.key (InfiniteAny.infiniteType V T P) := by
    simp only [handOut, QueryObserver.withOptions, QueryObserver.new]
    rw [show (c.subscribe query.key.cacheKey).1.getQueryData query.key
      (InfiniteAny.infiniteType V T P) = c.getQueryData query.key _ from rfl]
    cases c.getQueryData query.key (InfiniteAny.infiniteType V T P) with
    | none => rfl
    | some data =>
      dsimp only
      split
      · rfl
      · rfl
  rw [InfiniteQueryObserver.ownData, hstate, QueryClient.getInfiniteData]

theorem current_handOut (c : QueryClient V) (now : Instant) (query : InfiniteQuery T P) :
  (handOut c now query).2.Current (handOut c now query).1
  := by
  have hdata : (handOut c now query).2.data (handOut c now query).1 =
      c.getInfiniteData query.key := by
    rw [InfiniteQueryObserver.data, ownData_handOut]
    apply Option.or_self
  constructor
  · rw [InfiniteQueryObserver.hasNextPage, hdata]
    rfl
  · rw [InfiniteQueryObserver.hasPreviousPage, hdata]
    rfl

variable {s s' : PageObservers V T P} {a : Pages.Action V T P}

/-- A step keeps the observers, or it keeps the cache and all it hands out is current. -/
theorem step_cases (hs : s.step a = some s') :
  s'.observers = s.observers ∨
    s'.pages.sys.client.cache = s.pages.sys.client.cache ∧
      ∀ j o, s'.observers.lookup j = some o →
        s.observers.lookup j = some o ∨ o.Current s'.pages.sys.client
  := by
  cases a with
  | spawn j query =>
    right
    obtain ⟨pages, hpages, hs⟩ := Option.bind_eq_some_iff.mp hs
    obtain rfl := Option.some.inj hs
    obtain ⟨-, rfl⟩ := Pages.step_spawn hpages
    use rfl
    intro i o ho
    rw [Table.lookup_insert_eq] at ho
    split at ho
    · right
      obtain rfl := Option.some.inj ho
      apply current_handOut
    · left
      apply ho
  | dropObserver j =>
    right
    obtain ⟨pages, hpages, hs⟩ := Option.bind_eq_some_iff.mp hs
    obtain rfl := Option.some.inj hs
    obtain ⟨l, requests, -, -, rfl⟩ := Pages.step_dropObserver hpages
    use rfl
    intro i o ho
    obtain ⟨-, ho⟩ := Table.lookup_of_erase ho
    left
    apply ho
  | _ =>
    left
    simp only [step, Option.bind_eq_bind, Option.bind_eq_some_iff] at hs
    obtain ⟨pages, -, hs⟩ := hs
    obtain rfl := Option.some.inj hs
    rfl

/-- Where every observer is current, a step keeps it so exactly if it leaves them
unaffected. -/
theorem Current.step_iff (h : s.Current) :
  (∀ t ∈ s.step a, t.Current) ↔ s.Leaves a
  := by
  apply forall₂_congr
  intro s' hs
  obtain hobservers | ⟨hcache, hobservers⟩ := step_cases hs
  · rw [Current, hobservers]
    apply forall₃_congr
    intro j o ho
    apply InfiniteQueryObserver.current_iff_unaffected (h j o ho)
  · apply iff_of_true
    · intro j o ho
      obtain hkept | hnew := hobservers j o ho
      · apply (InfiniteQueryObserver.current_iff_unaffected (h j o hkept)).mpr
        apply InfiniteQueryObserver.unaffected_of_cache hcache
      · apply hnew
    · intro j o _
      apply InfiniteQueryObserver.unaffected_of_cache hcache

/-- From a new client on, every observer that is handed out stays current in a run exactly
if the steps of the run leave the observers unaffected. -/
theorem current_iff (as : List (Pages.Action V T P)) :
  machine.Meets (fun s a => ∀ t ∈ s.step a, t.Current)
      (⟨⟨.initial, ∅⟩, ∅⟩ : PageObservers V T P) as ↔
    machine.Meets Leaves (⟨⟨.initial, ∅⟩, ∅⟩ : PageObservers V T P) as
  := by
  have hinit : (⟨⟨.initial, ∅⟩, ∅⟩ : PageObservers V T P).Current := by
    intro j o ho
    contradiction
  apply Machine.meets_congr hinit
  · intro s a hs
    apply hs.step_iff
  · intro s a s' _ hok hstep
    apply hok s' hstep

/-- Chapters up to the last. -/
def chapters : InfiniteQuery String Nat where
  key := .new "chapters"
  initialPageParam := 1
  getNextPageParam := some fun page pages => if page = "last" then none else some (pages.length + 1)

/-- An observer that was created over a first chapter goes on promising a next one when the
loop has found the last. -/
theorem not_current_stored :
  ¬ ∀ as : List (Pages.Action (String ⊕ InfiniteData String Nat) String Nat),
    machine.Meets (fun s a => ∀ t ∈ s.step a, t.Current) ⟨⟨.initial, ∅⟩, ∅⟩ as
  := by
  intro h
  have hmeets := h [.sys (.call (.setQueryData chapters.key (.inr ⟨["first"], [1]⟩) {})),
    .spawn 0 chapters, .advance 0 (.ready (.ok "last")), .advance 0 .next]
  revert hmeets
  decide +kernel

end PageObservers

end RsQuery
