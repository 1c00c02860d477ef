import RsQuery.PageWindow

/-!
# Cancelled page fetches

A loop registers a page fetch with a token and never looks at the token: a fetch whose
registration a call has removed goes on, its page is added, and the loop then clears whatever
is registered under the key.  A run in which no such fetch comes back with a page while pages
are cached, no fetch loses its registration after it came back, and nothing is registered
before such a fetch has deregistered, is one in which a cancelled fetch changes nothing and
only the page that was asked for in its place is added: `Pages.cancelledInert_of_run`.  A log
beside the states has the registrations that calls have removed, and the requests.
-/

namespace RsQuery

variable {V T P : Type} [StringAny V] [InfiniteAny V T P]

/-- The token of the registration a loop has made and not yet cleared. -/
def LoopPc.token : LoopPc T P → Option Token
  | .fetching _ _ token | .add _ _ _ token | .failed token | .deregister token => some token
  | _ => none

/-- The loop is about to add a page. -/
def PageLoop.Adding (l : PageLoop T P) : Prop :=
  match l.pc with
  | .add .. => True
  | _ => False

instance (l : PageLoop T P) : Decidable l.Adding := by
  unfold PageLoop.Adding
  rcases l.pc with _ | _ <;> infer_instance

/-- The call cancels fetches and removes the entries of their keys. -/
def Call.Evicts : Call V → Prop
  | .clear | .resetQueries _ | .removeQueries _ => True
  | _ => False

instance (call : Call V) : Decidable call.Evicts := by
  unfold Call.Evicts
  rcases call with _ | _ <;> infer_instance

/-- The data with a page at the end the request is about. -/
def InfiniteData.add (d : InfiniteData T P) (page : T) (pageParam : P) (maxPages : Option Nat) :
    PageRequest → Option (InfiniteData T P)
  | .next => d.append page pageParam maxPages
  | .previous => d.prepend page pageParam maxPages

namespace Pages

/-- What a step leaves in the log. -/
inductive Event where
  /-- A call removed the registration with this token. -/
  | withdrawn (token : Token)
  /-- `fetch_next_page_with` or `fetch_previous_page_with` removed the registration of the
  fetch of the loop, and asks for another page. -/
  | replaced (j : Nat) (request : PageRequest)
  /-- Another request for a page is in the slot of the loop. -/
  | requested (j : Nat)
deriving DecidableEq

/-- The request the event is about, where `request` was the last one that replaced a fetch
of the loop. -/
def Event.newest (j : Nat) (request : Option PageRequest) : Event → Option PageRequest
  | .withdrawn _ => request
  | .replaced i newer => if i = j then some newer else request
  | .requested i => if i = j then none else request

/-- The request that replaced a fetch of the loop, while there has been no other since. -/
def newest (j : Nat) (log : List Event) : Option PageRequest :=
  log.foldl (Event.newest j) none

/-- The registration of the page fetch a loop is serving was removed by a call. -/
def Withdrawn (log : List Event) (l : PageLoop T P) : Prop :=
  ∃ token ∈ l.pc.token, .withdrawn token ∈ log

instance (log : List Event) (l : PageLoop T P) : Decidable (Withdrawn log l) :=
  inferInstanceAs (Decidable (∃ token ∈ l.pc.token, Event.withdrawn token ∈ log))

/-- The page fetch a loop is serving is the one registered under its key. -/
def Registered (s : Pages V T P) (l : PageLoop T P) : Prop :=
  ∃ task ∈ s.sys.client.inFlight.lookup l.query.key.cacheKey, l.pc.token = some task.cancelToken

instance (s : Pages V T P) (l : PageLoop T P) : Decidable (s.Registered l) :=
  inferInstanceAs (Decidable (∃ task ∈ s.sys.client.inFlight.lookup l.query.key.cacheKey, _))

/-- The request for which the step gives up the fetch of the loop. -/
def replacement (s : Pages V T P) (j : Nat) (l : PageLoop T P) : Action V T P → Option PageRequest
  | .requestWith i true request => if i = j ∧ s.Registered l then some request else none
  | _ => none

/-- The tokens of the registrations that are there and then are not. -/
def removed (c c' : QueryClient V) : List Token :=
  (c.inFlight.entries.filter fun e => c'.inFlight.lookup e.1 = none).map fun e => e.2.cancelToken

/-- What a request to a loop leaves in the log: what it replaced, or that it is in the slot. -/
def requests (s : Pages V T P) (a : Action V T P) (s' : Pages V T P) (j : Nat) : List Event :=
  match s.loops.lookup j, s'.loops.lookup j with
  | some l, some l' =>
    match s.replacement j l a with
    | some request => [.replaced j request]
    | none => if l'.requests.slot = l.requests.slot then [] else [.requested j]
  | _, _ => []

/-- What a step leaves in the log: the registrations that a call removes, and the request. -/
def events (s : Pages V T P) (a : Action V T P) (s' : Pages V T P) : List Event :=
  match a with
  | .sys (.call _) => (removed s.sys.client s'.sys.client).map .withdrawn
  | .request j _ => s.requests a s' j
  | .requestWith j _ _ =>
    (removed s.sys.client s'.sys.client).map .withdrawn ++ s.requests a s' j
  | _ => []

/-- A page fetch whose registration a call removed has its token cancelled, and changes
nothing that is cached and no registration but its own; and what a loop changes after its
fetch was replaced is the page asked for in its place. -/
structure CancelledInert (t : Pages V T P × List Event) : Prop where
  signalled : ∀ token, .withdrawn token ∈ t.2 → token ∈ t.1.sys.client.signals.cancelled
  inert : ∀ j l token, t.1.loops.lookup j = some l → l.pc.token = some token →
    .withdrawn token ∈ t.2 → ∀ o s', t.1.step (.advance j o) = some s' →
      s'.sys.client.cache = t.1.sys.client.cache ∧
      ∀ k task, t.1.sys.client.inFlight.lookup k = some task → task.cancelToken ≠ token →
        s'.sys.client.inFlight.lookup k = some task
  newly : ∀ j l request, t.1.loops.lookup j = some l → newest j t.2 = some request →
    ∀ o s', t.1.step (.advance j o) = some s' → s'.sys.client.cache ≠ t.1.sys.client.cache →
      ∃ param page token data, l.pc = .add request param page token ∧
        t.1.sys.client.pagesOf l.query.key = some data ∧
        s'.sys.client.pagesOf l.query.key = data.add page param l.query.maxPages request

/-- The data is that of an infinite query with pages of this type. -/
def HoldsPages (T P : Type) {V : Type} [StringAny V] [InfiniteAny V T P] (v : V) : Prop :=
  (asInfinite v : Option (InfiniteData T P)).isSome = true

instance (v : V) : Decidable (HoldsPages T P v) :=
  inferInstanceAs (Decidable (_ = true))

/-- The execution is about to store pages. -/
def StoresPages (T P : Type) {V : Type} [StringAny V] [InfiniteAny V T P] (r : Run V) : Prop :=
  match r.pc with
  | .fetch (.selected data) => HoldsPages T P data
  | _ => False

instance (r : Run V) : Decidable (StoresPages T P r) := by
  unfold StoresPages
  split
  all_goals infer_instance

/-- The step registers a fetch under the cache key. -/
def Registers (s : Pages V T P) (k : String) : Action V T P → Prop
  | .sys (.register i) => ∃ r ∈ s.sys.runs.lookup i, r.query.key.cacheKey = k
  | .advance j _ => ∃ l ∈ s.loops.lookup j,
    (l.pc matches .register ..) ∧ l.query.key.cacheKey = k
  | _ => False

instance (s : Pages V T P) (k : String) (a : Action V T P) : Decidable (s.Registers k a) := by
  unfold Registers
  casesm* Action _ _ _, RsQuery.Action _ <;> infer_instance

/-- The step cancels the fetch under the cache key if there is one, and keeps the entry. -/
def Cancels (s : Pages V T P) (k : String) : Action V T P → Prop
  | .sys (.call call) => call.Cancels s.sys.now s.sys.client k ∧ ¬ call.Evicts
  | .requestWith j cancelRefetch _ => cancelRefetch = true ∧ ∃ l ∈ s.loops.lookup j,
    l.query.key.cacheKey = k
  | _ => False

instance (s : Pages V T P) (k : String) (a : Action V T P) : Decidable (s.Cancels k a) := by
  unfold Cancels
  casesm* Action _ _ _, RsQuery.Action _ <;> infer_instance

/-- The step writes pages for the cache key that need not have had any. -/
def Fills (s : Pages V T P) (k : String) : Action V T P → Prop
  | .sys (.advance i _) => ∃ r ∈ s.sys.runs.lookup i, r.query.key.cacheKey = k ∧
    StoresPages T P r
  | .sys (.call (.setQueryData key data _)) => key.cacheKey = k ∧ HoldsPages T P data
  | .advance j _ => ∃ l ∈ s.loops.lookup j,
    (l.pc matches .storeInitial _) ∧ l.query.key.cacheKey = k
  | .hydrate serde state _ => ∃ q ∈ state.queries, q.queryHash = k ∧
    HoldsPages T P (ofString (deserializeEntryData serde (q.dataJson.getD "")) : V)
  | .restore _ _ key data _ => key.cacheKey = k ∧ HoldsPages T P data
  | _ => False

instance (s : Pages V T P) (k : String) (a : Action V T P) : Decidable (s.Fills k a) := by
  unfold Fills
  casesm* Action _ _ _, RsQuery.Action _, Call _ <;> infer_instance

/-- The pages of the key of a loop. -/
def pages (s : Pages V T P) (l : PageLoop T P) : Option (InfiniteData T P) :=
  s.sys.client.pagesOf l.query.key

/-- A fetch of the loop returns a page in the step. -/
def Action.Returns (j : Nat) : Action V T P → Prop
  | .advance i (.ready (.ok _)) => i = j
  | _ => False

instance (j : Nat) (a : Action V T P) : Decidable (a.Returns j) := by
  unfold Action.Returns
  casesm* Action _ _ _, PageOutcome _, Except _ _ <;> infer_instance

/-- The step gives no page fetch without its registration anything to change: what such a
fetch returns is an error or no pages are cached for it, a fetch that returned a page no
longer loses its registration while pages are cached, and under the key of such a fetch
nothing is registered before it has deregistered and no pages are stored before its page is
added.  And a request that replaces a fetch finds no other in the slot. -/
def Spares (t : Pages V T P × List Event) (a : Action V T P) : Prop :=
  ∀ j l, t.1.loops.lookup j = some l →
    (Withdrawn t.2 l → a.Returns j → t.1.pages l = none) ∧
    (l.Adding → t.1.Cancels l.query.key.cacheKey a → t.1.Registered l → t.1.pages l = none) ∧
    (Withdrawn t.2 l → ¬ t.1.Registers l.query.key.cacheKey a) ∧
    (Withdrawn t.2 l → l.Adding → ¬ t.1.Fills l.query.key.cacheKey a) ∧
    ∀ request ∈ t.1.replacement j l a,
      l.requests.slot = none ∨ l.requests.slot = some request

instance (t : Pages V T P × List Event) (a : Action V T P) : Decidable (Spares t a) := by
  unfold Spares
  infer_instance

end Pages

/-! ### Pages that are not cached -/

section Pages

variable {c c' : QueryClient V} {now : Instant} {key key' : QueryKey}

open Pages QueryClient

/-- What is kept of an entry without pages has no pages. -/
theorem Retained.pagesOf_eq_none
    (hr : Retained (c.cache.lookup key.cacheKey) (c'.cache.lookup key.cacheKey))
    (h : c.pagesOf (T := T) (P := P) key = none) :
  c'.pagesOf (T := T) (P := P) key = none
  := by
  unfold pagesOf at h ⊢
  cases he' : c'.cache.lookup key.cacheKey with
  | none => rfl
  | some e' =>
    obtain ⟨e, he, hkept⟩ := hr e' he'
    rw [Option.mem_def.mp he, Option.bind_some] at h
    rw [Option.bind_some, hkept.data, h]

/-- Storing data that has no pages stores no pages, also where old data is kept. -/
theorem pagesOf_storeQueryData
    {data : V} (now : Instant) (options : QueryOptions)
    (h : c.pagesOf (T := T) (P := P) key = none)
    (hdata : key'.cacheKey = key.cacheKey → ¬ HoldsPages T P data) :
  (c.storeQueryData now key' data options).pagesOf (T := T) (P := P) key = none
  := by
  unfold pagesOf at h ⊢
  rw [storeQueryData, Table.lookup_insert_eq]
  split
  · next heq =>
    have hnone : (asInfinite data : Option (InfiniteData T P)) = none := by
      have hdata := hdata heq.symm
      rwa [HoldsPages, Bool.not_eq_true, Option.isSome_eq_false_iff, Option.isNone_iff_eq_none]
        at hdata
    rw [Option.bind_some, newEntry, ← heq]
    dsimp only
    cases he : c.cache.lookup key.cacheKey with
    | none => apply hnone
    | some e =>
      rw [he, Option.bind_some] at h
      dsimp only
      split
      · apply h
      · apply hnone
  · apply h

theorem pagesOf_setQueryData
    {data : V} (now : Instant) (options : QueryOptions)
    (h : c.pagesOf (T := T) (P := P) key = none)
    (hdata : key'.cacheKey = key.cacheKey → ¬ HoldsPages T P data) :
  (c.setQueryData now key' data options).pagesOf (T := T) (P := P) key = none
  := by
  have hstore := pagesOf_storeQueryData now options h hdata
  rwa [pagesOf, setQueryData, (notifySubscribers_frame _ _ _).1]

/-- Where no pages are cached none are appended. -/
theorem appendInfinitePage_of_none
    {page : T} {pageParam : P} {maxPages : Option Nat}
    (h : c.pagesOf (T := T) (P := P) key = none) :
  c.appendInfinitePage now key page pageParam maxPages = some (c, none)
  := by
  rw [appendInfinitePage, h]

/-- Where no pages are cached none are prepended. -/
theorem prependInfinitePage_of_none
    {page : T} {pageParam : P} {maxPages : Option Nat}
    (h : c.pagesOf (T := T) (P := P) key = none) :
  c.prependInfinitePage now key page pageParam maxPages = (c, none)
  := by
  rw [prependInfinitePage, h]

/-- Appending a page gives no other key pages. -/
theorem pagesOf_appendInfinitePage
    {page : T} {pageParam : P} {maxPages : Option Nat}
    {result : QueryClient V × Option (InfiniteData T P)}
    (happend : c.appendInfinitePage now key' page pageParam maxPages = some result)
    (h : c.pagesOf (T := T) (P := P) key = none) :
  result.1.pagesOf (T := T) (P := P) key = none
  := by
  by_cases hk : key.cacheKey = key'.cacheKey
  · have h' : c.pagesOf (T := T) (P := P) key' = none := by
      rwa [pagesOf, ← hk]
    rw [appendInfinitePage_of_none h'] at happend
    obtain rfl := Option.some.inj happend
    apply h
  · rwa [pagesOf, appendInfinitePage_lookup_of_ne hk happend]

/-- Prepending a page gives no other key pages. -/
theorem pagesOf_prependInfinitePage
    {page : T} {pageParam : P} {maxPages : Option Nat}
    (h : c.pagesOf (T := T) (P := P) key = none) :
  (c.prependInfinitePage now key' page pageParam maxPages).1.pagesOf (T := T) (P := P) key = none
  := by
  by_cases hk : key.cacheKey = key'.cacheKey
  · have h' : c.pagesOf (T := T) (P := P) key' = none := by
      rwa [pagesOf, ← hk]
    rwa [prependInfinitePage_of_none h']
  · rwa [pagesOf, prependInfinitePage_lookup_of_ne _ _ hk]

/-- Hydrating strings that are no pages hydrates no pages. -/
theorem pagesOf_hydrate
    {serde : Option SerdeJson} {state : DehydratedState} {options : HydrateOptions}
    (hdata : ∀ q ∈ state.queries, q.queryHash = key.cacheKey →
      ¬ HoldsPages T P (ofString (deserializeEntryData serde (q.dataJson.getD "")) : V))
    (h : c.pagesOf (T := T) (P := P) key = none) :
  (c.hydrate serde now state options).pagesOf (T := T) (P := P) key = none
  := by
  unfold hydrate
  generalize state.queries = queries at hdata
  induction queries generalizing c with
  | nil => apply h
  | cons q qs ih =>
    rw [List.foldl_cons]
    apply ih
    · rw [pagesOf, hydrateQuery_lookup]
      split
      · next hr =>
        have hdata := hdata q List.mem_cons_self hr.1.symm
        rw [HoldsPages, Bool.not_eq_true, Option.isSome_eq_false_iff,
          Option.isNone_iff_eq_none] at hdata
        rw [Option.bind_some, restoredEntry_data, hdata]
      · apply h
    · intro q' hq'
      apply hdata q' (List.mem_cons_of_mem q hq')

/-- Restoring data that has no pages restores no pages. -/
theorem pagesOf_applyRestoredData
    {options : QueryPersisterOptions} {wall : SystemTime} {data : V} {dataUpdatedAtMs : Option Nat}
    (hdata : key'.cacheKey = key.cacheKey → ¬ HoldsPages T P data)
    (h : c.pagesOf (T := T) (P := P) key = none) :
  (QueryPersister.applyRestoredData options c wall now key' data dataUpdatedAtMs).pagesOf
    (T := T) (P := P) key = none
  := by
  have hset := pagesOf_setQueryData now { staleTime := options.staleTime.getD 0 } h hdata
  rw [QueryPersister.applyRestoredData_eq]
  split
  · apply Retained.pagesOf_eq_none _ hset
    rw [markStale, Table.lookup_adjust]
    split
    · apply Retained.markStale
    · apply Retained.refl
  · apply hset

end Pages

/-! ### Writes of data -/

namespace QueryClient

variable {c : QueryClient V} {now : Instant} {key : QueryKey}

omit [StringAny V] [InfiniteAny V T P] in
theorem Frame.notifySubscribers {c c' : QueryClient V} (h : Frame c c') (k : String)
    (v : QueryStateVariant) :
  Frame c (c'.notifySubscribers k v)
  := by
  obtain ⟨hi, hc, ha⟩ := frame_notifySubscribers c' k v
  exact ⟨hi.trans h.inFlight, hc.trans h.cancelled, ha.trans h.aborted⟩

omit [InfiniteAny V T P] in
theorem frame_setQueryData (c : QueryClient V) (now : Instant) (key : QueryKey) (data : V)
    (options : QueryOptions) :
  Frame c (c.setQueryData now key data options)
  := by
  apply Frame.notifySubscribers
  exact ⟨rfl, rfl, rfl⟩

theorem frame_replacePages (c : QueryClient V) (now : Instant) (key : QueryKey)
    (d : InfiniteData T P) :
  Frame c (c.replacePages now key d)
  := by
  apply Frame.notifySubscribers
  exact ⟨rfl, rfl, rfl⟩

theorem frame_appendInfinitePage
    {page : T} {pageParam : P} {maxPages : Option Nat}
    {result : QueryClient V × Option (InfiniteData T P)}
    (h : c.appendInfinitePage now key page pageParam maxPages = some result) :
  Frame c result.1
  := by
  unfold appendInfinitePage at h
  split at h
  · rw [← Option.some.inj h]
    exact ⟨rfl, rfl, rfl⟩
  · split at h
    · contradiction
    · rw [← Option.some.inj h]
      apply frame_replacePages

theorem frame_prependInfinitePage (c : QueryClient V) (now : Instant) (key : QueryKey) (page : T)
    (pageParam : P) (maxPages : Option Nat) :
  Frame c (c.prependInfinitePage now key page pageParam maxPages).1
  := by
  unfold prependInfinitePage
  split
  · exact ⟨rfl, rfl, rfl⟩
  · apply frame_replacePages

omit [InfiniteAny V T P] in
theorem frame_hydrateQuery (serde : Option SerdeJson) (now : Instant) (dehydratedAtMs : Nat)
    (options : HydrateOptions) (c : QueryClient V) (q : DehydratedQuery) :
  Frame c (c.hydrateQuery serde now dehydratedAtMs options q)
  := by
  rw [hydrateQuery_eq]
  split
  · obtain ⟨hi, hc, ha⟩ := c.frame_setQueryData now (queryKeyFromDehydrated q)
      (ofString (deserializeEntryData serde (q.dataJson.getD ""))) (storedOptionsFor q options)
    exact ⟨hi, hc, ha⟩
  · exact ⟨rfl, rfl, rfl⟩

omit [InfiniteAny V T P] in
theorem frame_hydrate (serde : Option SerdeJson) (now : Instant) (state : DehydratedState)
    (options : HydrateOptions) (c : QueryClient V) :
  Frame c (c.hydrate serde now state options)
  := by
  unfold hydrate
  generalize state.queries = queries
  induction queries generalizing c with
  | nil => exact ⟨rfl, rfl, rfl⟩
  | cons q qs ih =>
    rw [List.foldl_cons]
    obtain ⟨hi, hc, ha⟩ := c.frame_hydrateQuery serde now state.dehydratedAtMs options q
    obtain ⟨hi', hc', ha'⟩ := ih (c.hydrateQuery serde now state.dehydratedAtMs options q)
    exact ⟨hi'.trans hi, hc'.trans hc, ha'.trans ha⟩

end QueryClient

omit [InfiniteAny V T P] in
theorem QueryPersister.frame_applyRestoredData
    (options : QueryPersisterOptions) (c : QueryClient V) (wall : SystemTime) (now : Instant)
    (key : QueryKey) (data : V) (dataUpdatedAtMs : Option Nat) :
  QueryClient.Frame c (applyRestoredData options c wall now key data dataUpdatedAtMs)
  := by
  obtain ⟨hi, hc, ha⟩ :=
    c.frame_setQueryData now key data { staleTime := options.staleTime.getD 0 }
  rw [applyRestoredData_eq]
  split
  · exact ⟨hi, hc, ha⟩
  · exact ⟨hi, hc, ha⟩

omit [InfiniteAny V T P] in
/-- A call that evicts leaves no entry under the keys it cancels. -/
theorem Call.lookup_of_evicts
    {call : Call V} {now : Instant} {c : QueryClient V} {k : String} (h : call.Evicts)
    (hcancels : call.Cancels now c k) :
  (call.apply now c).cache.lookup k = none
  := by
  apply (congrArg Slot.entry (call.slot_apply now c k)).trans
  cases call with
  | clear => rfl
  | resetQueries filters =>
    obtain ⟨m, hm⟩ := Option.isSome_iff_exists.mp hcancels
    simp only [onSlot, hm]
    rfl
  | removeQueries filters =>
    obtain ⟨m, hm⟩ := Option.isSome_iff_exists.mp hcancels
    simp only [onSlot, hm]
    rfl
  | _ => contradiction

/-! ### Steps -/

namespace Pages

variable {s s' : Pages V T P} {a : Action V T P}

/-- A step that does not store pages for a key without pages leaves it without. -/
theorem pagesOf_sys
    {a : RsQuery.Action V} {key : QueryKey} (hs : s.sys.step a = some s'.sys)
    (hfills : ¬ s.Fills key.cacheKey (.sys a))
    (h : s.sys.client.pagesOf (T := T) (P := P) key = none) :
  s'.sys.client.pagesOf (T := T) (P := P) key = none
  := by
  by_cases hw : s.sys.Writes key.cacheKey a
  · cases a with
    | advance i o =>
      obtain ⟨r, c, pc, hr, ha, hs'⟩ := Sys.step_advance hs
      rw [hs']
      obtain ⟨data, hpc, rfl, -⟩ | ⟨-, hcache⟩ := Run.advance_stores ha
      · apply pagesOf_storeQueryData _ _ h
        intro hkey hdata
        apply hfills
        use r, hr, hkey
        rw [StoresPages, hpc]
        apply hdata
      · rwa [QueryClient.pagesOf, hcache]
    | call call =>
      have hs' := Option.some.inj hs
      cases call with
      | setQueryData key' data options =>
        rw [← hs']
        apply pagesOf_setQueryData _ _ h
        exact fun hkey hdata => hfills ⟨hkey, hdata⟩
      | _ => contradiction
    | _ => contradiction
  · apply Retained.pagesOf_eq_none _ h
    apply Sys.retained_step hw hs

omit [StringAny V] [InfiniteAny V T P] in
theorem mem_removed [PartialEqAny V] {c c' : QueryClient V} {token : Token} :
  token ∈ removed c c' ↔ ∃ k task, c.inFlight.lookup k = some task ∧
    c'.inFlight.lookup k = none ∧ task.cancelToken = token
  := by
  simp only [removed, List.mem_map, List.mem_filter, decide_eq_true_eq]
  constructor
  · rintro ⟨⟨k, task⟩, ⟨hmem, hnone⟩, rfl⟩
    exact ⟨k, task, AList.mem_lookup_iff.mpr hmem, hnone, rfl⟩
  · rintro ⟨k, task, hk, hnone, rfl⟩
    exact ⟨⟨k, task⟩, ⟨AList.mem_lookup_iff.mp hk, hnone⟩, rfl⟩

omit [InfiniteAny V T P] in
/-- What a request leaves in the log is about no registration. -/
theorem not_mem_requests {j : Nat} {token : Token} :
  .withdrawn token ∉ s.requests a s' j
  := by
  unfold requests
  split
  · split
    · simp
    · split
      · simp
      · simp
  · simp

omit [InfiniteAny V T P] in
/-- The registrations in the log are those that a call has removed. -/
theorem removed_of_mem_events {token : Token} (h : .withdrawn token ∈ s.events a s') :
  token ∈ removed s.sys.client s'.sys.client
  := by
  cases a with
  | sys a =>
    cases a with
    | call call =>
      obtain ⟨_, hmem, heq⟩ := List.mem_map.mp h
      rwa [← Event.withdrawn.inj heq]
    | _ => exact absurd h List.not_mem_nil
  | request j request =>
    have h : .withdrawn token ∈ s.requests (.request j request) s' j := h
    cases not_mem_requests h
  | requestWith j cancelRefetch request =>
    obtain h | h := List.mem_append.mp h
    · obtain ⟨_, hmem, heq⟩ := List.mem_map.mp h
      rwa [← Event.withdrawn.inj heq]
    · cases not_mem_requests h
  | _ => exact absurd h List.not_mem_nil

/-- What a step that is not one of a loop does to the loops, to what is registered and
cancelled, and to pages. -/
structure Effect (s s' : Pages V T P) (a : Action V T P) : Prop where
  nextRun : s.sys.nextRun ≤ s'.sys.nextRun
  runs : ∀ i r', s'.sys.runs.lookup i = some r' →
    (∃ r, s.sys.runs.lookup i = some r) ∨ s.sys.nextRun ≤ i ∧ i < s'.sys.nextRun
  loops : ∀ j l', s'.loops.lookup j = some l' → l'.pc.token = none ∨
    ∃ l, s.loops.lookup j = some l ∧ l'.pc = l.pc ∧ l'.query = l.query
  inFlight : ∀ k task, s'.sys.client.inFlight.lookup k = some task →
    s.sys.client.inFlight.lookup k = some task ∨
      s.Registers k a ∧ ∃ r, s.sys.runs.lookup task.cancelToken = some r
  cancelled : s.sys.client.signals.cancelled ⊆ s'.sys.client.signals.cancelled
  withdrawn : ∀ token, .withdrawn token ∈ s.events a s' →
    token ∈ s'.sys.client.signals.cancelled ∧
      ∃ k task, s.sys.client.inFlight.lookup k = some task ∧
        s'.sys.client.inFlight.lookup k = none ∧ task.cancelToken = token ∧
        (s.Cancels k a ∨ s'.sys.client.cache.lookup k = none)
  pages : ∀ key, ¬ s.Fills key.cacheKey a →
    s.sys.client.pagesOf (T := T) (P := P) key = none →
    s'.sys.client.pagesOf (T := T) (P := P) key = none

/-- A loop that a step does not move was there, or has just been spawned. -/
theorem loops_of_step (hs : s.step a = some s') (ha : ∀ j, ¬ a.Advances j) :
  ∀ j l', s'.loops.lookup j = some l' → l'.pc.token = none ∨
    ∃ l, s.loops.lookup j = some l ∧ l'.pc = l.pc ∧ l'.query = l.query
  := by
  intro j l' hl'
  cases hl : s.loops.lookup j with
  | some l =>
    obtain ⟨l'', hl'', hpc, hquery, -⟩ := loop_of_step hs (ha j) hl
    obtain rfl := Option.some.inj (hl'.symm.trans hl'')
    right
    exact ⟨l, rfl, hpc, hquery⟩
  | none =>
    left
    have habsent {i : Nat} {l₁ l₂ : PageLoop T P} (hi : s.loops.lookup i = some l₁)
        (hj : (s.loops.insert i l₂).lookup j = some l') : l'.pc.token = none := by
      obtain ⟨rfl, -⟩ | ⟨-, hj⟩ := Table.lookup_insert_cases hj
      · rw [hi] at hl
        contradiction
      · rw [hl] at hj
        contradiction
    cases a with
    | sys a =>
      rw [(step_sys hs).2, hl] at hl'
      contradiction
    | spawn i query =>
      obtain ⟨-, rfl⟩ := step_spawn hs
      obtain ⟨-, rfl⟩ | ⟨-, hl'⟩ := Table.lookup_insert_cases hl'
      · rfl
      · rw [hl] at hl'
        contradiction
    | request i request =>
      obtain ⟨l, hi, rfl⟩ := step_request hs
      apply habsent hi hl'
    | requestWith i cancelRefetch request =>
      obtain ⟨l, hi, rfl⟩ := step_requestWith hs
      apply habsent hi hl'
    | dropObserver i =>
      obtain ⟨l, requests, hi, -, rfl⟩ := step_dropObserver hs
      apply habsent hi hl'
    | advance i o => exact absurd rfl (ha i)
    | append key page pageParam maxPages =>
      simp only [step] at hs
      split at hs
      all_goals
        obtain rfl := Option.some.inj hs
        have h := hl.symm.trans hl'
        contradiction
    | prepend key page pageParam maxPages =>
      obtain rfl := Option.some.inj hs
      have h := hl.symm.trans hl'
      contradiction
    | hydrate serde state options =>
      obtain rfl := Option.some.inj hs
      have h := hl.symm.trans hl'
      contradiction
    | restore options wall key data dataUpdatedAtMs =>
      obtain rfl := Option.some.inj hs
      have h := hl.symm.trans hl'
      contradiction

/-- A step that registers and cancels nothing has its effect on the pages only. -/
theorem effect_of_frame
    (hs : s.step a = some s') (ha : ∀ j, ¬ a.Advances j) (hnext : s'.sys.nextRun = s.sys.nextRun)
    (hruns : s'.sys.runs = s.sys.runs)
    (hf : QueryClient.Frame s.sys.client s'.sys.client)
    (hpages : ∀ key, ¬ s.Fills key.cacheKey a →
      s.sys.client.pagesOf (T := T) (P := P) key = none →
      s'.sys.client.pagesOf (T := T) (P := P) key = none) :
  Effect s s' a
  := by
  constructor
  case nextRun => rw [hnext]
  case runs =>
    intro i r' hr
    left
    rw [← hruns]
    exact ⟨r', hr⟩
  case loops => apply loops_of_step hs ha
  case inFlight =>
    intro k task hk
    left
    rwa [← hf.inFlight]
  case cancelled => rw [hf.cancelled]
  case withdrawn =>
    intro token h
    obtain ⟨k, task, hk, hnone, -⟩ := mem_removed.mp (removed_of_mem_events h)
    rw [hf.inFlight, hk] at hnone
    contradiction
  case pages => apply hpages

/-- So has one that only cancels. -/
theorem effect_of_withdraws
    (hs : s.step a = some s') (ha : ∀ j, ¬ a.Advances j) (hnext : s'.sys.nextRun = s.sys.nextRun)
    (hruns : s'.sys.runs = s.sys.runs)
    (hw : QueryClient.Withdraws s.sys.client s'.sys.client)
    (hcancels : ∀ k task, s.sys.client.inFlight.lookup k = some task →
      s'.sys.client.inFlight.lookup k = none → s.Cancels k a)
    (hr : ∀ k, Retained (s.sys.client.cache.lookup k) (s'.sys.client.cache.lookup k)) :
  Effect s s' a
  := by
  constructor
  case nextRun => rw [hnext]
  case runs =>
    intro i r' hr
    left
    rw [← hruns]
    exact ⟨r', hr⟩
  case loops => apply loops_of_step hs ha
  case inFlight =>
    intro k task hk
    left
    obtain hnone | hsame := hw.kept k
    · rw [hnone] at hk
      contradiction
    · rwa [← hsame]
  case cancelled => exact fun token h => (hw.cancelled token).mpr (.inl h)
  case withdrawn =>
    intro token h
    obtain ⟨k, task, hk, hnone, htoken⟩ := mem_removed.mp (removed_of_mem_events h)
    use (hw.cancelled token).mpr (.inr ⟨k, task, hk, hnone, htoken⟩)
    exact ⟨k, task, hk, hnone, htoken, .inl (hcancels k task hk hnone)⟩
  case pages => exact fun key _ h => (hr key.cacheKey).pagesOf_eq_none h

/-- A step of the executions has the effect it has on them. -/
theorem effect_of_sys {a : RsQuery.Action V} (hs : s.step (.sys a) = some s') :
  Effect s s' (.sys a)
  := by
  obtain ⟨hsys, hloops⟩ := step_sys hs
  have heffect := Sys.effect_of_step hsys
  constructor
  case nextRun => apply heffect.nextRun
  case runs => apply heffect.runs
  case loops => apply loops_of_step hs fun _ => id
  case inFlight =>
    intro k task hk
    obtain h | ⟨i, r, rfl, hr, hkey, hi⟩ := heffect.inFlight k task hk
    · left
      apply h
    · right
      use ⟨r, hr, hkey⟩, r
      rwa [hi]
  case cancelled => apply Sys.cancelled_step hsys
  case withdrawn =>
    intro token h
    obtain ⟨k, task, hk, hnone, htoken⟩ := mem_removed.mp (removed_of_mem_events h)
    cases a with
    | call call =>
      have hclient := Option.some.inj hsys
      have hw := call.withdraws_apply s.sys.now s.sys.client
      rw [← hclient] at hnone ⊢
      use (hw.cancelled token).mpr (.inr ⟨k, task, hk, hnone, htoken⟩), k, task, hk, hnone, htoken
      have hcancels : call.Cancels s.sys.now s.sys.client k := by
        have hflight := call.inFlight_apply s.sys.now s.sys.client k
        split at hflight
        · next hcancels => exact hcancels
        · cases hflight.symm.trans hnone ▸ hk
      by_cases hevicts : call.Evicts
      · right
        apply Call.lookup_of_evicts hevicts hcancels
      · left
        use hcancels, hevicts
    | _ => exact absurd h List.not_mem_nil
  case pages => exact fun key hfills h => pagesOf_sys hsys hfills h

/-- A request that wants to be served at once cancels, if anything. -/
theorem effect_of_requestWith
    {i : Nat} {cancelRefetch : Bool} {request : PageRequest}
    (hs : s.step (.requestWith i cancelRefetch request) = some s') :
  Effect s s' (.requestWith i cancelRefetch request)
  := by
  have ha (j : Nat) : ¬ (.requestWith i cancelRefetch request : Action V T P).Advances j := id
  have hs₀ := hs
  obtain ⟨l, hl, rfl⟩ := step_requestWith hs
  cases cancelRefetch with
  | false =>
    have hc : (fetchPageWith s.sys.client l false request).1 = s.sys.client := by
      unfold fetchPageWith
      split
      · rfl
      · rfl
    apply effect_of_frame hs₀ ha rfl rfl
    · rw [hc]
      exact ⟨rfl, rfl, rfl⟩
    · intro key _ h
      rwa [hc]
  | true =>
    have hkey : s.Cancels l.query.key.cacheKey (.requestWith i true request) :=
      ⟨rfl, l, hl, rfl⟩
    obtain hc | hc := fetchPageWith_client s.sys.client l true request
    · apply effect_of_frame hs₀ ha rfl rfl
      · rw [hc]
        exact ⟨rfl, rfl, rfl⟩
      · intro key _ h
        rwa [hc]
    · apply effect_of_withdraws hs₀ ha rfl rfl
      · rw [hc]
        apply (Call.cancelQuery l.query.key).withdraws_apply s.sys.now s.sys.client
      · intro k task hk hnone
        have happly := (Call.cancelQuery l.query.key).inFlight_apply s.sys.now s.sys.client k
        by_cases hcancels : (Call.cancelQuery l.query.key).Cancels s.sys.now s.sys.client k
        · rw [hcancels]
          apply hkey
        · rw [if_neg hcancels, hk] at happly
          rw [hc] at hnone
          have h := happly.symm.trans hnone
          contradiction
      · intro k
        rw [hc]
        apply (Call.cancelQuery l.query.key).retained_apply s.sys.now s.sys.client id

/-- Every step that is not one of a loop has its effect. -/
theorem effect_of_step (hs : s.step a = some s') (ha : ∀ j, ¬ a.Advances j) :
  Effect s s' a
  := by
  cases a with
  | sys a => apply effect_of_sys hs
  | spawn i query =>
    have hs₀ := hs
    obtain ⟨-, rfl⟩ := step_spawn hs
    apply effect_of_frame hs₀ ha rfl rfl ⟨rfl, rfl, rfl⟩
    exact fun _ _ h => h
  | request i request =>
    have hs₀ := hs
    obtain ⟨l, -, rfl⟩ := step_request hs
    apply effect_of_frame hs₀ ha rfl rfl ⟨rfl, rfl, rfl⟩
    exact fun _ _ h => h
  | requestWith i cancelRefetch request => apply effect_of_requestWith hs
  | dropObserver i =>
    have hs₀ := hs
    obtain ⟨l, requests, -, -, rfl⟩ := step_dropObserver hs
    apply effect_of_frame hs₀ ha rfl rfl ⟨rfl, rfl, rfl⟩
    exact fun _ _ h => h
  | advance i o => exact absurd rfl (ha i)
  | append key page pageParam maxPages =>
    have hs₀ := hs
    simp only [step] at hs
    split at hs
    · next c d happend =>
      obtain rfl := Option.some.inj hs
      apply effect_of_frame hs₀ ha rfl rfl (QueryClient.frame_appendInfinitePage happend)
      exact fun key' _ h => pagesOf_appendInfinitePage happend h
    · obtain rfl := Option.some.inj hs
      apply effect_of_frame hs₀ ha rfl rfl ⟨rfl, rfl, rfl⟩
      exact fun _ _ h => h
  | prepend key page pageParam maxPages =>
    have hs₀ := hs
    obtain rfl := Option.some.inj hs
    apply effect_of_frame hs₀ ha rfl rfl (QueryClient.frame_prependInfinitePage _ _ _ _ _ _)
    exact fun key' _ h => pagesOf_prependInfinitePage h
  | hydrate serde state options =>
    have hs₀ := hs
    obtain rfl := Option.some.inj hs
    apply effect_of_frame hs₀ ha rfl rfl (QueryClient.frame_hydrate _ _ _ _ _)
    intro key hfills h
    apply pagesOf_hydrate _ h
    exact fun q hq hkey hdata => hfills ⟨q, hq, hkey, hdata⟩
  | restore options wall key data dataUpdatedAtMs =>
    have hs₀ := hs
    obtain rfl := Option.some.inj hs
    apply effect_of_frame hs₀ ha rfl rfl (QueryPersister.frame_applyRestoredData _ _ _ _ _ _ _)
    intro key' hfills h
    apply pagesOf_applyRestoredData _ h
    exact fun hkey hdata => hfills ⟨hkey, hdata⟩

end Pages

namespace PageLoop

variable {l l' : PageLoop T P} {c c' : QueryClient V} {now : Instant} {fresh : Token}
  {o : PageOutcome T}

/-- What a step of a loop does to what is registered: it registers its fetch, or it
registers nothing and stays with its token or without. -/
theorem Step.registrations (h : l.Step fresh now c o c' l') :
  c'.signals.cancelled = c.signals.cancelled ∧ l'.query = l.query ∧
    ((c' = c.setInFlight l.query.key ⟨fresh, fresh⟩ ∧ (l.pc matches .register ..) ∧
        l'.pc.token = some fresh) ∨
      (l'.pc.token = none ∨ l'.pc.token = l.pc.token) ∧
        ∀ k task, c'.inFlight.lookup k = some task → c.inFlight.lookup k = some task)
  := by
  have hframe (hf : QueryClient.Frame c c') (k : String) (task : InFlightTask)
      (hk : c'.inFlight.lookup k = some task) : c.inFlight.lookup k = some task := by
    rwa [← hf.inFlight]
  cases h with
  | fetchedInitial hpc => exact ⟨rfl, rfl, .inr ⟨.inl rfl, fun _ _ hk => hk⟩⟩
  | storeInitial hpc => exact ⟨rfl, rfl, .inr ⟨.inl rfl, fun _ _ hk => hk⟩⟩
  | notifyInitial hpc =>
    have hf := c.frame_notifySubscribers l.query.key.cacheKey
    exact ⟨(hf _).cancelled, rfl, .inr ⟨.inl rfl, hframe (hf _)⟩⟩
  | receive hpc hreceive =>
    refine ⟨rfl, rfl, .inr ⟨.inl ?_, fun _ _ hk => hk⟩⟩
    obtain ⟨-, ⟨request, -, -, -, hgoto⟩ | ⟨-, -, -, hgoto⟩ | ⟨-, -, -, hgoto⟩⟩ :=
      received_cases hreceive
    all_goals
      rw [hgoto]
      rfl
  | resume hpc hresume => exact ⟨rfl, rfl, .inr ⟨.inl rfl, fun _ _ hk => hk⟩⟩
  | read hpc hdata => exact ⟨rfl, rfl, .inr ⟨.inl rfl, fun _ _ hk => hk⟩⟩
  | ask hpc hflight => exact ⟨rfl, rfl, .inr ⟨.inl rfl, fun _ _ hk => hk⟩⟩
  | answer hpc hparam => exact ⟨rfl, rfl, .inr ⟨.inl rfl, fun _ _ hk => hk⟩⟩
  | register hpc => exact ⟨rfl, rfl, .inl ⟨rfl, by rw [hpc], rfl⟩⟩
  | fetched hpc => exact ⟨rfl, rfl, .inr ⟨.inr (by rw [hpc]; rfl), fun _ _ hk => hk⟩⟩
  | failed hpc => exact ⟨rfl, rfl, .inr ⟨.inr (by rw [hpc]; rfl), fun _ _ hk => hk⟩⟩
  | append hpc happend =>
    have hf := QueryClient.frame_appendInfinitePage happend
    exact ⟨hf.cancelled, rfl, .inr ⟨.inr (by rw [hpc]; rfl), hframe hf⟩⟩
  | @prepend param page token hpc =>
    have hf := c.frame_prependInfinitePage now l.query.key page param l.query.maxPages
    exact ⟨hf.cancelled, rfl, .inr ⟨.inr (by rw [hpc]; rfl), hframe hf⟩⟩
  | notifyFailed hpc =>
    have hf := c.frame_notifySubscribers l.query.key.cacheKey .error
    exact ⟨hf.cancelled, rfl, .inr ⟨.inr (by rw [hpc]; rfl), hframe hf⟩⟩
  | deregister hpc =>
    refine ⟨rfl, rfl, .inr ⟨.inl rfl, ?_⟩⟩
    intro k task hk
    obtain ⟨-, hk⟩ := Table.lookup_of_erase hk
    apply hk
  | giveUp hpc => exact ⟨rfl, rfl, .inr ⟨.inl rfl, fun _ _ hk => hk⟩⟩
  | rest hpc =>
    refine ⟨rfl, rfl, .inr ⟨?_, fun _ _ hk => hk⟩⟩
    obtain rfl | rfl | rfl := hpc
    · right; rfl
    · left; rfl
    · left; rfl

/-- The token of a loop is new, or it had it before. -/
theorem Step.token_eq
    {token : Token} (h : l.Step fresh now c o c' l') (htoken : l'.pc.token = some token) :
  token = fresh ∨ l.pc.token = some token
  := by
  obtain ⟨-, -, ⟨-, -, hnew⟩ | ⟨hnone | hold, -⟩⟩ := h.registrations
  · left
    rw [hnew] at htoken
    apply (Option.some.inj htoken).symm
  · rw [hnone] at htoken
    contradiction
  · right
    rwa [← hold]

/-- A loop comes to add a page by staying or when its fetch returns one. -/
theorem Step.adding (h : l.Step fresh now c o c' l') (ha : l'.Adding) :
  l'.pc.token = l.pc.token ∧ (l.Adding ∨ ∃ page, o = .ready (.ok page))
  := by
  cases h with
  | fetched hpc =>
    use by rw [hpc]; rfl
    right
    exact ⟨_, rfl⟩
  | receive hpc hreceive =>
    obtain ⟨-, ⟨request, -, -, -, hgoto⟩ | ⟨-, -, -, hgoto⟩ | ⟨-, -, -, hgoto⟩⟩ :=
      received_cases hreceive
    all_goals
      rw [Adding, hgoto] at ha
      apply False.elim ha
  | rest hpc =>
    obtain rfl | rfl | rfl := hpc
    · exact ⟨rfl, .inl ha⟩
    · apply False.elim ha
    · apply False.elim ha
  | _ => apply False.elim ha

/-- A step of a loop that does not store a first page for a key without pages leaves it
without. -/
theorem Step.pagesOf
    {key : QueryKey} (h : l.Step fresh now c o c' l')
    (hfills : ¬ ((l.pc matches .storeInitial _) ∧ l.query.key.cacheKey = key.cacheKey))
    (hnone : c.pagesOf (T := T) (P := P) key = none) :
  c'.pagesOf (T := T) (P := P) key = none
  := by
  cases h with
  | storeInitial hpc =>
    apply pagesOf_storeQueryData _ _ hnone
    intro hkey _
    apply hfills
    use by rw [hpc]
  | notifyInitial hpc => rwa [QueryClient.pagesOf, (c.notifySubscribers_frame _ _).1]
  | notifyFailed hpc => rwa [QueryClient.pagesOf, (c.notifySubscribers_frame _ _).1]
  | append hpc happend => apply pagesOf_appendInfinitePage happend hnone
  | prepend hpc => apply pagesOf_prependInfinitePage hnone
  | _ => apply hnone

end PageLoop

/-! ### Runs -/

namespace Pages

variable {s s' : Pages V T P} {a : Action V T P} {log : List Event}

/-- The loops have tokens of their own, and a fetch without its registration has nothing to
change: no fetch is registered under its key, and there are no pages when it is to add
one. -/
structure Kept (t : Pages V T P × List Event) : Prop where
  numbered : ∀ i r, t.1.sys.runs.lookup i = some r → i < t.1.sys.nextRun
  given : ∀ j l token, t.1.loops.lookup j = some l → l.pc.token = some token →
    token < t.1.sys.nextRun ∧ t.1.sys.runs.lookup token = none
  registered : ∀ k task, t.1.sys.client.inFlight.lookup k = some task →
    task.cancelToken < t.1.sys.nextRun ∧
      ∀ j l, t.1.loops.lookup j = some l → l.pc.token = some task.cancelToken →
        l.query.key.cacheKey = k
  signalled : ∀ token, .withdrawn token ∈ t.2 →
    token < t.1.sys.nextRun ∧ token ∈ t.1.sys.client.signals.cancelled
  released : ∀ j l, t.1.loops.lookup j = some l → Withdrawn t.2 l →
    t.1.sys.client.inFlight.lookup l.query.key.cacheKey = none
  empty : ∀ j l, t.1.loops.lookup j = some l → Withdrawn t.2 l → l.Adding → t.1.pages l = none

theorem kept_initial :
  Kept ((⟨.initial, ∅⟩, []) : Pages V T P × List Event)
  := by
  constructor
  · simp [Sys.initial]
  · simp
  · simp [Sys.initial, QueryClient.new]
  · simp
  · simp
  · simp

/-- A step that cancels does not store pages. -/
theorem Cancels.not_fills {k : String} (h : s.Cancels k a) :
  ¬ s.Fills k a
  := by
  intro hf
  cases a with
  | sys a =>
    cases a with
    | call call =>
      cases call with
      | setQueryData key data options => apply h.1
      | _ => apply hf
    | _ => apply h
  | requestWith j cancelRefetch request => apply hf
  | _ => apply h

/-- Steps that are not of a loop keep what is kept. -/
theorem Kept.of_effect (h : Kept (s, log)) (hok : Spares (s, log) a) (he : Effect s s' a) :
  Kept (s', log ++ s.events a s')
  := by
  -- a loop with a token was there before
  have hback {j l' token} (hl' : s'.loops.lookup j = some l') (htoken : l'.pc.token = some token) :
      ∃ l, s.loops.lookup j = some l ∧ l'.pc = l.pc ∧ l'.query = l.query := by
    obtain hnone | hl := he.loops j l' hl'
    · rw [hnone] at htoken
      contradiction
    · apply hl
  -- its registration was removed before, or the step removes it
  have hsignal {l token} (hlt : ∃ j, s.loops.lookup j = some l) (htoken : l.pc.token = some token)
      (hmem : .withdrawn token ∈ log ++ s.events a s') :
      .withdrawn token ∈ log ∨ s.Registered l ∧
        s'.sys.client.inFlight.lookup l.query.key.cacheKey = none ∧
        (s.Cancels l.query.key.cacheKey a ∨
          s'.sys.client.cache.lookup l.query.key.cacheKey = none) := by
    obtain ⟨j, hl⟩ := hlt
    obtain hmem | hmem := List.mem_append.mp hmem
    · left
      apply hmem
    · right
      obtain ⟨-, k, task, hk, hnone, rfl, hcancels⟩ := he.withdrawn token hmem
      have hkey := (h.registered k task hk).2 j l hl htoken
      rw [Registered, hkey]
      exact ⟨⟨task, hk, htoken⟩, hnone, hcancels⟩
  constructor
  case numbered =>
    intro i r' hr'
    obtain ⟨r, hr⟩ | ⟨-, hlt⟩ := he.runs i r' hr'
    · apply Nat.lt_of_lt_of_le (h.numbered i r hr) he.nextRun
    · apply hlt
  case given =>
    intro j l' token hl' htoken
    obtain ⟨l, hl, hpc, -⟩ := hback hl' htoken
    rw [hpc] at htoken
    obtain ⟨hlt, hnone⟩ := h.given j l token hl htoken
    use Nat.lt_of_lt_of_le hlt he.nextRun
    cases hr' : s'.sys.runs.lookup token with
    | none => rfl
    | some r' =>
      obtain ⟨r, hr⟩ | ⟨hle, -⟩ := he.runs token r' hr'
      · rw [hnone] at hr
        contradiction
      · have := Nat.not_lt_of_le hle hlt
        contradiction
  case registered =>
    intro k task hk
    obtain hk | ⟨-, r, hr⟩ := he.inFlight k task hk
    · obtain ⟨hlt, hkey⟩ := h.registered k task hk
      use Nat.lt_of_lt_of_le hlt he.nextRun
      intro j l' hl' htoken
      obtain ⟨l, hl, hpc, hquery⟩ := hback hl' htoken
      rw [hquery]
      rw [hpc] at htoken
      apply hkey j l hl htoken
    · use Nat.lt_of_lt_of_le (h.numbered _ r hr) he.nextRun
      intro j l' hl' htoken
      obtain ⟨l, hl, hpc, -⟩ := hback hl' htoken
      rw [hpc] at htoken
      rw [(h.given j l _ hl htoken).2] at hr
      contradiction
  case signalled =>
    intro token hmem
    obtain hmem | hmem := List.mem_append.mp hmem
    · obtain ⟨hlt, hcancelled⟩ := h.signalled token hmem
      exact ⟨Nat.lt_of_lt_of_le hlt he.nextRun, he.cancelled hcancelled⟩
    · obtain ⟨hcancelled, k, task, hk, -, rfl, -⟩ := he.withdrawn token hmem
      exact ⟨Nat.lt_of_lt_of_le (h.registered k task hk).1 he.nextRun, hcancelled⟩
  case released =>
    intro j l' hl' hwithdrawn
    obtain ⟨token, htoken, hmem⟩ := hwithdrawn
    obtain ⟨l, hl, hpc, hquery⟩ := hback hl' htoken
    rw [hpc] at htoken
    rw [hquery]
    obtain hmem | ⟨-, hnone, -⟩ := hsignal ⟨j, hl⟩ htoken hmem
    · cases hk : s'.sys.client.inFlight.lookup l.query.key.cacheKey with
      | none => rfl
      | some task =>
        obtain hk | ⟨hregisters, -⟩ := he.inFlight _ task hk
        · rw [h.released j l hl ⟨token, htoken, hmem⟩] at hk
          contradiction
        · exact absurd hregisters ((hok j l hl).2.2.1 ⟨token, htoken, hmem⟩)
    · apply hnone
  case empty =>
    intro j l' hl' hwithdrawn hadding
    obtain ⟨token, htoken, hmem⟩ := hwithdrawn
    obtain ⟨l, hl, hpc, hquery⟩ := hback hl' htoken
    rw [hpc] at htoken
    rw [PageLoop.Adding, hpc] at hadding
    rw [pages, hquery]
    obtain hmem | ⟨htask, -, hcancels | hnone⟩ := hsignal ⟨j, hl⟩ htoken hmem
    · apply he.pages
      · apply (hok j l hl).2.2.2.1 ⟨token, htoken, hmem⟩ hadding
      · apply h.empty j l hl ⟨token, htoken, hmem⟩ hadding
    · apply he.pages _ hcancels.not_fills
      apply (hok j l hl).2.1 hadding hcancels htask
    · rw [QueryClient.pagesOf, hnone, Option.bind_none]

/-- Steps of the loops keep what is kept. -/
theorem Kept.advance
    {j : Nat} {o : PageOutcome T} (h : Kept (s, log)) (hok : Spares (s, log) (.advance j o))
    (hs : s.step (.advance j o) = some s') :
  Kept (s', log)
  := by
  obtain ⟨l, c, l', hl, ha, rfl⟩ := step_advance hs
  have hstep := PageLoop.step_of_advance ha
  obtain ⟨hsame, hquery, hreg⟩ := hstep.registrations
  -- the token of a registration made now is new
  have hfresh {i l₁} (hi : s.loops.lookup i = some l₁) : l₁.pc.token ≠ some s.sys.nextRun := by
    intro htoken
    exact absurd (h.given i l₁ _ hi htoken).1 (Nat.lt_irrefl _)
  have hflight {k task} (hk : c.inFlight.lookup k = some task) :
      s.sys.client.inFlight.lookup k = some task ∨ k = l.query.key.cacheKey ∧
        (l.pc matches .register ..) ∧ l'.pc.token = some s.sys.nextRun ∧
        task.cancelToken = s.sys.nextRun := by
    obtain ⟨rfl, hpc, htoken⟩ | ⟨-, hkept⟩ := hreg
    · obtain ⟨heq, rfl⟩ | ⟨-, hk⟩ := Table.lookup_insert_cases hk
      · right
        use heq, hpc, htoken
      · left
        apply hk
    · left
      apply hkept k task hk
  -- a loop without its registration was one before
  have hwithdrawn {i l₁} (hi : (s.loops.insert j l').lookup i = some l₁)
      (hc : Withdrawn log l₁) :
      ∃ l₀, s.loops.lookup i = some l₀ ∧ l₁.query = l₀.query ∧ Withdrawn log l₀ := by
    obtain ⟨token, htoken, hmem⟩ := hc
    obtain ⟨rfl, rfl⟩ | ⟨-, hi⟩ := Table.lookup_insert_cases hi
    · use l, hl, hquery, token
      obtain rfl | htoken := hstep.token_eq htoken
      · exact absurd (h.signalled _ hmem).1 (Nat.lt_irrefl _)
      · use htoken
    · exact ⟨l₁, hi, rfl, token, htoken, hmem⟩
  constructor
  case numbered =>
    intro i r hr
    apply Nat.lt_succ_of_lt (h.numbered i r hr)
  case given =>
    intro i l₁ token hi htoken
    obtain ⟨rfl, rfl⟩ | ⟨-, hi⟩ := Table.lookup_insert_cases hi
    · obtain rfl | htoken := hstep.token_eq htoken
      · use Nat.lt_succ_self _
        cases hr : s.sys.runs.lookup s.sys.nextRun with
        | none => apply hr
        | some r =>
          exact absurd (h.numbered _ r hr) (Nat.lt_irrefl _)
      · obtain ⟨hlt, hnone⟩ := h.given i l token hl htoken
        exact ⟨Nat.lt_succ_of_lt hlt, hnone⟩
    · obtain ⟨hlt, hnone⟩ := h.given i l₁ token hi htoken
      exact ⟨Nat.lt_succ_of_lt hlt, hnone⟩
  case registered =>
    intro k task hk
    obtain hk | ⟨rfl, -, hnew, htask⟩ := hflight hk
    · obtain ⟨hlt, hkey⟩ := h.registered k task hk
      use Nat.lt_succ_of_lt hlt
      intro i l₁ hi htoken
      obtain ⟨rfl, rfl⟩ | ⟨-, hi⟩ := Table.lookup_insert_cases hi
      · obtain heq | htoken := hstep.token_eq htoken
        · rw [heq] at hlt
          exact absurd hlt (Nat.lt_irrefl _)
        · rw [hquery]
          apply hkey i l hl htoken
      · apply hkey i l₁ hi htoken
    · rw [htask]
      use Nat.lt_succ_self _
      intro i l₁ hi htoken
      obtain ⟨rfl, rfl⟩ | ⟨-, hi⟩ := Table.lookup_insert_cases hi
      · rw [hquery]
      · exact absurd htoken (hfresh hi)
  case signalled =>
    intro token hmem
    obtain ⟨hlt, hcancelled⟩ := h.signalled token hmem
    exact ⟨Nat.lt_succ_of_lt hlt, hsame ▸ hcancelled⟩
  case released =>
    intro i l₁ hi hc
    obtain ⟨l₀, hi₀, hq, hc₀⟩ := hwithdrawn hi hc
    rw [hq]
    cases hk : c.inFlight.lookup l₀.query.key.cacheKey with
    | none => apply hk
    | some task =>
      obtain hk | ⟨hkey, hpc, -⟩ := hflight hk
      · rw [h.released i l₀ hi₀ hc₀] at hk
        contradiction
      · exact absurd ⟨l, hl, hpc, hkey.symm⟩ ((hok i l₀ hi₀).2.2.1 hc₀)
  case empty =>
    intro i l₁ hi hc hadding
    obtain ⟨l₀, hi₀, hq, hc₀⟩ := hwithdrawn hi hc
    rw [pages, hq]
    have hnone : s.pages l₀ = none ∧
        ¬ ((l.pc matches .storeInitial _) ∧ l.query.key.cacheKey = l₀.query.key.cacheKey) := by
      obtain ⟨rfl, rfl⟩ | ⟨-, hi⟩ := Table.lookup_insert_cases hi
      · obtain rfl := Option.some.inj (hl.symm.trans hi₀)
        obtain ⟨-, hadd | ⟨page, rfl⟩⟩ := hstep.adding hadding
        · use h.empty i l hl hc₀ hadd
          intro hf
          apply (hok i l hl).2.2.2.1 hc₀ hadd ⟨l, hl, hf⟩
        · use (hok i l hl).1 hc₀ rfl
          rintro ⟨hinitial, -⟩
          obtain ⟨token, htoken, -⟩ := hc₀
          split at hinitial
          · next hpc =>
            rw [hpc] at htoken
            contradiction
          · contradiction
      · obtain rfl := Option.some.inj (hi₀.symm.trans hi)
        use h.empty i l₀ hi₀ hc₀ hadding
        intro hf
        apply (hok i l₀ hi₀).2.2.2.1 hc₀ hadding ⟨l, hl, hf⟩
    apply hstep.pagesOf hnone.2 hnone.1

/-- A loop without its registration changes nothing that is cached and no registration but
its own. -/
theorem Kept.inert
    {j : Nat} {l : PageLoop T P} {token : Token} {o : PageOutcome T} (h : Kept (s, log))
    (hl : s.loops.lookup j = some l) (htoken : l.pc.token = some token)
    (hmem : .withdrawn token ∈ log) (hs : s.step (.advance j o) = some s') :
  s'.sys.client.cache = s.sys.client.cache ∧
    ∀ k task, s.sys.client.inFlight.lookup k = some task → task.cancelToken ≠ token →
      s'.sys.client.inFlight.lookup k = some task
  := by
  obtain ⟨l₀, c, l', hl₀, ha, rfl⟩ := step_advance hs
  obtain rfl := Option.some.inj (hl.symm.trans hl₀)
  have hc : Withdrawn log l := ⟨token, htoken, hmem⟩
  have hadd : l.Adding → s.sys.client.pagesOf (T := T) (P := P) l.query.key = none :=
    h.empty j l hl hc
  cases PageLoop.step_of_advance ha with
  | append hpc happend =>
    rw [appendInfinitePage_of_none (hadd (by rw [PageLoop.Adding, hpc]; trivial))] at happend
    obtain ⟨rfl, -⟩ := Prod.mk.inj (Option.some.inj happend)
    exact ⟨rfl, fun k task hk _ => hk⟩
  | prepend hpc =>
    have hnone := hadd (by rw [PageLoop.Adding, hpc]; trivial)
    dsimp only [setClient, setLoop]
    rw [prependInfinitePage_of_none hnone]
    exact ⟨rfl, fun k task hk _ => hk⟩
  | notifyFailed hpc =>
    obtain ⟨hcache, hflight, -⟩ := s.sys.client.notifySubscribers_frame l.query.key.cacheKey .error
    use hcache
    intro k task hk _
    apply (congrArg _ hflight).trans hk
  | deregister hpc =>
    use rfl
    intro k task hk _
    simp only [setClient, setLoop, QueryClient.clearInFlight, Table.lookup_erase_eq]
    rw [if_neg _, hk]
    rintro rfl
    rw [h.released j l hl hc] at hk
    contradiction
  | storeInitial hpc =>
    rw [hpc] at htoken
    contradiction
  | notifyInitial hpc =>
    obtain hpc | hpc := hpc
    · rw [hpc] at htoken
      contradiction
    · rw [hpc] at htoken
      contradiction
  | register hpc =>
    rw [hpc] at htoken
    contradiction
  | _ => exact ⟨rfl, fun k task hk _ => hk⟩

/-! ### The newly requested page -/

/-- The loop comes to no page but that of the request, or one whose fetch has no
registration. -/
def LoopPc.Seeks (log : List Event) (request : PageRequest) : LoopPc T P → Prop
  | .fetchInitial | .storeInitial _ => False
  | .readData r | .checkInFlight r _ | .askParam r _ | .register r _ => r = request
  | .fetching r _ token | .add r _ _ token => r = request ∨ .withdrawn token ∈ log
  | _ => True

/-- After a request that replaced its fetch, a loop seeks the page of that request. -/
def Newly (t : Pages V T P × List Event) : Prop :=
  ∀ j request, newest j t.2 = some request → ∃ l, t.1.loops.lookup j = some l ∧
    (l.requests.slot = none ∨ l.requests.slot = some request) ∧ LoopPc.Seeks t.2 request l.pc

variable {j : Nat} {request : PageRequest} {l l' : PageLoop T P}

omit [StringAny V] [InfiniteAny V T P] in
theorem LoopPc.Seeks.mono
    {pc : LoopPc T P} (h : LoopPc.Seeks log request pc) (es : List Event) :
  LoopPc.Seeks (log ++ es) request pc
  := by
  cases pc with
  | fetching | add => exact h.imp_right (List.mem_append_left es)
  | _ => exact h

omit [StringAny V] [InfiniteAny V T P] in
/-- A loop without its registration comes to no page that counts. -/
theorem seeks_of_withdrawn (h : Withdrawn log l) (request : PageRequest) :
  LoopPc.Seeks log request l.pc
  := by
  obtain ⟨token, htoken, hmem⟩ := h
  cases hpc : l.pc with
  | fetching | add =>
    rw [hpc] at htoken
    obtain rfl := Option.some.inj htoken
    right
    apply hmem
  | failed | deregister => trivial
  | _ =>
    rw [hpc] at htoken
    contradiction

/-- A loop that seeks the page of a request goes on to do so. -/
theorem seeks_step
    {fresh : Token} {now : Instant} {c c' : QueryClient V} {o : PageOutcome T}
    (h : l.Step fresh now c o c' l') (hseeks : LoopPc.Seeks log request l.pc)
    (hslot : l.requests.slot = none ∨ l.requests.slot = some request) :
  (l'.requests.slot = none ∨ l'.requests.slot = some request) ∧ LoopPc.Seeks log request l'.pc
  := by
  cases h with
  | fetchedInitial hpc | storeInitial hpc =>
    rw [hpc] at hseeks
    contradiction
  | receive hpc hreceive =>
    obtain ⟨-, ⟨r, hr, hnone, -, hgoto⟩ | ⟨hsame, -, -, hgoto⟩ | ⟨hsame, -, -, hgoto⟩⟩ :=
      PageLoop.received_cases hreceive
    · use .inl hnone
      rw [hgoto]
      obtain hslot | hslot := hslot
      · rw [hslot] at hr
        contradiction
      · apply Option.some.inj (hr.symm.trans hslot)
    all_goals
      rw [hgoto, hsame]
      exact ⟨hslot, trivial⟩
  | resume hpc hresume =>
    obtain ⟨w, t, -, rfl⟩ := PageRequests.resume_cases hresume
    exact ⟨hslot, trivial⟩
  | read hpc | ask hpc | answer hpc =>
    rw [hpc] at hseeks
    exact ⟨hslot, hseeks⟩
  | register hpc =>
    rw [hpc] at hseeks
    exact ⟨hslot, .inl hseeks⟩
  | fetched hpc =>
    rw [hpc] at hseeks
    exact ⟨hslot, hseeks⟩
  | rest hpc =>
    use hslot
    obtain rfl | rfl | rfl := hpc
    · exact hseeks
    · trivial
    · trivial
  | _ => exact ⟨hslot, trivial⟩

theorem newest_append (j : Nat) (log es : List Event) :
  newest j (log ++ es) = es.foldl (Event.newest j) (newest j log)
  := List.foldl_append

theorem newest_withdrawn (j : Nat) (log : List Event) (tokens : List Token) :
  newest j (log ++ tokens.map .withdrawn) = newest j log
  := by
  rw [newest_append]
  generalize newest j log = newest
  induction tokens with
  | nil => rfl
  | cons token tokens ih => rw [List.map_cons, List.foldl_cons, Event.newest, ih]

omit [InfiniteAny V T P] in
/-- A request to another loop is not the newest one of the loop. -/
theorem newest_requests_ne {i : Nat} (hne : i ≠ j) :
  newest j (log ++ s.requests a s' i) = newest j log
  := by
  rw [newest_append]
  unfold requests
  split
  · split
    · exact if_neg hne
    · split
      · rfl
      · exact if_neg hne
  · rfl

omit [InfiniteAny V T P] in
theorem newest_requests
    (hl : s.loops.lookup j = some l) (hl' : s'.loops.lookup j = some l') :
  newest j (log ++ s.requests a s' j) =
    match s.replacement j l a with
    | some request => some request
    | none => if l'.requests.slot = l.requests.slot then newest j log else none
  := by
  rw [newest_append, requests, hl, hl']
  dsimp only
  split
  · exact if_pos rfl
  · split
    · rfl
    · exact if_pos rfl

omit [InfiniteAny V T P] in
/-- Only a request to the loop changes its newest one. -/
theorem newest_events (ha : ¬ a.Requests j) :
  newest j (log ++ s.events a s') = newest j log
  := by
  cases a with
  | sys a =>
    cases a with
    | call call => apply newest_withdrawn
    | _ => exact congrArg _ (List.append_nil log)
  | request i r => rw [events, newest_requests_ne ha]
  | requestWith i cancelRefetch r =>
    rw [events, ← List.append_assoc, newest_requests_ne ha, newest_withdrawn]
  | _ => exact congrArg _ (List.append_nil log)

/-- A request that replaces the fetch of the loop removes its registration. -/
theorem replaced_step
    {r : PageRequest} (hl : s.loops.lookup j = some l) (hs : s.step a = some s')
    (hr : s.replacement j l a = some r) :
  (∃ cancelRefetch, a = .requestWith j cancelRefetch r) ∧
    s'.loops.lookup j = some (l.trySend r) ∧ Withdrawn (s.events a s') l
  := by
  cases a with
  | requestWith i cancelRefetch request =>
    cases cancelRefetch with
    | false => contradiction
    | true =>
      rw [replacement] at hr
      split at hr
      · next h =>
        obtain ⟨rfl, task, htask, htoken⟩ := h
        obtain rfl := Option.some.inj hr
        obtain ⟨l₀, hl₀, rfl⟩ := step_requestWith hs
        obtain rfl := Option.some.inj (hl.symm.trans hl₀)
        have hflight : s.sys.client.isInFlight l.query.key = true := by
          rw [QueryClient.isInFlight, Option.mem_def.mp htask]
          rfl
        have hfetch : fetchPageWith s.sys.client l true request =
            (s.sys.client.cancelQuery l.query.key, l.trySend request) := by
          rw [fetchPageWith, if_pos hflight, if_pos rfl]
        rw [hfetch]
        refine ⟨⟨true, rfl⟩, AList.lookup_insert _, task.cancelToken, htoken, ?_⟩
        apply List.mem_append_left
        apply List.mem_map_of_mem
        refine mem_removed.mpr ⟨_, task, htask, ?_, rfl⟩
        have hcancels : (Call.cancelQuery l.query.key).Cancels s.sys.now s.sys.client
            l.query.key.cacheKey := rfl
        apply (Call.inFlight_apply _ _ _ _).trans (if_pos hcancels)
      · contradiction
  | _ => contradiction

/-- A request to the loop makes it seek that page if it replaces its fetch. -/
theorem Newly.of_request
    (h : Newly (s, log)) (hok : Spares (s, log) a) (hs : s.step a = some s')
    (hrequests : a.Requests j) (hnewest : newest j (log ++ s.events a s') = some request) :
  ∃ l', s'.loops.lookup j = some l' ∧
    (l'.requests.slot = none ∨ l'.requests.slot = some request) ∧
      LoopPc.Seeks (log ++ s.events a s') request l'.pc
  := by
  have hadvances : ¬ a.Advances j := by
    cases a with
    | request | requestWith => exact id
    | _ => contradiction
  obtain ⟨l, hl⟩ : ∃ l, s.loops.lookup j = some l := by
    cases a with
    | request i r =>
      obtain ⟨l, hl, -⟩ := step_request hs
      exact ⟨l, hrequests ▸ hl⟩
    | requestWith i cancelRefetch r =>
      obtain ⟨l, hl, -⟩ := step_requestWith hs
      exact ⟨l, hrequests ▸ hl⟩
    | _ => contradiction
  obtain ⟨l', hl', hpc, -⟩ := loop_of_step hs hadvances hl
  have heq : newest j (log ++ s.events a s') =
      match s.replacement j l a with
      | some request => some request
      | none => if l'.requests.slot = l.requests.slot then newest j log else none := by
    cases a with
    | request i r =>
      obtain rfl : i = j := hrequests
      rw [events, newest_requests hl hl']
    | requestWith i cancelRefetch r =>
      obtain rfl : i = j := hrequests
      rw [events, ← List.append_assoc, newest_requests hl hl', newest_withdrawn]
    | _ => contradiction
  rw [heq] at hnewest
  refine ⟨l', hl', ?_⟩
  cases hr : s.replacement j l a with
  | some r =>
    rw [hr] at hnewest
    obtain rfl := Option.some.inj hnewest
    obtain ⟨-, hsent, hwithdrawn⟩ := replaced_step hl hs hr
    obtain rfl := Option.some.inj (hsent.symm.trans hl')
    constructor
    · right
      obtain hnone | hsome := (hok j l hl).2.2.2.2 r hr
      · simp [PageLoop.trySend, PageRequests.trySend, hnone]
      · simp [PageLoop.trySend, PageRequests.trySend, hsome]
    · apply seeks_of_withdrawn
      obtain ⟨token, htoken, hmem⟩ := hwithdrawn
      exact ⟨token, htoken, List.mem_append_right log hmem⟩
  | none =>
    rw [hr] at hnewest
    dsimp only at hnewest
    split at hnewest
    · next hsame =>
      obtain ⟨l₀, hl₀, hslot, hseeks⟩ := h j request hnewest
      obtain rfl := Option.some.inj (hl.symm.trans hl₀)
      rw [hsame, hpc]
      exact ⟨hslot, hseeks.mono _⟩
    · contradiction

/-- Every step keeps the loops seeking the pages that were asked for. -/
theorem Newly.step (h : Newly (s, log)) (hok : Spares (s, log) a) (hs : s.step a = some s') :
  Newly (s', log ++ s.events a s')
  := by
  intro j request hnewest
  by_cases hrequests : a.Requests j
  · apply h.of_request hok hs hrequests hnewest
  rw [newest_events hrequests] at hnewest
  obtain ⟨l, hl, hslot, hseeks⟩ := h j request hnewest
  by_cases ha : a.Advances j
  · cases a with
    | advance i o =>
      obtain rfl : i = j := ha
      obtain ⟨l₀, c, l', hl₀, hadvance, rfl⟩ := step_advance hs
      obtain rfl := Option.some.inj (hl.symm.trans hl₀)
      obtain ⟨hslot', hseeks'⟩ := seeks_step (PageLoop.step_of_advance hadvance) hseeks hslot
      exact ⟨l', AList.lookup_insert _, hslot', hseeks'.mono _⟩
    | _ => contradiction
  · obtain ⟨l', hl', hpc, -, hsame⟩ := loop_of_step hs ha hl
    rw [← hsame hrequests] at hslot
    rw [← hpc] at hseeks
    exact ⟨l', hl', hslot, hseeks.mono _⟩

/-- The pages after one was added. -/
theorem pagesOf_replacePages
    {c : QueryClient V} {d d' : InfiniteData T P} (now : Instant) (key : QueryKey)
    (h : c.pagesOf key = some d) :
  (c.replacePages now key d').pagesOf key = some d'
  := by
  obtain ⟨e, he, -⟩ := Option.bind_eq_some_iff.mp h
  rw [QueryClient.pagesOf, QueryClient.replacePages_lookup, if_pos rfl, he]
  exact InfiniteAny.asInfinite_eq_some_iff.mpr rfl

/-- A step of a loop that seeks the page of a request changes what is cached only by adding
that page. -/
theorem adds_of_seeks
    {fresh : Token} {now : Instant} {c c' : QueryClient V} {o : PageOutcome T}
    (h : l.Step fresh now c o c' l') (hseeks : LoopPc.Seeks log request l.pc)
    (hinert : Withdrawn log l → c'.cache = c.cache) (hcache : c'.cache ≠ c.cache) :
  ∃ param page token data, l.pc = .add request param page token ∧
    c.pagesOf l.query.key = some data ∧
    c'.pagesOf l.query.key = data.add page param l.query.maxPages request
  := by
  have hadd {r : PageRequest} {param : P} {page : T} {token : Token}
      (hpc : l.pc = .add r param page token) : r = request := by
    rw [hpc] at hseeks
    obtain hr | hmem := hseeks
    · exact hr
    · exact absurd (hinert ⟨token, by rw [hpc]; rfl, hmem⟩) hcache
  cases h with
  | storeInitial hpc =>
    rw [hpc] at hseeks
    contradiction
  | append hpc happend =>
    obtain rfl := hadd hpc
    unfold QueryClient.appendInfinitePage at happend
    split at happend
    · obtain ⟨rfl, -⟩ := Prod.mk.inj (Option.some.inj happend)
      contradiction
    · next data hdata =>
      split at happend
      · contradiction
      · next newData hnew =>
        obtain ⟨rfl, -⟩ := Prod.mk.inj (Option.some.inj happend)
        refine ⟨_, _, _, data, hpc, hdata, ?_⟩
        rw [pagesOf_replacePages now _ hdata]
        apply hnew.symm
  | prepend hpc =>
    obtain rfl := hadd hpc
    unfold QueryClient.prependInfinitePage at hcache ⊢
    split at hcache
    · contradiction
    · next data hdata =>
      exact ⟨_, _, _, data, hpc, hdata, pagesOf_replacePages now _ hdata⟩
  | notifyInitial hpc => exact absurd (c.notifySubscribers_frame _ _).1 hcache
  | notifyFailed hpc => exact absurd (c.notifySubscribers_frame _ _).1 hcache
  | _ => contradiction

/-! ### Every run -/

/-- In a run that spares them, page fetches without their registration are inert. -/
theorem cancelledInert_of_kept (hkept : Kept (s, log)) (hnewly : Newly (s, log)) :
  CancelledInert (s, log)
  := by
  constructor
  case signalled => exact fun token hmem => (hkept.signalled token hmem).2
  case inert => exact fun j l token hl htoken hmem o s' hs => hkept.inert hl htoken hmem hs
  case newly =>
    intro j l request hl hnewest o s' hs hcache
    obtain ⟨l₀, hl₀, -, hseeks⟩ := hnewly j request hnewest
    obtain rfl := Option.some.inj (hl.symm.trans hl₀)
    have hinert : Withdrawn log l → s'.sys.client.cache = s.sys.client.cache := by
      rintro ⟨token, htoken, hmem⟩
      apply (hkept.inert hl htoken hmem hs).1
    obtain ⟨l₁, c, l', hl₁, ha, rfl⟩ := step_advance hs
    obtain rfl := Option.some.inj (hl.symm.trans hl₁)
    apply adds_of_seeks (PageLoop.step_of_advance ha) hseeks hinert hcache

/-- Along every run that gives page fetches without their registration nothing to change,
such a fetch changes nothing that is cached and no registration but its own, and what a loop
adds after its fetch was replaced is the page that was asked for in its place. -/
theorem cancelledInert_of_run
    {t : Pages V T P × List Event} (h : (machine.noting events).Run Spares t) :
  CancelledInert t
  := by
  have hkept : Kept t ∧ Newly t := by
    apply h.invariant
    · rintro ⟨s, log⟩ ⟨rfl, rfl⟩
      use kept_initial
      intro j request hnewest
      contradiction
    · rintro ⟨s, log⟩ a ⟨s', log'⟩ _ ⟨hkept, hnewly⟩ hok hs
      obtain ⟨hs, hlog⟩ := Machine.step_noting hs
      obtain rfl : log' = log ++ s.events a s' := hlog
      refine ⟨?_, hnewly.step hok hs⟩
      by_cases ha : ∃ j, a.Advances j
      · obtain ⟨j, ha⟩ := ha
        cases a with
        | advance i o =>
          have hnil : s.events (.advance i o) s' = [] := rfl
          rw [hnil, List.append_nil]
          apply hkept.advance hok hs
        | _ => contradiction
      · rw [not_exists] at ha
        apply hkept.of_effect hok (effect_of_step hs ha)
  apply cancelledInert_of_kept hkept.1 hkept.2

/-- The loop of the query numbered by lengths fetches its first page, and then the next,
which is cancelled by a request that wants to be served at once. -/
def cancelledFetch : List (Action (String ⊕ InfiniteData String Nat) String Nat) :=
  [.spawn 0 lengthQuery, .advance 0 (.ready (.ok "a")), .advance 0 .next, .advance 0 .next,
    .request 0 .next, .advance 0 .next, .advance 0 .next, .advance 0 .next, .advance 0 .next,
    .advance 0 .next, .advance 0 .next, .requestWith 0 true .next]

/-- What the loop has cached after its next step, if it is about to add a page. -/
def added (s : Pages (String ⊕ InfiniteData String Nat) String Nat) : Option (List String) := do
  let l ← s.loops.lookup 0
  let s' ← if l.Adding then s.step (.advance 0 .next) else none
  (s'.sys.client.pagesOf (T := String) (P := Nat) lengthQuery.key).map InfiniteData.pages

/-- A cancelled fetch fails, and the page that was asked for in its place is about to be
added. -/
theorem cancelledInert_of_run_failed :
  ∃ t : Pages (String ⊕ InfiniteData String Nat) String Nat × List Event,
    (machine.noting events).Run Spares t ∧ t.2 = [.requested 0, .withdrawn 8, .replaced 0 .next] ∧
      added t.1 = some ["a", "bb"] ∧ CancelledInert t
  := by
  have init : (machine.noting events).init
      ((⟨.initial, ∅⟩, []) : Pages (String ⊕ InfiniteData String Nat) String Nat × List Event) :=
    ⟨rfl, rfl⟩
  have meets : (machine.noting events).Meets Spares (⟨.initial, ∅⟩, [])
      (cancelledFetch ++ [.advance 0 (.ready (.error (.network "down"))), .advance 0 .next,
        .advance 0 .next, .advance 0 .next, .advance 0 .next, .advance 0 .next, .advance 0 .next,
        .advance 0 .next, .advance 0 .next, .advance 0 (.ready (.ok "bb"))]) := by
    decide +kernel
  obtain ⟨t, hrun, hv⟩ := Machine.exists_run_of_exec _
    (fun t : Pages (String ⊕ InfiniteData String Nat) String Nat × List Event =>
      (t.2, added t.1))
    ([.requested 0, .withdrawn 8, .replaced 0 .next], some ["a", "bb"]) init meets
    (by decide +kernel)
  obtain ⟨hlog, hadded⟩ := Prod.mk.inj hv
  exact ⟨t, hrun, hlog, hadded, cancelledInert_of_run hrun⟩

/-- The token of the fetch of the first loop, if its registration was removed. -/
def firstWithdrawn (t : Pages (String ⊕ InfiniteData String Nat) String Nat × List Event) :
    Option Token :=
  ((t.1.loops.lookup 0).bind fun l => l.pc.token).filter (.withdrawn · ∈ t.2)

/-- A cancelled fetch that returns a page has it appended. -/
theorem not_cancelledInert_returned :
  ¬ ∀ t : Pages (String ⊕ InfiniteData String Nat) String Nat × List Event,
    (machine.noting events).Reachable t → CancelledInert t
  := by
  intro h
  have init : (machine.noting events).init
      ((⟨.initial, ∅⟩, []) : Pages (String ⊕ InfiniteData String Nat) String Nat × List Event) :=
    ⟨rfl, rfl⟩
  let numbers (s : Pages (String ⊕ InfiniteData String Nat) String Nat) : Option (List Nat) :=
    (s.sys.client.pagesOf (T := String) lengthQuery.key).map InfiniteData.pageParams
  obtain ⟨t, ht, hv⟩ := Machine.exists_reachable_of_exec
    (cancelledFetch ++ [.advance 0 (.ready (.ok "bb"))])
    (fun t => (firstWithdrawn t, numbers t.1, (t.1.step (.advance 0 .next)).map numbers))
    (some 8, some [1], some (some [1, 2])) init (by decide +kernel)
  obtain ⟨hwithdrawn, hv⟩ := Prod.mk.inj hv
  obtain ⟨hbefore, hafter⟩ := Prod.mk.inj hv
  obtain ⟨htoken, hmem⟩ := Option.filter_eq_some_iff.mp hwithdrawn
  obtain ⟨l, hl, htoken⟩ := Option.bind_eq_some_iff.mp htoken
  obtain ⟨s', hs', hafter⟩ := Option.map_eq_some_iff.mp hafter
  obtain ⟨hcache, -⟩ := (h t ht).inert 0 l 8 hl htoken (of_decide_eq_true hmem) .next s' hs'
  have hsame : numbers s' = numbers t.1 := by
    simp only [numbers, QueryClient.pagesOf, hcache]
  rw [hsame, hbefore] at hafter
  revert hafter
  decide

end Pages

end RsQuery
