import RsQuery.Calls
import RsQuery.Infinite

/-!
# What is kept of an entry

Only a write of data for its key changes the data, type, options or date of an entry.
Everything else leaves the entry, marks it stale or removes it, so an entry that is stale
stays stale until it is written or removed: `Pages.sticky_of_run`.
-/

namespace RsQuery

variable {V : Type}

/-- The entry `e'` is the entry `e`, stale if `e` was. -/
structure CacheEntry.Retains (e e' : CacheEntry V) : Prop where
  data : e'.data = e.data
  typeId : e'.typeId = e.typeId
  fetchedAt : e'.fetchedAt = e.fetchedAt
  options : e'.options = e.options
  isStale : e.isStale = true → e'.isStale = true

/-- A stale entry that is retained is stale at every later time. -/
theorem CacheEntry.Retains.entryIsStale {e e' : CacheEntry V} {now now' : Instant}
    (h : e.Retains e') (hnow : now ≤ now') (he : QueryClient.entryIsStale now e = true) :
  QueryClient.entryIsStale now' e' = true
  := by
  simp only [QueryClient.entryIsStale, Bool.or_eq_true, decide_eq_true_eq, h.options,
    h.fetchedAt] at he ⊢
  obtain ⟨hne, hage⟩ | hflag := he
  · left
    use hne
    simp only [Instant.elapsed] at hage ⊢
    dsimp only [Instant, Duration] at *
    omega
  · right
    apply h.isStale hflag

/-- An entry that is there afterwards was there before. -/
def Retained (x x' : Option (CacheEntry V)) : Prop :=
  ∀ e' ∈ x', ∃ e ∈ x, e.Retains e'

namespace Retained

variable {x x' x'' : Option (CacheEntry V)}

theorem refl (x : Option (CacheEntry V)) :
  Retained x x
  := fun e he => ⟨e, he, ⟨rfl, rfl, rfl, rfl, id⟩⟩

theorem of_eq (h : x' = x) :
  Retained x x'
  := by
  rw [h]
  apply refl

theorem trans (h : Retained x x') (h' : Retained x' x'') :
  Retained x x''
  := by
  intro e'' he''
  obtain ⟨e', he', hr'⟩ := h' e'' he''
  obtain ⟨e, he, hr⟩ := h e' he'
  exact ⟨e, he,
    { data := hr'.data.trans hr.data
      typeId := hr'.typeId.trans hr.typeId
      fetchedAt := hr'.fetchedAt.trans hr.fetchedAt
      options := hr'.options.trans hr.options
      isStale := hr'.isStale ∘ hr.isStale }⟩

theorem markStale (x : Option (CacheEntry V)) :
  Retained x (x.map fun e => { e with isStale := true })
  := by
  intro e' he'
  obtain ⟨e, he, rfl⟩ := Option.mem_map.mp he'
  exact ⟨e, he, ⟨rfl, rfl, rfl, rfl, fun _ => rfl⟩⟩

end Retained

/-- An entry that is there afterwards was there before, but for its stale flag, which can
only be set. -/
def OnlyFlagged (x x' : Option (CacheEntry V)) : Prop :=
  ∀ e' ∈ x', ∃ e ∈ x, e' = e ∨ e' = { e with isStale := true }

namespace OnlyFlagged

variable {x x' x'' : Option (CacheEntry V)}

theorem refl (x : Option (CacheEntry V)) :
  OnlyFlagged x x
  := fun e he => ⟨e, he, .inl rfl⟩

theorem of_none (x : Option (CacheEntry V)) :
  OnlyFlagged x none
  := by
  intro e he
  contradiction

theorem markStale (x : Option (CacheEntry V)) :
  OnlyFlagged x (x.map fun e => { e with isStale := true })
  := by
  intro e' he'
  obtain ⟨e, he, rfl⟩ := Option.mem_map.mp he'
  exact ⟨e, he, .inr rfl⟩

theorem filter (x : Option (CacheEntry V)) (p : CacheEntry V → Bool) :
  OnlyFlagged x (x.filter p)
  := by
  intro e he
  exact ⟨e, (Option.mem_filter_iff.mp he).1, .inl rfl⟩

theorem trans (h : OnlyFlagged x x') (h' : OnlyFlagged x' x'') :
  OnlyFlagged x x''
  := by
  intro e'' he''
  obtain ⟨e', he', rfl | rfl⟩ := h' e'' he''
  · apply h e'' he'
  · obtain ⟨e, he, rfl | rfl⟩ := h e' he'
    · exact ⟨e', he, .inr rfl⟩
    · exact ⟨e, he, .inr rfl⟩

theorem retained (h : OnlyFlagged x x') :
  Retained x x'
  := by
  intro e' he'
  obtain ⟨e, he, rfl | rfl⟩ := h e' he'
  · exact ⟨e', he, ⟨rfl, rfl, rfl, rfl, id⟩⟩
  · exact ⟨e, he, ⟨rfl, rfl, rfl, rfl, fun _ => rfl⟩⟩

end OnlyFlagged

/-! ### Calls -/

namespace Slot

variable (x : Slot V) (k : String)

theorem onlyFlagged_invalidate :
  OnlyFlagged x.entry (x.invalidate k).entry
  := by
  unfold invalidate
  split
  · apply OnlyFlagged.markStale
  · apply OnlyFlagged.refl

theorem onlyFlagged_cancel :
  OnlyFlagged x.entry (x.cancel k).entry
  := by
  unfold cancel
  split
  · apply OnlyFlagged.refl
  · apply OnlyFlagged.refl

theorem onlyFlagged_refetch (cancelRefetch isStale : Bool) :
  OnlyFlagged x.entry (x.refetch cancelRefetch isStale k).entry
  := by
  unfold refetch
  split
  · apply OnlyFlagged.refl
  · split
    · apply OnlyFlagged.refl
    · split
      · apply OnlyFlagged.markStale
      · apply OnlyFlagged.markStale

theorem onlyFlagged_refresh (allows : CacheEntry V → Bool) :
  OnlyFlagged x.entry (x.refresh allows k).entry
  := by
  unfold refresh
  split
  · split
    · apply OnlyFlagged.markStale
    · apply OnlyFlagged.refl
  · apply OnlyFlagged.refl

end Slot

/-- The call writes data for the cache key. -/
def Call.Writes (call : Call V) (k : String) : Prop :=
  match call with
  | .setQueryData key _ _ => key.cacheKey = k
  | _ => False

instance (call : Call V) (k : String) : Decidable (call.Writes k) := by
  unfold Call.Writes
  rcases call with _ | _ <;> infer_instance

/-- A call that does not write leaves of an entry nothing or all but its stale flag. -/
theorem Call.onlyFlagged_apply [PartialEqAny V] (call : Call V) (now : Instant) (c : QueryClient V)
    {k : String} (h : ¬ call.Writes k) :
  OnlyFlagged (c.cache.lookup k) ((call.apply now c).cache.lookup k)
  := by
  have hslot := congrArg Slot.entry (call.slot_apply now c k)
  have hentry : (c.slot k).entry = c.cache.lookup k := rfl
  have hentry' : ((call.apply now c).slot k).entry = (call.apply now c).cache.lookup k := rfl
  rw [← hentry, ← hentry', hslot]
  cases call with
  | setQueryData key data options =>
    have hne : k ≠ key.cacheKey := fun heq => h heq.symm
    rw [onSlot, if_neg hne]
    apply OnlyFlagged.refl
  | invalidateQueries pattern =>
    rw [onSlot]
    split
    · apply Slot.onlyFlagged_invalidate
    · apply OnlyFlagged.refl
  | cancelQuery key =>
    rw [onSlot]
    split
    · apply Slot.onlyFlagged_cancel
    · apply OnlyFlagged.refl
  | clear => apply OnlyFlagged.of_none
  | gc => apply OnlyFlagged.filter
  | cancelQueries filters =>
    rw [onSlot]
    split
    · apply Slot.onlyFlagged_cancel
    · apply OnlyFlagged.refl
  | resetQueries filters =>
    rw [onSlot]
    split
    · apply OnlyFlagged.of_none
    · apply OnlyFlagged.refl
  | removeQueries filters =>
    rw [onSlot]
    split
    · apply OnlyFlagged.of_none
    · apply OnlyFlagged.refl
  | invalidateQueriesFiltered filters =>
    rw [onSlot]
    split
    · split
      · apply (OnlyFlagged.markStale _).trans (OnlyFlagged.markStale _)
      · apply OnlyFlagged.markStale
    · apply OnlyFlagged.refl
  | refetchQueries filters opts =>
    rw [onSlot]
    split
    · apply Slot.onlyFlagged_refetch
    · apply OnlyFlagged.refl
  | refetchAllStale => apply Slot.onlyFlagged_refresh
  | handleReconnect => apply Slot.onlyFlagged_refresh
  | subscribe cacheKey =>
    rw [onSlot]
    split
    · apply OnlyFlagged.refl
    · apply OnlyFlagged.refl
  | notifySubscribers cacheKey variant =>
    rw [onSlot]
    split
    · apply OnlyFlagged.refl
    · apply OnlyFlagged.refl
  | setDefaultOptions options => apply OnlyFlagged.refl
  | setIsRestoring restoring => apply OnlyFlagged.refl
  | setOnline online => apply OnlyFlagged.refl

/-- A call that does not write keeps what it leaves of an entry. -/
theorem Call.retained_apply [PartialEqAny V] (call : Call V) (now : Instant) (c : QueryClient V)
    {k : String} (h : ¬ call.Writes k) :
  Retained (c.cache.lookup k) ((call.apply now c).cache.lookup k)
  := (call.onlyFlagged_apply now c h).retained

/-! ### Executions -/

namespace Sys

variable [PartialEqAny V] {s s' : Sys V} {k : String}

/-- The step writes data for the cache key: an execution stores what it fetched, or a call
sets the data. -/
def Writes (s : Sys V) (k : String) : Action V → Prop
  | .advance i _ => ∃ r ∈ s.runs.lookup i,
    (r.pc matches .fetch (.selected _)) ∧ r.query.key.cacheKey = k
  | .call call => call.Writes k
  | _ => False

instance (s : Sys V) (k : String) (a : Action V) : Decidable (s.Writes k a) := by
  unfold Writes
  rcases a with _ | _ <;> infer_instance

/-- A step of an execution that does not write for the key keeps what it leaves of the
entry. -/
theorem retained_advance {i : Nat} {o : Outcome V} (h : ¬ s.Writes k (.advance i o))
    (hs : s.step (.advance i o) = some s') :
  Retained (s.client.cache.lookup k) (s'.client.cache.lookup k)
  := by
  obtain ⟨r, c, pc, hr, ha, rfl⟩ := step_advance hs
  obtain ⟨data, hpc, rfl, -⟩ | ⟨-, hcache⟩ := Run.advance_stores ha
  · have hne : k ≠ r.query.key.cacheKey := by
      rintro rfl
      apply h
      exact ⟨r, hr, by rw [hpc], rfl⟩
    apply Retained.of_eq
    apply AList.lookup_insert_ne hne
  · apply Retained.of_eq
    dsimp only
    rw [hcache]

/-- A step that does not write for the key keeps what it leaves of the entry. -/
theorem retained_step {a : Action V} (h : ¬ s.Writes k a) (hs : s.step a = some s') :
  Retained (s.client.cache.lookup k) (s'.client.cache.lookup k)
  := by
  cases a with
  | spawn query =>
    obtain rfl := Option.some.inj hs
    rw [cache_spawn]
    apply Retained.refl
  | register i =>
    obtain ⟨r, -, -, -, rfl⟩ := step_register hs
    apply Retained.refl
  | execute query =>
    obtain rfl := Option.some.inj hs
    apply Retained.refl
  | advance i o => apply retained_advance h hs
  | abort i =>
    obtain ⟨r, -, -, -, rfl⟩ := step_abort hs
    apply Retained.refl
  | detach i =>
    obtain ⟨r, -, -, rfl⟩ := step_detach hs
    apply Retained.refl
  | drop i =>
    obtain ⟨r, -, -, -, rfl⟩ := step_drop hs
    split
    · apply Retained.refl
    · apply Retained.refl
  | dropFuture i =>
    obtain ⟨r, c, -, -, hc, rfl⟩ := step_dropFuture hs
    apply Retained.of_eq
    dsimp only
    rw [cache_dropFuture hc]
  | cancelToken i =>
    obtain ⟨r, -, -, rfl⟩ := step_cancelToken hs
    apply Retained.refl
  | call call =>
    obtain rfl := Option.some.inj hs
    apply call.retained_apply _ _ h
  | tick n =>
    obtain rfl := Option.some.inj hs
    apply Retained.refl

end Sys

/-! ### Infinite queries, hydration and restoring -/

variable {T P : Type} [StringAny V] [InfiniteAny V T P]

namespace QueryClient

variable {c : QueryClient V} {now : Instant} {key : QueryKey} {k : String}

/-- Pages are replaced in the entry of their key only. -/
theorem replacePages_lookup (c : QueryClient V) (now : Instant) (key : QueryKey)
    (d : InfiniteData T P) (k : String) :
  (c.replacePages now key d).cache.lookup k =
    if k = key.cacheKey then
      (c.cache.lookup k).map fun e =>
        { e with
          data := ofInfinite d
          fetchedAt := now
          lastAccessed := now }
    else c.cache.lookup k
  := by
  unfold replacePages
  rw [(notifySubscribers_frame _ _ _).1, Table.lookup_adjust]

theorem appendInfinitePage_lookup_of_ne
    {page : T} {pageParam : P} {maxPages : Option Nat}
    {result : QueryClient V × Option (InfiniteData T P)} (hk : k ≠ key.cacheKey)
    (h : c.appendInfinitePage now key page pageParam maxPages = some result) :
  result.1.cache.lookup k = c.cache.lookup k
  := by
  unfold appendInfinitePage at h
  split at h
  · rw [← Option.some.inj h]
  · split at h
    · contradiction
    · rw [← Option.some.inj h]
      dsimp only
      rw [replacePages_lookup, if_neg hk]

theorem prependInfinitePage_lookup_of_ne
    (c : QueryClient V) (now : Instant) {page : T} {pageParam : P} {maxPages : Option Nat}
    (hk : k ≠ key.cacheKey) :
  (c.prependInfinitePage now key page pageParam maxPages).1.cache.lookup k = c.cache.lookup k
  := by
  unfold prependInfinitePage
  split
  · rfl
  · dsimp only
    rw [replacePages_lookup, if_neg hk]

end QueryClient

theorem QueryPersister.applyRestoredData_lookup_of_ne
    (options : QueryPersisterOptions) (c : QueryClient V) (wall : SystemTime) (now : Instant)
    {key : QueryKey} (data : V) (dataUpdatedAtMs : Option Nat) {k : String}
    (hk : k ≠ key.cacheKey) :
  (applyRestoredData options c wall now key data dataUpdatedAtMs).cache.lookup k =
    c.cache.lookup k
  := by
  have hset : (c.setQueryData now key data { staleTime := options.staleTime.getD 0 }).cache.lookup k
      = c.cache.lookup k := by
    rw [QueryClient.setQueryData_cache, AList.lookup_insert_ne hk]
  rw [applyRestoredData_eq]
  split
  · rw [QueryClient.markStale, Table.lookup_adjust, if_neg hk, hset]
  · apply hset

namespace PageLoop

/-- The loop is about to store or add a page. -/
def Writing (l : PageLoop T P) : Prop :=
  match l.pc with
  | .storeInitial _ | .add .. => True
  | _ => False

instance (l : PageLoop T P) : Decidable l.Writing := by
  unfold Writing
  split
  all_goals infer_instance

variable {l l' : PageLoop T P} {c c' : QueryClient V} {now : Instant} {fresh : Token}
  {o : PageOutcome T} {k : String}

/-- A step of a loop that does not store or add a page for the key leaves the entry as it
is. -/
theorem advance_lookup (h : l.advance fresh now c o = some (c', l'))
    (hl : l.Writing → l.query.key.cacheKey ≠ k) :
  c'.cache.lookup k = c.cache.lookup k
  := by
  have hne (hw : l.Writing) : k ≠ l.query.key.cacheKey := fun heq => hl hw heq.symm
  cases step_of_advance h with
  | storeInitial hpc => apply AList.lookup_insert_ne (hne (by rw [Writing, hpc]; trivial))
  | append hpc happend =>
    apply QueryClient.appendInfinitePage_lookup_of_ne (hne (by rw [Writing, hpc]; trivial)) happend
  | prepend hpc =>
    apply QueryClient.prependInfinitePage_lookup_of_ne _ _ (hne (by rw [Writing, hpc]; trivial))
  | notifyInitial hpc => rw [(c.notifySubscribers_frame _ _).1]
  | notifyFailed hpc => rw [(c.notifySubscribers_frame _ _).1]
  | _ => rfl

end PageLoop

namespace Pages

variable {s s' : Pages V T P} {k : String}

/-- The step writes data for the cache key. -/
def Writes (s : Pages V T P) (k : String) : Action V T P → Prop
  | .sys a => s.sys.Writes k a
  | .advance j _ => ∃ l ∈ s.loops.lookup j, l.Writing ∧ l.query.key.cacheKey = k
  | .append key _ _ _ | .prepend key _ _ _ | .restore _ _ key _ _ => key.cacheKey = k
  | .hydrate _ state _ => k ∈ state.queries.map (·.queryHash)
  | _ => False

instance (s : Pages V T P) (k : String) (a : Action V T P) : Decidable (s.Writes k a) := by
  unfold Writes
  rcases a with _ | _ <;> infer_instance

/-- A step that does not write for the key keeps what it leaves of the entry. -/
theorem retained_step {a : Action V T P} (h : ¬ s.Writes k a) (hs : s.step a = some s') :
  Retained (s.sys.client.cache.lookup k) (s'.sys.client.cache.lookup k)
  := by
  cases a with
  | sys a => apply Sys.retained_step h (step_sys hs).1
  | spawn j query =>
    obtain ⟨-, rfl⟩ := step_spawn hs
    apply Retained.refl
  | request j request =>
    obtain ⟨l, -, rfl⟩ := step_request hs
    apply Retained.refl
  | requestWith j cancelRefetch request =>
    obtain ⟨l, -, rfl⟩ := step_requestWith hs
    obtain hc | hc := fetchPageWith_client s.sys.client l cancelRefetch request
    · apply Retained.of_eq
      rw [setClient, setLoop, hc]
    · simp only [setClient, setLoop, hc]
      apply (Call.cancelQuery l.query.key).retained_apply s.sys.now _ id
  | dropObserver j =>
    obtain ⟨l, requests, -, -, rfl⟩ := step_dropObserver hs
    apply Retained.refl
  | advance j o =>
    obtain ⟨l, c, l', hl, ha, rfl⟩ := step_advance hs
    apply Retained.of_eq
    apply PageLoop.advance_lookup ha
    rintro hw heq
    apply h ⟨l, hl, hw, heq⟩
  | append key page pageParam maxPages =>
    have hne : k ≠ key.cacheKey := fun heq => h heq.symm
    simp only [step] at hs
    split at hs
    · next c d happend =>
      obtain rfl := Option.some.inj hs
      apply Retained.of_eq
      apply QueryClient.appendInfinitePage_lookup_of_ne hne happend
    · obtain rfl := Option.some.inj hs
      apply Retained.refl
  | prepend key page pageParam maxPages =>
    have hne : k ≠ key.cacheKey := fun heq => h heq.symm
    obtain rfl := Option.some.inj hs
    apply Retained.of_eq
    apply QueryClient.prependInfinitePage_lookup_of_ne _ _ hne
  | hydrate serde state options =>
    obtain rfl := Option.some.inj hs
    apply Retained.of_eq
    apply QueryClient.hydrate_lookup_of_not_mem serde h
  | restore options wall key data dataUpdatedAtMs =>
    obtain rfl := Option.some.inj hs
    apply Retained.of_eq
    apply QueryPersister.applyRestoredData_lookup_of_ne
    exact fun heq => h heq.symm

theorem now_le_of_step {a : Action V T P} (hs : s.step a = some s') :
  s.sys.now ≤ s'.sys.now
  := by
  cases a with
  | sys a => apply Sys.now_le_of_step (step_sys hs).1
  | spawn j query =>
    obtain ⟨-, rfl⟩ := step_spawn hs
    apply Nat.le_refl
  | request j request =>
    obtain ⟨l, -, rfl⟩ := step_request hs
    apply Nat.le_refl
  | requestWith j cancelRefetch request =>
    obtain ⟨l, -, rfl⟩ := step_requestWith hs
    apply Nat.le_refl
  | dropObserver j =>
    obtain ⟨l, requests, -, -, rfl⟩ := step_dropObserver hs
    apply Nat.le_refl
  | advance j o =>
    obtain ⟨l, c, l', -, -, rfl⟩ := step_advance hs
    apply Nat.le_refl
  | append key page pageParam maxPages =>
    simp only [step] at hs
    split at hs
    · obtain rfl := Option.some.inj hs
      apply Nat.le_refl
    · obtain rfl := Option.some.inj hs
      apply Nat.le_refl
  | prepend key page pageParam maxPages =>
    obtain rfl := Option.some.inj hs
    apply Nat.le_refl
  | hydrate serde state options =>
    obtain rfl := Option.some.inj hs
    apply Nat.le_refl
  | restore options wall key data dataUpdatedAtMs =>
    obtain rfl := Option.some.inj hs
    apply Nat.le_refl

/-- The runs that start at a state. -/
def machineFrom (s₀ : Pages V T P) : Machine (Pages V T P) (Action V T P) :=
  ⟨fun s => s = s₀, step⟩

/-- Along every run whose steps do not write for a key, an entry of the key that is there
is the one there was, and stale if that was. -/
theorem sticky_of_run
    {s₀ : Pages V T P} (key : QueryKey)
    (h : (machineFrom s₀).Run (fun s a => ¬ s.Writes key.cacheKey a) s)
    {e e' : CacheEntry V} (he : s₀.sys.client.cache.lookup key.cacheKey = some e)
    (he' : s.sys.client.cache.lookup key.cacheKey = some e') :
  e'.data = e.data ∧ e'.typeId = e.typeId ∧ e'.fetchedAt = e.fetchedAt ∧
    e'.options = e.options ∧
    (s₀.sys.client.isStale s₀.sys.now key = true → s.sys.client.isStale s.sys.now key = true)
  := by
  have hkept : Retained (s₀.sys.client.cache.lookup key.cacheKey)
      (s.sys.client.cache.lookup key.cacheKey) ∧ s₀.sys.now ≤ s.sys.now := by
    apply h.invariant
    · rintro s rfl
      exact ⟨Retained.refl _, Nat.le_refl _⟩
    · rintro s a s' - ⟨hr, hn⟩ hok hs
      exact ⟨hr.trans (retained_step hok hs), Nat.le_trans hn (now_le_of_step hs)⟩
  obtain ⟨hretained, hnow⟩ := hkept
  obtain ⟨e₀, he₀, hr⟩ := hretained e' he'
  obtain rfl := Option.some.inj (he.symm.trans he₀)
  use hr.data, hr.typeId, hr.fetchedAt, hr.options
  simp only [QueryClient.isStale, he, he']
  apply hr.entryIsStale hnow

/-- A client that has fetched a user, fresh for a minute. -/
def userFetched : Pages (String ⊕ InfiniteData String Nat) String Nat where
  sys :=
    { Sys.initial with
      client := QueryClient.new.setQueryData 0 (.new "user") (.inl "ada")
        { staleTime := Duration.fromSecs 60 } }
  loops := ∅

/-- An invalidated user stays stale while others are fetched and time passes. -/
theorem sticky_of_run_user :
  ∃ s e e',
    (machineFrom userFetched).Run (fun s a => ¬ s.Writes "user" a) s ∧
    userFetched.sys.client.cache.lookup "user" = some e ∧
    s.sys.client.cache.lookup "user" = some e' ∧
    e'.data = e.data ∧ e'.typeId = e.typeId ∧ e'.fetchedAt = e.fetchedAt ∧
    e'.options = e.options ∧
    (userFetched.sys.client.isStale userFetched.sys.now (.new "user") = true →
      s.sys.client.isStale s.sys.now (.new "user") = true)
  := by
  have meets : (machineFrom userFetched).Meets (fun s a => ¬ s.Writes "user" a) userFetched
      [.sys (.call (.invalidateQueries (.new "user"))),
        .sys (.call (.setQueryData (.new "other") (.inl "grace") {})),
        .sys (.call .refetchAllStale), .sys (.tick 5)] := by
    decide +kernel
  obtain ⟨s, hrun, hv⟩ := Machine.exists_run_of_exec _
    (fun s : Pages (String ⊕ InfiniteData String Nat) String Nat =>
      (s.sys.client.cache.lookup "user").isSome) true rfl meets (by decide +kernel)
  obtain ⟨e', he'⟩ := Option.isSome_iff_exists.mp hv
  have hcached : (userFetched.sys.client.cache.lookup "user").isSome = true := by
    decide +kernel
  obtain ⟨e, he⟩ := Option.isSome_iff_exists.mp hcached
  exact ⟨s, e, e', hrun, he, he', sticky_of_run (.new "user") hrun he he'⟩

end Pages

end RsQuery
