import RsQuery.Retention

/-!
# What a step does to an entry

Executions, infinite loops, hydration, restores and the calls of other threads change the
entry of a key in one of four ways: they leave or remove it, mark it stale, store an entry
that `set_query_data` has made, or replace the pages in it.  The last two date it.

An entry carries the type of its data beside the data, which is erased.  None of the ways
parts the two, although pages are replaced without a look at the type:
`Pages.typed_of_reachable`.
-/

namespace RsQuery

variable {V T P : Type} [StringAny V] [InfiniteAny V T P]

/-- How the entry comes about that is there after a step, which may have written for the
key. -/
inductive EntryStep (T P : Type) [InfiniteAny V T P] (now : Instant) (written : Prop)
    (x : Option (CacheEntry V)) : CacheEntry V → Prop where
  | kept {e : CacheEntry V} : e ∈ x → EntryStep T P now written x e
  | flagged {e : CacheEntry V} : e ∈ x → EntryStep T P now written x { e with isStale := true }
  | stored (c : QueryClient V) (key : QueryKey) (data : V) (options : QueryOptions)
      (fetchedAt : Instant) (isStale : Bool) : written →
      EntryStep T P now written x
        { c.newEntry now key data options with
          fetchedAt := fetchedAt
          isStale := isStale }
  | paged {e : CacheEntry V} {d₀ : InfiniteData T P} (d : InfiniteData T P) : written → e ∈ x →
      asInfinite e.data = some d₀ →
      EntryStep T P now written x
        { e with
          data := ofInfinite d
          fetchedAt := now
          lastAccessed := now }

variable (T P) in
/-- How what is there after a step comes about. -/
def EntrySteps (now : Instant) (written : Prop) (x x' : Option (CacheEntry V)) : Prop :=
  ∀ e' ∈ x', EntryStep T P now written x e'

namespace EntrySteps

variable {now : Instant} {written : Prop} {x x' : Option (CacheEntry V)}

theorem of_onlyFlagged (h : OnlyFlagged x x') :
  EntrySteps T P now written x x'
  := by
  intro e' he'
  obtain ⟨e, he, rfl | rfl⟩ := h e' he'
  · exact .kept he
  · exact .flagged he

theorem of_eq (h : x' = x) :
  EntrySteps T P now written x x'
  := by
  rw [h]
  apply of_onlyFlagged (OnlyFlagged.refl x)

theorem mono {written' : Prop} (h : EntrySteps T P now written x x') (hw : written → written') :
  EntrySteps T P now written' x x'
  := by
  intro e' he'
  cases h e' he' with
  | kept he => exact .kept he
  | flagged he => exact .flagged he
  | stored c key data options fetchedAt isStale hwritten =>
    exact .stored c key data options fetchedAt isStale (hw hwritten)
  | paged d hwritten he hd => exact .paged d (hw hwritten) he hd

end EntrySteps

namespace QueryClient

variable {c : QueryClient V} {now : Instant} {key : QueryKey} {written : Prop} {k : String}

/-- `set_query_data` stores an entry of its own. -/
theorem entrySteps_setQueryData
    (c : QueryClient V) (now : Instant) {key : QueryKey} (data : V) (options : QueryOptions)
    (h : key.cacheKey = k → written) :
  EntrySteps T P now written (c.cache.lookup k)
    ((c.setQueryData now key data options).cache.lookup k)
  := by
  rw [setQueryData_cache, Table.lookup_insert_eq]
  split
  · next hk =>
    intro e' he'
    obtain rfl := Option.some.inj he'
    exact .stored c key data options now false (h hk.symm)
  · apply EntrySteps.of_eq rfl

theorem entrySteps_storeQueryData
    (c : QueryClient V) (now : Instant) {key : QueryKey} (data : V) (options : QueryOptions)
    (h : key.cacheKey = k → written) :
  EntrySteps T P now written (c.cache.lookup k)
    ((c.storeQueryData now key data options).cache.lookup k)
  := by
  have hset := entrySteps_setQueryData (T := T) (P := P) c now data options h
  rwa [setQueryData, (notifySubscribers_frame _ _ _).1] at hset

theorem entrySteps_replacePages
    {d₀ : InfiniteData T P} (hd : c.pagesOf key = some d₀) (d : InfiniteData T P)
    (h : key.cacheKey = k → written) :
  EntrySteps T P now written (c.cache.lookup k) ((c.replacePages now key d).cache.lookup k)
  := by
  rw [replacePages_lookup]
  split
  · next hk =>
    obtain ⟨e, he, hd⟩ := Option.bind_eq_some_iff.mp hd
    rw [← hk] at he
    intro e' he'
    rw [he] at he'
    obtain rfl := Option.some.inj he'
    exact .paged d (h hk.symm) he hd
  · apply EntrySteps.of_eq rfl

theorem entrySteps_appendInfinitePage
    {page : T} {pageParam : P} {maxPages : Option Nat}
    {result : QueryClient V × Option (InfiniteData T P)} (h : key.cacheKey = k → written)
    (happend : c.appendInfinitePage now key page pageParam maxPages = some result) :
  EntrySteps T P now written (c.cache.lookup k) (result.1.cache.lookup k)
  := by
  unfold appendInfinitePage at happend
  split at happend
  · rw [← Option.some.inj happend]
    apply EntrySteps.of_eq rfl
  · next hd =>
    split at happend
    · contradiction
    · rw [← Option.some.inj happend]
      apply entrySteps_replacePages hd _ h

theorem entrySteps_prependInfinitePage
    (page : T) (pageParam : P) (maxPages : Option Nat) (h : key.cacheKey = k → written) :
  EntrySteps T P now written (c.cache.lookup k)
    ((c.prependInfinitePage now key page pageParam maxPages).1.cache.lookup k)
  := by
  unfold prependInfinitePage
  split
  · apply EntrySteps.of_eq rfl
  · next hd => apply entrySteps_replacePages hd _ h

theorem entrySteps_hydrate
    (serde : Option SerdeJson) (state : DehydratedState) (options : HydrateOptions)
    (h : k ∈ state.queries.map (·.queryHash) → written) :
  EntrySteps T P now written (c.cache.lookup k)
    ((c.hydrate serde now state options).cache.lookup k)
  := by
  by_cases hk : k ∈ state.queries.map (·.queryHash)
  · let Steps (c' : QueryClient V) :=
      EntrySteps T P now written (c.cache.lookup k) (c'.cache.lookup k)
    apply List.foldlRecOn state.queries _ (motive := Steps) (EntrySteps.of_eq rfl)
    intro c' ih q _ e' he'
    rw [hydrateQuery_lookup] at he'
    split at he'
    · obtain rfl := Option.some.inj he'
      exact .stored _ _ _ _ _ _ (h hk)
    · apply ih e' he'
  · apply EntrySteps.of_eq (hydrate_lookup_of_not_mem serde hk)

end QueryClient

theorem QueryPersister.entrySteps_applyRestoredData
    (options : QueryPersisterOptions) (c : QueryClient V) (wall : SystemTime) (now : Instant)
    {key : QueryKey} (data : V) (dataUpdatedAtMs : Option Nat) {written : Prop} {k : String}
    (h : key.cacheKey = k → written) :
  EntrySteps T P now written (c.cache.lookup k)
    ((applyRestoredData options c wall now key data dataUpdatedAtMs).cache.lookup k)
  := by
  rw [applyRestoredData_eq]
  split
  · rw [QueryClient.markStale, Table.lookup_adjust, QueryClient.setQueryData_cache,
      Table.lookup_insert_eq]
    split
    · next hk =>
      intro e' he'
      obtain rfl := Option.some.inj he'
      exact .stored c key data { staleTime := options.staleTime.getD 0 } now true (h hk.symm)
    · apply EntrySteps.of_eq rfl
  · apply QueryClient.entrySteps_setQueryData c now data _ h

/-- A step of the executions. -/
theorem Sys.entrySteps_step {s s' : Sys V} {a : Action V} (hs : s.step a = some s') (k : String) :
  EntrySteps T P s.now (s.Writes k a) (s.client.cache.lookup k) (s'.client.cache.lookup k)
  := by
  cases a with
  | spawn query =>
    obtain rfl := Option.some.inj hs
    rw [cache_spawn]
    apply EntrySteps.of_eq rfl
  | register i =>
    obtain ⟨r, -, -, -, rfl⟩ := step_register hs
    apply EntrySteps.of_eq rfl
  | execute query =>
    obtain rfl := Option.some.inj hs
    apply EntrySteps.of_eq rfl
  | advance i o =>
    obtain ⟨r, c, pc, hr, ha, rfl⟩ := step_advance hs
    obtain ⟨data, hpc, rfl, -⟩ | ⟨-, hcache⟩ := Run.advance_stores ha
    · apply QueryClient.entrySteps_storeQueryData
      exact fun hk => ⟨r, hr, by rw [hpc], hk⟩
    · apply EntrySteps.of_eq
      dsimp only
      rw [hcache]
  | abort i =>
    obtain ⟨r, -, -, -, rfl⟩ := step_abort hs
    apply EntrySteps.of_eq rfl
  | detach i =>
    obtain ⟨r, -, -, rfl⟩ := step_detach hs
    apply EntrySteps.of_eq rfl
  | drop i =>
    obtain ⟨r, -, -, -, rfl⟩ := step_drop hs
    split
    · apply EntrySteps.of_eq rfl
    · apply EntrySteps.of_eq rfl
  | dropFuture i =>
    obtain ⟨r, c, -, -, hc, rfl⟩ := step_dropFuture hs
    apply EntrySteps.of_eq
    dsimp only
    rw [cache_dropFuture hc]
  | cancelToken i =>
    obtain ⟨r, -, -, rfl⟩ := step_cancelToken hs
    apply EntrySteps.of_eq rfl
  | call call =>
    obtain rfl := Option.some.inj hs
    by_cases hwrites : call.Writes k
    · cases call with
      | setQueryData key data options =>
        apply QueryClient.entrySteps_setQueryData
        exact fun _ => hwrites
      | _ => contradiction
    · apply EntrySteps.of_onlyFlagged
      apply call.onlyFlagged_apply s.now s.client hwrites
  | tick n =>
    obtain rfl := Option.some.inj hs
    apply EntrySteps.of_eq rfl

/-- A step of an infinite loop. -/
theorem PageLoop.entrySteps_advance
    {l l' : PageLoop T P} {c c' : QueryClient V} {now : Instant} {fresh : Token}
    {o : PageOutcome T} {k : String} (h : l.advance fresh now c o = some (c', l')) :
  EntrySteps T P now (l.Writing ∧ l.query.key.cacheKey = k) (c.cache.lookup k) (c'.cache.lookup k)
  := by
  cases step_of_advance h with
  | storeInitial hpc =>
    apply QueryClient.entrySteps_storeQueryData
    exact fun hk => ⟨by rw [Writing, hpc]; trivial, hk⟩
  | append hpc happend =>
    apply QueryClient.entrySteps_appendInfinitePage _ happend
    exact fun hk => ⟨by rw [Writing, hpc]; trivial, hk⟩
  | prepend hpc =>
    apply QueryClient.entrySteps_prependInfinitePage
    exact fun hk => ⟨by rw [Writing, hpc]; trivial, hk⟩
  | notifyInitial hpc =>
    apply EntrySteps.of_eq
    rw [(c.notifySubscribers_frame _ _).1]
  | notifyFailed hpc =>
    apply EntrySteps.of_eq
    rw [(c.notifySubscribers_frame _ _).1]
  | _ => apply EntrySteps.of_eq rfl

/-- A step of the system. -/
theorem Pages.entrySteps_step
    {s s' : Pages V T P} {a : Action V T P} (hs : s.step a = some s') (k : String) :
  EntrySteps T P s.sys.now (s.Writes k a) (s.sys.client.cache.lookup k)
    (s'.sys.client.cache.lookup k)
  := by
  cases a with
  | sys a => apply Sys.entrySteps_step (step_sys hs).1
  | spawn j query =>
    obtain ⟨-, rfl⟩ := step_spawn hs
    apply EntrySteps.of_eq rfl
  | request j request =>
    obtain ⟨l, -, rfl⟩ := step_request hs
    apply EntrySteps.of_eq rfl
  | requestWith j cancelRefetch request =>
    obtain ⟨l, -, rfl⟩ := step_requestWith hs
    obtain hc | hc := fetchPageWith_client s.sys.client l cancelRefetch request
    · apply EntrySteps.of_eq
      rw [setClient, setLoop, hc]
    · simp only [setClient, setLoop, hc]
      apply EntrySteps.of_onlyFlagged
      apply (Call.cancelQuery l.query.key).onlyFlagged_apply s.sys.now _ id
  | dropObserver j =>
    obtain ⟨l, requests, -, -, rfl⟩ := step_dropObserver hs
    apply EntrySteps.of_eq rfl
  | advance j o =>
    obtain ⟨l, c, l', hl, ha, rfl⟩ := step_advance hs
    apply (PageLoop.entrySteps_advance ha).mono
    rintro ⟨hw, hk⟩
    exact ⟨l, hl, hw, hk⟩
  | append key page pageParam maxPages =>
    simp only [step] at hs
    split at hs
    · next c d happend =>
      obtain rfl := Option.some.inj hs
      apply QueryClient.entrySteps_appendInfinitePage id happend
    · obtain rfl := Option.some.inj hs
      apply EntrySteps.of_eq rfl
  | prepend key page pageParam maxPages =>
    obtain rfl := Option.some.inj hs
    apply QueryClient.entrySteps_prependInfinitePage _ _ _ id
  | hydrate serde state options =>
    obtain rfl := Option.some.inj hs
    apply QueryClient.entrySteps_hydrate serde state options id
  | restore options wall key data dataUpdatedAtMs =>
    obtain rfl := Option.some.inj hs
    apply QueryPersister.entrySteps_applyRestoredData _ _ _ _ _ _ id

/-! ### What all steps keep -/

/-- An entry that a step leaves was there with its date and options, or was written now. -/
theorem EntryStep.dated
    {now : Instant} {written : Prop} {x : Option (CacheEntry V)} {e' : CacheEntry V}
    (h : EntryStep T P now written x e') :
  written ∧ e'.lastAccessed = now ∨
    ∃ e ∈ x, e'.lastAccessed = e.lastAccessed ∧ e'.options = e.options
  := by
  cases h with
  | kept he => exact .inr ⟨e', he, rfl, rfl⟩
  | @flagged e he => exact .inr ⟨e, he, rfl, rfl⟩
  | stored c key data options fetchedAt isStale hw => exact .inl ⟨hw, rfl⟩
  | paged d hw he hd => exact .inl ⟨hw, rfl⟩

/-- The type an entry carries is that of its data. -/
def CacheEntry.Typed (e : CacheEntry V) : Prop :=
  e.typeId = typeOf e.data

/-- A new entry is typed, as data is shared only with data of its type. -/
theorem QueryClient.typed_newEntry
    (c : QueryClient V) (now : Instant) (key : QueryKey) (data : V) (options : QueryOptions) :
  (c.newEntry now key data options).Typed
  := by
  unfold CacheEntry.Typed newEntry
  cases c.cache.lookup key.cacheKey with
  | none => rfl
  | some e =>
    dsimp only
    by_cases hshared : options.structuralSharing = true ∧ e.typeId = typeOf data ∧
        eqAny data e.data = true
    · rw [if_pos hshared]
      apply PartialEqAny.typeOf_eq_of_eqAny hshared.2.2
    · rw [if_neg hshared]

theorem EntryStep.typed
    {now : Instant} {written : Prop} {x : Option (CacheEntry V)} {e' : CacheEntry V}
    (h : EntryStep T P now written x e') (hx : ∀ e ∈ x, e.Typed) :
  e'.Typed
  := by
  cases h with
  | kept he => apply hx e' he
  | flagged he => apply hx _ he
  | stored c key data options fetchedAt isStale hw => apply c.typed_newEntry now key data options
  | @paged e d₀ d hw he hd =>
    have htype : e.typeId = typeOf e.data := hx e he
    rw [InfiniteAny.asInfinite_eq_some_iff.mp hd, InfiniteAny.typeOf_ofInfinite] at htype
    rw [CacheEntry.Typed, InfiniteAny.typeOf_ofInfinite]
    apply htype

namespace Pages

/-- In every reachable state entries are typed; so a read fails only if nothing of the type
is cached, and what is taken for pages without a look at the type is what a read of pages
returns. -/
theorem typed_of_reachable {s : Pages V T P} (h : machine.Reachable s) (key : QueryKey) :
  (∀ e, s.sys.client.cache.lookup key.cacheKey = some e → e.Typed) ∧
    (∀ typeId, s.sys.client.getQueryData key typeId =
      (s.sys.client.cache.lookup key.cacheKey).bind fun e => downcast typeId e.data) ∧
    s.sys.client.getInfiniteData (T := T) (P := P) key = s.sys.client.pagesOf key
  := by
  have htyped : ∀ k, ∀ e ∈ s.sys.client.cache.lookup k, e.Typed := by
    apply h.invariant
    · rintro s rfl k e he
      contradiction
    · intro s a s' _ ih _ hs k e he
      apply (entrySteps_step hs k e he).typed (ih k)
  have hread (typeId : TypeId) : s.sys.client.getQueryData key typeId =
      (s.sys.client.cache.lookup key.cacheKey).bind fun e => downcast typeId e.data := by
    unfold QueryClient.getQueryData
    cases he : s.sys.client.cache.lookup key.cacheKey with
    | none => rfl
    | some e =>
      have htype : e.typeId = typeOf e.data := htyped _ e he
      dsimp only [Option.bind_some]
      split
      · next hne =>
        rw [downcast, if_neg (htype ▸ hne)]
      · rfl
  refine ⟨fun e he => htyped _ e he, hread, ?_⟩
  rw [QueryClient.getInfiniteData, hread, QueryClient.pagesOf, Option.bind_assoc]
  congr 1
  funext e
  rw [downcast]
  split
  · rfl
  · next hne =>
    rw [Option.bind_none]
    symm
    apply Option.eq_none_iff_forall_ne_some.mpr
    intro d hd
    rw [InfiniteAny.asInfinite_eq_some_iff.mp hd] at hne
    apply hne (InfiniteAny.typeOf_ofInfinite d)

/-- A string is hydrated, pages are stored over it, and a page is appended. -/
def pagesOverString : List (Action (String ⊕ InfiniteData String Nat) String Nat) :=
  [.hydrate none ((QueryClient.new.setQueryData (V := String ⊕ InfiniteData String Nat) 0
      (.new "k") (.inl "a") {}).dehydrate none 0 0) {},
    .sys (.call (.setQueryData (.new "k") (.inr ⟨["b"], [0]⟩) {})),
    .append (.new "k") "c" 1 none]

theorem typed_of_reachable_pagesOverString :
  ∃ s : Pages (String ⊕ InfiniteData String Nat) String Nat, machine.Reachable s ∧
    s.sys.client.getInfiniteData (.new "k") = some (⟨["b", "c"], [0, 1]⟩ : InfiniteData String Nat) ∧
    s.sys.client.pagesOf (.new "k") = some (⟨["b", "c"], [0, 1]⟩ : InfiniteData String Nat)
  := by
  obtain ⟨s, hs, hdata⟩ := Machine.exists_reachable_of_exec pagesOverString
    (fun s : Pages (String ⊕ InfiniteData String Nat) String Nat =>
      s.sys.client.getInfiniteData (T := String) (P := Nat) (.new "k")) _ (M := machine)
    (s := ⟨.initial, ∅⟩) rfl rfl
  have hpages := (typed_of_reachable hs (.new "k")).2.2
  exact ⟨s, hs, hdata, hpages ▸ hdata⟩

end Pages

end RsQuery
