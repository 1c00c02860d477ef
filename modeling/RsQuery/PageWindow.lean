import Mathlib.Data.List.Chain
import RsQuery.Retention

/-!
# The window of pages

Where the functions for the page parameters look at the edge page only, the pages an
infinite query caches are a window of the sequence they span: every page is a result of
fetching its parameter, and of two neighbours one gives the parameter of the other.  Adding
a page at either end and trimming the other keeps a window, and the loop adds only pages
that fit: `Pages.window_of_run`.
-/

namespace RsQuery

variable {V T P : Type}

namespace InfiniteQuery

/-- The functions for the page parameters depend on the edge page only. -/
structure EdgeOnly (query : InfiniteQuery T P) : Prop where
  next : ∀ f ∈ query.getNextPageParam, ∀ page pages pages', f page pages = f page pages'
  previous : ∀ f ∈ query.getPreviousPageParam, ∀ page pages pages', f page pages = f page pages'

/-- The parameter of the page after a page. -/
def nextParam (query : InfiniteQuery T P) (page : T) : Option P :=
  query.getNextPageParam.bind fun f => f page []

/-- The parameter of the page before a page. -/
def previousParam (query : InfiniteQuery T P) (page : T) : Option P :=
  query.getPreviousPageParam.bind fun f => f page []

/-- A page with its parameter may stand before another. -/
def Precedes (query : InfiniteQuery T P) (x y : P × T) : Prop :=
  query.nextParam x.2 = some y.1 ∨ query.previousParam y.2 = some x.1

/-- The pages are as many as the parameters, each a result of fetching its parameter, and
each may stand before the next. -/
structure Window (query : InfiniteQuery T P) (results : List (P × T)) (d : InfiniteData T P) :
    Prop where
  length : d.pageParams.length = d.pages.length
  results : ∀ x ∈ d.pageParams.zip d.pages, x ∈ results
  contiguous : (d.pageParams.zip d.pages).IsChain query.Precedes

variable {query : InfiniteQuery T P} {results results' : List (P × T)} {d : InfiniteData T P}
  {param : P} {page : T}

theorem Window.mono (h : query.Window results d) (hsub : results ⊆ results') :
  query.Window results' d
  := ⟨h.length, fun x hx => hsub (h.results x hx), h.contiguous⟩

/-- A single page is a window. -/
theorem Window.single (h : (param, page) ∈ results) :
  query.Window results ⟨[page], [param]⟩
  := by
  constructor
  · rfl
  · rintro x hx
    rwa [List.mem_singleton.mp hx]
  · apply List.IsChain.singleton

theorem EdgeOnly.pageParam_next (h : query.EdgeOnly) (hparam : query.pageParam d .next = some param) :
  ∃ lastPage ∈ d.pages.getLast?, query.nextParam lastPage = some param
  := by
  obtain ⟨f, hf, hparam⟩ := Option.bind_eq_some_iff.mp hparam
  obtain ⟨lastPage, hlast, hparam⟩ := Option.bind_eq_some_iff.mp hparam
  use lastPage, hlast
  rw [nextParam, hf, Option.bind_some, ← hparam]
  apply h.next f hf

theorem EdgeOnly.pageParam_previous (h : query.EdgeOnly)
    (hparam : query.pageParam d .previous = some param) :
  ∃ firstPage ∈ d.pages.head?, query.previousParam firstPage = some param
  := by
  obtain ⟨f, hf, hparam⟩ := Option.bind_eq_some_iff.mp hparam
  obtain ⟨firstPage, hfirst, hparam⟩ := Option.bind_eq_some_iff.mp hparam
  use firstPage, hfirst
  rw [previousParam, hf, Option.bind_some, ← hparam]
  apply h.previous f hf

/-- Removing pages at the front leaves a window. -/
theorem Window.drop (h : query.Window results d) (n : Nat) :
  query.Window results ⟨d.pages.drop n, d.pageParams.drop n⟩
  := by
  have hzip : (d.pageParams.drop n).zip (d.pages.drop n) = (d.pageParams.zip d.pages).drop n :=
    List.drop_zipWith.symm
  constructor
  · simp only [List.length_drop, h.length]
  · rw [hzip]
    exact fun x hx => h.results x (List.mem_of_mem_drop hx)
  · rw [hzip]
    apply h.contiguous.drop

/-- Removing pages at the end leaves a window. -/
theorem Window.take (h : query.Window results d) (n : Nat) :
  query.Window results ⟨d.pages.take n, d.pageParams.take n⟩
  := by
  have hzip : (d.pageParams.take n).zip (d.pages.take n) = (d.pageParams.zip d.pages).take n :=
    List.take_zipWith.symm
  constructor
  · simp only [List.length_take, h.length]
  · rw [hzip]
    exact fun x hx => h.results x (List.mem_of_mem_take hx)
  · rw [hzip]
    apply h.contiguous.take

/-- The pages of a window are those of its entries. -/
theorem Window.map_snd (h : query.Window results d) :
  (d.pageParams.zip d.pages).map Prod.snd = d.pages
  := List.map_snd_zip h.length.ge

/-- Adding a page at the end whose parameter is asked of the last page. -/
theorem Window.concat (h : query.Window results d)
    (hparam : ∃ lastPage ∈ d.pages.getLast?, query.nextParam lastPage = some param)
    (hresult : (param, page) ∈ results) :
  query.Window results ⟨d.pages ++ [page], d.pageParams ++ [param]⟩
  := by
  obtain ⟨lastPage, hlast, hnext⟩ := hparam
  have hzip : (d.pageParams ++ [param]).zip (d.pages ++ [page]) =
      d.pageParams.zip d.pages ++ [(param, page)] := List.zip_append h.length
  constructor
  · simp only [List.length_append, h.length, List.length_singleton]
  · rw [hzip]
    intro x hx
    obtain hx | hx := List.mem_append.mp hx
    · apply h.results x hx
    · rwa [List.mem_singleton.mp hx]
  · rw [hzip]
    apply h.contiguous.append (List.IsChain.singleton _)
    rintro x hx y ⟨⟩
    left
    rw [← h.map_snd, List.getLast?_map, hx] at hlast
    obtain rfl := Option.some.inj hlast
    apply hnext

/-- Adding a page at the front whose parameter is asked of the first page. -/
theorem Window.cons (h : query.Window results d)
    (hparam : ∃ firstPage ∈ d.pages.head?, query.previousParam firstPage = some param)
    (hresult : (param, page) ∈ results) :
  query.Window results ⟨page :: d.pages, param :: d.pageParams⟩
  := by
  obtain ⟨firstPage, hfirst, hprevious⟩ := hparam
  constructor
  · simp only [List.length_cons, h.length]
  · intro x hx
    obtain rfl | hx := List.mem_cons.mp hx
    · apply hresult
    · apply h.results x hx
  · apply h.contiguous.cons
    intro y hy
    right
    rw [← h.map_snd, List.head?_map, hy] at hfirst
    obtain rfl := Option.some.inj hfirst
    apply hprevious

/-- Appending a page with the parameter asked of the last one keeps a window. -/
theorem Window.append (h : query.Window results d) (hedge : query.EdgeOnly)
    (hparam : query.pageParam d .next = some param) (hresult : (param, page) ∈ results)
    (maxPages : Option Nat) :
  ∃ d', d.append page param maxPages = some d' ∧ query.Window results d'
  := by
  have hconcat := h.concat (hedge.pageParam_next hparam) hresult
  refine ⟨_, if_pos ?_, hconcat.drop _⟩
  rw [hconcat.length]
  apply Nat.sub_le

/-- Prepending a page with the parameter asked of the first one keeps a window. -/
theorem Window.prepend (h : query.Window results d) (hedge : query.EdgeOnly)
    (hparam : query.pageParam d .previous = some param) (hresult : (param, page) ∈ results)
    (maxPages : Option Nat) :
  query.Window results (d.prepend page param maxPages)
  := by
  have hcons := h.cons (hedge.pageParam_previous hparam) hresult
  have htake := hcons.take ((page :: d.pages).length -
    ((page :: d.pages).length - maxPages.getD (page :: d.pages).length))
  rwa [InfiniteData.prepend, hcons.length]

end InfiniteQuery

/-! ### The loop -/

variable [StringAny V] [InfiniteAny V T P]

/-- What a loop is about to do fits the pages there are. -/
def LoopPc.Fits (query : InfiniteQuery T P) (d : InfiniteData T P) : LoopPc T P → Prop
  | .checkInFlight _ data | .askParam _ data => data = d
  | .register request param | .fetching request param _ | .add request param _ _ =>
    query.pageParam d request = some param
  | _ => True

/-- The page a loop is about to store or add is a result of fetching its parameter. -/
def LoopPc.Noted (query : InfiniteQuery T P) (results : List (P × T)) : LoopPc T P → Prop
  | .storeInitial page => (query.initialPageParam, page) ∈ results
  | .add _ param page _ => (param, page) ∈ results
  | _ => True

/-- The loop has not stored its first page. -/
def LoopPc.Initial : LoopPc T P → Prop
  | .fetchInitial | .storeInitial _ => True
  | _ => False

namespace Pages

/-- The parameter a loop fetches a page for. -/
def fetches (l : PageLoop T P) : Option P :=
  match l.pc with
  | .fetchInitial => some l.query.initialPageParam
  | .fetching _ param _ => some param
  | _ => none

/-- The results of fetching pages for a loop. -/
def resultsOf (j : Nat) (s : Pages V T P) (a : Action V T P) (_ : Pages V T P) : List (P × T) :=
  match a with
  | .advance i (.ready (.ok page)) =>
    if i = j then
      (((s.loops.lookup j).bind fetches).map fun param => (param, page)).toList
    else []
  | _ => []

/-- The step writes for the cache key and is not one of the loop. -/
def WritesBeside (s : Pages V T P) (j : Nat) (k : String) (a : Action V T P) : Prop :=
  s.Writes k a ∧ ¬ a.Advances j

instance (s : Pages V T P) (j : Nat) (k : String) (a : Action V T P) :
    Decidable (s.WritesBeside j k a) :=
  inferInstanceAs (Decidable (_ ∧ _))

/-- The loop of the query has stored nothing yet and nothing is cached for it, or what is
cached is a window that fits. -/
structure Windowed (j : Nat) (query : InfiniteQuery T P) (s : Pages V T P)
    (results : List (P × T)) (l : PageLoop T P) : Prop where
  loop : s.loops.lookup j = some l
  ofQuery : l.query = query
  noted : l.pc.Noted query results
  initial : l.pc.Initial → s.sys.client.cache.lookup query.key.cacheKey = none
  window : ∀ e, s.sys.client.cache.lookup query.key.cacheKey = some e →
    ∃ d, e.data = ofInfinite d ∧ query.Window results d ∧ l.pc.Fits query d

variable {j : Nat} {query : InfiniteQuery T P} {s s' : Pages V T P} {results results' : List (P × T)}
  {l l' : PageLoop T P}

omit [StringAny V] [InfiniteAny V T P] in
theorem noted_mono {pc : LoopPc T P} (h : pc.Noted query results) (hsub : results ⊆ results') :
  pc.Noted query results'
  := by
  cases pc with
  | storeInitial page => apply hsub h
  | add request param page token => apply hsub h
  | _ => trivial

/-- A loop that stays where it is keeps its window while nobody else writes for the key. -/
theorem Windowed.of_retained
    (h : Windowed j query s results l) (hsub : results ⊆ results')
    (hloop : s'.loops.lookup j = some l') (hpc : l'.pc = l.pc) (hquery : l'.query = l.query)
    (hcache : Retained (s.sys.client.cache.lookup query.key.cacheKey)
      (s'.sys.client.cache.lookup query.key.cacheKey)) :
  Windowed j query s' results' l'
  := by
  constructor
  · apply hloop
  · rw [hquery, h.ofQuery]
  · rw [hpc]
    apply noted_mono h.noted hsub
  · rw [hpc]
    intro hinitial
    cases he : s'.sys.client.cache.lookup query.key.cacheKey with
    | none => rfl
    | some e' =>
      obtain ⟨e, he, -⟩ := hcache e' he
      rw [h.initial hinitial] at he
      contradiction
  · rw [hpc]
    intro e' he'
    obtain ⟨e, he, hr⟩ := hcache e' he'
    obtain ⟨d, hd, hw, hfits⟩ := h.window e he
    exact ⟨d, hr.data.trans hd, hw.mono hsub, hfits⟩

/-- Cached infinite data is the data of an entry. -/
theorem exists_of_getInfiniteData {c : QueryClient V} {key : QueryKey} {d : InfiniteData T P}
    (h : c.getInfiniteData key = some d) :
  ∃ e, c.cache.lookup key.cacheKey = some e ∧ e.data = ofInfinite d
  := by
  obtain ⟨v, hv, hd⟩ := Option.bind_eq_some_iff.mp h
  rw [InfiniteAny.asInfinite_eq_some_iff] at hd
  unfold QueryClient.getQueryData at hv
  split at hv
  · next e he =>
    split at hv
    · contradiction
    · unfold downcast at hv
      split at hv
      · obtain rfl := Option.some.inj hv
        exact ⟨e, he, hd⟩
      · contradiction
  · contradiction

theorem ofInfinite_injective {d d' : InfiniteData T P} (h : (ofInfinite d : V) = ofInfinite d') :
  d = d'
  := by
  have hd := InfiniteAny.asInfinite_eq_some_iff.mpr h
  rw [InfiniteAny.asInfinite_eq_some_iff.mpr rfl] at hd
  apply Option.some.inj hd

/-- A loop that goes on and leaves the entry as it is keeps its window. -/
theorem Windowed.goto
    (h : Windowed j query s results l) (hsub : results ⊆ results')
    (hloop : s'.loops.lookup j = some l') (hquery : l'.query = l.query)
    (hcache : s'.sys.client.cache.lookup query.key.cacheKey
      = s.sys.client.cache.lookup query.key.cacheKey)
    (hnoted : l'.pc.Noted query results') (hinitial : l'.pc.Initial → l.pc.Initial)
    (hfits : ∀ e d, s.sys.client.cache.lookup query.key.cacheKey = some e →
      e.data = ofInfinite d → l.pc.Fits query d → l'.pc.Fits query d) :
  Windowed j query s' results' l'
  := by
  constructor
  · apply hloop
  · rw [hquery, h.ofQuery]
  · apply hnoted
  · rw [hcache]
    apply h.initial ∘ hinitial
  · rw [hcache]
    intro e he
    obtain ⟨d, hd, hw, hf⟩ := h.window e he
    exact ⟨d, hd, hw.mono hsub, hfits e d he hd hf⟩

/-- Storing the first page makes a window. -/
theorem Windowed.storeInitial
    {page : T} (h : Windowed j query s results l) (hpc : l.pc = .storeInitial page)
    (hloop : s'.loops.lookup j = some (l.goto .stored))
    (hclient : s'.sys.client = s.sys.client.storeQueryData s.sys.now l.query.key
      (ofInfinite (⟨[page], [l.query.initialPageParam]⟩ : InfiniteData T P)) l.query.options) :
  Windowed j query s' results (l.goto .stored)
  := by
  have hnone := h.initial (by rw [hpc]; trivial)
  have hnoted := h.noted
  rw [hpc] at hnoted
  constructor
  · apply hloop
  · apply h.ofQuery
  · trivial
  · apply False.elim
  · intro e he
    rw [hclient, h.ofQuery] at he
    obtain rfl := Option.some.inj ((AList.lookup_insert _).symm.trans he)
    refine ⟨⟨[page], [query.initialPageParam]⟩, ?_, InfiniteQuery.Window.single hnoted, trivial⟩
    rw [QueryClient.newEntry, hnone]

/-- Replacing the pages by a window keeps one. -/
theorem Windowed.replacePages
    {d' : InfiniteData T P} {token : Token} (h : Windowed j query s results l)
    (hw : query.Window results d') (hloop : s'.loops.lookup j = some (l.goto (.deregister token)))
    (hclient : s'.sys.client = s.sys.client.replacePages s.sys.now l.query.key d') :
  Windowed j query s' results (l.goto (.deregister token))
  := by
  constructor
  · apply hloop
  · apply h.ofQuery
  · trivial
  · apply False.elim
  · intro e he
    rw [hclient, h.ofQuery, QueryClient.replacePages_lookup, if_pos rfl] at he
    obtain ⟨e₀, -, rfl⟩ := Option.map_eq_some_iff.mp he
    exact ⟨d', rfl, hw, trivial⟩

/-- The infinite data in the entry of a window. -/
theorem Windowed.window_of_pagesOf
    {d : InfiniteData T P} (h : Windowed j query s results l)
    (hd : s.sys.client.pagesOf query.key = some d) :
  query.Window results d ∧ l.pc.Fits query d
  := by
  obtain ⟨e, he, hd⟩ := Option.bind_eq_some_iff.mp hd
  rw [InfiniteAny.asInfinite_eq_some_iff] at hd
  obtain ⟨d', hd', hw, hf⟩ := h.window e he
  obtain rfl := ofInfinite_injective (hd.symm.trans hd')
  exact ⟨hw, hf⟩

omit [InfiniteAny V T P] in
theorem resultsOf_next (s s' : Pages V T P) (i j : Nat) :
  resultsOf j s (.advance i .next) s' = []
  := rfl

/-- A step of the loop keeps its window. -/
theorem Windowed.advance
    {o : PageOutcome T} (h : Windowed j query s results l) (hedge : query.EdgeOnly)
    (hs : s.step (.advance j o) = some s') :
  ∃ l', Windowed j query s' (results ++ resultsOf j s (.advance j o) s') l'
  := by
  obtain ⟨l₀, c, l', hl, ha, rfl⟩ := step_advance hs
  obtain rfl := Option.some.inj (h.loop.symm.trans hl)
  have hsub : results ⊆ results ++ resultsOf j s (.advance j o)
      ((s.fresh.1.setClient c).setLoop j l') := List.subset_append_left _ _
  have hloop : ((s.fresh.1.setClient c).setLoop j l').loops.lookup j = some l' :=
    AList.lookup_insert _
  use l'
  cases PageLoop.step_of_advance ha with
  | fetchedInitial hpc =>
    apply h.goto hsub hloop rfl rfl
    · rw [resultsOf, if_pos rfl, hl, Option.bind_some, fetches, hpc, h.ofQuery]
      apply List.mem_append_right _ List.mem_cons_self
    · intro _
      rw [hpc]
      trivial
    · exact fun _ _ _ _ _ => trivial
  | storeInitial hpc =>
    rw [resultsOf_next, List.append_nil]
    apply h.storeInitial hpc hloop rfl
  | notifyInitial hpc =>
    apply h.goto hsub hloop rfl _ trivial False.elim (fun _ _ _ _ _ => trivial)
    apply congrArg _ (s.sys.client.notifySubscribers_frame _ _).1
  | receive hpc hreceive =>
    obtain ⟨-, ⟨request, -, -, -, hgoto⟩ | ⟨-, -, -, hgoto⟩ | ⟨-, -, -, hgoto⟩⟩ :=
      PageLoop.received_cases hreceive
    all_goals
      rw [hgoto] at hloop ⊢
      apply h.goto hsub hloop rfl rfl trivial False.elim (fun _ _ _ _ _ => trivial)
  | resume hpc hresume =>
    apply h.goto hsub hloop rfl rfl trivial False.elim (fun _ _ _ _ _ => trivial)
  | read hpc hdata =>
    apply h.goto hsub hloop rfl rfl trivial False.elim
    intro e d he hd _
    obtain ⟨e', he', hd'⟩ := exists_of_getInfiniteData hdata
    rw [h.ofQuery, he] at he'
    obtain rfl := Option.some.inj he'
    apply ofInfinite_injective (hd'.symm.trans hd)
  | ask hpc hflight =>
    apply h.goto hsub hloop rfl rfl trivial False.elim
    intro e d _ _ hfits
    rw [hpc] at hfits
    apply hfits
  | answer hpc hparam =>
    apply h.goto hsub hloop rfl rfl trivial False.elim
    intro e d _ _ hfits
    rw [hpc] at hfits
    obtain rfl : _ = d := hfits
    rw [h.ofQuery] at hparam
    apply hparam
  | register hpc =>
    apply h.goto hsub hloop rfl rfl trivial False.elim
    intro e d _ _ hfits
    rw [hpc] at hfits
    apply hfits
  | fetched hpc =>
    apply h.goto hsub hloop rfl rfl
    · rw [resultsOf, if_pos rfl, hl, Option.bind_some, fetches, hpc]
      apply List.mem_append_right _ List.mem_cons_self
    · apply False.elim
    · intro e d _ _ hfits
      rw [hpc] at hfits
      apply hfits
  | failed hpc => apply h.goto hsub hloop rfl rfl trivial False.elim (fun _ _ _ _ _ => trivial)
  | append hpc happend =>
    rw [resultsOf_next, List.append_nil]
    rw [h.ofQuery] at happend
    unfold QueryClient.appendInfinitePage at happend
    split at happend
    · obtain ⟨rfl, -⟩ := Prod.mk.inj (Option.some.inj happend)
      apply h.goto (List.Subset.refl _) hloop rfl rfl trivial False.elim (fun _ _ _ _ _ => trivial)
    · next d hd =>
      obtain ⟨hw, hfits⟩ := h.window_of_pagesOf hd
      have hnoted := h.noted
      rw [hpc] at hfits hnoted
      obtain ⟨d', hd', hw'⟩ := hw.append hedge hfits hnoted query.maxPages
      rw [hd'] at happend
      obtain ⟨rfl, -⟩ := Prod.mk.inj (Option.some.inj happend)
      apply h.replacePages hw' hloop
      rw [h.ofQuery]
      rfl
  | @prepend param page token hpc =>
    rw [resultsOf_next, List.append_nil]
    cases hd : s.sys.client.pagesOf (T := T) (P := P) l.query.key with
    | none =>
      have hc : (s.sys.client.prependInfinitePage s.sys.now l.query.key page param
          l.query.maxPages).1 = s.sys.client := by
        rw [QueryClient.prependInfinitePage, hd]
      apply h.goto (List.Subset.refl _) hloop rfl _ trivial False.elim (fun _ _ _ _ _ => trivial)
      apply congrArg (fun c : QueryClient V => c.cache.lookup query.key.cacheKey) hc
    | some d =>
      have hc : (s.sys.client.prependInfinitePage s.sys.now l.query.key page param
          l.query.maxPages).1 = s.sys.client.replacePages s.sys.now l.query.key
            (d.prepend page param l.query.maxPages) := by
        rw [QueryClient.prependInfinitePage, hd]
      rw [h.ofQuery] at hd
      obtain ⟨hw, hfits⟩ := h.window_of_pagesOf hd
      have hnoted := h.noted
      rw [hpc] at hfits hnoted
      apply h.replacePages (hw.prepend hedge hfits hnoted _) hloop hc
  | notifyFailed hpc =>
    apply h.goto hsub hloop rfl _ trivial False.elim (fun _ _ _ _ _ => trivial)
    apply congrArg _ (s.sys.client.notifySubscribers_frame _ _).1
  | deregister hpc =>
    apply h.goto hsub hloop rfl rfl trivial False.elim (fun _ _ _ _ _ => trivial)
  | giveUp hpc => apply h.goto hsub hloop rfl rfl trivial False.elim (fun _ _ _ _ _ => trivial)
  | rest hpc =>
    obtain rfl | rfl | rfl := hpc
    · apply h.goto hsub hloop rfl rfl (noted_mono h.noted hsub) id fun _ _ _ _ hfits => hfits
    · apply h.goto hsub hloop rfl rfl trivial False.elim (fun _ _ _ _ _ => trivial)
    · apply h.goto hsub hloop rfl rfl trivial False.elim (fun _ _ _ _ _ => trivial)

/-- Every step keeps the window of a loop while nobody else writes for its key. -/
theorem Windowed.step
    {a : Action V T P} (h : Windowed j query s results l) (hedge : query.EdgeOnly)
    (hok : ¬ s.WritesBeside j query.key.cacheKey a) (hs : s.step a = some s') :
  ∃ l', Windowed j query s' (results ++ resultsOf j s a s') l'
  := by
  by_cases ha : a.Advances j
  · cases a with
    | advance i o =>
      obtain rfl : i = j := ha
      apply h.advance hedge hs
    | _ => contradiction
  · obtain ⟨l', hl', hpc, hquery, -⟩ := loop_of_step hs ha h.loop
    use l'
    apply h.of_retained (List.subset_append_left _ _) hl' hpc hquery
    apply retained_step _ hs
    intro hw
    apply hok ⟨hw, ha⟩

/-- Along every run in which nobody else writes for its key, what a loop that starts
without cached pages has cached is a window of the results of its fetches. -/
theorem window_of_run
    (j : Nat) (query : InfiniteQuery T P) (hedge : query.EdgeOnly) {s₀ : Pages V T P}
    (hloop : s₀.loops.lookup j = some { query := query })
    (hnone : s₀.sys.client.cache.lookup query.key.cacheKey = none)
    {t : Pages V T P × List (P × T)}
    (h : ((machineFrom s₀).noting (resultsOf j)).Run
      (fun t a => ¬ t.1.WritesBeside j query.key.cacheKey a) t)
    {d : InfiniteData T P} (hd : t.1.sys.client.pagesOf query.key = some d) :
  query.Window t.2 d
  := by
  have hwindowed : ∃ l, Windowed j query t.1 t.2 l := by
    apply h.invariant
    · rintro ⟨s, results⟩ ⟨rfl, rfl⟩
      refine ⟨_, hloop, rfl, trivial, fun _ => hnone, ?_⟩
      intro e he
      rw [hnone] at he
      contradiction
    · rintro t a t' - ⟨l, hl⟩ hok hs
      obtain ⟨hs, hresults⟩ := Machine.step_noting hs
      rw [hresults]
      apply hl.step hedge hok hs
  obtain ⟨l, hl⟩ := hwindowed
  apply (hl.window_of_pagesOf hd).1

/-- Pages that are numbered by their length, two at most. -/
def lengthQuery : InfiniteQuery String Nat where
  key := .new "pages"
  initialPageParam := 1
  getNextPageParam := some fun page _ => some (page.length + 1)
  getPreviousPageParam := some fun page _ => some (page.length - 1)
  maxPages := some 2

theorem lengthQuery_edgeOnly :
  lengthQuery.EdgeOnly
  := by
  constructor
  · rintro f ⟨⟩ page pages pages'
    rfl
  · rintro f ⟨⟩ page pages pages'
    rfl

/-- The loop of that query, just spawned. -/
def lengthPages : Pages (String ⊕ InfiniteData String Nat) String Nat :=
  ⟨.initial, (∅ : Table Nat (PageLoop String Nat)).insert 0 { query := lengthQuery }⟩

/-- A page is appended to the first, and the one before it prepended in the place of the
last. -/
theorem window_of_run_length :
  ∃ t, ((machineFrom lengthPages).noting (resultsOf 0)).Run
      (fun t a => ¬ t.1.WritesBeside 0 "pages" a) t ∧
    t.1.sys.client.pagesOf lengthQuery.key = some ⟨["", "a"], [0, 1]⟩ ∧
    lengthQuery.Window t.2 ⟨["", "a"], [0, 1]⟩
  := by
  have meets : ((machineFrom lengthPages).noting (resultsOf 0)).Meets
      (fun t a => ¬ t.1.WritesBeside 0 "pages" a) (lengthPages, [])
      [.advance 0 (.ready (.ok "a")), .advance 0 .next, .advance 0 .next, .request 0 .next,
        .advance 0 .next, .advance 0 .next, .advance 0 .next, .advance 0 .next, .advance 0 .next,
        .advance 0 .next, .advance 0 (.ready (.ok "bb")), .advance 0 .next, .advance 0 .next,
        .request 0 .previous, .advance 0 .next, .advance 0 .next, .advance 0 .next,
        .advance 0 .next, .advance 0 .next, .advance 0 .next, .advance 0 (.ready (.ok "")),
        .advance 0 .next, .advance 0 .next] := by
    decide +kernel
  have init : ((machineFrom lengthPages).noting (resultsOf 0)).init (lengthPages, []) := ⟨rfl, rfl⟩
  obtain ⟨t, hrun, hv⟩ := Machine.exists_run_of_exec _
    (fun t : Pages (String ⊕ InfiniteData String Nat) String Nat × List (Nat × String) =>
      t.1.sys.client.pagesOf (T := String) (P := Nat) lengthQuery.key)
    (some ⟨["", "a"], [0, 1]⟩) init meets (by decide +kernel)
  exact ⟨t, hrun, hv, window_of_run 0 lengthQuery lengthQuery_edgeOnly rfl rfl hrun hv⟩

end Pages

end RsQuery
