import RsQuery.PageRequests
import RsQuery.Persister
import RsQuery.Runs

/-!
# Infinite queries

The pages of an infinite query are cached as one value.  A loop of its own fetches the first
page and then serves one request after another: it reads the cached pages, asks for the
parameter of the next or previous page, registers, fetches, adds the page and deregisters.
Several loops, executions and calls share a client; a loop advances from one access to the
client to the next.

The requests come through the slot of `PageRequests`: the loop receives step by step, while
a `try_send`, which holds the lock of the slot, is one step.
-/

namespace RsQuery

/-- Data structure for infinite query results. -/
structure InfiniteData (T P : Type) where
  pages : List T
  pageParams : List P
deriving DecidableEq, Repr

namespace InfiniteData

variable {T P : Type}

/-- Adds a page at the end and removes pages at the front until `maxPages` are left;
nothing is the result when a parameter is to be removed and there is none. -/
def append (d : InfiniteData T P) (page : T) (pageParam : P) (maxPages : Option Nat) :
    Option (InfiniteData T P) :=
  let pages := d.pages ++ [page]
  let pageParams := d.pageParams ++ [pageParam]
  let excess := pages.length - maxPages.getD pages.length
  if excess ≤ pageParams.length then some ⟨pages.drop excess, pageParams.drop excess⟩ else none

/-- Adds a page at the front and pops pages at the end until `maxPages` are left. -/
def prepend (d : InfiniteData T P) (page : T) (pageParam : P) (maxPages : Option Nat) :
    InfiniteData T P :=
  let pages := page :: d.pages
  let pageParams := pageParam :: d.pageParams
  let excess := pages.length - maxPages.getD pages.length
  ⟨pages.take (pages.length - excess), pageParams.take (pageParams.length - excess)⟩

end InfiniteData

/-- Erased values with the infinite data of two types among them. -/
class InfiniteAny (V T P : Type) [PartialEqAny V] where
  ofInfinite : InfiniteData T P → V
  /-- `downcast_ref::<InfiniteData<T, P>>`. -/
  asInfinite : V → Option (InfiniteData T P)
  asInfinite_eq_some_iff : ∀ {v : V} {d : InfiniteData T P}, asInfinite v = some d ↔ v = ofInfinite d
  /-- `TypeId::of::<InfiniteData<T, P>>`. -/
  infiniteType : TypeId
  typeOf_ofInfinite : ∀ d, typeOf (ofInfinite d) = infiniteType

export InfiniteAny (ofInfinite asInfinite)

/-- Strings, and pages that are strings numbered by their parameters. -/
instance : StringAny (String ⊕ InfiniteData String Nat) where
  typeOf v := if v.isLeft then 0 else 1
  eqAny v w := v = w
  typeOf_eq_of_eqAny h := by rw [of_decide_eq_true h]
  ofString := .inl
  asString := Sum.getLeft?
  asString_eq_some_iff := Sum.getLeft?_eq_some_iff
  eqAny_ofString h := (of_decide_eq_true h).symm

instance : InfiniteAny (String ⊕ InfiniteData String Nat) String Nat where
  ofInfinite := .inr
  asInfinite := Sum.getRight?
  asInfinite_eq_some_iff := Sum.getRight?_eq_some_iff
  infiniteType := 1
  typeOf_ofInfinite _ := rfl

variable {V T P : Type} [StringAny V] [InfiniteAny V T P]

namespace QueryClient

/-- Cached infinite data, if there is any. -/
def getInfiniteData (c : QueryClient V) (key : QueryKey) : Option (InfiniteData T P) :=
  (c.getQueryData key (InfiniteAny.infiniteType V T P)).bind asInfinite

/-- Replaces the data of the entry of a key, dates it now, and notifies. -/
def replacePages (c : QueryClient V) (now : Instant) (key : QueryKey) (d : InfiniteData T P) :
    QueryClient V :=
  let replace (entry : CacheEntry V) : CacheEntry V :=
    { entry with
      data := ofInfinite d
      fetchedAt := now
      lastAccessed := now }
  { c with cache := Table.adjust key.cacheKey replace c.cache }.notifySubscribers
    key.cacheKey .success

/-- The infinite data in the entry of a key, whatever type the entry is of. -/
def pagesOf (c : QueryClient V) (key : QueryKey) : Option (InfiniteData T P) :=
  (c.cache.lookup key.cacheKey).bind fun entry => asInfinite entry.data

/-- Appends a new page to existing infinite data; nothing is the result of a panic. -/
def appendInfinitePage (c : QueryClient V) (now : Instant) (key : QueryKey) (page : T)
    (pageParam : P) (maxPages : Option Nat) : Option (QueryClient V × Option (InfiniteData T P)) :=
  match c.pagesOf (T := T) (P := P) key with
  | none => some (c, none)
  | some data =>
    match data.append page pageParam maxPages with
    | none => none
    | some newData => some (c.replacePages now key newData, some newData)

/-- Prepends a new page to existing infinite data. -/
def prependInfinitePage (c : QueryClient V) (now : Instant) (key : QueryKey) (page : T)
    (pageParam : P) (maxPages : Option Nat) : QueryClient V × Option (InfiniteData T P) :=
  match c.pagesOf (T := T) (P := P) key with
  | none => (c, none)
  | some data =>
    let newData := data.prepend page pageParam maxPages
    (c.replacePages now key newData, some newData)

end QueryClient

/-- Definition of an infinite query, without its fetch function. -/
structure InfiniteQuery (T P : Type) where
  key : QueryKey
  initialPageParam : P
  getNextPageParam : Option (T → List T → Option P) := none
  getPreviousPageParam : Option (T → List T → Option P) := none
  maxPages : Option Nat := none
  options : QueryOptions := {}

/-- The parameter of the page a request asks for, if there is such a page. -/
def InfiniteQuery.pageParam (query : InfiniteQuery T P) (data : InfiniteData T P) :
    PageRequest → Option P
  | .next => do
    let getNext ← query.getNextPageParam
    let lastPage ← data.pages.getLast?
    getNext lastPage data.pages
  | .previous => do
    let getPrevious ← query.getPreviousPageParam
    let firstPage ← data.pages.head?
    getPrevious firstPage data.pages

/-- Where the loop of an infinite query stands: what it does when it advances. -/
inductive LoopPc (T P : Type) where
  /-- Polls the fetch of the first page. -/
  | fetchInitial
  /-- Stores the first page. -/
  | storeInitial (page : T)
  /-- Notifies that the first page is stored. -/
  | stored
  /-- Notifies that the first fetch failed. -/
  | initialFailed
  /-- Waits for a request. -/
  | recv
  /-- Reads the cached pages. -/
  | readData (request : PageRequest)
  /-- Asks whether the query is in flight. -/
  | checkInFlight (request : PageRequest) (data : InfiniteData T P)
  /-- Asks for the parameter of the page. -/
  | askParam (request : PageRequest) (data : InfiniteData T P)
  | register (request : PageRequest) (param : P)
  /-- Polls the fetch of a page; its registration has this token. -/
  | fetching (request : PageRequest) (param : P) (token : Token)
  /-- Adds the page. -/
  | add (request : PageRequest) (param : P) (page : T) (token : Token)
  /-- Notifies that the fetch failed. -/
  | failed (token : Token)
  | deregister (token : Token)
  /-- The request slot is empty and its sender gone. -/
  | ended
  | panicked

/-- What a step of a loop depends on besides the client: how a poll of the fetch function
ends, and whether user code panics. -/
inductive PageOutcome (T : Type) where
  | next
  | pending
  | ready (result : Except QueryError T)
  | panic

/-- The loop of an infinite query, and the slot of its requests. -/
structure PageLoop (T P : Type) where
  query : InfiniteQuery T P
  requests : PageRequests := .initial
  pc : LoopPc T P := .fetchInitial

namespace PageLoop

/-- The observer, which sends the requests, is there. -/
def observed (l : PageLoop T P) : Bool :=
  l.requests.sender = .idle

/-- The loop at another place. -/
def goto (l : PageLoop T P) (pc : LoopPc T P) : PageLoop T P :=
  { l with pc := pc }

/-- `try_send`: a request is dropped while another is pending. -/
def trySend (l : PageLoop T P) (request : PageRequest) : PageLoop T P :=
  { l with requests := l.requests.trySend request }

/-- Where a loop in `recv` is after a step of it that led to these requests: it serves the
request it took, is over, or is in `recv` still. -/
def received (l : PageLoop T P) (requests : PageRequests) : LoopPc T P :=
  match requests.receiver with
  | .idle => l.requests.slot.elim .recv .readData
  | .ended => .ended
  | _ => .recv

/-- A loop in `recv` takes the request in the slot, is over when the sender is gone, or goes
on waiting. -/
theorem received_cases
    {l : PageLoop T P} {requests : PageRequests}
    (h : l.requests.step l.requests.receiveStep = some requests) :
  requests.sender = l.requests.sender ∧
    ((∃ request, l.requests.slot = some request ∧ requests.slot = none ∧
        requests.receiver = .idle ∧ l.received requests = .readData request) ∨
      requests.slot = l.requests.slot ∧ l.requests.sender = .gone ∧
        requests.receiver = .ended ∧ l.received requests = .ended ∨
      requests.slot = l.requests.slot ∧ requests.receiver ≠ .idle ∧
        requests.receiver ≠ .ended ∧ l.received requests = .recv)
  := by
  obtain ⟨hsender, ⟨request, hslot, hnone, hidle⟩ | ⟨hslot, hgone, hended⟩ |
    ⟨hslot, hidle, hended⟩⟩ := PageRequests.receive_cases h l.requests.receiveStep_eq
  · refine ⟨hsender, .inl ⟨request, hslot, hnone, hidle, ?_⟩⟩
    rw [received, hidle, hslot]
    rfl
  · refine ⟨hsender, .inr (.inl ⟨hslot, hgone, hended, ?_⟩)⟩
    rw [received, hended]
  · refine ⟨hsender, .inr (.inr ⟨hslot, hidle, hended, ?_⟩)⟩
    unfold received
    split
    · contradiction
    · contradiction
    · rfl

/-- One step of a loop; `fresh` is the token of a registration it makes. -/
def advance (l : PageLoop T P) (fresh : Token) (now : Instant) (c : QueryClient V) :
    PageOutcome T → Option (QueryClient V × PageLoop T P)
  | .next =>
    match l.pc with
    | .storeInitial page =>
      let data : InfiniteData T P := ⟨[page], [l.query.initialPageParam]⟩
      some (c.storeQueryData now l.query.key (ofInfinite data) l.query.options, l.goto .stored)
    | .stored => some (c.notifySubscribers l.query.key.cacheKey .success, l.goto .recv)
    | .initialFailed => some (c.notifySubscribers l.query.key.cacheKey .error, l.goto .recv)
    | .recv => do
      let requests ← l.requests.step l.requests.receiveStep
      some (c, { l with requests := requests, pc := l.received requests })
    | .readData request =>
      match c.getInfiniteData l.query.key with
      | some data => some (c, l.goto (.checkInFlight request data))
      | none => some (c, l.goto .recv)
    | .checkInFlight request data =>
      if c.isInFlight l.query.key then some (c, l.goto .recv)
      else some (c, l.goto (.askParam request data))
    | .askParam request data =>
      match l.query.pageParam data request with
      | some param => some (c, l.goto (.register request param))
      | none => some (c, l.goto .recv)
    | .register request param =>
      some (c.setInFlight l.query.key ⟨fresh, fresh⟩, l.goto (.fetching request param fresh))
    | .add .next param page token =>
      match c.appendInfinitePage now l.query.key page param l.query.maxPages with
      | some (c, _) => some (c, l.goto (.deregister token))
      | none => some (c, l.goto .panicked)
    | .add .previous param page token =>
      some ((c.prependInfinitePage now l.query.key page param l.query.maxPages).1,
        l.goto (.deregister token))
    | .failed token =>
      some (c.notifySubscribers l.query.key.cacheKey .error, l.goto (.deregister token))
    | .deregister _ => some (c.clearInFlight l.query.key, l.goto .recv)
    | _ => none
  | .pending =>
    match l.pc with
    | .fetchInitial | .fetching .. => some (c, l)
    | .recv => do
      -- The task is polled without having been woken.
      let requests ← l.requests.step .resume
      some (c, { l with requests := requests })
    | _ => none
  | .ready (.ok page) =>
    match l.pc with
    | .fetchInitial => some (c, l.goto (.storeInitial page))
    | .fetching request param token => some (c, l.goto (.add request param page token))
    | _ => none
  | .ready (.error _) =>
    match l.pc with
    | .fetchInitial => some (c, l.goto .initialFailed)
    | .fetching _ _ token => some (c, l.goto (.failed token))
    | _ => none
  | .panic =>
    match l.pc with
    | .fetchInitial | .askParam .. | .fetching .. => some (c, l.goto .panicked)
    | _ => none

/-- What one step of a loop can do. -/
inductive Step (l : PageLoop T P) (fresh : Token) (now : Instant) (c : QueryClient V) :
    PageOutcome T → QueryClient V → PageLoop T P → Prop where
  | fetchedInitial {page : T} : l.pc = .fetchInitial →
    Step l fresh now c (.ready (.ok page)) c (l.goto (.storeInitial page))
  | storeInitial {page : T} : l.pc = .storeInitial page →
    Step l fresh now c .next (c.storeQueryData now l.query.key
      (ofInfinite (⟨[page], [l.query.initialPageParam]⟩ : InfiniteData T P)) l.query.options)
      (l.goto .stored)
  | notifyInitial {variant : QueryStateVariant} : l.pc = .stored ∨ l.pc = .initialFailed →
    Step l fresh now c .next (c.notifySubscribers l.query.key.cacheKey variant) (l.goto .recv)
  | receive {requests : PageRequests} : l.pc = .recv →
    l.requests.step l.requests.receiveStep = some requests →
    Step l fresh now c .next c { l with requests := requests, pc := l.received requests }
  | resume {requests : PageRequests} : l.pc = .recv → l.requests.step .resume = some requests →
    Step l fresh now c .pending c { l with requests := requests, pc := .recv }
  | read {request : PageRequest} {data : InfiniteData T P} : l.pc = .readData request →
    c.getInfiniteData l.query.key = some data →
    Step l fresh now c .next c (l.goto (.checkInFlight request data))
  | ask {request : PageRequest} {data : InfiniteData T P} : l.pc = .checkInFlight request data →
    c.isInFlight l.query.key = false →
    Step l fresh now c .next c (l.goto (.askParam request data))
  | answer {request : PageRequest} {data : InfiniteData T P} {param : P} :
    l.pc = .askParam request data → l.query.pageParam data request = some param →
    Step l fresh now c .next c (l.goto (.register request param))
  | register {request : PageRequest} {param : P} : l.pc = .register request param →
    Step l fresh now c .next (c.setInFlight l.query.key ⟨fresh, fresh⟩)
      (l.goto (.fetching request param fresh))
  | fetched {request : PageRequest} {param : P} {token : Token} {page : T} :
    l.pc = .fetching request param token →
    Step l fresh now c (.ready (.ok page)) c (l.goto (.add request param page token))
  | failed {request : PageRequest} {param : P} {token : Token} {error : QueryError} :
    l.pc = .fetching request param token →
    Step l fresh now c (.ready (.error error)) c (l.goto (.failed token))
  | append {param : P} {page : T} {token : Token} {c' : QueryClient V}
    {data : Option (InfiniteData T P)} : l.pc = .add .next param page token →
    c.appendInfinitePage now l.query.key page param l.query.maxPages = some (c', data) →
    Step l fresh now c .next c' (l.goto (.deregister token))
  | prepend {param : P} {page : T} {token : Token} : l.pc = .add .previous param page token →
    Step l fresh now c .next
      (c.prependInfinitePage now l.query.key page param l.query.maxPages).1
      (l.goto (.deregister token))
  | notifyFailed {token : Token} : l.pc = .failed token →
    Step l fresh now c .next (c.notifySubscribers l.query.key.cacheKey .error)
      (l.goto (.deregister token))
  | deregister {token : Token} : l.pc = .deregister token →
    Step l fresh now c .next (c.clearInFlight l.query.key) (l.goto .recv)
  /-- The request is not served. -/
  | giveUp {request : PageRequest} : (l.pc = .readData request ∨ ∃ data,
      l.pc = .checkInFlight request data ∨ l.pc = .askParam request data) →
    Step l fresh now c .next c (l.goto .recv)
  /-- It stays where it is, or is over. -/
  | rest {o : PageOutcome T} {pc : LoopPc T P} :
    pc = l.pc ∨ pc = .initialFailed ∨ pc = .panicked →
    Step l fresh now c o c (l.goto pc)

/-- What a loop that waits for a request does. -/
theorem recv_cases
    {l l' : PageLoop T P} {fresh : Token} {now : Instant} {c c' : QueryClient V}
    {o : PageOutcome T} (h : l.advance fresh now c o = some (c', l')) (hpc : l.pc = .recv) :
  ∃ requests, c' = c ∧
    (o = .next ∧ l.requests.step l.requests.receiveStep = some requests ∧
        l' = { l with requests := requests, pc := l.received requests } ∨
      o = .pending ∧ l.requests.step .resume = some requests ∧
        l' = { l with requests := requests, pc := .recv })
  := by
  cases o with
  | next =>
    simp only [advance, hpc] at h
    obtain ⟨requests, hrequests, h⟩ := Option.bind_eq_some_iff.mp h
    obtain ⟨rfl, rfl⟩ := Prod.mk.inj (Option.some.inj h)
    exact ⟨requests, rfl, .inl ⟨rfl, hrequests, rfl⟩⟩
  | pending =>
    simp only [advance, hpc] at h
    obtain ⟨requests, hrequests, h⟩ := Option.bind_eq_some_iff.mp h
    obtain ⟨rfl, rfl⟩ := Prod.mk.inj (Option.some.inj h)
    exact ⟨requests, rfl, .inr ⟨rfl, hrequests, rfl⟩⟩
  | ready result =>
    cases result with
    | ok | error => simp [advance, hpc] at h
  | panic => simp [advance, hpc] at h

/-- A loop that does not wait for a request leaves its requests as they are. -/
theorem requests_of_advance
    {l l' : PageLoop T P} {fresh : Token} {now : Instant} {c c' : QueryClient V}
    {o : PageOutcome T} (h : l.advance fresh now c o = some (c', l')) (hpc : l.pc ≠ .recv) :
  l'.requests = l.requests ∧ l.pc ≠ .ended ∧ l'.pc ≠ .ended
  := by
  unfold advance at h
  split at h
  all_goals repeat' split at h
  all_goals try contradiction
  all_goals
    obtain ⟨rfl, rfl⟩ := Prod.mk.inj (Option.some.inj h)
    simp_all [goto]

theorem step_of_advance
    {l l' : PageLoop T P} {fresh : Token} {now : Instant} {c c' : QueryClient V}
    {o : PageOutcome T} (h : l.advance fresh now c o = some (c', l')) :
  l.Step fresh now c o c' l'
  := by
  by_cases hrecv : l.pc = .recv
  · obtain ⟨requests, rfl, ⟨rfl, hreceive, rfl⟩ | ⟨rfl, hresume, rfl⟩⟩ := recv_cases h hrecv
    · exact .receive hrecv hreceive
    · exact .resume hrecv hresume
  unfold advance at h
  split at h
  all_goals repeat' split at h
  all_goals try contradiction
  all_goals
    obtain ⟨rfl, rfl⟩ := Prod.mk.inj (Option.some.inj h)
    first
    | exact .fetchedInitial ‹_›
    | exact .storeInitial ‹_›
    | exact .notifyInitial (.inl ‹_›)
    | exact .notifyInitial (.inr ‹_›)
    | exact .read ‹_› ‹_›
    | exact .ask ‹_› (Bool.eq_false_iff.mpr ‹_›)
    | exact .answer ‹_› ‹_›
    | exact .register ‹_›
    | exact .fetched ‹_›
    | exact .failed ‹_›
    | exact .append ‹_› ‹_›
    | exact .prepend ‹_›
    | exact .notifyFailed ‹_›
    | exact .deregister ‹_›
    | exact .rest (.inl rfl)
    | exact .rest (.inr (.inl rfl))
    | exact .rest (.inr (.inr rfl))
    | exact .giveUp (.inl ‹_›)
    | exact .giveUp (.inr ⟨_, .inl ‹_›⟩)
    | exact .giveUp (.inr ⟨_, .inr ‹_›⟩)

end PageLoop

/-- A client with its executions and the loops of its infinite queries. -/
structure Pages (V T P : Type) [PartialEqAny V] where
  sys : Sys V
  loops : Table Nat (PageLoop T P)

namespace Pages

/-- A step of the system. -/
inductive Action (V T P : Type) [PartialEqAny V] where
  | sys (a : RsQuery.Action V)
  /-- `spawn_infinite_query`; the loop is given this number. -/
  | spawn (j : Nat) (query : InfiniteQuery T P)
  /-- `fetch_next_page` and `fetch_previous_page`. -/
  | request (j : Nat) (request : PageRequest)
  /-- `fetch_next_page_with` and `fetch_previous_page_with`. -/
  | requestWith (j : Nat) (cancelRefetch : Bool) (request : PageRequest)
  /-- The drop of the observer of a loop goes on. -/
  | dropObserver (j : Nat)
  | advance (j : Nat) (o : PageOutcome T)
  /-- Calls made by other threads. -/
  | append (key : QueryKey) (page : T) (pageParam : P) (maxPages : Option Nat)
  | prepend (key : QueryKey) (page : T) (pageParam : P) (maxPages : Option Nat)
  | hydrate (serde : Option SerdeJson) (state : DehydratedState) (options : HydrateOptions)
  | restore (options : QueryPersisterOptions) (wall : SystemTime) (key : QueryKey) (data : V)
      (dataUpdatedAtMs : Option Nat)

/-- The step is one of the loop. -/
def Action.Advances (j : Nat) : Action V T P → Prop
  | .advance i _ => i = j
  | _ => False

instance (j : Nat) (a : Action V T P) : Decidable (a.Advances j) := by
  unfold Action.Advances
  split
  all_goals infer_instance

/-- The step is a request to the loop. -/
def Action.Requests (j : Nat) : Action V T P → Prop
  | .request i _ | .requestWith i _ _ => i = j
  | _ => False

/-- The system with another client. -/
def setClient (s : Pages V T P) (c : QueryClient V) : Pages V T P :=
  { s with sys.client := c }

/-- The system with one loop replaced. -/
def setLoop (s : Pages V T P) (j : Nat) (l : PageLoop T P) : Pages V T P :=
  { s with loops := s.loops.insert j l }

/-- Gives out a number that no run and no registration has. -/
def fresh (s : Pages V T P) : Pages V T P × Token :=
  ({ s with sys.nextRun := s.sys.nextRun + 1 }, s.sys.nextRun)

/-- `fetch_page_with` as far as the client goes: a fetch in flight is cancelled first. -/
def fetchPageWith (c : QueryClient V) (l : PageLoop T P) (cancelRefetch : Bool)
    (request : PageRequest) : QueryClient V × PageLoop T P :=
  if c.isInFlight l.query.key then
    if cancelRefetch then (c.cancelQuery l.query.key, l.trySend request) else (c, l)
  else (c, l.trySend request)

/-- The state after an action, if it is enabled. -/
def step (s : Pages V T P) : Action V T P → Option (Pages V T P)
  | .sys a => do
    let sys ← s.sys.step a
    some { s with sys := sys }
  | .spawn j query =>
    if s.loops.lookup j = none then some (s.setLoop j { query := query }) else none
  | .request j request => do
    let l ← s.loops.lookup j
    if l.observed then some (s.setLoop j (l.trySend request)) else none
  | .requestWith j cancelRefetch request => do
    let l ← s.loops.lookup j
    if l.observed then
      let (c, l) := fetchPageWith s.sys.client l cancelRefetch request
      some ((s.setClient c).setLoop j l)
    else none
  | .dropObserver j => do
    let l ← s.loops.lookup j
    let requests ← l.requests.dropSender
    some (s.setLoop j { l with requests := requests })
  | .advance j o => do
    let l ← s.loops.lookup j
    let (s, fresh) := s.fresh
    let (c, l) ← l.advance fresh s.sys.now s.sys.client o
    some ((s.setClient c).setLoop j l)
  | .append key page pageParam maxPages =>
    match s.sys.client.appendInfinitePage s.sys.now key page pageParam maxPages with
    | some (c, _) => some (s.setClient c)
    | none => some s
  | .prepend key page pageParam maxPages =>
    some (s.setClient
      (s.sys.client.prependInfinitePage s.sys.now key page pageParam maxPages).1)
  | .hydrate serde state options =>
    some (s.setClient (s.sys.client.hydrate serde s.sys.now state options))
  | .restore options wall key data dataUpdatedAtMs =>
    some (s.setClient
      (QueryPersister.applyRestoredData options s.sys.client wall s.sys.now key data
        dataUpdatedAtMs))

/-- A new client with no run and no loop, and every step. -/
def machine : Machine (Pages V T P) (Action V T P) :=
  ⟨fun s => s = ⟨.initial, ∅⟩, step⟩

/-! ### Steps -/

variable {s s' : Pages V T P}

theorem step_sys {a : RsQuery.Action V} (h : s.step (.sys a) = some s') :
  s.sys.step a = some s'.sys ∧ s'.loops = s.loops
  := by
  obtain ⟨sys, hsys, h⟩ := Option.bind_eq_some_iff.mp h
  obtain rfl := Option.some.inj h
  use hsys

theorem step_request {j : Nat} {request : PageRequest} (h : s.step (.request j request) = some s') :
  ∃ l, s.loops.lookup j = some l ∧ s' = s.setLoop j (l.trySend request)
  := by
  obtain ⟨l, hl, h⟩ := Option.bind_eq_some_iff.mp h
  split at h
  · exact ⟨l, hl, (Option.some.inj h).symm⟩
  · contradiction

/-- A request is sent by an observer. -/
theorem observed_of_requests
    {a : Action V T P} {j : Nat} {l : PageLoop T P} (ha : a.Requests j) (h : s.step a = some s')
    (hl : s.loops.lookup j = some l) :
  l.observed = true
  := by
  cases a with
  | request i request | requestWith i cancelRefetch request =>
    obtain rfl : i = j := ha
    obtain ⟨l₀, hl₀, h⟩ := Option.bind_eq_some_iff.mp h
    obtain rfl := Option.some.inj (hl.symm.trans hl₀)
    split at h
    · assumption
    · contradiction
  | _ => contradiction

theorem step_requestWith
    {j : Nat} {cancelRefetch : Bool} {request : PageRequest}
    (h : s.step (.requestWith j cancelRefetch request) = some s') :
  ∃ l, s.loops.lookup j = some l ∧
    s' = (s.setClient (fetchPageWith s.sys.client l cancelRefetch request).1).setLoop j
      (fetchPageWith s.sys.client l cancelRefetch request).2
  := by
  obtain ⟨l, hl, h⟩ := Option.bind_eq_some_iff.mp h
  split at h
  · exact ⟨l, hl, (Option.some.inj h).symm⟩
  · contradiction

theorem step_dropObserver {j : Nat} (h : s.step (.dropObserver j) = some s') :
  ∃ l requests, s.loops.lookup j = some l ∧ l.requests.dropSender = some requests ∧
    s' = s.setLoop j { l with requests := requests }
  := by
  obtain ⟨l, hl, h⟩ := Option.bind_eq_some_iff.mp h
  obtain ⟨requests, hdrop, h⟩ := Option.bind_eq_some_iff.mp h
  exact ⟨l, requests, hl, hdrop, (Option.some.inj h).symm⟩

theorem step_advance {j : Nat} {o : PageOutcome T} (h : s.step (.advance j o) = some s') :
  ∃ l c l', s.loops.lookup j = some l ∧
    l.advance s.sys.nextRun s.sys.now s.sys.client o = some (c, l') ∧
    s' = (s.fresh.1.setClient c).setLoop j l'
  := by
  obtain ⟨l, hl, h⟩ := Option.bind_eq_some_iff.mp h
  obtain ⟨⟨c, l'⟩, ha, h⟩ := Option.bind_eq_some_iff.mp h
  exact ⟨l, c, l', hl, ha, (Option.some.inj h).symm⟩

theorem step_spawn {j : Nat} {query : InfiniteQuery T P} (h : s.step (.spawn j query) = some s') :
  s.loops.lookup j = none ∧ s' = s.setLoop j { query := query }
  := by
  simp only [step] at h
  split at h
  · next hj => exact ⟨hj, (Option.some.inj h).symm⟩
  · contradiction

omit [StringAny V] [InfiniteAny V T P] in
/-- What `fetch_page_with` does to the client: it cancels, or nothing. -/
theorem fetchPageWith_client (c : QueryClient V) (l : PageLoop T P) (cancelRefetch : Bool)
    (request : PageRequest) :
  (fetchPageWith c l cancelRefetch request).1 = c ∨
    (fetchPageWith c l cancelRefetch request).1 = c.cancelQuery l.query.key
  := by
  unfold fetchPageWith
  split
  · split
    · right; rfl
    · left; rfl
  · left; rfl

omit [StringAny V] [InfiniteAny V T P] in
/-- What `fetch_page_with` does to the loop: it sends the request, or nothing. -/
theorem fetchPageWith_loop (c : QueryClient V) (l : PageLoop T P) (cancelRefetch : Bool)
    (request : PageRequest) :
  (fetchPageWith c l cancelRefetch request).2 = l ∨
    (fetchPageWith c l cancelRefetch request).2 = l.trySend request
  := by
  unfold fetchPageWith
  split
  · split
    · right; rfl
    · left; rfl
  · right; rfl

/-- A step that is not one of the loop leaves it where it is, and what is in its slot if it
is no request. -/
theorem loop_of_step
    {a : Action V T P} {j : Nat} {l : PageLoop T P} (hs : s.step a = some s')
    (ha : ¬ a.Advances j) (hl : s.loops.lookup j = some l) :
  ∃ l', s'.loops.lookup j = some l' ∧ l'.pc = l.pc ∧ l'.query = l.query ∧
    (¬ a.Requests j → l'.requests.slot = l.requests.slot)
  := by
  have hinsert (i : Nat) (l₁ l₂ : PageLoop T P) (hi : s.loops.lookup i = some l₁)
      (hpc : l₂.pc = l₁.pc) (hquery : l₂.query = l₁.query)
      (hslot : i = j → ¬ a.Requests j → l₂.requests.slot = l₁.requests.slot) :
      ∃ l', (s.loops.insert i l₂).lookup j = some l' ∧ l'.pc = l.pc ∧ l'.query = l.query ∧
        (¬ a.Requests j → l'.requests.slot = l.requests.slot) := by
    rw [Table.lookup_insert_eq]
    split
    · next hij =>
      rw [← hij, hl] at hi
      obtain rfl := Option.some.inj hi
      exact ⟨l₂, rfl, hpc, hquery, hslot hij.symm⟩
    · exact ⟨l, hl, rfl, rfl, fun _ => rfl⟩
  cases a with
  | sys a =>
    rw [(step_sys hs).2]
    exact ⟨l, hl, rfl, rfl, fun _ => rfl⟩
  | spawn i query =>
    obtain ⟨hi, rfl⟩ := step_spawn hs
    have hne : j ≠ i := by
      rintro rfl
      rw [hl] at hi
      contradiction
    exact ⟨l, (AList.lookup_insert_ne hne).trans hl, rfl, rfl, fun _ => rfl⟩
  | request i request =>
    obtain ⟨l₁, hi, rfl⟩ := step_request hs
    apply hinsert i l₁ (l₁.trySend request) hi rfl rfl
    exact fun hi hrequests => absurd hi hrequests
  | requestWith i cancelRefetch request =>
    obtain ⟨l₁, hi, rfl⟩ := step_requestWith hs
    have hfetch : (fetchPageWith s.sys.client l₁ cancelRefetch request).2.pc = l₁.pc ∧
        (fetchPageWith s.sys.client l₁ cancelRefetch request).2.query = l₁.query := by
      obtain hsame | hsent := fetchPageWith_loop s.sys.client l₁ cancelRefetch request
      · rw [hsame]
        exact ⟨rfl, rfl⟩
      · rw [hsent]
        exact ⟨rfl, rfl⟩
    apply hinsert i l₁ _ hi hfetch.1 hfetch.2
    exact fun hi hrequests => absurd hi hrequests
  | dropObserver i =>
    obtain ⟨l₁, requests, hi, hdrop, rfl⟩ := step_dropObserver hs
    apply hinsert i l₁ { l₁ with requests := requests } hi rfl rfl
    exact fun _ _ => PageRequests.slot_dropSender hdrop
  | advance i o =>
    obtain ⟨l₁, c, l₂, hi, -, rfl⟩ := step_advance hs
    have hne : j ≠ i := fun heq => ha heq.symm
    exact ⟨l, (AList.lookup_insert_ne hne).trans hl, rfl, rfl, fun _ => rfl⟩
  | append key page pageParam maxPages =>
    simp only [step] at hs
    split at hs
    · obtain rfl := Option.some.inj hs
      exact ⟨l, hl, rfl, rfl, fun _ => rfl⟩
    · obtain rfl := Option.some.inj hs
      exact ⟨l, hl, rfl, rfl, fun _ => rfl⟩
  | prepend key page pageParam maxPages =>
    obtain rfl := Option.some.inj hs
    exact ⟨l, hl, rfl, rfl, fun _ => rfl⟩
  | hydrate serde state options =>
    obtain rfl := Option.some.inj hs
    exact ⟨l, hl, rfl, rfl, fun _ => rfl⟩
  | restore options wall key data dataUpdatedAtMs =>
    obtain rfl := Option.some.inj hs
    exact ⟨l, hl, rfl, rfl, fun _ => rfl⟩

end Pages

end RsQuery
