import RsQuery.Relays
import RsQuery.Stranded

/-!
# Coalescing the fetches of a key

A call that finds its key in flight waits for the fetch that is registered; a spawned
task never looks.  As long as nothing is spawned while a fetch is under way, calls come to
look for the fetch while it is, find nothing else of their type to return, and no fetch
ends without an update for the calls that wait for it, at most one fetch of the key is in
progress, and whoever calls during a fetch gets its result.
-/

namespace RsQuery

variable {V : Type} [PartialEqAny V]

open QueryClient

/-- The result of an execution, once it has one. -/
def Pc.result : Pc V → Option (QueryState V)
  | .finish result | .reply result | .done result => some result
  | _ => none

/-- The result of an execution that is over. -/
def Pc.outcome : Pc V → Option (QueryState V)
  | .reply result | .done result => some result
  | _ => none

omit [PartialEqAny V] in
theorem Pc.result_of_outcome {pc : Pc V} {result : QueryState V} (h : result ∈ pc.outcome) :
  pc.Over ∧ pc.result = some result
  := by
  unfold outcome at h
  split at h
  · exact ⟨trivial, h⟩
  · exact ⟨trivial, h⟩
  · contradiction

/-- A call has the result of the fetch it waited for: the data, fresh or stale, or an
error with the same data to go with it. -/
def QueryState.Agrees (result result' : QueryState V) : Prop :=
  match result with
  | .success data => result' = .success data ∨ result' = .stale data
  | .error _ staleData => ∃ error, result' = .error error staleData
  | _ => False

namespace Run

variable {r q : Run V} {i w : Nat} {now : Instant} {c c' : QueryClient V} {o : Outcome V}
  {pc : Pc V}

/-- The fetch function has been called and has not returned. -/
def InProgress (r : Run V) : Prop :=
  match r.pc with
  | .fetch (.fetching _) | .fetch (.fetchPending _) => True
  | _ => False

/-- It has begun its fetch; a task is that until it deregisters. -/
def Live (r : Run V) : Prop :=
  match r.pc with
  | .fetch _ => True
  | .finish (.success _) | .finish (.error ..) => r.spawned = true
  | _ => False

/-- Its fetch is under way: it is a task that has not deregistered, or a call that fetches. -/
def UnderWay (r : Run V) : Prop :=
  match r.pc with
  | .queued | .start | .finish _ => r.spawned = true
  | .fetch _ => True
  | _ => False

/-- It is a call that has yet to look for a fetch in flight. -/
def Arrives (r : Run V) : Prop :=
  match r.pc with
  | .queued | .start | .dedup => r.spawned = false
  | _ => False

/-- It waits in `wait_for_dedup`. -/
def Waits (r : Run V) : Prop :=
  match r.pc with
  | .waitForDedup _ => True
  | _ => False

/-- It is a task that deregisters with its next step. -/
def Deregisters (r : Run V) : Prop :=
  match r.pc with
  | .finish _ => r.spawned = true
  | _ => False

/-- It goes on to fetch with its next step. -/
def Begins (r : Run V) (c : QueryClient V) : Prop :=
  match r.pc with
  | .start => c.isRestoring = false ∧ r.spawned = true
  | .dedup => c.isInFlight r.query.key = false
  | _ => False

/-- A call that finds this fetch in flight has yet to be told how it ends, or finds its
data, and finds no other. -/
def Joinable (q r : Run V) (c : QueryClient V) : Prop :=
  r.query.typeId = q.query.typeId ∧
    match q.pc with
    | .queued | .start => r.cached c = none
    | .fetch .stored | .fetch .readBack | .finish (.success _) => True
    | .fetch (.failing _) => False
    | .fetch _ => r.cached c = none
    | _ => False

/-- The next step of a fetch ends it without an update for this call. -/
def Misses (q r : Run V) (c : QueryClient V) (o : Outcome V) : Prop :=
  match q.pc, o with
  | .start, _ => c.isRestoring = true
  | .fetch .gate, _ => canFetch q.query.options.networkMode c.online.isOnline = false
  | .fetch (.fetching _), .panic _ | .fetch (.fetched _), .panic _ => True
  | .fetch (.failed _ error), _ => error.isCancelled = true
  | .fetch (.notifyError _), _ => r.rx = none
  | _, _ => False

instance : Decidable r.InProgress := by
  unfold InProgress
  rcases r.pc with _ | _ | _ | _ | ⟨_ | _⟩ | _ <;> infer_instance

instance : Decidable r.Live := by
  unfold Live
  rcases r.pc with _ | _ | _ | _ | _ | ⟨_ | _⟩ | _ <;> infer_instance

instance : Decidable r.UnderWay := by
  unfold UnderWay
  rcases r.pc with _ | _ <;> infer_instance

instance : Decidable r.Arrives := by
  unfold Arrives
  rcases r.pc with _ | _ <;> infer_instance

instance : Decidable r.Waits := by
  unfold Waits
  rcases r.pc with _ | _ <;> infer_instance

instance : Decidable r.Deregisters := by
  unfold Deregisters
  rcases r.pc with _ | _ <;> infer_instance

instance : Decidable (r.Begins c) := by
  unfold Begins
  rcases r.pc with _ | _ <;> infer_instance

instance : Decidable (q.Joinable r c) := by
  unfold Joinable
  apply @instDecidableAnd _ _ _ ?_
  rcases q.pc with _ | _ | _ | _ | ⟨_ | _⟩ | ⟨_ | _⟩ | _ <;> infer_instance

instance : Decidable (q.Misses r c o) := by
  unfold Misses
  rcases q.pc with _ | _ | _ | _ | ⟨_ | _⟩ | _ <;> rcases o with _ | _ <;> infer_instance

end Run

/-- How many updates the receiver has queued. -/
def Slot.queued (x : Slot V) (rx : Nat) : Nat :=
  (x.receiver rx).elim 0 fun st => st.queue.length

/-- At most how many steps a waiting call is from its result, once its fetch has its own. -/
def WaitPc.rank (x : Slot V) : WaitPc V → Nat
  | .judge .. | .received .. => 1
  | .receive rx => 2 + 2 * x.queued rx
  | .parked rx => 3 + 2 * x.queued rx
  | .recheck rx => 4 + 2 * x.queued rx
  | .subscribe => 5

omit [PartialEqAny V] in
theorem Slot.Hears.queued
    {x : Slot V} {rx : Nat} {heard : List QueryStateVariant} (h : x.Hears rx heard) :
  x.queued rx = heard.length
  := by
  obtain ⟨st, hst, -, -, rfl⟩ := h
  have hst : x.receiver rx = some st := hst
  rw [Slot.queued, hst, List.length_map]
  rfl

namespace Sys

/-- The fetches that are under way. -/
def underWay (s : Sys V) : List Nat :=
  s.runs.keys.filter fun i => (s.runs.lookup i).any fun r => r.UnderWay

/-- Who is to get the result of a fetch: whoever spawns or calls while it is under way, and
the call that finds it in flight. -/
def callers (s : Sys V) (a : Action V) (_ : Sys V) : List (Nat × Nat) :=
  match a with
  | .spawn _ | .execute _ => s.underWay.map fun i => (s.nextRun, i)
  | .advance w _ => (s.runs.lookup w).elim [] fun r =>
    if r.AtDedup then
      ((s.client.inFlight.lookup r.query.key.cacheKey).map fun task => (w, task.abort)).toList
    else []
  | _ => []

/-- Nothing runs yet; whoever subscribed to the key did so as usual. -/
structure Idle (k : QueryKey) (s : Sys V) : Prop where
  runs : s.runs = ∅
  sane : s.Sane
  isOpen : (s.client.slot k.cacheKey).Open

/-- The system from an idle state, with the callers of each fetch. -/
def coalescing (k : QueryKey) : Machine (Sys V × List (Nat × Nat)) (Action V) :=
  Machine.noting ⟨Idle k, step⟩ callers

/-- One key is spawned, and called while it is registered, and nothing is cancelled. -/
def OneKey (k : QueryKey) (t : Sys V × List (Nat × Nat)) (a : Action V) : Prop :=
  match a with
  | .spawn query => query.key = k
  | .execute query => query.key = k ∧ t.1.client.isInFlight k = true
  | .register _ | .advance .. | .detach _ | .tick _ => True
  | .drop i => ∃ r ∈ t.1.runs.lookup i, r.detached = true
  | _ => False

/-- Own steps of caller `w` alone lead to a result that agrees with this one. -/
def Receives (s : Sys V) (w : Nat) (result : QueryState V) : Prop :=
  ∃ n s' r result', machine.exec s (List.replicate n (.advance w .next)) = some s' ∧
    s'.runs.lookup w = some r ∧ r.pc = .done result' ∧ result.Agrees result'

/-- At most one fetch is in progress, and once a fetch is over its callers get its result. -/
structure Coalesced (t : Sys V × List (Nat × Nat)) : Prop where
  single : ∀ i j q r, t.1.runs.lookup i = some q → t.1.runs.lookup j = some r →
    q.InProgress → r.InProgress → i = j
  received : ∀ p ∈ t.2, ∀ q ∈ t.1.runs.lookup p.2, ∀ result ∈ q.pc.outcome,
    Receives t.1 p.1 result

/-- Nothing is spawned while a fetch is under way, and a call is made while the one that is
registered is.  A task begins its fetch with all who wait waiting for it; a call that looks
for a fetch in flight finds one that can still tell it how it ends; no fetch ends without an
update for a call that waits for it; and no task deregisters while a call for its fetch has
yet to look. -/
def Coalesces (k : QueryKey) (t : Sys V × List (Nat × Nat)) (a : Action V) : Prop :=
  OneKey k t a ∧
    match a with
    | .spawn _ => ∀ i q, t.1.runs.lookup i = some q → ¬ q.UnderWay
    | .execute _ => ∀ task ∈ t.1.client.inFlight.lookup k.cacheKey,
      ∀ q ∈ t.1.runs.lookup task.abort, q.UnderWay
    | .advance i o => ∀ r ∈ t.1.runs.lookup i,
      (r.Begins t.1.client →
        ∀ p ∈ t.2, ∀ q ∈ t.1.runs.lookup p.1, q.Waits → p.2 = i) ∧
      (r.AtDedup → ∀ task ∈ t.1.client.inFlight.lookup k.cacheKey,
        ∀ q ∈ t.1.runs.lookup task.abort, q.Joinable r t.1.client) ∧
      (∀ p ∈ t.2, p.2 = i → ∀ q ∈ t.1.runs.lookup p.1, q.Waits →
        ¬ r.Misses q t.1.client o) ∧
      (r.Deregisters → ∀ p ∈ t.2, p.2 = i → ∀ q ∈ t.1.runs.lookup p.1, ¬ q.Arrives)
    | _ => True

/-- No other run has begun its fetch. -/
def Alone (s : Sys V) (i : Nat) : Prop :=
  ∀ j q, s.runs.lookup j = some q → j ≠ i → ¬ q.Live

instance (k : QueryKey) (t : Sys V × List (Nat × Nat)) (a : Action V) :
    Decidable (OneKey k t a) := by
  unfold OneKey
  rcases a with _ | _ <;> infer_instance

instance (k : QueryKey) (t : Sys V × List (Nat × Nat)) (a : Action V) :
    Decidable (Coalesces k t a) := by
  unfold Coalesces
  apply @instDecidableAnd _ _ _ ?_
  rcases a with _ | _ <;> infer_instance

end Sys

/-! ### A fetch and a call that waits for it -/

namespace Run

variable {r q q' : Run V} {i w : Nat} {now : Instant} {c c' : QueryClient V} {o : Outcome V}
  {pc : Pc V} {p : WaitPc V} {x x' : Slot V}

/-- The updates a fetch has sent, at most. -/
def toldBy (q : Run V) : List QueryStateVariant :=
  match q.pc with
  | .queued | .start | .fetch .loading => []
  | .fetch .readBack | .finish (.success _) | .reply (.success _) | .done (.success _) =>
    [.loading, .success]
  | .fetch (.failing _) | .finish (.error ..) | .reply (.error ..) | .done (.error ..) =>
    [.loading, .error]
  | .fetch _ => [.loading]
  | _ => []

/-- What is cached of the type of a fetch that calls wait for, by where it stands. -/
def Holds (q : Run V) (c : QueryClient V) : Prop :=
  match q.pc with
  | .fetch .stored | .fetch .readBack => ∃ data, q.cached c = some data
  | .finish (.success data) | .reply (.success data) | .done (.success data) =>
    q.cached c = some data
  | .finish (.error _ staleData) | .reply (.error _ staleData) | .done (.error _ staleData) =>
    q.cached c = none ∧ staleData = none
  | .queued | .start | .fetch _ => q.cached c = none
  | _ => False

/-- Where a call stands that waits for a fetch, given the slot of the key and what is
cached of its type. -/
def WaitsFor (q : Run V) (x : Slot V) (data : Option V) : WaitPc V → Prop
  | .subscribe => .error ∉ q.toldBy
  | .recheck rx =>
    ∃ heard, x.Hears rx heard ∧ heard.Sublist q.toldBy ∧ (.error ∈ q.toldBy → .error ∈ heard)
  | .receive rx | .parked rx =>
    ∃ heard, x.Hears rx heard ∧ heard.Sublist q.toldBy ∧
      ∀ v ∈ q.toldBy, v ≠ .loading → v ∈ heard
  | .judge _ v => data = some v
  | .received _ variant => variant ∈ q.toldBy ∧ variant ≠ .loading

/-- A call that waited for a fetch got this result. -/
def Gave (q : Run V) (c : QueryClient V) (result : QueryState V) : Prop :=
  match q.pc with
  | .fetch .stored | .fetch .readBack =>
    ∃ data, q.cached c = some data ∧ (QueryState.success data).Agrees result
  | .fetch (.failing _) => q.cached c = none ∧ ∃ error, result = .error error none
  | .finish result' | .reply result' | .done result' => result'.Agrees result
  | _ => False

/-- Data that was fetched is of the type of the query, and tasks do not look for a fetch
in flight. -/
def Fits (r : Run V) : Prop :=
  match r.pc with
  | .fetch (.fetched data) | .fetch (.selected data) => typeOf data = r.query.typeId
  | .dedup | .waitForDedup _ => r.spawned = false
  | _ => True

theorem cached_eq (hkey : r.query.key = q.query.key) (htype : r.query.typeId = q.query.typeId) :
  r.cached c = q.cached c
  := by
  rw [cached, cached, hkey, htype]

theorem cached_of_cache (hc : c'.cache = c.cache) :
  q.cached c' = q.cached c
  := by
  simp only [cached, getQueryData, hc]

/-- What is told follows on what was told. -/
def Tells (q : Run V) (v : List QueryStateVariant) (q' : Run V) : Prop :=
  (q.toldBy ++ v).Sublist q'.toldBy ∧
    ∀ u ∈ q'.toldBy, u ≠ .loading → u ∈ q.toldBy ∨ u ∈ v

/-- A waiting call waits on while its receiver hears what the fetch tells. -/
theorem WaitsFor.relays
    {data data' : Option V} {v : List QueryStateVariant} (h : q.WaitsFor x data p)
    (hheard : ∀ rx heard, p.rx = some rx → heard.Sublist q.toldBy → x.Hears rx heard →
      x'.Hears rx (heard ++ v))
    (htells : q.Tells v q') (hdata : ∀ v, data = some v → data' = some v)
    (hsubscribed : p.rx = none → .error ∉ v) :
  q'.WaitsFor x' data' p
  := by
  obtain ⟨hsub, hnew⟩ := htells
  have hsub' {heard : List QueryStateVariant} (hle : heard.Sublist q.toldBy) :
      (heard ++ v).Sublist q'.toldBy := (hle.append (List.Sublist.refl v)).trans hsub
  cases p with
  | subscribe =>
    intro herror
    obtain hold | hv := hnew .error herror nofun
    · apply h hold
    · apply hsubscribed rfl hv
  | recheck rx =>
    obtain ⟨heard, hx, hle, hmem⟩ := h
    refine ⟨heard ++ v, hheard rx heard rfl hle hx, hsub' hle, ?_⟩
    intro herror
    rw [List.mem_append]
    apply (hnew .error herror nofun).imp_left hmem
  | judge rx data => apply hdata _ h
  | received rx variant =>
    use hsub.subset (List.mem_append_left v h.1), h.2
  | receive rx =>
    obtain ⟨heard, hx, hle, hmem⟩ := h
    refine ⟨heard ++ v, hheard rx heard rfl hle hx, hsub' hle, ?_⟩
    intro u hu hne
    rw [List.mem_append]
    apply (hnew u hu hne).imp_left fun hu => hmem u hu hne
  | parked rx =>
    obtain ⟨heard, hx, hle, hmem⟩ := h
    refine ⟨heard ++ v, hheard rx heard rfl hle hx, hsub' hle, ?_⟩
    intro u hu hne
    rw [List.mem_append]
    apply (hnew u hu hne).imp_left fun hu => hmem u hu hne

/-- Fetched data is found once it is stored. -/
theorem cached_storeQueryData
    {data : V} (now : Instant) (hdata : typeOf data = q.query.typeId) :
  ∃ v, q.cached (c.storeQueryData now q.query.key data q.query.options) = some v
  := by
  rw [← Option.isSome_iff_exists, cached_isSome, slot_storeQueryData, if_pos rfl,
    hasData_newEntry, hdata]
  apply decide_eq_true rfl

/-- Where a step of a fetch leads that calls wait for. -/
structure Follows (q : Run V) (c : QueryClient V) (q' : Run V) (c' : QueryClient V) : Prop where
  holds : q'.Holds c'
  tells : q.Tells q.notice q'
  keeps : ∀ v, q.cached c = some v → q.cached c' = some v

/-- A step of a fetch function's loop that stores nothing and is not the last. -/
theorem Follows.of_quiet
    {f : FetchPc V} (hnone : q.cached c = none) (hc : c'.cache = c.cache)
    (hpc : { q with pc := .fetch f }.Holds c' ↔ q.cached c' = none)
    (htells : q.Tells q.notice { q with pc := .fetch f }) :
  q.Follows c { q with pc := .fetch f } c'
  := by
  refine ⟨?_, htells, ?_⟩
  · rw [hpc, cached_of_cache hc, hnone]
  · intro v hv
    rw [cached_of_cache hc, hv]

theorem Holds.advanceFetch
    {f : FetchPc V} (hpc : q.pc = .fetch f) (hh : q.Holds c) (hf : q.Fits)
    (hsignals : q.Unstopped i c) (hmiss : ¬ q.Misses r c o)
    (ha : q.advanceFetch i now c (decide (i ∈ c.signals.cancelled)) f o = some (c', pc)) :
  q.Follows c { q with pc := pc } c'
  := by
  have hcancelled : decide (i ∈ c.signals.cancelled) = false := decide_eq_false hsignals.1
  have hnotify (v : QueryStateVariant) :
      (c.notifySubscribers q.query.key.cacheKey v).cache = c.cache :=
    (c.notifySubscribers_frame _ v).1
  rw [hcancelled] at ha
  cases takes_of_advanceFetch ha with
  | online | attempt | call | suspend | data | error | noSelect | select | backOff | waitForOnline
  | giveUp | waited | goOnWaiting | backOffOnline =>
    simp only [Holds, hpc] at hh
    apply Follows.of_quiet hh rfl Iff.rfl
    simp [Tells, toldBy, notice, hpc]
  | resumeFetch hresume | resumeWait hresume | resumeSleep hresume =>
    simp only [Holds, hpc] at hh
    rw [resume_of_unstopped hsignals] at hresume
    cases hresume
    apply Follows.of_quiet hh rfl Iff.rfl
    simp [Tells, toldBy, notice, hpc]
  | loading | notifyError =>
    simp only [Holds, hpc] at hh
    apply Follows.of_quiet hh (hnotify _) Iff.rfl
    simp [Tells, toldBy, notice, hpc]
  | noAttempt hc | noCall hc | cancel hc | waitCancelled hc => contradiction
  | paused hfetch => simp [Misses, hpc, hfetch] at hmiss
  | panic | selectPanic => simp [Misses, hpc] at hmiss
  | failedCancelled hcancel => simp [Misses, hpc, hcancel] at hmiss
  | store =>
    simp only [Holds, hpc] at hh
    simp only [Fits, hpc] at hf
    refine ⟨cached_storeQueryData now hf, ?_, ?_⟩
    · simp [Tells, toldBy, notice, hpc]
    · rw [hh]
      simp
  | stored =>
    simp only [Holds, hpc] at hh
    have hcached := cached_of_cache (q := q) (hnotify .success)
    refine ⟨?_, ?_, ?_⟩
    · obtain ⟨data, hdata⟩ := hh
      exact ⟨data, hcached.trans hdata⟩
    · simp [Tells, toldBy, notice, hpc]
    · intro v hv
      apply hcached.trans hv
  | readBack hdata =>
    refine ⟨hdata, ?_, fun _ => id⟩
    simp [Tells, toldBy, notice, hpc]
  | gone hnone =>
    simp only [Holds, hpc] at hh
    obtain ⟨data, hdata⟩ := hh
    rw [hnone] at hdata
    contradiction
  | fail =>
    simp only [Holds, hpc] at hh
    refine ⟨⟨hh, hh⟩, ?_, fun _ => id⟩
    simp [Tells, toldBy, notice, hpc]

/-- A step of a fetch that calls wait for. -/
theorem Holds.advance
    (hh : q.Holds c) (hf : q.Fits) (hsignals : q.Unstopped i c) (hsp : q.spawned = true)
    (hmiss : ¬ q.Misses r c o) (ha : q.advance i now c o = some (c', pc)) :
  q.Follows c { q with pc := pc } c'
  := by
  cases takes_of_advance ha with
  | poll hpc hresume =>
    simp only [Holds, hpc] at hh
    rw [resume_of_unstopped hsignals] at hresume
    cases hresume
    refine ⟨hh, ?_, fun _ => id⟩
    simp [Tells, toldBy, notice, hpc]
  | restoring hpc hrestoring => simp [Misses, hpc, hrestoring] at hmiss
  | task hpc _ _ =>
    simp only [Holds, hpc] at hh
    refine ⟨hh, ?_, fun _ => id⟩
    simp [Tells, toldBy, notice, hpc]
  | direct hpc _ hsp' =>
    rw [hsp] at hsp'
    contradiction
  | join hpc _ | alone hpc _ | wait hpc _ => simp [Holds, hpc] at hh
  | fetch hpc ha => apply hh.advanceFetch hpc hf hsignals hmiss ha
  | @deregister result hpc _ | @finish result hpc _ | @reply result hpc =>
    cases result with
    | success data =>
      simp only [Holds, hpc] at hh
      refine ⟨hh, ?_, fun _ => id⟩
      simp [Tells, toldBy, notice, hpc]
    | error error staleData =>
      simp only [Holds, hpc] at hh
      refine ⟨hh, ?_, fun _ => id⟩
      simp [Tells, toldBy, notice, hpc]
    | _ => simp [Holds, hpc] at hh

/-- A step of a fetch that gave a call its result. -/
theorem Gave.advance
    {result : QueryState V} (hg : q.Gave c result) (ha : q.advance i now c o = some (c', pc)) :
  { q with pc := pc }.Gave c' result
  := by
  cases takes_of_advance ha with
  | fetch hpc ha =>
    cases takes_of_advanceFetch ha with
    | stored =>
      simp only [Gave, hpc] at hg
      obtain ⟨data, hdata, hagrees⟩ := hg
      have hcache := (c.notifySubscribers_frame q.query.key.cacheKey .success).1
      exact ⟨data, (cached_of_cache hcache).trans hdata, hagrees⟩
    | readBack hdata =>
      simp only [Gave, hpc] at hg
      obtain ⟨data, hdata', hagrees⟩ := hg
      obtain rfl := Option.some.inj (hdata.symm.trans hdata')
      apply hagrees
    | gone hnone =>
      simp only [Gave, hpc] at hg
      obtain ⟨data, hdata, -⟩ := hg
      rw [hnone] at hdata
      contradiction
    | fail =>
      simp only [Gave, hpc] at hg
      obtain ⟨hnone, hresult⟩ := hg
      rw [hnone]
      apply hresult
    | _ => simp [Gave, hpc] at hg
  | deregister hpc _ | finish hpc _ | reply hpc =>
    simp only [Gave, hpc] at hg
    apply hg
  | poll hpc _ | restoring hpc _ | task hpc _ _ | direct hpc _ _ | join hpc _ | alone hpc _
  | wait hpc _ => simp [Gave, hpc] at hg

/-- Cached data is what the fetch stored. -/
theorem Holds.gave_cached
    {data : V} {result : QueryState V} (hh : q.Holds c) (hdata : q.cached c = some data)
    (hresult : (QueryState.success data).Agrees result) :
  q.Gave c result
  := by
  have stored {data' : V} (h : q.cached c = some data') :
      (QueryState.success data').Agrees result := by
    obtain rfl := Option.some.inj (hdata.symm.trans h)
    apply hresult
  have missing (h : q.cached c = none) : q.Gave c result := by
    rw [hdata] at h
    contradiction
  unfold Holds at hh
  split at hh
  all_goals
    next hpc =>
    first
    | exact hh.elim
    | exact missing hh
    | exact missing hh.1
    | simp only [Gave, hpc]
      first
      | exact stored hh
      | exact ⟨data, hdata, hresult⟩

/-- A fetch that told success has stored data. -/
theorem Holds.exists_cached (hh : q.Holds c) (h : .success ∈ q.toldBy) :
  ∃ data, q.cached c = some data
  := by
  unfold toldBy at h
  split at h
  all_goals
    next hpc =>
    first
    | exact absurd h (by decide)
    | simp only [Holds, hpc] at hh
      first
      | exact hh
      | exact ⟨_, hh⟩

/-- A fetch that told an error has stored nothing. -/
theorem Holds.gave_error (hh : q.Holds c) (h : .error ∈ q.toldBy) (error : QueryError) :
  q.cached c = none ∧ q.Gave c (.error error none)
  := by
  unfold toldBy at h
  split at h
  all_goals
    next hpc =>
    first
    | exact absurd h (by decide)
    | simp only [Holds, hpc] at hh
      simp only [Gave, hpc]
      first
      | exact ⟨hh, hh, error, rfl⟩
      | obtain ⟨hnone, rfl⟩ := hh
        exact ⟨hnone, error, rfl⟩

/-- A fetch that has its result has told how it ended. -/
theorem Holds.told (hh : q.Holds c) (h : q.pc.result.isSome = true) :
  ∃ v ∈ q.toldBy, v ≠ .loading
  := by
  unfold Pc.result at h
  split at h
  case h_4 => contradiction
  all_goals
    next result hpc =>
    cases result with
    | success data => exact ⟨.success, by simp [toldBy, hpc], nofun⟩
    | error error staleData => exact ⟨.error, by simp [toldBy, hpc], nofun⟩
    | _ => simp [Holds, hpc] at hh

theorem mem_toldBy {v : QueryStateVariant} (h : v ∈ q.toldBy) :
  v = .loading ∨ v = .success ∨ v = .error
  := by
  unfold toldBy at h
  split at h
  all_goals simp only [List.mem_cons, List.not_mem_nil, or_false] at h
  all_goals grind

/-- Where a step of a call leads that waits for fetch `q`: it waits on, closer to its
result once the fetch has its own, or it got it. -/
def StepsOn (q : Run V) (c c' : QueryClient V) (p : WaitPc V) (pc : Pc V) : Prop :=
  (∃ p', pc = .waitForDedup p' ∧ q.WaitsFor (q.slotOf c') (q.cached c') p' ∧
    (q.pc.result.isSome = true → p'.rank (q.slotOf c') < p.rank (q.slotOf c))) ∨
  ∃ result, pc = .finish result ∧ q.Gave c' result

theorem WaitsFor.advanceWait
    (hkey : r.query.key = q.query.key) (htype : r.query.typeId = q.query.typeId)
    (ho : (q.slotOf c).Open) (hh : q.Holds c)
    (h : q.WaitsFor (q.slotOf c) (q.cached c) p) (w : Nat) (now : Instant) :
  q.StepsOn c (r.advanceWait w now c p).1 p (r.advanceWait w now c p).2
  := by
  have hcached : r.cached c = q.cached c := cached_eq hkey htype
  have hslot : (q.slotOf c) = c.slot r.query.key.cacheKey := by rw [slotOf, hkey]
  cases p with
  | subscribe =>
    left
    have hears := r.hears_subscribe c
    have hslot' : (c.subscribe r.query.key.cacheKey).1.slot r.query.key.cacheKey
        = q.slotOf (c.subscribe r.query.key.cacheKey).1 := by
      rw [slotOf, hkey]
    rw [hslot'] at hears
    refine ⟨_, rfl, ⟨[], hears, List.nil_sublist _, fun herror => absurd herror h⟩, ?_⟩
    have hrank : (WaitPc.recheck (c.subscribe r.query.key.cacheKey).2 : WaitPc V).rank
        (q.slotOf (c.subscribe r.query.key.cacheKey).1) = 4 := by
      rw [WaitPc.rank, hears.queued]
      rfl
    exact fun _ => hrank.trans_lt (Nat.lt_succ_self 4)
  | recheck rx =>
    obtain ⟨heard, hx, hle, hmem⟩ := h
    left
    simp only [Run.advanceWait, hcached]
    cases hdata : q.cached c with
    | some data =>
      refine ⟨_, rfl, hdata, ?_⟩
      simp only [WaitPc.rank]
      omega
    | none =>
      refine ⟨_, rfl, ⟨heard, hx, hle, ?_⟩, ?_⟩
      · intro v hv hne
        obtain rfl | rfl | rfl := mem_toldBy hv
        · contradiction
        · obtain ⟨data, hdata'⟩ := hh.exists_cached hv
          rw [hdata] at hdata'
          contradiction
        · apply hmem hv
      · simp only [WaitPc.rank]
        omega
  | judge rx data =>
    right
    simp only [Run.advanceWait]
    have hdata : q.cached (r.dropReceiver c rx) = some data := h
    have hh' : q.Holds (r.dropReceiver c rx) := hh
    split
    · exact ⟨_, rfl, hh'.gave_cached hdata (.inr rfl)⟩
    · exact ⟨_, rfl, hh'.gave_cached hdata (.inl rfl)⟩
  | receive rx =>
    obtain ⟨heard, hx, hle, hmem⟩ := h
    rw [hslot] at ho hx
    obtain ⟨c', hpoll, hx', hc⟩ := recvPoll_of_hears ho w hx
    simp only [Run.advanceWait, hpoll]
    left
    cases heard with
    | nil =>
      refine ⟨_, rfl, ⟨[], ?_, hle, hmem⟩, ?_⟩
      · rw [slotOf, ← hkey]
        apply hx'
      · intro hresult
        obtain ⟨v, hv, hne⟩ := hh.told hresult
        exact absurd (hmem v hv hne) List.not_mem_nil
    | cons u heard =>
      have hu : u ∈ q.toldBy := hle.subset List.mem_cons_self
      have hrest : (q.slotOf c').Hears rx heard := by
        rw [slotOf, ← hkey]
        apply hx'
      have hrank : (WaitPc.receive rx : WaitPc V).rank (q.slotOf c) = 4 + 2 * heard.length := by
        rw [WaitPc.rank, hslot, hx.queued, List.length_cons]
        omega
      rw [hrank]
      obtain rfl | rfl | rfl := mem_toldBy hu
      · refine ⟨_, rfl, ⟨heard, hrest, (List.sublist_cons_self _ _).trans hle, ?_⟩, ?_⟩
        · intro v hv hne
          apply (List.mem_cons.mp (hmem v hv hne)).resolve_left hne
        · intro _
          simp only [Option.elim_some, List.head?_cons, WaitPc.onUpdate, WaitPc.rank, hrest.queued]
          omega
      · refine ⟨_, rfl, ⟨hu, by simp⟩, ?_⟩
        intro _
        simp only [Option.elim_some, List.head?_cons, WaitPc.onUpdate, WaitPc.rank]
        omega
      · refine ⟨_, rfl, ⟨hu, by simp⟩, ?_⟩
        intro _
        simp only [Option.elim_some, List.head?_cons, WaitPc.onUpdate, WaitPc.rank]
        omega
  | parked rx =>
    left
    refine ⟨_, rfl, h, ?_⟩
    intro _
    simp only [WaitPc.rank, Run.advanceWait]
    omega
  | received rx variant =>
    right
    obtain ⟨hv, hne⟩ := h
    have hh' : q.Holds (r.dropReceiver c rx) := hh
    obtain rfl | rfl | rfl := mem_toldBy hv
    · contradiction
    · obtain ⟨data, hdata⟩ := hh.exists_cached hv
      simp only [Run.advanceWait, hcached, hdata]
      exact ⟨_, rfl, hh'.gave_cached hdata (.inl rfl)⟩
    · obtain ⟨hnone, hgave⟩ := hh'.gave_error hv (.custom "Deduplicated request failed")
      have hnone : q.cached c = none := hnone
      simp only [Run.advanceWait, hcached, hnone]
      exact ⟨_, rfl, hgave⟩

theorem Holds.of_cache (hh : q.Holds c) (hc : c'.cache = c.cache) :
  q.Holds c'
  := by
  simpa only [Holds, cached_of_cache hc] using hh

theorem Gave.of_cache
    {result : QueryState V} (hg : q.Gave c result) (hc : q.Live → c'.cache = c.cache) :
  q.Gave c' result
  := by
  unfold Gave at hg ⊢
  split at hg
  all_goals
    next hpc =>
    first
    | exact hg.elim
    | exact hg
    | have hlive : q.Live := by simp only [Live, hpc]
      rw [cached_of_cache (hc hlive)]
      apply hg

theorem length_toldBy (q : Run V) :
  q.toldBy.length ≤ 2
  := by
  unfold toldBy
  split
  all_goals decide

theorem length_notice (q : Run V) :
  q.notice.length ≤ 1
  := by
  unfold notice
  split
  all_goals decide

theorem notice_of_not_live (h : ¬ q.Live) :
  q.notice = []
  := by
  unfold notice
  split
  all_goals
    next hpc =>
    first
    | rfl
    | simp [Live, hpc] at h

/-! ### Any execution -/

/-- Data that a fetch has stored is cached until it is over. -/
def Keeps (q : Run V) (c : QueryClient V) : Prop :=
  match q.pc with
  | .fetch .stored | .fetch .readBack => ∃ data, q.cached c = some data
  | .finish (.success data) => q.spawned = true → q.cached c = some data
  | _ => True

theorem Keeps.of_cache (hk : q.Keeps c) (hc : q.Live → c'.cache = c.cache) :
  q.Keeps c'
  := by
  unfold Keeps at hk ⊢
  split at hk
  · next hpc =>
    have hlive : q.Live := by simp only [Live, hpc]
    rwa [cached_of_cache (hc hlive)]
  · next hpc =>
    have hlive : q.Live := by simp only [Live, hpc]
    rwa [cached_of_cache (hc hlive)]
  · next hpc =>
    intro hsp
    have hlive : q.Live := by simpa only [Live, hpc] using hsp
    rw [cached_of_cache (hc hlive)]
    apply hk hsp
  · trivial

/-- Where any step of an execution leads. -/
structure Goes (r : Run V) (c : QueryClient V) (r' : Run V) (c' : QueryClient V) : Prop where
  fits : r'.Fits
  keeps : r'.Keeps c'
  live : r'.Live → r.Live ∨ r.Begins c
  underWay : r'.UnderWay → r.UnderWay ∨ r.Begins c

/-- A fetch that has begun is under way. -/
theorem Live.underWay (h : r.Live) :
  r.UnderWay
  := by
  unfold Live at h
  split at h
  all_goals
    next hpc =>
    first
    | exact h.elim
    | simp [UnderWay, hpc, h]

theorem Goes.of_resume
    {pc' : Pc V} (hresume : r.resume i c pc' = (c', pc)) (hfits : { r with pc := pc' }.Fits)
    (hkeeps : { r with pc := pc' }.Keeps c)
    (hlive : { r with pc := pc' }.Live → r.Live ∨ r.Begins c)
    (hunderWay : { r with pc := pc' }.UnderWay → r.UnderWay ∨ r.Begins c) :
  r.Goes c { r with pc := pc } c'
  := by
  unfold resume at hresume
  split at hresume
  · cases hresume
    exact ⟨trivial, trivial, nofun, nofun⟩
  · cases hresume
    exact ⟨hfits, hkeeps, hlive, hunderWay⟩

theorem Goes.of_panicked (hlive : r.Live) (payload : PanicPayload) :
  r.Goes c { r with pc := r.panicked payload } c
  := by
  unfold panicked
  split
  · exact ⟨trivial, trivial, fun _ => .inl hlive, fun _ => .inl hlive.underWay⟩
  · exact ⟨trivial, trivial, nofun, nofun⟩

theorem goes_advanceFetch
    {f : FetchPc V} {cancelled : Bool} (hpc : r.pc = .fetch f) (hf : r.Fits) (hk : r.Keeps c)
    (ha : r.advanceFetch i now c cancelled f o = some (c', pc)) :
  r.Goes c { r with pc := pc } c'
  := by
  have hlive : r.Live := by simp only [Live, hpc]
  -- the next program point asks for nothing
  have goes {c' : QueryClient V} {pc : Pc V} (hfits : { r with pc := pc }.Fits)
      (hkeeps : { r with pc := pc }.Keeps c') : r.Goes c { r with pc := pc } c' :=
    ⟨hfits, hkeeps, fun _ => .inl hlive, fun _ => .inl hlive.underWay⟩
  cases takes_of_advanceFetch ha with
  | resumeFetch hresume | resumeWait hresume | resumeSleep hresume =>
    exact Goes.of_resume hresume trivial trivial (fun _ => .inl hlive) fun _ =>
      .inl hlive.underWay
  | panic | selectPanic | gone => exact Goes.of_panicked hlive _
  | data htype => exact goes htype trivial
  | noSelect =>
    simp only [Fits, hpc] at hf
    exact goes hf trivial
  | @select data select hselect =>
    simp only [Fits, hpc] at hf
    exact goes (r.query.select_typeOf select hselect data hf) trivial
  | store =>
    simp only [Fits, hpc] at hf
    exact goes trivial (cached_storeQueryData now hf)
  | stored =>
    simp only [Keeps, hpc] at hk
    obtain ⟨data, hdata⟩ := hk
    refine goes trivial ⟨data, ?_⟩
    rw [← hdata]
    exact cached_of_cache (c.notifySubscribers_frame _ _).1
  | readBack hdata => exact goes trivial fun _ => hdata
  | _ => exact goes trivial trivial

theorem goes_advance (hf : r.Fits) (hk : r.Keeps c) (ha : r.advance i now c o = some (c', pc)) :
  r.Goes c { r with pc := pc } c'
  := by
  cases takes_of_advance ha with
  | poll hpc hresume =>
    apply Goes.of_resume hresume trivial trivial nofun
    intro hunderWay
    left
    simpa only [UnderWay, hpc] using hunderWay
  | restoring hpc _ =>
    refine ⟨trivial, trivial, nofun, fun hunderWay => .inl ?_⟩
    simpa only [UnderWay, hpc] using hunderWay
  | task hpc hrestoring hspawned =>
    have hbegins : r.Begins c := by
      simp only [Begins, hpc]
      exact ⟨hrestoring, hspawned⟩
    exact ⟨trivial, trivial, fun _ => .inr hbegins, fun _ => .inr hbegins⟩
  | direct _ _ hspawned => exact ⟨hspawned, trivial, nofun, nofun⟩
  | join hpc _ =>
    simp only [Fits, hpc] at hf
    exact ⟨hf, trivial, nofun, nofun⟩
  | alone hpc hin =>
    have hbegins : r.Begins c := by simpa only [Begins, hpc] using hin
    exact ⟨trivial, trivial, fun _ => .inr hbegins, fun _ => .inr hbegins⟩
  | @wait p _ _ hpc hp =>
    simp only [Fits, hpc] at hf
    have hends := r.advanceWait_ends i now c p
    rw [hp] at hends
    obtain ⟨p', rfl⟩ | ⟨result, rfl⟩ := hends
    · exact ⟨hf, trivial, nofun, nofun⟩
    · have hnot {P : Prop} (h : r.spawned = true) : P := by
        rw [hf] at h
        contradiction
      refine ⟨trivial, ?_, ?_, fun h => hnot h⟩
      · cases result with
        | success data => exact fun h => hnot h
        | _ => trivial
      · cases result with
        | success data => exact fun h => hnot h
        | error error staleData => exact fun h => hnot h
        | _ => exact nofun
  | fetch hpc ha => apply goes_advanceFetch hpc hf hk ha
  | deregister | finish | reply => exact ⟨trivial, trivial, nofun, nofun⟩

/-- A call may join a fetch that holds what it should. -/
theorem Joinable.holds
    (h : q.Joinable r c) (hkey : r.query.key = q.query.key) (hsp : q.spawned = true)
    (hk : q.Keeps c) :
  q.Holds c
  := by
  obtain ⟨htype, h⟩ := h
  rw [cached_eq hkey htype] at h
  split at h
  case h_5 hpc =>
    simp only [Keeps, hpc] at hk
    simp only [Holds, hpc]
    apply hk hsp
  all_goals
    next hpc =>
    first
    | exact h.elim
    | simp only [Keeps, hpc] at hk
      simp only [Holds, hpc]
      first
      | exact h
      | exact hk

theorem Joinable.not_told (h : q.Joinable r c) :
  .error ∉ q.toldBy
  := by
  obtain ⟨-, h⟩ := h
  unfold toldBy
  split
  all_goals
    next hpc =>
    first
    | decide
    | simp [hpc] at h

/-- A call may join a fetch that is under way. -/
theorem Joinable.underWay (h : q.Joinable r c) (hsp : q.spawned = true) :
  q.UnderWay
  := by
  obtain ⟨-, h⟩ := h
  split at h
  all_goals
    next hpc =>
    first
    | exact h.elim
    | simp only [UnderWay, hpc, hsp]

/-- A task is under way until it has deregistered or was dropped. -/
theorem underWay_iff (hsp : r.spawned = true) (hf : r.Fits) :
  r.UnderWay ↔ ¬ r.pc.Over
  := by
  unfold Fits at hf
  cases hpc : r.pc with
  | dedup | waitForDedup p =>
    rw [hpc, hsp] at hf
    contradiction
  | _ => simp [UnderWay, Pc.Over, hpc, hsp]

/-- The fetch of a task that nobody aborts stays under way until it deregisters. -/
theorem UnderWay.advance
    (h : r.UnderWay) (hsp : r.spawned = true) (hf : r.Fits) (hk : r.Keeps c)
    (haborted : i ∉ c.signals.aborted) (hregistered : ¬ r.Deregisters)
    (ha : r.advance i now c o = some (c', pc)) :
  { r with pc := pc }.UnderWay
  := by
  have hf' : { r with pc := pc }.Fits := (goes_advance hf hk ha).fits
  apply (underWay_iff (r := { r with pc := pc }) hsp hf').mpr
  obtain ⟨result, hpc, -, -, -⟩ | ⟨-, -, -, hover⟩ := advance_cases ha
  · simp [Deregisters, hpc, hsp] at hregistered
  · intro hover'
    exact (hover hsp hover').elim ((underWay_iff hsp hf).mp h) haborted

/-- A call that has yet to look for a fetch had yet to before. -/
theorem Arrives.of_advance
    (h : { r with pc := pc }.Arrives) (ha : r.advance i now c o = some (c', pc)) :
  r.Arrives
  := by
  cases takes_of_advance ha with
  | poll hpc hresume =>
    unfold resume at hresume
    split at hresume
    · cases hresume
      exact h.elim
    · cases hresume
      simpa only [Arrives, hpc] using h
  | direct hpc _ _ => simpa only [Arrives, hpc] using h
  | @wait p _ _ hpc hp =>
    have hends := r.advanceWait_ends i now c p
    rw [hp] at hends
    obtain ⟨p', rfl⟩ | ⟨result, rfl⟩ := hends
    · exact h.elim
    · exact h.elim
  | fetch hpc ha =>
    obtain ⟨-, hends⟩ := advanceFetch_frame ha
    obtain ⟨f, rfl⟩ | ⟨result, rfl⟩ | ⟨rfl, -⟩ := hends
    · exact h.elim
    · exact h.elim
    · exact h.elim
  | _ => exact h.elim

end Run

namespace Sys

variable {k : QueryKey} {s s' : Sys V} {t t' : Sys V × List (Nat × Nat)} {a : Action V}
  {log : List (Nat × Nat)} {i j w : Nat} {q r : Run V} {c : QueryClient V} {o : Outcome V}
  {pc : Pc V}

/-! ### Calls and the fetches they joined -/

/-- Call `w` waits for fetch `i`, besides which nothing fetches, or it got its result. -/
def Paired (s : Sys V) (w i : Nat) : Prop :=
  ∃ r q, s.runs.lookup w = some r ∧ s.runs.lookup i = some q ∧
    r.spawned = false ∧ q.spawned = true ∧
    r.query.key = q.query.key ∧ r.query.typeId = q.query.typeId ∧
    ((∃ p, r.pc = .waitForDedup p ∧ q.Holds s.client ∧
        q.WaitsFor (q.slotOf s.client) (q.cached s.client) p ∧ s.Alone i) ∨
      ∃ result, (r.pc = .finish result ∨ r.pc = .done result) ∧ q.Gave s.client result)

/-- Call `w`, made for fetch `i`, has yet to look for it, and finds it under way. -/
def Expected (s : Sys V) (w i : Nat) : Prop :=
  ∃ r q, s.runs.lookup w = some r ∧ s.runs.lookup i = some q ∧ r.Arrives ∧ q.UnderWay

/-- What holds along a run in which fetches coalesce. -/
structure Kept (k : QueryKey) (t : Sys V × List (Nat × Nat)) : Prop where
  sane : t.1.Sane
  wired : t.1.Wired
  calm : ∀ i, i ∉ t.1.client.signals.cancelled ∧ i ∉ t.1.client.signals.aborted
  isOpen : (t.1.client.slot k.cacheKey).Open
  keyed : ∀ i r, t.1.runs.lookup i = some r → r.query.key = k
  fits : ∀ i r, t.1.runs.lookup i = some r → r.Fits
  keeps : ∀ i r, t.1.runs.lookup i = some r → r.Keeps t.1.client
  single : ∀ i j q r, t.1.runs.lookup i = some q → t.1.runs.lookup j = some r →
    q.UnderWay → r.UnderWay → i = j
  /-- Only tasks fetch, and not while the client restores. -/
  spawned : ∀ i q, t.1.runs.lookup i = some q → q.UnderWay →
    q.spawned = true ∧ t.1.client.isRestoring = false
  /-- A call looks for a fetch while there is one in flight. -/
  arrives : ∀ w r, t.1.runs.lookup w = some r → r.Arrives →
    t.1.client.isInFlight k = true ∧ ∃ i, (w, i) ∈ t.2
  paired : ∀ p ∈ t.2, t.1.Paired p.1 p.2 ∨ t.1.Expected p.1 p.2

/-- A call that waits or has its result does not look for a fetch any more. -/
theorem Paired.not_arrives (h : s.Paired w i) (hr : s.runs.lookup w = some r) :
  ¬ r.Arrives
  := by
  obtain ⟨r', q, hr', -, -, -, -, -, hcases⟩ := h
  obtain rfl := Option.some.inj (hr.symm.trans hr')
  obtain ⟨p, hpc, -⟩ | ⟨result, hpc | hpc, -⟩ := hcases
  · simp [Run.Arrives, hpc]
  · simp [Run.Arrives, hpc]
  · simp [Run.Arrives, hpc]

/-- Only one fetch has begun. -/
theorem Kept.alone (h : Kept k t) (hq : t.1.runs.lookup i = some q) (hunderWay : q.UnderWay) :
  t.1.Alone i
  := by
  intro j r hr hne hlive
  apply hne (h.single j i r q hr hq hlive.underWay hunderWay)

/-- A run whose fetch is under way after its step was under way before: no call fetches. -/
theorem Kept.underWay_of_goes
    {r' : Run V} (h : Kept k t) (hr : t.1.runs.lookup j = some r)
    (hgoes : r.Goes t.1.client r' c) (hunderWay : r'.UnderWay) :
  r.UnderWay
  := by
  apply (hgoes.underWay hunderWay).elim id
  intro hbegins
  unfold Run.Begins at hbegins
  split at hbegins
  · next hpc => simpa only [Run.UnderWay, hpc] using hbegins.2
  · next hpc =>
    have hfits := h.fits j r hr
    have harrives : r.Arrives := by simpa only [Run.Arrives, Run.Fits, hpc] using hfits
    have hin := (h.arrives j r hr harrives).1
    rw [h.keyed j r hr, hin] at hbegins
    contradiction
  · exact hbegins.elim

theorem Alone.of_insert
    (h : s.Alone i) (hs : s'.runs = s.runs.insert j r) (hr : j ≠ i → ¬ r.Live) :
  s'.Alone i
  := by
  intro l p hl hne
  rw [hs] at hl
  obtain ⟨hlj, rfl⟩ | ⟨-, hl⟩ := Table.lookup_insert_cases hl
  · apply hr fun hji => hne (hlj.trans hji)
  · apply h l p hl hne

/-- A call's own step leaves it paired. -/
theorem Paired.own
    (h : s.Paired w i) (hkept : Kept k (s, log)) (hs : s.step (.advance w o) = some s') :
  s'.Paired w i
  := by
  obtain ⟨r, q, hr, hq, hsp, hqsp, hkeys, htype, hcases⟩ := h
  obtain ⟨r', c, pc, hr', ha, rfl⟩ := step_advance hs
  obtain rfl := Option.some.inj (hr.symm.trans hr')
  have hne : i ≠ w := by
    rintro rfl
    obtain rfl := Option.some.inj (hr.symm.trans hq)
    rw [hsp] at hqsp
    contradiction
  refine ⟨{ r with pc := pc }, q, AList.lookup_insert _, (AList.lookup_insert_ne hne).trans hq,
    hsp, hqsp, hkeys, htype, ?_⟩
  obtain ⟨p, hpc, hholds, hwaits, halone⟩ | ⟨result, hpc | hpc, hgave⟩ := hcases
  · have hslot : (q.slotOf s.client).Open := by
      rw [Run.slotOf, hkept.keyed i q hq]
      apply hkept.isOpen
    have hsteps := hwaits.advanceWait hkeys htype hslot hholds w s.now
    simp only [Run.advance, hpc] at ha
    cases o with
    | next =>
      rw [Option.some.inj ha] at hsteps
      obtain ⟨p', rfl, hwaits', -⟩ | ⟨result, rfl, hgave⟩ := hsteps
      · left
        refine ⟨p', rfl, hholds.of_cache ?_, hwaits',
          halone.of_insert rfl fun _ => by simp [Run.Live]⟩
        have hcache := r.cache_advanceWait w s.now s.client p
        rwa [Option.some.inj ha] at hcache
      · exact .inr ⟨result, .inl rfl, hgave⟩
    | _ => contradiction
  · simp only [Run.advance, hpc] at ha
    cases o with
    | next =>
      simp only [hsp] at ha
      cases ha
      exact .inr ⟨result, .inr rfl, hgave⟩
    | _ => contradiction
  · simp [Run.advance, hpc] at ha

/-- What a waiting call hears of a step that is not its own. -/
theorem hears_step
    {rx : Nat} {p : WaitPc V} {heard : List QueryStateVariant} (hwired : s.Wired)
    (ho : (s.client.slot k.cacheKey).Open) (hkey : r.query.key = k) (hqkey : q.query.key = k)
    (hr : s.runs.lookup w = some r) (hpc : r.pc = .waitForDedup p) (hrx : p.rx = some rx)
    (hq : s.runs.lookup j = some q) (hne : j ≠ w) (hlength : heard.length ≤ 2)
    (ha : q.advance j s.now s.client o = some (c, pc))
    (hheard : (s.client.slot k.cacheKey).Hears rx heard) :
  (c.slot k.cacheKey).Hears rx (heard ++ q.notice)
  := by
  have hrx' : rx ∈ r.rx := by
    rw [Run.rx, hpc]
    apply hrx
  have hrelays := Run.trace_advance Slot.relays_traces ha k.cacheKey
  have htells : q.tells k.cacheKey = q.notice := by rw [Run.tells, if_pos (by rw [hqkey])]
  have hown : q.ofKey k.cacheKey q.rx ≠ some rx := by
    have hmoves : ¬ (Action.advance j o : Action V).Moves w := hne
    have hown := hwired.own_ne hr hmoves hrx'
    rw [hkey] at hown
    simpa only [own, hq, Option.bind_some] using hown
  have hatt : (s.client.slot k.cacheKey).Attached rx := by
    rw [← hkey]
    apply hwired.attached w r hr rx hrx'
  rw [htells] at hrelays
  apply hrelays.heard rx heard hown hatt.1 ho _ hheard
  have := q.length_notice
  omega

theorem Paired.fetch
    (h : s.Paired w i) (hkept : Kept k (s, log)) (hs : s.step (.advance i o) = some s')
    (hmiss : ∀ r ∈ s.runs.lookup w, ∀ q ∈ s.runs.lookup i, r.Waits → ¬ q.Misses r s.client o) :
  s'.Paired w i
  := by
  obtain ⟨r, q, hr, hq, hsp, hqsp, hkeys, htype, hcases⟩ := h
  obtain ⟨q', c, pc, hq', ha, rfl⟩ := step_advance hs
  obtain rfl := Option.some.inj (hq.symm.trans hq')
  have hne : i ≠ w := by
    rintro rfl
    obtain rfl := Option.some.inj (hr.symm.trans hq)
    rw [hsp] at hqsp
    contradiction
  refine ⟨r, { q with pc := pc }, (AList.lookup_insert_ne hne.symm).trans hr,
    AList.lookup_insert _, hsp, hqsp, hkeys, htype, ?_⟩
  obtain ⟨p, hpc, hholds, hwaits, halone⟩ | ⟨result, hpc, hgave⟩ := hcases
  · left
    have hwaiting : r.Waits := by simp only [Run.Waits, hpc]
    have hmiss := hmiss r hr q hq hwaiting
    have hcalm := hkept.calm i
    have hfollows := hholds.advance (hkept.fits i q hq) ⟨hcalm.1, fun _ => hcalm.2⟩ hqsp hmiss ha
    have hkey := hkept.keyed w r hr
    have hqkey := hkept.keyed i q hq
    refine ⟨p, hpc, hfollows.holds, ?_, halone.of_insert rfl fun hne => absurd rfl hne⟩
    apply hwaits.relays _ hfollows.tells hfollows.keeps
    · intro hrx herror
      apply hmiss
      unfold Run.notice at herror
      split at herror
      · exact absurd herror (by decide)
      · exact absurd herror (by decide)
      · next hpc' =>
        simp only [Run.Misses, hpc', Run.rx, hpc]
        apply hrx
      · exact absurd herror (by decide)
    · intro rx heard hrx hle hheard
      have hlength := hle.length_le.trans q.length_toldBy
      simp only [Run.slotOf, hqkey] at hheard ⊢
      apply hears_step hkept.wired hkept.isOpen hkey hqkey hr hpc hrx hq hne hlength ha hheard
  · exact .inr ⟨result, hpc, hgave.advance ha⟩

theorem Paired.others
    (h : s.Paired w i) (hkept : Kept k (s, log)) (hs : s.step (.advance j o) = some s')
    (hjw : j ≠ w) (hji : j ≠ i)
    (hbegins : ∀ r ∈ s.runs.lookup w, ∀ q ∈ s.runs.lookup j, r.Waits → ¬ q.Begins s.client) :
  s'.Paired w i
  := by
  obtain ⟨r, q, hr, hq, hsp, hqsp, hkeys, htype, hcases⟩ := h
  obtain ⟨p, c, pc, hp, ha, rfl⟩ := step_advance hs
  have hcache (hlive : ¬ p.Live) : c.cache = s.client.cache := by
    apply Run.cache_advance ha
    intro data hpc
    simp [Run.Live, hpc] at hlive
  refine ⟨r, q, (AList.lookup_insert_ne hjw.symm).trans hr,
    (AList.lookup_insert_ne hji.symm).trans hq, hsp, hqsp, hkeys, htype, ?_⟩
  obtain ⟨x, hpc, hholds, hwaits, halone⟩ | ⟨result, hpc, hgave⟩ := hcases
  · left
    have hwaiting : r.Waits := by simp only [Run.Waits, hpc]
    have hlive : ¬ p.Live := halone j p hp hji
    have hkey := hkept.keyed w r hr
    have hqkey := hkept.keyed i q hq
    have hcached : q.cached c = q.cached s.client := Run.cached_of_cache (hcache hlive)
    refine ⟨x, hpc, hholds.of_cache (hcache hlive), ?_, ?_⟩
    · have htells : q.Tells [] q := ⟨by simp, fun u hu _ => .inl hu⟩
      refine hwaits.relays ?_ htells (fun v hv => hcached.trans hv) fun _ => List.not_mem_nil
      intro rx heard hrx hle hheard
      have hlength := hle.length_le.trans q.length_toldBy
      simp only [Run.slotOf, hqkey] at hheard ⊢
      have := hears_step hkept.wired hkept.isOpen hkey (hkept.keyed j p hp) hr hpc hrx hp hjw
        hlength ha hheard
      rwa [Run.notice_of_not_live hlive] at this
    · apply halone.of_insert rfl
      intro _ hlive'
      obtain hlive' | hbegins' :=
        (Run.goes_advance (hkept.fits j p hp) (hkept.keeps j p hp) ha).live hlive'
      · apply hlive hlive'
      · apply hbegins r hr p hp hwaiting hbegins'
  · right
    refine ⟨result, hpc, hgave.of_cache fun hlive => hcache ?_⟩
    intro hlive'
    apply hji (hkept.single j i p q hp hq hlive'.underWay hlive.underWay)

/-- A pair stays one along a step that coalesces. -/
theorem Paired.advance
    (h : s.Paired w i) (hmem : (w, i) ∈ log) (hkept : Kept k (s, log))
    (hok : Coalesces k (s, log) (.advance j o)) (hs : s.step (.advance j o) = some s') :
  s'.Paired w i
  := by
  obtain ⟨-, hok⟩ := hok
  by_cases hjw : j = w
  · subst hjw
    apply h.own hkept hs
  by_cases hji : j = i
  · subst hji
    apply h.fetch hkept hs
    intro r hr q hq hwaits
    apply (hok q hq).2.2.1 (w, j) hmem rfl r hr hwaits
  · apply h.others hkept hs hjw hji
    intro r hr q hq hwaits hbegins
    apply hji ((hok q hq).1 hbegins (w, i) hmem r hr hwaits).symm

/-! ### Steps that move no execution -/

/-- The execution is new. -/
def Fresh (r : Run V) : Prop :=
  r.pc = .queued ∨ r.pc = .start ∧ r.spawned = false ∨ r.pc = .done .idle

/-- An execution is added, or flags of handles change. -/
structure Still (s s' : Sys V) (fresh : Option (Run V)) : Prop where
  cache : s'.client.cache = s.client.cache
  subscribers : s'.client.subscribers = s.client.subscribers
  cancelled : s'.client.signals.cancelled = s.client.signals.cancelled
  aborted : s'.client.signals.aborted = s.client.signals.aborted
  restoring : s'.client.isRestoring = s.client.isRestoring
  inFlight : ∀ k, s.client.isInFlight k = true → s'.client.isInFlight k = true
  stays : ∀ j r, s.runs.lookup j = some r →
    ∃ a b, s'.runs.lookup j = some { r with returned := a, detached := b }
  comes : ∀ j r', s'.runs.lookup j = some r' →
    (∃ r a b, s.runs.lookup j = some r ∧ r' = { r with returned := a, detached := b }) ∨
      (j = s.nextRun ∧ r' ∈ fresh)

/-- What is asked of a new execution: a task comes alone, and a call while a fetch is in
flight. -/
structure Comes (k : QueryKey) (s : Sys V) (log : List (Nat × Nat)) (r : Run V) : Prop where
  key : r.query.key = k
  fresh : Fresh r
  spawned : r.UnderWay → r.spawned = true ∧ s.client.isRestoring = false ∧
    ∀ i q, s.runs.lookup i = some q → ¬ q.UnderWay
  called : r.Arrives → s.client.isInFlight k = true ∧ ∃ i, (s.nextRun, i) ∈ log

theorem Still.of_same (hc : s'.client = s.client) (hs : s'.runs = s.runs) :
  Still s s' none
  := by
  refine ⟨by rw [hc], by rw [hc], by rw [hc], by rw [hc], by rw [hc], ?_, ?_, ?_⟩
  · rw [hc]
    exact fun _ => id
  · intro j r hr
    rw [hs]
    exact ⟨r.returned, r.detached, hr⟩
  · intro j r hr
    rw [hs] at hr
    exact .inl ⟨r, r.returned, r.detached, hr, rfl⟩

theorem Still.of_insert
    {a b : Bool} (hc : s'.client.cache = s.client.cache)
    (hsub : s'.client.subscribers = s.client.subscribers)
    (hsig : s'.client.signals = s.client.signals)
    (hrestoring : s'.client.isRestoring = s.client.isRestoring)
    (hin : ∀ k, s.client.isInFlight k = true → s'.client.isInFlight k = true)
    (hr : s.runs.lookup i = some r)
    (hs : s'.runs = s.runs.insert i { r with returned := a, detached := b }) :
  Still s s' none
  := by
  refine ⟨hc, hsub, by rw [hsig], by rw [hsig], hrestoring, hin, ?_, ?_⟩
  · intro j q hq
    rw [hs, Table.lookup_insert_eq]
    split
    · next hji =>
      rw [hji, hr] at hq
      obtain rfl := Option.some.inj hq
      exact ⟨a, b, rfl⟩
    · exact ⟨q.returned, q.detached, hq⟩
  · intro j q hq
    left
    rw [hs] at hq
    obtain ⟨rfl, rfl⟩ | ⟨-, hq⟩ := Table.lookup_insert_cases hq
    · exact ⟨r, a, b, hr, rfl⟩
    · exact ⟨q, q.returned, q.detached, hq, rfl⟩

theorem Still.of_fresh
    (hsane : s.Sane) (hc : s'.client.cache = s.client.cache)
    (hsub : s'.client.subscribers = s.client.subscribers)
    (hcancelled : s'.client.signals.cancelled = s.client.signals.cancelled)
    (haborted : s'.client.signals.aborted = s.client.signals.aborted)
    (hrestoring : s'.client.isRestoring = s.client.isRestoring)
    (hin : s'.client.inFlight = s.client.inFlight)
    (hs : s'.runs = s.runs.insert s.nextRun r) :
  Still s s' (some r)
  := by
  refine ⟨hc, hsub, hcancelled, haborted, hrestoring, ?_, ?_, ?_⟩
  · intro k
    rw [isInFlight, isInFlight, hin]
    exact id
  · intro j q hq
    have hne : j ≠ s.nextRun := Nat.ne_of_lt (hsane.numbered j q hq).1
    rw [hs, AList.lookup_insert_ne hne]
    exact ⟨q.returned, q.detached, hq⟩
  · intro j q hq
    rw [hs] at hq
    obtain ⟨hj, rfl⟩ | ⟨-, hq⟩ := Table.lookup_insert_cases hq
    · exact .inr ⟨hj, rfl⟩
    · exact .inl ⟨q, q.returned, q.detached, hq, rfl⟩

theorem Fresh.still (h : Fresh r) (c : QueryClient V) :
  r.Fits ∧ r.Keeps c ∧ ¬ r.Live
  := by
  obtain hpc | ⟨hpc, -⟩ | hpc := h
  · simp [Run.Fits, Run.Keeps, Run.Live, hpc]
  · simp [Run.Fits, Run.Keeps, Run.Live, hpc]
  · simp [Run.Fits, Run.Keeps, Run.Live, hpc]

/-- A run that is live after a quiet step was before. -/
theorem Still.live
    {fresh : Option (Run V)} (h : Still s s' fresh) (hfresh : ∀ r ∈ fresh, ¬ r.Live) {r' : Run V}
    (hr' : s'.runs.lookup j = some r') (hlive : r'.Live) :
  ∃ r, s.runs.lookup j = some r ∧ r.Live
  := by
  obtain ⟨r, a, b, hr, rfl⟩ | ⟨-, hr⟩ := h.comes j r' hr'
  · exact ⟨r, hr, hlive⟩
  · exact absurd hlive (hfresh r' hr)

theorem Paired.still
    {fresh : Option (Run V)} (h : s.Paired w i) (hq : Still s s' fresh)
    (hfresh : ∀ r ∈ fresh, ¬ r.Live) :
  s'.Paired w i
  := by
  obtain ⟨r, q, hr, hi, hsp, hqsp, hkeys, htype, hcases⟩ := h
  obtain ⟨a, b, hr'⟩ := hq.stays w r hr
  obtain ⟨a', b', hi'⟩ := hq.stays i q hi
  have hsender : s'.client.slot q.query.key.cacheKey
      = { s.client.slot q.query.key.cacheKey with
          task := s'.client.inFlight.lookup q.query.key.cacheKey } := by
    simp only [slot, hq.cache, hq.subscribers]
  refine ⟨_, _, hr', hi', hsp, hqsp, hkeys, htype, ?_⟩
  obtain ⟨p, hpc, hholds, hwaits, halone⟩ | ⟨result, hpc, hgave⟩ := hcases
  · left
    refine ⟨p, hpc, hholds.of_cache hq.cache, ?_, ?_⟩
    · have hdata : q.cached s'.client = q.cached s.client := Run.cached_of_cache hq.cache
      have htells : q.Tells [] q := ⟨by simp, fun u hu _ => .inl hu⟩
      refine hwaits.relays ?_ htells (fun v hv => hdata.trans hv) fun _ => List.not_mem_nil
      intro rx heard _ _ hheard
      rw [List.append_nil]
      simp only [Run.slotOf, hsender]
      apply hheard
    · intro j q' hj hne hlive
      obtain ⟨r', hj', hlive'⟩ := hq.live hfresh hj hlive
      apply halone j r' hj' hne hlive'
  · right
    exact ⟨result, hpc, hgave.of_cache fun _ => hq.cache⟩

theorem Expected.still
    {fresh : Option (Run V)} (h : s.Expected w i) (hq : Still s s' fresh) :
  s'.Expected w i
  := by
  obtain ⟨r, q, hr, hi, harrives, hunderWay⟩ := h
  obtain ⟨a, b, hr'⟩ := hq.stays w r hr
  obtain ⟨a', b', hi'⟩ := hq.stays i q hi
  exact ⟨_, _, hr', hi', harrives, hunderWay⟩

theorem Kept.still
    {fresh : Option (Run V)} {callers : List (Nat × Nat)} (h : Kept k (s, log))
    (hq : Still s s' fresh) (hs : s.step a = some s')
    (hfresh : ∀ r ∈ fresh, Comes k s (log ++ callers) r)
    (hcallers : ∀ p ∈ callers, s'.Expected p.1 p.2) :
  Kept k (s', log ++ callers)
  := by
  have hlive (r : Run V) (hr : r ∈ fresh) : ¬ r.Live := ((hfresh r hr).fresh.still s.client).2.2
  refine ⟨h.sane.step hs, h.wired.step hs, ?_, ?_, ?_, ?_, ?_, ?_, ?_, ?_, ?_⟩
  · intro i
    dsimp only
    rw [hq.cancelled, hq.aborted]
    apply h.calm i
  · intro sender hsender
    apply h.isOpen sender
    simpa only [slot, hq.subscribers] using hsender
  · intro i r hr
    obtain ⟨q, a, b, hi, rfl⟩ | ⟨-, hr⟩ := hq.comes i r hr
    · apply h.keyed i q hi
    · apply (hfresh r hr).key
  · intro i r hr
    obtain ⟨q, a, b, hi, rfl⟩ | ⟨-, hr⟩ := hq.comes i r hr
    · apply h.fits i q hi
    · apply ((hfresh r hr).fresh.still s.client).1
  · intro i r hr
    obtain ⟨q, a, b, hi, rfl⟩ | ⟨-, hr⟩ := hq.comes i r hr
    · apply Run.Keeps.of_cache (h.keeps i q hi) fun _ => hq.cache
    · apply ((hfresh r hr).fresh.still s'.client).2.1
  · intro i j q r hi hj hunderWay hunderWay'
    obtain ⟨q, a, b, hi', rfl⟩ | ⟨rfl, hi'⟩ := hq.comes i q hi
    · obtain ⟨r, a, b, hj', rfl⟩ | ⟨rfl, hj'⟩ := hq.comes j r hj
      · apply h.single i j q r hi' hj' hunderWay hunderWay'
      · exact absurd hunderWay (((hfresh r hj').spawned hunderWay').2.2 i q hi')
    · obtain ⟨r, a, b, hj', rfl⟩ | ⟨rfl, -⟩ := hq.comes j r hj
      · exact absurd hunderWay' (((hfresh q hi').spawned hunderWay).2.2 j r hj')
      · rfl
  · intro i r hr hunderWay
    dsimp only
    rw [hq.restoring]
    obtain ⟨q, a, b, hi, rfl⟩ | ⟨-, hr⟩ := hq.comes i r hr
    · apply h.spawned i q hi hunderWay
    · obtain ⟨hsp, hrestoring, -⟩ := (hfresh r hr).spawned hunderWay
      exact ⟨hsp, hrestoring⟩
  · intro w r hr harrives
    obtain ⟨q, a, b, hw, rfl⟩ | ⟨rfl, hmem⟩ := hq.comes w r hr
    · obtain ⟨hin, i, hi⟩ := h.arrives w q hw harrives
      exact ⟨hq.inFlight k hin, i, List.mem_append_left _ hi⟩
    · obtain ⟨hin, hi⟩ := (hfresh r hmem).called harrives
      exact ⟨hq.inFlight k hin, hi⟩
  · intro p hp
    obtain hp | hp := List.mem_append.mp hp
    · apply (h.paired p hp).imp
      · exact fun hpaired => hpaired.still hq hlive
      · exact fun hexpected => hexpected.still hq
    · exact .inr (hcallers p hp)

/-- A step that adds no execution. -/
theorem Kept.quiet (h : Kept k (s, log)) (hq : Still s s' none) (hs : s.step a = some s') :
  Kept k (s', log)
  := by
  have hkept : Kept k (s', log ++ []) := by
    apply h.still hq hs
    · simp
    · simp
  rwa [List.append_nil] at hkept

theorem mem_underWay_iff :
  i ∈ s.underWay ↔ ∃ q, s.runs.lookup i = some q ∧ q.UnderWay
  := by
  simp only [underWay, List.mem_filter, Option.any_eq_true, decide_eq_true_eq,
    and_iff_right_iff_imp]
  rintro ⟨q, hq, -⟩
  apply AList.mem_keys.mp
  rw [← AList.lookup_isSome, hq]
  rfl

/-- A task is spawned where no fetch is under way. -/
theorem Kept.spawn
    {query : Query V} (h : Kept k (s, log)) (hok : Coalesces k (s, log) (.spawn query))
    (hs : s.step (.spawn query) = some s') :
  Kept k (s', log ++ callers s (.spawn query) s')
  := by
  obtain ⟨hkey, halone⟩ := hok
  have hnone : callers s (.spawn query) s' = [] := by
    have hunderWay : s.underWay = [] := by
      apply List.eq_nil_iff_forall_not_mem.mpr
      intro i hi
      obtain ⟨q, hq, hunderWay⟩ := mem_underWay_iff.mp hi
      exact halone i q hq hunderWay
    rw [callers, hunderWay, List.map_nil]
  rw [hnone]
  obtain rfl := Option.some.inj hs
  by_cases hrestoring : s.client.isRestoring = true
  · have hspawn : s.spawn query = s.newRun ⟨query, true, true, false, .done .idle⟩ :=
      if_pos hrestoring
    rw [hspawn] at hs ⊢
    have hstill : Still s (s.newRun ⟨query, true, true, false, .done .idle⟩) (some _) :=
      Still.of_fresh h.sane rfl rfl rfl rfl rfl rfl rfl
    refine h.still hstill hs ?_ nofun
    rintro _ ⟨rfl⟩
    exact ⟨hkey, .inr (.inr rfl), nofun, nofun⟩
  · have hspawn : s.spawn query = { s with client := s.client.incFetching }.newRun
        ⟨query, true, false, false, .queued⟩ := if_neg hrestoring
    rw [hspawn] at hs ⊢
    have hstill : Still s ({ s with client := s.client.incFetching }.newRun
        ⟨query, true, false, false, .queued⟩) (some _) :=
      Still.of_fresh h.sane rfl rfl rfl rfl rfl rfl rfl
    refine h.still hstill hs ?_ nofun
    rintro _ ⟨rfl⟩
    refine ⟨hkey, .inl rfl, fun _ => ⟨rfl, Bool.of_not_eq_true hrestoring, halone⟩, ?_⟩
    simp [Run.Arrives]

/-- A call is made while the fetch that is registered is under way. -/
theorem Kept.execute
    {query : Query V} (h : Kept k (s, log)) (hok : Coalesces k (s, log) (.execute query))
    (hs : s.step (.execute query) = some s') :
  Kept k (s', log ++ callers s (.execute query) s')
  := by
  obtain ⟨⟨hkey, hin⟩, hregistered⟩ := hok
  obtain rfl := Option.some.inj hs
  have hstill : Still s (s.newRun ⟨query, false, true, false, .start⟩) (some _) :=
    Still.of_fresh h.sane rfl rfl rfl rfl rfl rfl rfl
  apply h.still hstill hs
  · rintro _ ⟨rfl⟩
    refine ⟨hkey, .inr (.inl ⟨rfl, rfl⟩), nofun, fun _ => ⟨hin, ?_⟩⟩
    obtain ⟨task, htask⟩ := Option.isSome_iff_exists.mp hin
    obtain ⟨-, q, hq, -⟩ := h.sane.registered _ task htask
    use task.abort
    apply List.mem_append_right
    apply List.mem_map_of_mem
    exact mem_underWay_iff.mpr ⟨q, hq, hregistered task htask q hq⟩
  · intro p hp
    obtain ⟨i, hi, rfl⟩ := List.mem_map.mp hp
    obtain ⟨q, hq, hunderWay⟩ := mem_underWay_iff.mp hi
    have hne : i ≠ s.nextRun := Nat.ne_of_lt (h.sane.numbered i q hq).1
    refine ⟨_, q, AList.lookup_insert _, (AList.lookup_insert_ne hne).trans hq, rfl, hunderWay⟩

theorem Kept.one_key
    (h : Kept k (s, log)) (hok : Coalesces k (s, log) a) (hs : s.step a = some s')
    (ha : ∀ i o, a ≠ .advance i o) :
  Kept k (s', log ++ callers s a s')
  := by
  have quiet (hnone : callers s a s' = []) (hq : Still s s' none) :
      Kept k (s', log ++ callers s a s') := by
    rw [hnone, List.append_nil]
    apply h.quiet hq hs
  cases a with
  | spawn query => apply h.spawn hok hs
  | execute query => apply h.execute hok hs
  | register i =>
    apply quiet rfl
    obtain ⟨r, hr, -, -, rfl⟩ := step_register hs
    refine Still.of_insert rfl rfl rfl rfl ?_ hr rfl
    intro k hin
    simp only [isInFlight, setInFlight, Table.lookup_insert_eq]
    split
    · rfl
    · apply hin
  | advance i o => exact absurd rfl (ha i o)
  | detach i =>
    apply quiet rfl
    obtain ⟨r, hr, -, rfl⟩ := step_detach hs
    exact Still.of_insert rfl rfl rfl rfl (fun _ => id) hr rfl
  | drop i =>
    apply quiet rfl
    obtain ⟨r, hr, -, -, rfl⟩ := step_drop hs
    obtain ⟨r', hr', hdetached⟩ := hok.1
    obtain rfl := Option.some.inj (hr.symm.trans hr')
    rw [if_pos hdetached]
    exact Still.of_same rfl rfl
  | tick n =>
    apply quiet rfl
    obtain rfl := Option.some.inj hs
    exact Still.of_same rfl rfl
  | _ => exact hok.1.elim

/-- A step of an execution signals nobody. -/
theorem signals_advance (h : r.advance i s.now s.client o = some (c, pc)) :
  c.signals.cancelled = s.client.signals.cancelled ∧ c.signals.aborted = s.client.signals.aborted
  := by
  obtain ⟨result, -, -, rfl, -⟩ | ⟨hf, -⟩ := Run.advance_cases h
  · exact ⟨rfl, rfl⟩
  · exact ⟨hf.cancelled, hf.aborted⟩

/-- The call that finds a fetch in flight joins it: the one under way. -/
theorem Kept.joins
    (h : Kept k (s, log)) (hok : Coalesces k (s, log) (.advance j o))
    (hs : s.step (.advance j o) = some s') (hr : s.runs.lookup j = some r) (hpc : r.pc = .dedup) :
  ∃ task, s.client.inFlight.lookup k.cacheKey = some task ∧ s'.Paired j task.abort ∧
    ∃ q, s.runs.lookup task.abort = some q ∧ q.UnderWay
  := by
  obtain ⟨r', c, pc, hr', ha, rfl⟩ := step_advance hs
  obtain rfl := Option.some.inj (hr.symm.trans hr')
  have hkey := h.keyed j r hr
  have hsp : r.spawned = false := by
    have hfits := h.fits j r hr
    simpa only [Run.Fits, hpc] using hfits
  have hin : s.client.isInFlight k = true := by
    apply (h.arrives j r hr _).1
    simpa only [Run.Arrives, hpc] using hsp
  obtain ⟨task, htask⟩ := Option.isSome_iff_exists.mp hin
  obtain ⟨-, q, hq, hqsp, -, -⟩ := h.sane.registered _ task htask
  have hdedup : r.AtDedup := by simp only [Run.AtDedup, hpc]
  have hjoin : q.Joinable r s.client := (hok.2 r hr).2.1 hdedup task htask q hq
  have hunderWay := hjoin.underWay hqsp
  have hne : task.abort ≠ j := by
    intro heq
    rw [heq, hr] at hq
    obtain rfl := Option.some.inj hq
    rw [hsp] at hqsp
    contradiction
  have hqkey := h.keyed _ q hq
  refine ⟨task, htask, ?_, q, hq, hunderWay⟩
  simp only [Run.advance, hpc] at ha
  cases o with
  | next =>
    simp only [hkey, hin, if_true] at ha
    cases ha
    refine ⟨_, q, AList.lookup_insert _, (AList.lookup_insert_ne hne).trans hq, hsp, hqsp,
      hkey.trans hqkey.symm, hjoin.1, .inl ⟨.subscribe, rfl, ?_, hjoin.not_told, ?_⟩⟩
    · apply hjoin.holds (hkey.trans hqkey.symm) hqsp (h.keeps _ q hq)
    · exact (h.alone hq hunderWay).of_insert rfl fun _ => by simp [Run.Live]
  | _ => contradiction

/-- A call that has yet to look for its fetch looks for it, or it is under way still. -/
theorem Expected.advance
    (h : s.Expected w i) (hmem : (w, i) ∈ log) (hkept : Kept k (s, log))
    (hok : Coalesces k (s, log) (.advance j o)) (hs : s.step (.advance j o) = some s') :
  s'.Paired w i ∨ s'.Expected w i
  := by
  obtain ⟨r, q, hr, hq, harrives, hunderWay⟩ := h
  obtain ⟨hqsp, hrestoring⟩ := hkept.spawned i q hq hunderWay
  have hsp : r.spawned = false := by
    unfold Run.Arrives at harrives
    split at harrives
    all_goals
      first
      | exact harrives
      | contradiction
  have hne : i ≠ w := by
    rintro rfl
    obtain rfl := Option.some.inj (hr.symm.trans hq)
    rw [hsp] at hqsp
    contradiction
  by_cases hjw : j = w
  · subst hjw
    by_cases hdedup : r.pc = .dedup
    · left
      obtain ⟨task, -, hpaired, q', hq', hunderWay'⟩ := hkept.joins hok hs hr hdedup
      rw [hkept.single i task.abort q q' hq hq' hunderWay hunderWay']
      apply hpaired
    · right
      obtain ⟨r', c, pc, hr', ha, rfl⟩ := step_advance hs
      obtain rfl := Option.some.inj (hr.symm.trans hr')
      refine ⟨_, q, AList.lookup_insert _, (AList.lookup_insert_ne hne).trans hq, ?_, hunderWay⟩
      cases Run.takes_of_advance ha with
      | poll hpc hresume =>
        rw [Run.resume, if_neg fun h => by simp [hsp] at h] at hresume
        cases hresume
        apply hsp
      | restoring hpc hrestoring' =>
        rw [hrestoring] at hrestoring'
        contradiction
      | task hpc _ hsp' =>
        rw [hsp] at hsp'
        contradiction
      | direct => apply hsp
      | join hpc _ | alone hpc _ => exact absurd hpc hdedup
      | wait hpc _ | fetch hpc _ | deregister hpc _ | finish hpc _ | reply hpc =>
        simp [Run.Arrives, hpc] at harrives
  · right
    obtain ⟨p, c, pc, hp, ha, rfl⟩ := step_advance hs
    by_cases hji : j = i
    · subst hji
      obtain rfl := Option.some.inj (hq.symm.trans hp)
      refine ⟨r, _, (AList.lookup_insert_ne (Ne.symm hjw)).trans hr, AList.lookup_insert _,
        harrives, ?_⟩
      apply hunderWay.advance hqsp (hkept.fits j q hq) (hkept.keeps j q hq) (hkept.calm j).2 _ ha
      exact fun hderegisters => (hok.2 q hq).2.2.2 hderegisters (w, j) hmem rfl r hr harrives
    · exact ⟨r, q, (AList.lookup_insert_ne (Ne.symm hjw)).trans hr,
        (AList.lookup_insert_ne (Ne.symm hji)).trans hq, harrives, hunderWay⟩

/-- While a call has yet to look for its fetch, there is one in flight. -/
theorem Kept.inFlight_advance
    (h : Kept k (s, log)) (hok : Coalesces k (s, log) (.advance j o))
    (hr : s.runs.lookup j = some r) (ha : r.advance j s.now s.client o = some (c, pc))
    (hq : s.runs.lookup w = some q) (harrives : q.Arrives) :
  c.isInFlight k = true
  := by
  obtain ⟨hin, i, hi⟩ := h.arrives w q hq harrives
  obtain ⟨result, hpc, hsp, -, -⟩ | ⟨hf, -⟩ := Run.advance_cases ha
  · -- the task that deregisters is the one the call is for
    have hderegisters : r.Deregisters := by simpa only [Run.Deregisters, hpc] using hsp
    have hunderWay : r.UnderWay := by simpa only [Run.UnderWay, hpc] using hsp
    obtain hpaired | ⟨-, q', -, hq', -, hunderWay'⟩ := h.paired (w, i) hi
    · exact absurd harrives (hpaired.not_arrives hq)
    · have hij : i = j := h.single i j q' r hq' hr hunderWay' hunderWay
      exact absurd harrives ((hok.2 r hr).2.2.2 hderegisters (w, i) hi hij q hq)
  · rw [isInFlight, hf.inFlight]
    apply hin

theorem Kept.advance
    (h : Kept k (s, log)) (hok : Coalesces k (s, log) (.advance j o))
    (hs : s.step (.advance j o) = some s') :
  Kept k (s', log ++ callers s (.advance j o) s')
  := by
  have hjoins := fun r => h.joins (r := r) hok hs
  have hpaired (p : Nat × Nat) (hp : p ∈ log) : s'.Paired p.1 p.2 ∨ s'.Expected p.1 p.2 := by
    obtain hpaired | hexpected := h.paired p hp
    · exact .inl (hpaired.advance hp h hok hs)
    · apply hexpected.advance hp h hok hs
  obtain ⟨r, c, pc, hr, ha, rfl⟩ := step_advance hs
  have hgoes := Run.goes_advance (h.fits j r hr) (h.keeps j r hr) ha
  have hsignals := signals_advance ha
  have hunderWay := h.underWay_of_goes hr hgoes
  have hcache (hlive : ¬ r.Live) : c.cache = s.client.cache := by
    apply Run.cache_advance ha
    intro data hpc
    simp [Run.Live, hpc] at hlive
  -- a run of the state after the step
  have after {P : Nat → Run V → Prop} (hown : P j { r with pc := pc })
      (hothers : ∀ i q, s.runs.lookup i = some q → i ≠ j → P i q) (i : Nat) (q : Run V)
      (hq : (s.runs.insert j { r with pc := pc }).lookup i = some q) : P i q := by
    obtain ⟨rfl, rfl⟩ | ⟨hij, hq⟩ := Table.lookup_insert_cases hq
    · apply hown
    · apply hothers i q hq hij
  have before : ∀ i q, (s.runs.insert j { r with pc := pc }).lookup i = some q → q.UnderWay →
      ∃ q', s.runs.lookup i = some q' ∧ q'.UnderWay ∧ q'.spawned = q.spawned :=
    after (fun h => ⟨r, hr, hunderWay h, rfl⟩) fun i q hq _ h => ⟨q, hq, h, rfl⟩
  refine ⟨h.sane.step hs, h.wired.step hs, ?_, ?_, ?_, ?_, ?_, ?_, ?_, ?_, ?_⟩
  · intro i
    dsimp only
    rw [hsignals.1, hsignals.2]
    apply h.calm i
  · apply (Run.trace_advance Slot.relays_traces ha k.cacheKey).isOpen h.isOpen
  · apply after (h.keyed j r hr) fun i q hq _ => h.keyed i q hq
  · apply after hgoes.fits fun i q hq _ => h.fits i q hq
  · refine after hgoes.keeps fun i q hq hij => ?_
    apply (h.keeps i q hq).of_cache
    intro hlive
    apply hcache fun hlive' => hij (h.single i j q r hq hr hlive.underWay hlive'.underWay)
  · intro i l p q hi hl hunderWay hunderWay'
    obtain ⟨p', hi', hunderWay, -⟩ := before i p hi hunderWay
    obtain ⟨q', hl', hunderWay', -⟩ := before l q hl hunderWay'
    apply h.single i l p' q' hi' hl' hunderWay hunderWay'
  · intro i q hi hunderWay
    obtain ⟨q', hi', hunderWay, hsp⟩ := before i q hi hunderWay
    obtain ⟨hsp', hrestoring⟩ := h.spawned i q' hi' hunderWay
    exact ⟨hsp.symm.trans hsp', (Run.settings_advance ha).1.trans hrestoring⟩
  · refine after ?_ fun w q hq _ harrives => ?_
    · intro harrives
      have harrives := harrives.of_advance ha
      obtain ⟨-, i, hi⟩ := h.arrives j r hr harrives
      exact ⟨h.inFlight_advance hok hr ha hr harrives, i, List.mem_append_left _ hi⟩
    · obtain ⟨-, i, hi⟩ := h.arrives w q hq harrives
      exact ⟨h.inFlight_advance hok hr ha hq harrives, i, List.mem_append_left _ hi⟩
  · intro p hp
    obtain hp | hp := List.mem_append.mp hp
    · apply hpaired p hp
    · left
      simp only [callers, hr, Option.elim_some] at hp
      split at hp
      · next hdedup =>
        have hpc : r.pc = .dedup := by
          unfold Run.AtDedup at hdedup
          split at hdedup
          · assumption
          · contradiction
        obtain ⟨task, htask, hpaired, -⟩ := hjoins r hr hpc
        rw [h.keyed j r hr, htask] at hp
        obtain rfl := List.mem_singleton.mp hp
        apply hpaired
      · contradiction

theorem kept_idle (h : Idle k s) :
  Kept k (s, [])
  := by
  have hnone (i : Nat) : s.runs.lookup i = none := by
    rw [h.runs]
    rfl
  have vacuous {P : Nat → Run V → Prop} (i : Nat) (r : Run V) (hr : s.runs.lookup i = some r) :
      P i r := by
    rw [hnone] at hr
    contradiction
  have hsignals (i : Nat) :
      ¬ (i ∈ s.client.signals.cancelled ∨ i ∈ s.client.signals.aborted) := by
    intro hi
    obtain ⟨r, hr, -⟩ := h.sane.signalled i hi
    rw [hnone] at hr
    contradiction
  refine ⟨h.sane, ⟨?_, ?_⟩, ?_, h.isOpen, vacuous, vacuous, vacuous, ?_, vacuous, vacuous, nofun⟩
  · apply vacuous
  · intro i j q r hi
    apply vacuous (P := fun _ _ => _) i q hi
  · exact fun i => not_or.mp (hsignals i)
  · intro i j q r hi
    apply vacuous (P := fun _ _ => _) i q hi

theorem kept_of_coalesces (h : (coalescing k).Run (Coalesces k) t) :
  Kept k t
  := by
  apply h.invariant
  · rintro ⟨s, log⟩ ⟨hidle, hlog⟩
    obtain rfl : log = [] := hlog
    apply kept_idle hidle
  · rintro ⟨s, log⟩ a ⟨s', log'⟩ - hkept hok hstep
    obtain ⟨hs, hlog⟩ := Machine.step_noting hstep
    dsimp only at hs hlog
    rw [hlog]
    by_cases ha : ∃ j o, a = .advance j o
    · obtain ⟨j, o, rfl⟩ := ha
      apply hkept.advance hok hs
    · apply hkept.one_key hok hs fun j o heq => ha ⟨j, o, heq⟩

/-! ### The result of a call -/

theorem Receives.of_step
    {result : QueryState V} (hs : s.step (.advance w .next) = some s')
    (h : Receives s' w result) :
  Receives s w result
  := by
  obtain ⟨n, s'', r, result', hexec, hr, hpc, hagrees⟩ := h
  refine ⟨n + 1, s'', r, result', ?_, hr, hpc, hagrees⟩
  rw [List.replicate_succ, Machine.exec_cons hs]
  apply hexec

/-- What a fetch gave a call agrees with its result. -/
theorem agrees_of_gave
    {result result' : QueryState V} {c : QueryClient V} (hg : q.Gave c result')
    (hq : q.pc.result = some result) :
  result.Agrees result'
  := by
  unfold Pc.result at hq
  split at hq
  · next hpc =>
    simp only [Run.Gave, hpc] at hg
    rwa [← Option.some.inj hq]
  · next hpc =>
    simp only [Run.Gave, hpc] at hg
    rwa [← Option.some.inj hq]
  · next hpc =>
    simp only [Run.Gave, hpc] at hg
    rwa [← Option.some.inj hq]
  · contradiction

/-- A call that has its result returns it. -/
theorem receives_finish
    {result result' : QueryState V} (hr : s.runs.lookup w = some r)
    (hpc : r.pc = .finish result') (hsp : r.spawned = false) (hagrees : result.Agrees result') :
  Receives s w result
  := by
  have ha : r.advance w s.now s.client .next = some (s.client, .done result') := by
    simp [Run.advance, hpc, hsp]
  apply Receives.of_step (step_of_advance hr ha)
  exact ⟨0, _, _, result', Machine.exec_nil _, AList.lookup_insert _, rfl, hagrees⟩

/-- A call that waits for a fetch that has its result comes closer to it step by step. -/
theorem receives_waiting
    {result : QueryState V} {p : WaitPc V} {n : Nat} (hr : s.runs.lookup w = some r)
    (hpc : r.pc = .waitForDedup p) (hsp : r.spawned = false)
    (hkey : r.query.key = q.query.key) (htype : r.query.typeId = q.query.typeId)
    (hresult : q.pc.result = some result) (ho : (q.slotOf s.client).Open)
    (hholds : q.Holds s.client)
    (hwaits : q.WaitsFor (q.slotOf s.client) (q.cached s.client) p)
    (hn : p.rank (q.slotOf s.client) < n) :
  Receives s w result
  := by
  induction n generalizing s r p with
  | zero => contradiction
  | succ n ih =>
    have hsteps := hwaits.advanceWait hkey htype ho hholds w s.now
    have hcache := r.cache_advanceWait w s.now s.client p
    have ha : r.advance w s.now s.client .next = some (r.advanceWait w s.now s.client p) := by
      simp only [Run.advance, hpc]
    generalize r.advanceWait w s.now s.client p = next at ha hsteps hcache
    obtain ⟨c, pc⟩ := next
    have ho' : (q.slotOf c).Open :=
      (Run.trace_advance Slot.relays_traces ha q.query.key.cacheKey).isOpen ho
    have hr' : ({ s.setRun w { r with pc := pc } with client := c } : Sys V).runs.lookup w
        = some { r with pc := pc } := AList.lookup_insert _
    apply Receives.of_step (step_of_advance hr ha)
    obtain ⟨p', rfl, hwaits', hrank⟩ | ⟨result', rfl, hgave⟩ := hsteps
    · have hrank := hrank (by rw [hresult, Option.isSome_some])
      apply ih hr' rfl hsp hkey htype ho' (hholds.of_cache hcache) hwaits'
      apply hrank.trans_le (Nat.le_of_lt_succ hn)
    · apply receives_finish hr' rfl hsp (agrees_of_gave hgave hresult)

/-- A call that joined a fetch gets the result once the fetch has it. -/
theorem Paired.receives
    {result : QueryState V} (h : s.Paired w i) (hq : s.runs.lookup i = some q)
    (ho : (q.slotOf s.client).Open) (hresult : q.pc.result = some result) :
  Receives s w result
  := by
  obtain ⟨r, q', hr, hq', hsp, -, hkey, htype, hcases⟩ := h
  obtain rfl := Option.some.inj (hq.symm.trans hq')
  obtain ⟨p, hpc, hholds, hwaits, -⟩ | ⟨result', hpc | hpc, hgave⟩ := hcases
  · apply receives_waiting hr hpc hsp hkey htype hresult ho hholds hwaits (Nat.lt_succ_self _)
  · apply receives_finish hr hpc hsp (agrees_of_gave hgave hresult)
  · exact ⟨0, s, r, result', Machine.exec_nil s, hr, hpc, agrees_of_gave hgave hresult⟩

/-- Along every run whose steps coalesce at most one fetch of the key is in progress, and
whoever spawned or called while it was under way gets its result once it is over. -/
theorem coalesced_of_run (h : (coalescing k).Run (Coalesces k) t) :
  Coalesced t
  := by
  have hkept := kept_of_coalesces h
  have underWay {r : Run V} (h : r.InProgress) : r.UnderWay := by
    unfold Run.InProgress at h
    split at h
    · next hpc => simp only [Run.UnderWay, hpc]
    · next hpc => simp only [Run.UnderWay, hpc]
    · contradiction
  constructor
  · intro i j q r hi hj hq hr
    apply hkept.single i j q r hi hj (underWay hq) (underWay hr)
  · intro p hp q hq result hresult
    obtain ⟨hover, hresult⟩ := Pc.result_of_outcome hresult
    obtain hpaired | ⟨-, q', -, hq', -, hunderWay⟩ := hkept.paired p hp
    · apply hpaired.receives hq _ hresult
      rw [Run.slotOf, hkept.keyed _ q hq]
      apply hkept.isOpen
    · -- a fetch that a call has yet to look for is not over
      obtain rfl := Option.some.inj (hq.symm.trans hq')
      have hsp := (hkept.spawned p.2 q hq hunderWay).1
      exact absurd hover ((Run.underWay_iff hsp (hkept.fits p.2 q hq)).mp hunderWay)

theorem idle_initial :
  Idle k (initial : Sys V)
  := by
  refine ⟨rfl, sane_initial, ?_⟩
  intro sender hsender
  simp [slot, initial, QueryClient.new] at hsender

/-- A call waits for the fetch of a spawned task and gets its data; when the fetch is over the
next is spawned. -/
theorem coalesced_of_run_joined :
  ∃ t : Sys (String ⊕ Nat) × List (Nat × Nat),
    (coalescing (.new "k")).Run (Coalesces (.new "k")) t ∧ (1, 0) ∈ t.2 ∧
    ((t.1.runs.lookup 0).bind fun q => q.pc.outcome) = some (.success (.inl "v")) ∧
    Receives t.1 1 (.success (.inl "v")) ∧ t.1.underWay = [2]
  := by
  let as : List (Action (String ⊕ Nat)) :=
    [.spawn queryK, .register 0, .execute queryK] ++ List.replicate 5 (.advance 1 .next) ++
      List.replicate 6 (.advance 0 .next) ++ [.advance 0 (.ready (.ok (.inl "v")))] ++
      List.replicate 6 (.advance 0 .next) ++ [.spawn queryK]
  have meets : (coalescing (.new "k")).Meets (Coalesces (.new "k")) (initial, []) as := by
    decide +kernel
  have init : (coalescing (V := String ⊕ Nat) (.new "k")).init (initial, []) :=
    ⟨idle_initial, rfl⟩
  obtain ⟨t, hrun, hseen⟩ := Machine.exists_run_of_exec as
    (fun t : Sys (String ⊕ Nat) × List (Nat × Nat) =>
      (t.2, (t.1.runs.lookup 0).bind (fun q => q.pc.outcome), t.1.underWay))
    ([(1, 0), (1, 0)], some (.success (.inl "v")), [2]) init meets (by decide +kernel)
  obtain ⟨hlog, hresult, hunderWay⟩ := by simpa only [Prod.mk.injEq] using hseen
  have hmem : (1, 0) ∈ t.2 := by simp [hlog]
  obtain ⟨q, hq, hq'⟩ := Option.bind_eq_some_iff.mp hresult
  exact ⟨t, hrun, hmem, hresult, (coalesced_of_run hrun).received (1, 0) hmem q hq _ hq',
    hunderWay⟩

/-- Two tasks are spawned for a key, and both fetch. -/
theorem not_coalesced_spawned :
  ¬ ∀ t : Sys (String ⊕ Nat) × List (Nat × Nat),
    (coalescing (.new "k")).Run (OneKey (.new "k")) t → Coalesced t
  := by
  intro h
  let as : List (Action (String ⊕ Nat)) :=
    [.spawn queryK, .register 0, .spawn queryK, .register 1] ++
      List.replicate 6 (.advance 0 .next) ++ List.replicate 6 (.advance 1 .next)
  have meets : (coalescing (.new "k")).Meets (OneKey (.new "k")) (initial, []) as := by
    decide +kernel
  have init : (coalescing (V := String ⊕ Nat) (.new "k")).init (initial, []) :=
    ⟨idle_initial, rfl⟩
  obtain ⟨t, hrun, hseen⟩ := Machine.exists_run_of_exec as
    (fun t : Sys (String ⊕ Nat) × List (Nat × Nat) =>
      ((t.1.runs.lookup 0).map fun q : Run (String ⊕ Nat) => decide q.InProgress,
        (t.1.runs.lookup 1).map fun r : Run (String ⊕ Nat) => decide r.InProgress))
    (some true, some true) init meets (by decide +kernel)
  obtain ⟨hfirst, hsecond⟩ := Prod.mk.inj hseen
  obtain ⟨q, hq, hfetching⟩ := Option.map_eq_some_iff.mp hfirst
  obtain ⟨r, hr, hfetching'⟩ := Option.map_eq_some_iff.mp hsecond
  have := (h t hrun).single 0 1 q r hq hr (of_decide_eq_true hfetching)
    (of_decide_eq_true hfetching')
  contradiction

end Sys

end RsQuery
