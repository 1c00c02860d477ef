import Mathlib.Data.Stream.Init
import RsQuery.Runs

/-!
# One execution, alone on its key

An `execute_query` call that nothing disturbs on its key calls the fetch function until
the first success, the first failure that is not retried or a cancellation of its token,
and returns how that ended; it changes the cache only to store what it fetched.  What
the call does is noted beside the states: when it calls the fetch function, what that
returns, when its token is cancelled, and the cache that each step of somebody else
leaves.  `fetch_query` is such a call of a query whose retries are forced off.

The attempt counter of the source has 32 bits.  It wraps only after the last of 2^32
attempts, where what is left of the retries is the same without the wrap.
-/

namespace RsQuery

variable {V : Type}

section Queries

variable [PartialEqAny V]

/-- The query `fetch_query` executes: one with retries is fetched without. -/
def Query.forced (query : Query V) : Query V :=
  { query with
      options :=
        if query.options.retry.maxRetries > 0 then
          { query.options with retry := { maxRetries := 0 } }
        else query.options }

/-- The data of a fetch after the select function. -/
def Query.selected (query : Query V) (data : V) : V :=
  query.select.elim data fun select => select data

theorem Query.forced_maxRetries (query : Query V) :
  query.forced.options.retry.maxRetries = 0
  := by
  simp only [forced]
  split
  · rfl
  · next h => apply Nat.eq_zero_of_not_pos h

theorem Query.typeOf_selected (query : Query V) {data : V} (h : typeOf data = query.typeId) :
  typeOf (query.selected data) = query.typeId
  := by
  unfold selected
  cases hs : query.select with
  | none => apply h
  | some select => apply query.select_typeOf select hs data h

end Queries

namespace Execution

/-- What is noted of an execution. -/
inductive Event (V : Type) where
  /-- It calls the fetch function. -/
  | called
  | returned (result : Except QueryError V)
  /-- Its token is cancelled. -/
  | cancelled
  /-- Somebody else takes a step, which leaves this cache. -/
  | others (cache : Table String (CacheEntry V))

/-- What the calls of the fetch function returned, in order. -/
def results (log : List (Event V)) : List (Except QueryError V) :=
  log.filterMap fun
    | .returned result => some result
    | _ => none

/-- How often the fetch function was called. -/
def calls (log : List (Event V)) : Nat :=
  log.countP fun
    | .called => true
    | _ => false

/-- The cache as the others left it. -/
def left (before : Table String (CacheEntry V)) (log : List (Event V)) :
    Table String (CacheEntry V) :=
  log.foldl
    (fun cache e =>
      match e with
      | .others cache' => cache'
      | _ => cache)
    before

/-- What an advance of the execution adds to the log. -/
def told (cancelled : Bool) : Pc V → Outcome V → List (Event V)
  | .fetch (.call _), .next => if cancelled then [] else [.called]
  | .fetch (.fetching _), .ready result => [.returned result]
  | _, _ => []

/-- What a step of somebody else adds. -/
def observed (i : Nat) (c : QueryClient V) : List (Event V) :=
  if i ∈ c.signals.cancelled then [.cancelled, .others c.cache] else [.others c.cache]

/-- Whether a failure is retried, as long as retries are left. -/
def Retryable : Except QueryError V → Prop
  | .error (.network _) | .error (.timeout _) => True
  | _ => False

/-- After these results another call is due: there were at most `m`, all of them
failures that are retried. -/
def Continues (m : Nat) (rs : List (Except QueryError V)) : Prop :=
  rs.length ≤ m ∧ ∀ r ∈ rs, Retryable r

/-- An error as it is returned: cancellations of any shape look the same. -/
def normalised (error : QueryError) : QueryError :=
  if error.isCancelled then .cancelled false false else error

/-- Every call was made with the token not cancelled, after the calls before it had
returned failures that are retried. -/
def CallsDue (m : Nat) (log : List (Event V)) : Prop :=
  ∀ l₁ l₂, log = l₁ ++ .called :: l₂ →
    .cancelled ∉ l₁ ∧ calls l₁ = (results l₁).length ∧ Continues m (results l₁)

/-! ### Logs -/

theorem results_append (l l' : List (Event V)) :
  results (l ++ l') = results l ++ results l'
  := List.filterMap_append

theorem calls_append (l l' : List (Event V)) :
  calls (l ++ l') = calls l + calls l'
  := List.countP_append

theorem left_append (before : Table String (CacheEntry V)) (l l' : List (Event V)) :
  left before (l ++ l') = left (left before l) l'
  := List.foldl_append

theorem CallsDue.concat
    {m : Nat} {log : List (Event V)} {e : Event V} (h : CallsDue m log)
    (he : e = .called →
      .cancelled ∉ log ∧ calls log = (results log).length ∧ Continues m (results log)) :
  CallsDue m (log ++ [e])
  := by
  intro l₁ l₂ heq
  obtain ⟨l, hlog, -⟩ | ⟨hcalled, rfl, -⟩ := Machine.concat_eq_append_cons heq
  · apply h l₁ l hlog
  · apply he hcalled

theorem results_observed (i : Nat) (c : QueryClient V) :
  results (observed i c) = []
  := by
  unfold observed
  split
  · rfl
  · rfl

theorem calls_observed (i : Nat) (c : QueryClient V) :
  calls (observed i c) = 0
  := by
  unfold observed
  split
  · rfl
  · rfl

theorem left_observed (i : Nat) (c : QueryClient V) (before : Table String (CacheEntry V)) :
  left before (observed i c) = c.cache
  := by
  unfold observed
  split
  · rfl
  · rfl

theorem cancelled_mem_observed (i : Nat) (c : QueryClient V) :
  .cancelled ∈ observed i c ↔ i ∈ c.signals.cancelled
  := by
  unfold observed
  split
  · next h => simp [h]
  · next h => simp [h]

theorem CallsDue.append
    {m : Nat} {log l : List (Event V)} (h : CallsDue m log) (hl : .called ∉ l) :
  CallsDue m (log ++ l)
  := by
  induction l generalizing log with
  | nil =>
    rw [List.append_nil]
    apply h
  | cons e l ih =>
    rw [List.mem_cons, not_or] at hl
    rw [List.append_cons]
    apply ih _ hl.2
    apply h.concat fun he => absurd he.symm hl.1

theorem called_not_mem_observed (i : Nat) (c : QueryClient V) :
  .called ∉ observed i c
  := by
  unfold observed
  split
  · simp
  · simp

theorem Continues.concat
    {m : Nat} {rs : List (Except QueryError V)} {r : Except QueryError V}
    (h : Continues m rs) (hlt : rs.length < m) (hr : Retryable r) :
  Continues m (rs ++ [r])
  := by
  constructor
  · rw [List.length_append, List.length_singleton]
    apply hlt
  · intro r' hr'
    obtain hr' | hr' := List.mem_append.mp hr'
    · apply h.2 r' hr'
    · obtain rfl := List.mem_singleton.mp hr'
      apply hr

theorem not_retryable_of_isCancelled {e : QueryError} (h : e.isCancelled = true) :
  ¬ Retryable (.error e : Except QueryError V)
  := by
  cases e with
  | cancelled => apply id
  | _ => contradiction

theorem cancelled_not_mem_told (cancelled : Bool) (pc : Pc V) (o : Outcome V) :
  .cancelled ∉ told cancelled pc o
  := by
  unfold told
  split
  · split
    · simp
    · simp
  · simp
  · simp

/-- How an execution advances when its fetches return `result`. -/
def drive (result : Except QueryError V) : Pc V → Outcome V
  | .fetch (.fetching _) => .ready result
  | _ => .next

/-- The result a fetch is driven with is noted when it returns. -/
theorem results_told_drive (cancelled : Bool) (result : Except QueryError V) (pc : Pc V) :
  results (told cancelled pc (drive result pc)) = [] ∨
    results (told cancelled pc (drive result pc)) = [result]
  := by
  unfold drive
  split
  · exact .inr rfl
  · unfold told
    split
    · split
      · exact .inl rfl
      · exact .inl rfl
    · contradiction
    · exact .inl rfl

variable [PartialEqAny V]

/-- What a step adds to the log of execution `i`. -/
def noted (i : Nat) (s : Sys V) (a : Action V) (s' : Sys V) : List (Event V) :=
  match a with
  | .advance j o =>
    if j = i then
      (s.runs.lookup i).elim [] fun r => told (decide (i ∈ s.client.signals.cancelled)) r.pc o
    else observed i s'.client
  | _ => observed i s'.client

section Specification

variable (c₀ : QueryClient V) (q : Query V) (m : Nat) (log : List (Event V))
  (c : QueryClient V)

/-- The execution has not changed the cache. -/
def Untouched : Prop :=
  c.cache = left c₀.cache log ∧
    c.cache.lookup q.key.cacheKey = c₀.cache.lookup q.key.cacheKey

/-- The last call returned data, after failures that were retried. -/
def Succeeded (data : V) : Prop :=
  ∃ rs, results log = rs ++ [.ok data] ∧ Continues m rs

/-- The execution ends with `error`: the last call returned it, after failures that were
retried, and it is not retried; or the token was cancelled before the next call was
over. -/
def Failed (error : QueryError) : Prop :=
  (∃ rs e, results log = rs ++ [.error e] ∧ Continues m rs ∧ ¬ Continues m (rs ++ [.error e]) ∧
    error = normalised e) ∨
  (.cancelled ∈ log ∧ Continues m (results log) ∧ error = .cancelled false false)

/-- The options an entry of the query is stored with. -/
def storedOptions : QueryOptions :=
  match c₀.cache.lookup q.key.cacheKey, c₀.defaultOptions with
  | none, some defaults => QueryOptions.mergeOptions defaults q.options
  | _, _ => q.options

/-- The cache holds a fresh entry with the data that was fetched, and is otherwise as the
others left it. -/
def Stored (data v : V) : Prop :=
  (∃ entry, c.cache.lookup q.key.cacheKey = some entry ∧ entry.typeId = q.typeId ∧
    entry.data = v ∧ (v = q.selected data ∨ eqAny (q.selected data) v = true) ∧
    entry.isStale = false ∧ entry.options = storedOptions c₀ q) ∧
  ∀ k, k ≠ q.key.cacheKey → c.cache.lookup k = (left c₀.cache log).lookup k

/-- What an execution returns goes with the log and the cache. -/
def Returns : QueryState V → Prop
  | .success v => ∃ data, Succeeded m log data ∧ Stored c₀ q log c data v
  | .error e stale => Failed m log e ∧ Untouched c₀ q log c ∧ stale = c.getQueryData q.key q.typeId
  | _ => False

end Specification

/-! ### The steps of the execution -/

section Steps

variable {c₀ c c' : QueryClient V} {q : Query V} {m : Nat} {log : List (Event V)}

/-- What a state owes to the log, by where the execution stands. -/
def At (c₀ : QueryClient V) (q : Query V) (m : Nat) (log : List (Event V))
    (c : QueryClient V) : Pc V → Prop
  | .start | .dedup | .fetch .loading | .fetch .gate =>
    Untouched c₀ q log c ∧ results log = [] ∧ calls log = 0
  | .fetch (.attempt n) | .fetch (.call n) =>
    Untouched c₀ q log c ∧ (results log).length = n ∧ calls log = n ∧ Continues m (results log)
  | .fetch (.fetching n) | .fetch (.fetchPending n) =>
    Untouched c₀ q log c ∧ (results log).length = n ∧ calls log = n + 1 ∧
      Continues m (results log)
  | .fetch (.fetched data) =>
    Untouched c₀ q log c ∧ Succeeded m log data ∧ typeOf data = q.typeId
  | .fetch (.selected v) =>
    Untouched c₀ q log c ∧ ∃ data, Succeeded m log data ∧ typeOf data = q.typeId ∧
      v = q.selected data
  | .fetch .stored | .fetch .readBack =>
    ∃ data v, Succeeded m log data ∧ Stored c₀ q log c data v ∧ typeOf v = q.typeId
  | .fetch (.failed n e) =>
    Untouched c₀ q log c ∧
      ((∃ rs, results log = rs ++ [.error e] ∧ rs.length = n ∧ Continues m rs ∧
        calls log = n + 1) ∨
      (.cancelled ∈ log ∧ Continues m (results log) ∧ e = .cancelled false false))
  | .fetch (.sleeping n) =>
    Untouched c₀ q log c ∧ (results log).length = n + 1 ∧ calls log = n + 1 ∧
      Continues m (results log)
  | .fetch (.notifyError e) | .fetch (.failing e) => Untouched c₀ q log c ∧ Failed m log e
  | .finish R | .done R => Returns c₀ q m log c R
  | _ => False

theorem Untouched.append
    {e : Event V} (h : Untouched c₀ q log c) (he : ∀ cache, e ≠ .others cache) :
  Untouched c₀ q (log ++ [e]) c
  := by
  rw [Untouched, left_append]
  cases e with
  | others cache => exact absurd rfl (he cache)
  | _ => apply h

/-- What a state owes depends on the cache only through what is untouched and stored. -/
theorem At.transfer
    {pc : Pc V} {log' : List (Event V)} (h : At c₀ q m log c pc)
    (hresults : results log' = results log) (hcalls : calls log' = calls log)
    (hcancelled : .cancelled ∈ log → .cancelled ∈ log')
    (hentry : c'.cache.lookup q.key.cacheKey = c.cache.lookup q.key.cacheKey)
    (hrest : ∀ k, c.cache.lookup k = (left c₀.cache log).lookup k →
      c'.cache.lookup k = (left c₀.cache log').lookup k)
    (hu : c.cache = left c₀.cache log → c'.cache = left c₀.cache log') :
  At c₀ q m log' c' pc
  := by
  have untouched : Untouched c₀ q log c → Untouched c₀ q log' c' := by
    unfold Untouched
    rw [hentry]
    apply And.imp_left hu
  have succeeded {data : V} : Succeeded m log data → Succeeded m log' data := by
    unfold Succeeded
    rw [hresults]
    apply id
  have stored {data v : V} : Stored c₀ q log c data v → Stored c₀ q log' c' data v := by
    unfold Stored
    rw [hentry]
    apply And.imp_right
    intro h k hk
    apply hrest k (h k hk)
  have failed {e : QueryError} : Failed m log e → Failed m log' e := by
    unfold Failed
    rw [hresults]
    apply Or.imp_right
    apply And.imp_left hcancelled
  have returns {R : QueryState V} (h : Returns c₀ q m log c R) : Returns c₀ q m log' c' R := by
    cases R with
    | success v =>
      obtain ⟨data, hsucceeded, hstored⟩ := h
      exact ⟨data, succeeded hsucceeded, stored hstored⟩
    | error e stale =>
      obtain ⟨hfailed, h, hstale⟩ := h
      use failed hfailed, untouched h
      rw [hstale, QueryClient.getQueryData, QueryClient.getQueryData, hentry]
    | _ => apply h.elim
  cases pc with
  | fetch f =>
    cases f with
    | fetched data => exact ⟨untouched h.1, succeeded h.2.1, h.2.2⟩
    | selected v =>
      obtain ⟨h, data, hsucceeded, hv⟩ := h
      exact ⟨untouched h, data, succeeded hsucceeded, hv⟩
    | stored | readBack =>
      obtain ⟨data, v, hsucceeded, hstored, hv⟩ := h
      exact ⟨data, v, succeeded hsucceeded, stored hstored, hv⟩
    | notifyError e | failing e => exact ⟨untouched h.1, failed h.2⟩
    | failed n e =>
      simp only [At, hresults, hcalls] at h ⊢
      exact ⟨untouched h.1, h.2.imp_right (And.imp_left hcancelled)⟩
    | waiting | waitPending | waited => apply h.elim
    | _ =>
      simp only [At, hresults, hcalls] at h ⊢
      apply h.imp_left untouched
  | start | dedup =>
    simp only [At, hresults, hcalls] at h ⊢
    apply h.imp_left untouched
  | finish R | done R => apply returns h
  | _ => apply h.elim

/-- A step that notes nothing and leaves the cache as it is. -/
theorem At.quiet
    {p : Pc V} (h : At c₀ q m log c p) (hcache : c'.cache = c.cache) :
  At c₀ q m (log ++ []) c' p
  := by
  rw [List.append_nil]
  apply h.transfer rfl rfl id (by rw [hcache])
  · intro k hk
    rw [hcache, hk]
  · intro hc
    rw [hcache, hc]

/-- A step of somebody else that leaves the entry of the key alone. -/
theorem At.others
    {pc : Pc V} {i : Nat} (h : At c₀ q m log c pc)
    (hentry : c'.cache.lookup q.key.cacheKey = c.cache.lookup q.key.cacheKey) :
  At c₀ q m (log ++ observed i c') c' pc
  := by
  have hleft : left c₀.cache (log ++ observed i c') = c'.cache := by
    rw [left_append, left_observed]
  apply h.transfer _ _ _ hentry
  · intro k _
    rw [hleft]
  · intro _
    rw [hleft]
  · rw [results_append, results_observed, List.append_nil]
  · rw [calls_append, calls_observed, Nat.add_zero]
  · apply List.mem_append_left

/-- A call is made only when it is due. -/
theorem CallsDue.told
    {cancelled : Bool} {pc : Pc V} {o : Outcome V} (h : CallsDue m log)
    (hat : At c₀ q m log c pc) (hc : .cancelled ∈ log → cancelled = true) :
  CallsDue m (log ++ Execution.told cancelled pc o)
  := by
  unfold Execution.told
  split
  case h_1 n =>
    obtain ⟨-, hresults, hcalls, hcont⟩ := hat
    split
    · apply h.append List.not_mem_nil
    · next hnot =>
      apply h.concat
      intro _
      exact ⟨mt hc hnot, by rw [hcalls, hresults], hcont⟩
  · apply h.append
    simp
  · apply h.append List.not_mem_nil

/-- The key of a query is not in flight, and the client is not restoring, is online and
has the defaults of an earlier one. -/
structure Calm (key : QueryKey) (c₀ c : QueryClient V) : Prop where
  notInFlight : c.isInFlight key = false
  notRestoring : c.isRestoring = false
  online : c.online.isOnline = true
  defaults : c.defaultOptions = c₀.defaultOptions

/-- Storing fetched data leaves a fresh entry with it. -/
theorem stored_storeQueryData
    (now : Instant) {data : V} (hdata : typeOf data = q.typeId) (h : Untouched c₀ q log c)
    (hdefaults : c.defaultOptions = c₀.defaultOptions) :
  ∃ v, Stored c₀ q log (c.storeQueryData now q.key (q.selected data) q.options) data v ∧
    typeOf v = q.typeId
  := by
  have htype : typeOf (q.selected data) = q.typeId := q.typeOf_selected hdata
  have hoptions : (c.newEntry now q.key (q.selected data) q.options).options
      = storedOptions c₀ q := by
    cases hentry : c₀.cache.lookup q.key.cacheKey with
    | some entry => simp only [QueryClient.newEntry, storedOptions, h.2, hentry]
    | none =>
      cases hc₀ : c₀.defaultOptions with
      | none => simp only [QueryClient.newEntry, storedOptions, h.2, hentry, hdefaults, hc₀]
      | some defaults =>
        simp only [QueryClient.newEntry, storedOptions, h.2, hentry, hdefaults, hc₀]
  have hv : (c.newEntry now q.key (q.selected data) q.options).data = q.selected data ∨
      eqAny (q.selected data) (c.newEntry now q.key (q.selected data) q.options).data = true := by
    simp only [QueryClient.newEntry]
    cases c.cache.lookup q.key.cacheKey with
    | none => exact .inl rfl
    | some entry =>
      simp only
      split
      · next hequal => exact .inr hequal.2.2
      · exact .inl rfl
  refine ⟨_, ⟨⟨_, AList.lookup_insert _, htype, rfl, hv, rfl, hoptions⟩, ?_⟩, ?_⟩
  · intro k hk
    rw [← h.1]
    apply AList.lookup_insert_ne hk
  · obtain heq | hequal := hv
    · rw [heq, htype]
    · rw [← PartialEqAny.typeOf_eq_of_eqAny hequal, htype]

/-- The data stored is read back. -/
theorem getQueryData_of_stored
    {data v : V} (h : Stored c₀ q log c data v) (hv : typeOf v = q.typeId) :
  c.getQueryData q.key q.typeId = some v
  := by
  obtain ⟨⟨entry, hentry, htype, rfl, -⟩, -⟩ := h
  simp [QueryClient.getQueryData, hentry, htype, downcast, hv]

end Steps

section Advance

variable {c₀ c c' : QueryClient V} {q : Query V} {m : Nat} {log : List (Event V)} {r : Run V}
  {i : Nat} {now : Instant} {o : Outcome V} {pc : Pc V}

theorem shouldRetry_iff (r : Run V) (e : QueryError) (n : Nat) :
  r.shouldRetry e n = true ↔
    n < r.query.options.retry.maxRetries ∧ Retryable (Except.error e : Except QueryError V)
  := by
  cases e with
  | _ => simp [Run.shouldRetry, Retryable]

/-- A failure goes on to another attempt exactly as far as retries are left. -/
theorem At.failed
    {n : Nat} {e : QueryError} {cancelled : Bool} (hm : r.query.options.retry.maxRetries = m)
    (hcalm : Calm r.query.key c₀ c) (h : At c₀ r.query m log c (.fetch (.failed n e)))
    (ha : r.advanceFetch i now c cancelled (.failed n e) .next = some (c', pc)) :
  At c₀ r.query m log c' pc
  := by
  obtain ⟨hu, h⟩ := h
  cases Run.takes_of_advanceFetch ha with
  | failedCancelled he =>
    use hu
    obtain ⟨rs, hrs, -, hcont, -⟩ | hcancelled := h
    · left
      use rs, e, hrs, hcont
      constructor
      · intro hcont'
        apply not_retryable_of_isCancelled he
        apply hcont'.2 _ (by simp)
      · simp [normalised, he]
    · right
      use hcancelled.1, hcancelled.2.1
  | backOff he hretry _ =>
    obtain ⟨rs, hrs, hlen, hcont, hcalls⟩ | ⟨-, -, rfl⟩ := h
    · obtain ⟨hlt, hr⟩ := (shouldRetry_iff (V := V) r e n).mp hretry
      rw [hm, ← hlen] at hlt
      refine ⟨hu, ?_, hcalls, ?_⟩
      · simp [hrs, hlen]
      · rw [hrs]
        apply hcont.concat hlt hr
    · contradiction
  | waitForOnline _ _ honline =>
    rw [hcalm.online, canRetry_online] at honline
    contradiction
  | giveUp he hretry =>
    obtain ⟨rs, hrs, hlen, hcont, hcalls⟩ | ⟨-, -, rfl⟩ := h
    · use hu
      left
      use rs, e, hrs, hcont
      constructor
      · intro hcont'
        have hretry : ¬ r.shouldRetry e n = true := by rw [hretry]; exact Bool.false_ne_true
        apply hretry
        rw [shouldRetry_iff, hm, ← hlen]
        constructor
        · have := hcont'.1
          rw [List.length_append, List.length_singleton] at this
          apply this
        · apply hcont'.2 _ (by simp)
      · simp [normalised, he]
    · contradiction

theorem At.advanceFetch
    {f : FetchPc V} {cancelled : Bool} (hs : r.spawned = false)
    (hm : r.query.options.retry.maxRetries = m) (hcalm : Calm r.query.key c₀ c)
    (hcancelled : cancelled = true → .cancelled ∈ log) (ho : ∀ payload, o ≠ .panic payload)
    (h : At c₀ r.query m log c (.fetch f))
    (ha : r.advanceFetch i now c cancelled f o = some (c', pc)) :
  At c₀ r.query m (log ++ told cancelled (.fetch f) o) c' pc
  := by
  have hresume (pc : Pc V) : r.resume i c pc = (c, pc) := by
    simp [Run.resume, hs]
  have hnotify (variant : QueryStateVariant) :
      (c.notifySubscribers r.query.key.cacheKey variant).cache = c.cache :=
    (c.notifySubscribers_frame _ _).1
  have happend (result : Except QueryError V) :
      results (log ++ [.returned result]) = results log ++ [result] :=
    results_append ..
  cases Run.takes_of_advanceFetch ha with
  | loading => apply At.quiet (p := .fetch .gate) h (hnotify _)
  | online =>
    obtain ⟨hu, hresults, hcalls⟩ := h
    simp only [told, List.append_nil]
    refine ⟨hu, ?_, hcalls, ?_⟩
    · rw [hresults]
      rfl
    · rw [hresults]
      exact ⟨Nat.zero_le _, nofun⟩
  | paused honline =>
    rw [hcalm.online, canFetch_online] at honline
    contradiction
  | attempt =>
    obtain ⟨hu, hresults, hcalls, hcont⟩ := h
    simp only [told, List.append_nil]
    exact ⟨hu, hresults, hcalls, hcont⟩
  | noAttempt hc =>
    obtain ⟨hu, -, -, hcont⟩ := h
    simp only [told, List.append_nil]
    use hu
    exact .inr ⟨hcancelled hc, hcont, rfl⟩
  | call hc =>
    obtain ⟨hu, hresults, hcalls, hcont⟩ := h
    simp only [told, hc, Bool.false_eq_true, if_false]
    refine ⟨hu.append nofun, ?_, ?_, ?_⟩
    · rw [results_append]
      simpa [results] using hresults
    · rw [calls_append, hcalls]
      rfl
    · rw [results_append]
      simpa [results] using hcont
  | noCall hc =>
    obtain ⟨hu, -, -, hcont⟩ := h
    simp only [told, hc, if_true, List.append_nil]
    use hu
    exact .inr ⟨hcancelled hc, hcont, rfl⟩
  | suspend =>
    simp only [told, List.append_nil]
    apply h
  | data htype =>
    obtain ⟨hu, -, -, hcont⟩ := h
    exact ⟨hu.append nofun, ⟨_, happend _, hcont⟩, htype⟩
  | error =>
    obtain ⟨hu, hresults, hcalls, hcont⟩ := h
    use hu.append nofun
    left
    use results log, happend _, hresults, hcont
    rw [calls_append, hcalls]
    rfl
  | cancel hc =>
    obtain ⟨hu, -, -, hcont⟩ := h
    simp only [told, List.append_nil]
    use hu
    exact .inr ⟨hcancelled hc, hcont, rfl⟩
  | panic | selectPanic => exact absurd rfl (ho _)
  | resumeFetch h' | resumeSleep h' =>
    rw [hresume] at h'
    cases h'
    simp only [told, List.append_nil]
    apply h
  | noSelect hselect =>
    obtain ⟨hu, hsucceeded, htype⟩ := h
    simp only [told, List.append_nil]
    exact ⟨hu, _, hsucceeded, htype, by simp [Query.selected, hselect]⟩
  | select hselect =>
    obtain ⟨hu, hsucceeded, htype⟩ := h
    simp only [told, List.append_nil]
    exact ⟨hu, _, hsucceeded, htype, by simp [Query.selected, hselect]⟩
  | store =>
    obtain ⟨hu, data, hsucceeded, htype, rfl⟩ := h
    obtain ⟨v, hstored, hv⟩ := stored_storeQueryData now htype hu hcalm.defaults
    simp only [told, List.append_nil]
    exact ⟨data, v, hsucceeded, hstored, hv⟩
  | stored => apply At.quiet (p := .fetch .readBack) h (hnotify _)
  | readBack hcached =>
    obtain ⟨data, v, hsucceeded, hstored, hv⟩ := h
    have hv' : r.cached c = some v := getQueryData_of_stored hstored hv
    obtain rfl := Option.some.inj (hcached.symm.trans hv')
    simp only [told, List.append_nil]
    exact ⟨data, hsucceeded, hstored⟩
  | gone hnone =>
    obtain ⟨data, v, -, hstored, hv⟩ := h
    have hv' : r.cached c = some v := getQueryData_of_stored hstored hv
    rw [hnone] at hv'
    contradiction
  | failedCancelled | backOff | waitForOnline | giveUp =>
    simp only [told, List.append_nil]
    apply h.failed hm hcalm ha
  | notifyError => apply At.quiet (p := .fetch (.failing _)) h (hnotify _)
  | fail =>
    simp only [told, List.append_nil]
    exact ⟨h.2, h.1, rfl⟩
  | waited | goOnWaiting | resumeWait | backOffOnline | waitCancelled => apply h.elim

theorem At.advance
    (hs : r.spawned = false) (hm : r.query.options.retry.maxRetries = m)
    (hcalm : Calm r.query.key c₀ c) (hcancelled : i ∈ c.signals.cancelled → .cancelled ∈ log)
    (ho : ∀ payload, o ≠ .panic payload) (h : At c₀ r.query m log c r.pc)
    (ha : r.advance i now c o = some (c', pc)) :
  At c₀ r.query m (log ++ told (decide (i ∈ c.signals.cancelled)) r.pc o) c' pc
  := by
  cases Run.takes_of_advance ha with
  | direct hpc _ _ | alone hpc _ | finish hpc _ =>
    rw [hpc] at h ⊢
    simp only [told, List.append_nil]
    apply h
  | fetch hpc ha =>
    rw [hpc] at h ⊢
    apply h.advanceFetch hs hm hcalm _ ho ha
    exact fun hc => hcancelled (of_decide_eq_true hc)
  | restoring _ hrestoring =>
    rw [hcalm.notRestoring] at hrestoring
    contradiction
  | join _ hin =>
    rw [hcalm.notInFlight] at hin
    contradiction
  | task _ _ hs' | deregister _ hs' =>
    rw [hs] at hs'
    contradiction
  | poll hpc _ | wait hpc _ | reply hpc =>
    rw [hpc] at h
    apply h.elim

/-- How far an execution with `m` retries is from its end. -/
def rank (m : Nat) : Pc V → Nat
  | .start => 16 * m + 19
  | .dedup => 16 * m + 18
  | .fetch .loading => 16 * m + 17
  | .fetch .gate => 16 * m + 16
  | .fetch (.attempt n) => 16 * (m - n) + 15
  | .fetch (.call n) => 16 * (m - n) + 14
  | .fetch (.fetchPending n) => 16 * (m - n) + 13
  | .fetch (.fetching n) => 16 * (m - n) + 12
  | .fetch (.failed n _) => 16 * (m - n) + 11
  | .fetch (.sleeping n) => 16 * (m - n) + 10
  | .fetch (.fetched _) => 8
  | .fetch (.selected _) => 7
  | .fetch (.notifyError _) | .fetch .stored => 6
  | .fetch (.failing _) | .fetch .readBack => 5
  | .finish _ => 2
  | _ => 0

/-- A fetch advances until it has its result, whatever the fetch function returns. -/
theorem At.progress_fetch
    {f : FetchPc V} {cancelled : Bool} (hs : r.spawned = false) (hcalm : Calm r.query.key c₀ c)
    (h : At c₀ r.query m log c (.fetch f)) {result : Except QueryError V}
    (hresult : ∀ data, result = .ok data → typeOf data = r.query.typeId) :
  ∃ c' pc, r.advanceFetch i now c cancelled f (drive result (.fetch f)) = some (c', pc) ∧
    rank m pc < rank m (.fetch f)
  := by
  have hresume (pc : Pc V) : r.resume i c pc = (c, pc) := by
    simp [Run.resume, hs]
  cases f with
  | loading => exact ⟨_, _, rfl, by simp [rank]⟩
  | gate =>
    simp only [drive, Run.advanceFetch, hcalm.online, canFetch_online, if_true]
    exact ⟨_, _, rfl, by simp [rank]⟩
  | attempt n =>
    simp only [drive, Run.advanceFetch]
    split
    · exact ⟨_, _, rfl, by simp [rank]⟩
    · exact ⟨_, _, rfl, by simp [rank]⟩
  | call n =>
    simp only [drive, Run.advanceFetch]
    split
    · exact ⟨_, _, rfl, by simp [rank]⟩
    · exact ⟨_, _, rfl, by simp [rank]⟩
  | fetching n =>
    cases result with
    | error e => exact ⟨_, _, rfl, by simp [rank]⟩
    | ok data =>
      simp only [drive, Run.advanceFetch, if_pos (hresult data rfl)]
      exact ⟨_, _, rfl, by simp [rank]⟩
  | fetchPending n =>
    simp only [drive, Run.advanceFetch, hresume]
    exact ⟨_, _, rfl, by simp [rank]⟩
  | fetched data =>
    simp only [drive, Run.advanceFetch]
    split
    · exact ⟨_, _, rfl, by simp [rank]⟩
    · exact ⟨_, _, rfl, by simp [rank]⟩
  | selected v => exact ⟨_, _, rfl, by simp [rank]⟩
  | stored => exact ⟨_, _, rfl, by simp [rank]⟩
  | readBack =>
    obtain ⟨data, v, -, hstored, hv⟩ := h
    have hcached : r.cached c = some v := getQueryData_of_stored hstored hv
    simp only [drive, Run.advanceFetch, hcached]
    exact ⟨_, _, rfl, by simp [rank]⟩
  | failed n e =>
    simp only [drive, Run.advanceFetch, hcalm.online, canRetry_online, if_true]
    split
    · exact ⟨_, _, rfl, by simp [rank]⟩
    · split
      · exact ⟨_, _, rfl, by simp [rank]⟩
      · exact ⟨_, _, rfl, by simp [rank]⟩
  | sleeping n =>
    -- the one step back: the attempt after this one is one of the `m` that are left
    obtain ⟨-, hlength, -, hcont⟩ := h
    have hle := hcont.1
    simp only [drive, Run.advanceFetch, hresume]
    refine ⟨_, _, rfl, ?_⟩
    simp only [rank]
    omega
  | notifyError e => exact ⟨_, _, rfl, by simp [rank]⟩
  | failing e => exact ⟨_, _, rfl, by simp [rank]⟩
  | _ => apply h.elim

/-- The execution advances until it is done. -/
theorem At.progress
    (hs : r.spawned = false) (hcalm : Calm r.query.key c₀ c) (h : At c₀ r.query m log c r.pc)
    (hdone : ∀ R, r.pc ≠ .done R) {result : Except QueryError V}
    (hresult : ∀ data, result = .ok data → typeOf data = r.query.typeId) :
  ∃ c' pc, r.advance i now c (drive result r.pc) = some (c', pc) ∧ rank m pc < rank m r.pc
  := by
  cases hpc : r.pc with
  | start =>
    simp only [Run.advance, drive, hpc, hcalm.notRestoring, hs]
    exact ⟨_, _, rfl, by simp [rank]⟩
  | dedup =>
    simp only [Run.advance, drive, hpc, hcalm.notInFlight]
    exact ⟨_, _, rfl, by simp [rank]⟩
  | fetch f =>
    rw [hpc] at h
    simp only [Run.advance, hpc]
    apply h.progress_fetch hs hcalm hresult
  | finish R =>
    simp only [Run.advance, drive, hpc, hs]
    exact ⟨_, _, rfl, by simp [rank]⟩
  | done R => exact absurd hpc (hdone R)
  | _ =>
    rw [hpc] at h
    apply h.elim

theorem Calm.advance
    (hs : r.spawned = false) (h : Calm r.query.key c₀ c)
    (ha : r.advance i now c o = some (c', pc)) :
  Calm r.query.key c₀ c'
  := by
  obtain ⟨hrestoring, honline, hdefaults⟩ := Run.settings_advance ha
  obtain ⟨R, -, hspawned, -⟩ | ⟨hframe, -⟩ := Run.advance_cases ha
  · rw [hs] at hspawned
    contradiction
  · constructor
    · rw [QueryClient.isInFlight, hframe.inFlight]
      apply h.notInFlight
    · rw [hrestoring, h.notRestoring]
    · rw [honline, h.online]
    · rw [hdefaults, h.defaults]

end Advance

/-! ### Runs -/

/-- A state in which the key of a query is calm. -/
structure Ready (key : QueryKey) (s : Sys V) : Prop where
  sane : s.Sane
  calm : Calm key s.client s.client

/-- The system from the `execute_query` call of a query on, with a log of what it does. -/
def machine (s₀ : Sys V) (query : Query V) : Machine (Sys V × List (Event V)) (Action V) where
  init t := t = (s₀.newRun ⟨query, false, true, false, .start⟩, [])
  step := (Sys.machine.noting (noted s₀.nextRun)).step

/-- Execution `i` advances, and no function of its query panics. -/
def Own (i : Nat) (a : Action V) : Prop :=
  match a with
  | .advance _ (.panic _) => False
  | .advance j _ => j = i
  | _ => False

/-- Execution `i` advances, or somebody else takes a step that leaves its key alone. -/
def Undisturbed (i : Nat) (key : QueryKey) (t : Sys V × List (Event V)) (a : Action V) : Prop :=
  Own i a ∨ (¬ a.Moves i ∧ ∀ s' ∈ t.1.step a, Calm key t.1.client s'.client ∧
    s'.client.cache.lookup key.cacheKey = t.1.client.cache.lookup key.cacheKey)

instance (i : Nat) (a : Action V) : Decidable (Own i a) := by
  unfold Own
  casesm* Action _, Outcome _ <;> infer_instance

theorem own_drive (i : Nat) (result : Except QueryError V) (pc : Pc V) :
  Own i (.advance i (drive result pc))
  := by
  unfold drive
  split
  · exact rfl
  · exact rfl

/-- The execution stands at `pc`, and the log has it so. -/
def Stands (s₀ : Sys V) (q : Query V) (t : Sys V × List (Event V)) (pc : Pc V) : Prop :=
  t.1.runs.lookup s₀.nextRun = some ⟨q, false, true, false, pc⟩ ∧
    At s₀.client q q.options.retry.maxRetries t.2 t.1.client pc

/-- What holds along a run of the execution. -/
structure Kept (s₀ : Sys V) (q : Query V) (t : Sys V × List (Event V)) : Prop where
  sane : t.1.Sane
  calm : Calm q.key s₀.client t.1.client
  cancelled : s₀.nextRun ∈ t.1.client.signals.cancelled ↔ .cancelled ∈ t.2
  due : CallsDue q.options.retry.maxRetries t.2
  stands : ∃ pc, Stands s₀ q t pc

section Runs

variable {s₀ : Sys V} {q : Query V} {t t' : Sys V × List (Event V)} {a : Action V}

theorem Kept.init (h₀ : Ready q.key s₀) (h : (machine s₀ q).init t) :
  Kept s₀ q t
  := by
  obtain rfl := h
  have hsane : (s₀.newRun ⟨q, false, true, false, .start⟩).Sane :=
    h₀.sane.step (a := .execute q) rfl
  refine ⟨hsane, h₀.calm, ?_, by simp [CallsDue], .start, AList.lookup_insert _, ⟨rfl, rfl⟩, rfl, rfl⟩
  constructor
  · intro hcancelled
    obtain ⟨r, hr, -⟩ := h₀.sane.signalled _ (.inl hcancelled)
    exact absurd (h₀.sane.numbered _ r hr).1 (Nat.lt_irrefl _)
  · nofun

/-- A step of somebody else that leaves the key alone. -/
theorem Kept.others
    {s' : Sys V} (h : Kept s₀ q t) (hs : t.1.step a = some s') (ha : ¬ a.Moves s₀.nextRun)
    (hcalm : Calm q.key t.1.client s'.client)
    (hentry : s'.client.cache.lookup q.key.cacheKey = t.1.client.cache.lookup q.key.cacheKey) :
  Kept s₀ q (s', t.2 ++ observed s₀.nextRun s'.client)
  := by
  obtain ⟨pc, hrun, hat⟩ := h.stands
  constructor
  · apply h.sane.step hs
  · exact ⟨hcalm.notInFlight, hcalm.notRestoring, hcalm.online,
      hcalm.defaults.trans h.calm.defaults⟩
  · rw [List.mem_append, cancelled_mem_observed, ← h.cancelled]
    constructor
    · apply Or.inr
    · rintro (hc | hc)
      · apply Sys.cancelled_step hs hc
      · apply hc
  · apply h.due.append (called_not_mem_observed _ _)
  · use pc, h.sane.lookup_step hs hrun rfl ha
    apply hat.others hentry

/-- A step of the execution. -/
theorem Kept.own
    {s' : Sys V} {o : Outcome V} (h : Kept s₀ q t)
    (hs : t.1.step (.advance s₀.nextRun o) = some s') (ho : ∀ payload, o ≠ .panic payload) :
  Kept s₀ q (s', t.2 ++ noted s₀.nextRun t.1 (.advance s₀.nextRun o) s')
  := by
  obtain ⟨pc, hrun, hat⟩ := h.stands
  have hsane := h.sane.step hs
  obtain ⟨r, c, pc', hr, hadvance, rfl⟩ := Sys.step_advance hs
  obtain rfl := Option.some.inj (hrun.symm.trans hr)
  have hnoted (s' : Sys V) : noted s₀.nextRun t.1 (.advance s₀.nextRun o) s' =
      told (decide (s₀.nextRun ∈ t.1.client.signals.cancelled)) pc o := by
    simp [noted, hrun]
  rw [hnoted]
  constructor
  · apply hsane
  · apply Calm.advance rfl h.calm hadvance
  · rw [List.mem_append, ← h.cancelled, or_iff_left (cancelled_not_mem_told _ _ _)]
    obtain ⟨R, -, hspawned, -⟩ | ⟨hframe, -⟩ := Run.advance_cases hadvance
    · contradiction
    · apply iff_of_eq (congrArg (s₀.nextRun ∈ ·) hframe.cancelled)
  · apply h.due.told hat
    intro hc
    apply decide_eq_true (h.cancelled.mpr hc)
  · use pc', AList.lookup_insert _
    apply At.advance rfl rfl h.calm h.cancelled.mp ho hat hadvance

theorem Kept.step
    (h : Kept s₀ q t) (hok : Undisturbed s₀.nextRun q.key t a)
    (hs : (machine s₀ q).step t a = some t') :
  Kept s₀ q t'
  := by
  obtain ⟨hstep, hlog⟩ := Machine.step_noting hs
  obtain ⟨s', log⟩ := t'
  dsimp only at hstep hlog
  obtain rfl := hlog
  obtain hown | ⟨ha, hcalm⟩ := hok
  · cases a with
    | advance _ o =>
      cases o with
      | panic payload => apply hown.elim
      | _ =>
        obtain rfl := hown
        apply h.own hstep nofun
    | _ => apply hown.elim
  · obtain ⟨hcalm, hentry⟩ := hcalm _ hstep
    have hnoted : noted s₀.nextRun t.1 a s' = observed s₀.nextRun s'.client := by
      cases a with
      | advance => apply if_neg ha
      | _ => rfl
    rw [hnoted]
    apply h.others hstep ha hcalm hentry

/-- Along a run of an undisturbed execution. -/
theorem kept_of_run (h₀ : Ready q.key s₀)
    (h : (machine s₀ q).Run (Undisturbed s₀.nextRun q.key) t) :
  Kept s₀ q t
  := h.invariant (fun _ hinit => Kept.init h₀ hinit)
    fun _ _ _ _ hkept hok hs => hkept.step hok hs

/-- The result an execution is done with. -/
def result (r : Run V) : Option (QueryState V) :=
  match r.pc with
  | .done R => some R
  | _ => none

theorem pc_of_result {r : Run V} {R : QueryState V} (h : result r = some R) :
  r.pc = .done R
  := by
  unfold result at h
  split at h
  · next R' hpc =>
    rw [hpc, Option.some.inj h]
  · contradiction

/-- Execution `i` is done, with a result. -/
def Done (i : Nat) (s : Sys V) (R : QueryState V) : Prop :=
  (s.runs.lookup i).bind result = some R

/-- An execution ends when it is let to, with the outcomes its fetches have. -/
theorem Kept.ends
    (h : Kept s₀ q t) (outcomes : Stream' (Except QueryError V))
    (htyped : ∀ k data, outcomes.get k = .ok data → typeOf data = q.typeId) :
  ∃ as t' n R, (machine s₀ q).exec t as = some t' ∧ (∀ a ∈ as, Own s₀.nextRun a) ∧
    results t'.2 = results t.2 ++ outcomes.take n ∧ Done s₀.nextRun t'.1 R
  := by
  obtain ⟨pc, hpc⟩ := h.stands
  generalize hrank : rank q.options.retry.maxRetries pc = k
  induction k using Nat.strong_induction_on generalizing t outcomes pc with
  | _ k ih =>
    obtain ⟨hrun, hat⟩ := hpc
    by_cases hdone : ∃ R, pc = .done R
    · obtain ⟨R, rfl⟩ := hdone
      refine ⟨[], t, 0, R, Machine.exec_nil t, by simp, ?_, by rw [Done, hrun]; rfl⟩
      rw [Stream'.take_zero, List.append_nil]
    · have hprogress : ∃ c' pc', Run.advance ⟨q, false, true, false, pc⟩ s₀.nextRun t.1.now
          t.1.client (drive (outcomes.get 0) pc) = some (c', pc') ∧ rank _ pc' < rank _ pc :=
        At.progress rfl h.calm hat (not_exists.mp hdone) (htyped 0)
      obtain ⟨c', pc', hadvance, hlt⟩ := hprogress
      have hs : (machine s₀ q).step t (.advance s₀.nextRun (drive (outcomes.get 0) pc)) = _ :=
        Machine.noting_step (M := Sys.machine) (t := t) (Sys.step_of_advance hrun hadvance)
      have hkept := h.step (.inl (own_drive ..)) hs
      obtain ⟨pc'', hstands⟩ := hkept.stands
      have hpc : pc'' = pc' :=
        congrArg Run.pc (Option.some.inj (hstands.1.symm.trans (AList.lookup_insert _)))
      rw [← hpc, hrank] at hlt
      have hown := own_drive s₀.nextRun (outcomes.get 0) pc
      -- what the rest of the run needs, with `n'` outcomes used up by this step
      have done (n' : Nat) (hresults : results (told
          (decide (s₀.nextRun ∈ t.1.client.signals.cancelled)) pc (drive (outcomes.get 0) pc))
          = outcomes.take n') :
          ∃ as t' n R, (machine s₀ q).exec t as = some t' ∧ (∀ a ∈ as, Own s₀.nextRun a) ∧
            results t'.2 = results t.2 ++ outcomes.take n ∧ Done s₀.nextRun t'.1 R := by
        obtain ⟨as, t', n, R, hexec, has, hlog, hdone⟩ :=
          ih _ hlt hkept (outcomes.drop n') (fun k => htyped _) _ hstands rfl
        refine ⟨_, t', n' + n, R, (Machine.exec_cons hs).trans hexec, ?_, ?_, hdone⟩
        · intro a ha
          obtain rfl | ha := List.mem_cons.mp ha
          · apply hown
          · apply has a ha
        · rw [hlog, results_append, List.append_assoc, Stream'.take_add, ← hresults]
          simp [noted, hrun]
      obtain hnone | hone := results_told_drive
        (decide (s₀.nextRun ∈ t.1.client.signals.cancelled)) (outcomes.get 0) pc
      · apply done 0 hnone
      · apply done 1 hone

/-- An execution calls its fetch function when that is due, returns what its last call
did, leaves the cache as it should, and ends, whatever its fetches return. -/
structure Follows (s₀ : Sys V) (q : Query V) (m : Nat) (t : Sys V × List (Event V)) : Prop where
  calls : CallsDue m t.2
  returns : ∀ R, Done s₀.nextRun t.1 R → Returns s₀.client q m t.2 t.1.client R
  ends : ∀ outcomes : Stream' (Except QueryError V),
    (∀ k data, outcomes.get k = .ok data → typeOf data = q.typeId) →
      ∃ as t' n R, (machine s₀ q).exec t as = some t' ∧ (∀ a ∈ as, Own s₀.nextRun a) ∧
        results t'.2 = results t.2 ++ outcomes.take n ∧ Done s₀.nextRun t'.1 R

theorem Kept.follows (h : Kept s₀ q t) :
  Follows s₀ q q.options.retry.maxRetries t
  := by
  constructor
  · apply h.due
  · intro R hdone
    obtain ⟨pc, hrun, hat⟩ := h.stands
    rw [Done, hrun] at hdone
    obtain rfl : pc = .done R := pc_of_result hdone
    apply hat
  · apply h.ends

/-- An `execute_query` call alone on its key behaves as its fetches and its token
determine, and so does a `fetch_query` call, which never retries. -/
theorem follows_of_run (h₀ : Ready q.key s₀) :
  (∀ t, (machine s₀ q).Run (Undisturbed s₀.nextRun q.key) t →
    Follows s₀ q q.options.retry.maxRetries t) ∧
  (∀ t, (machine s₀ q.forced).Run (Undisturbed s₀.nextRun q.key) t → Follows s₀ q.forced 0 t)
  := by
  constructor
  · exact fun t h => (kept_of_run h₀ h).follows
  · intro t h
    have hfollows := (kept_of_run (q := q.forced) h₀ h).follows
    rw [q.forced_maxRetries] at hfollows
    apply hfollows

/-- A fetch that fails once and is retried. -/
theorem follows_of_run_retried :
  let q : Query (String ⊕ Nat) := { Sys.queryK with options := { retry := { maxRetries := 1 } } }
  ∃ t, (machine .initial q).Run (Undisturbed 0 q.key) t ∧
    results t.2 = [.error (.network "down"), .ok (.inl "v")] ∧
    Done 0 t.1 (.success (.inl "v")) ∧ Follows .initial q 1 t
  := by
  intro q
  have ready : Ready q.key (.initial : Sys (String ⊕ Nat)) :=
    ⟨Sys.sane_initial, rfl, rfl, rfl, rfl⟩
  let as : List (Action (String ⊕ Nat)) :=
    List.map (Action.advance 0) [.next, .next, .next, .next, .next, .next,
      .ready (.error (.network "down")), .next, .next, .next, .next, .ready (.ok (.inl "v")),
      .next, .next, .next, .next, .next]
  have own : ∀ a ∈ as, Own 0 a := by decide
  have meets : (machine .initial q).Meets (Undisturbed 0 q.key)
      (Sys.initial.newRun ⟨q, false, true, false, .start⟩, []) as :=
    Machine.meets_of_forall (fun a ha t => .inl (own a ha)) _
  obtain ⟨t, hrun, hseen⟩ := Machine.exists_run_of_exec as
    (fun t : Sys (String ⊕ Nat) × List (Event (String ⊕ Nat)) =>
      (results t.2, (t.1.runs.lookup 0).bind result))
    ([.error (.network "down"), .ok (.inl "v")], some (.success (.inl "v"))) rfl meets
    (by decide +kernel)
  obtain ⟨hresults, hdone⟩ := Prod.mk.inj hseen
  use t, hrun, hresults, hdone
  apply (follows_of_run ready).1 t hrun

end Runs

end Execution

end RsQuery
