import RsQuery.Lib.Unwinding
import RsQuery.Revisions
import RsQuery.Stranded

/-!
# Keys are independent of each other

What a client holds under a cache key, and the executions of the queries of that key, do
not depend on what is done under other keys.  A step is elsewhere if it concerns an
execution of another key, or is a call that does not select the key.  Leaving out the
steps that are elsewhere, the others can be taken all the same, and they leave the same
slot, the same program points and the same results.

The starting of an execution is kept whatever its key: it numbers the executions.
-/

namespace RsQuery

variable {V : Type}

open QueryClient

/-! ### Clients that agree on a key -/

/-- Two clients hold the same under a key and have the same settings. -/
structure QueryClient.Agree (k : String) (c d : QueryClient V) : Prop where
  slot : c.slot k = d.slot k
  settings : Run.SameSettings d c

namespace QueryClient.Agree

variable {k : String} {c d : QueryClient V}

theorem entry (h : Agree k c d) :
  c.cache.lookup k = d.cache.lookup k
  := congrArg Slot.entry h.slot

theorem task (h : Agree k c d) :
  c.inFlight.lookup k = d.inFlight.lookup k
  := congrArg Slot.task h.slot

theorem sender (h : Agree k c d) :
  c.subscribers.lookup k = d.subscribers.lookup k
  := congrArg Slot.sender h.slot

theorem matching (h : Agree k c d) (now : Instant) (filters : QueryFilters) :
  c.matching now filters k = d.matching now filters k
  := by
  simp only [QueryClient.matching, h.entry, h.task]

theorem mem_keysToInvalidate (h : Agree k c d) (pattern : QueryKey) :
  k ∈ c.keysToInvalidate pattern ↔ k ∈ d.keysToInvalidate pattern
  := by
  have hkeys : k ∈ c.cache.keys ↔ k ∈ d.cache.keys := by
    rw [← AList.mem_keys, ← AList.mem_keys, ← AList.lookup_isSome, h.entry, AList.lookup_isSome]
  simp only [keysToInvalidate, List.mem_filter, hkeys]

variable [PartialEqAny V]

theorem newEntry
    {key : QueryKey} (h : Agree key.cacheKey c d) (now : Instant) (data : V)
    (options : QueryOptions) :
  c.newEntry now key data options = d.newEntry now key data options
  := by
  simp only [QueryClient.newEntry, h.entry, h.settings.2.2]

/-- A call does to the slot of a key what it does to it on a client that agrees. -/
theorem onSlot (h : Agree k c d) (call : Call V) (now : Instant) (x : Slot V) :
  call.onSlot now c k x = call.onSlot now d k x
  := by
  cases call with
  | setQueryData key data options =>
    simp only [Call.onSlot]
    split
    · next hk =>
      subst hk
      rw [h.newEntry]
    · rfl
  | invalidateQueries pattern => simp only [Call.onSlot, h.mem_keysToInvalidate]
  | cancelQueries filters | resetQueries filters | removeQueries filters =>
    simp only [Call.onSlot, h.matching]
  | invalidateQueriesFiltered filters => simp only [Call.onSlot, h.matching]
  | refetchQueries filters opts => simp only [Call.onSlot, h.matching]
  | _ => rfl

end QueryClient.Agree

variable [PartialEqAny V]

/-! ### Calls -/

namespace Call

/-- The call sets nothing that concerns every key. -/
def KeepsSettings : Call V → Bool
  | .setDefaultOptions _ | .setIsRestoring _ | .setOnline _ => false
  | _ => true

omit [PartialEqAny V] in
theorem revision_settings :
  Revision (Run.SameSettings (V := V))
  := by
  constructor
  case refl => exact fun c => ⟨rfl, rfl, rfl⟩
  case trans =>
    rintro c c' c'' ⟨hr, ho, hd⟩ ⟨hr', ho', hd'⟩
    exact ⟨hr'.trans hr, ho'.trans ho, hd'.trans hd⟩
  case withdraw =>
    intro c k
    unfold withdraw
    split
    · exact ⟨rfl, rfl, rfl⟩
    · exact ⟨rfl, rfl, rfl⟩
  case markStale => exact fun c k => ⟨rfl, rfl, rfl⟩
  case evict => exact fun c k => ⟨rfl, rfl, rfl⟩
  case notify => exact fun c k v => Run.settings_notifySubscribers c k v

omit [PartialEqAny V] in
theorem settings_clear (c : QueryClient V) :
  Run.SameSettings c c.clear
  := by
  have fold (tasks : List InFlightTask) (c : QueryClient V) :
      Run.SameSettings c (tasks.foldl cancelTask c) := by
    induction tasks generalizing c with
    | nil => apply revision_settings.refl
    | cons task tasks ih =>
      apply revision_settings.trans _ (ih _)
      exact ⟨rfl, rfl, rfl⟩
  apply fold

theorem settings_apply {call : Call V} (h : call.KeepsSettings = true) (now : Instant)
    (c : QueryClient V) :
  Run.SameSettings c (call.apply now c)
  := by
  by_cases hcall : call.Revises = true
  · apply revision_settings.apply c hcall
  · cases call with
    | setQueryData key data options => apply Run.settings_notifySubscribers
    | clear => apply settings_clear
    | gc | subscribe => exact ⟨rfl, rfl, rfl⟩
    | setDefaultOptions | setIsRestoring | setOnline => contradiction
    | _ => exact absurd rfl hcall

/-- Clients that agree on a key agree on it after a call. -/
theorem agree_apply
    {k : String} {c d : QueryClient V} (h : Agree k c d) (call : Call V) (now : Instant) :
  Agree k (call.apply now c) (call.apply now d)
  := by
  constructor
  case slot => rw [slot_apply, slot_apply, h.slot, h.onSlot]
  case settings =>
    obtain ⟨hr, ho, hd⟩ := h.settings
    by_cases hcall : call.KeepsSettings = true
    · obtain ⟨hr₁, ho₁, hd₁⟩ := settings_apply hcall now c
      obtain ⟨hr₂, ho₂, hd₂⟩ := settings_apply hcall now d
      exact ⟨hr₁.trans (hr.trans hr₂.symm), ho₁.trans (ho.trans ho₂.symm),
        hd₁.trans (hd.trans hd₂.symm)⟩
    · cases call with
      | setDefaultOptions options => exact ⟨hr, ho, rfl⟩
      | setIsRestoring restoring => exact ⟨rfl, ho, hd⟩
      | setOnline online =>
        simp only [apply, QueryClient.setOnline, ho]
        exact ⟨hr, rfl, hd⟩
      | _ => exact absurd rfl hcall

/-- The call does not select the key, and sets nothing that concerns every key. -/
def Elsewhere (k : String) (now : Instant) (c : QueryClient V) : Call V → Prop
  | .setQueryData key _ _ | .cancelQuery key => key.cacheKey ≠ k
  | .subscribe cacheKey | .notifySubscribers cacheKey _ => cacheKey ≠ k
  | .invalidateQueries pattern => k ∉ c.keysToInvalidate pattern
  | .cancelQueries filters | .resetQueries filters | .removeQueries filters =>
    (c.matching now filters k).isNone = true
  | .invalidateQueriesFiltered filters => (c.matching now filters.filters k).isNone = true
  | .refetchQueries filters _ => (c.matching now filters k).isNone = true
  | .clear | .gc | .refetchAllStale | .handleReconnect => False
  | .setDefaultOptions _ | .setIsRestoring _ | .setOnline _ => False

instance (k : String) (now : Instant) (c : QueryClient V) (call : Call V) :
    Decidable (call.Elsewhere k now c) := by
  unfold Elsewhere
  rcases call with _ | _ <;> infer_instance

variable {k : String} {now : Instant} {c : QueryClient V} {call : Call V}

/-- A call that is elsewhere leaves the slot of the key. -/
theorem Elsewhere.slot (h : call.Elsewhere k now c) :
  (call.apply now c).slot k = c.slot k
  := by
  rw [slot_apply]
  cases call with
  | setQueryData key data options => apply if_neg (Ne.symm h)
  | cancelQuery key => apply if_neg (Ne.symm h)
  | subscribe cacheKey => apply if_neg (Ne.symm h)
  | notifySubscribers cacheKey variant => apply if_neg (Ne.symm h)
  | invalidateQueries pattern => apply if_neg h
  | cancelQueries filters | resetQueries filters | removeQueries filters =>
    simp only [onSlot, Option.isNone_iff_eq_none.mp h]
  | invalidateQueriesFiltered filters =>
    simp only [onSlot, Option.isNone_iff_eq_none.mp h]
  | refetchQueries filters opts => simp only [onSlot, Option.isNone_iff_eq_none.mp h]
  | clear | gc | refetchAllStale | handleReconnect => contradiction
  | setDefaultOptions | setIsRestoring | setOnline => contradiction

omit [PartialEqAny V] in
theorem Elsewhere.keepsSettings (h : call.Elsewhere k now c) :
  call.KeepsSettings = true
  := by
  cases call with
  | setDefaultOptions | setIsRestoring | setOnline => contradiction
  | _ => rfl

end Call

/-! ### Executions -/

namespace Run

variable {r : Run V} {i : Nat} {now : Instant} {c d : QueryClient V}

/-- What an observer of a key sees of a step. -/
def look (k : String) (p : QueryClient V × Pc V) : Slot V × Pc V :=
  (p.1.slot k, p.2)

theorem cached_agree (h : Agree r.query.key.cacheKey c d) :
  r.cached c = r.cached d
  := by
  simp only [cached, getQueryData, h.entry]

theorem look_resume
    {k : String} (h : Agree k c d) (ha : i ∈ c.signals.aborted ↔ i ∈ d.signals.aborted)
    (pc : Pc V) :
  look k (r.resume i c pc) = look k (r.resume i d pc)
  := by
  have hslot : c.slot k = d.slot k := h.slot
  simp only [resume, ha]
  split
  · simp only [look, Prod.mk.injEq, and_true]
    apply hslot
  · simp only [look, hslot]

theorem slot_dropReceiver (r : Run V) (c : QueryClient V) (rx : Nat) (k : String) :
  (r.dropReceiver c rx).slot k = if k = r.query.key.cacheKey then
      { c.slot k with sender := (c.slot k).sender.map fun sender => Bus.dropReceiver sender rx }
    else c.slot k
  := by
  simp only [dropReceiver, QueryClient.slot, Table.lookup_adjust]
  split
  · rfl
  · rfl

omit [PartialEqAny V] in
theorem slot_setSender (c : QueryClient V) (s : String) (sender : Bus.Shared QueryStateUpdate)
    (k : String) :
  QueryClient.slot { c with subscribers := c.subscribers.insert s sender } k
    = if k = s then { c.slot k with sender := some sender } else c.slot k
  := by
  simp only [QueryClient.slot, Table.lookup_insert_eq]
  split
  · rfl
  · rfl

theorem look_leave (h : Agree r.query.key.cacheKey c d) (rx : Nat) (result : QueryState V) :
  look r.query.key.cacheKey (r.leave c rx result) = look r.query.key.cacheKey (r.leave d rx result)
  := by
  simp only [look, leave, slot_dropReceiver, h.slot]

theorem look_advanceWait (h : Agree r.query.key.cacheKey c d) (w : WaitPc V) :
  look r.query.key.cacheKey (r.advanceWait i now c w)
    = look r.query.key.cacheKey (r.advanceWait i now d w)
  := by
  have hstale : c.isStale now r.query.key = d.isStale now r.query.key := by
    simp only [QueryClient.isStale, h.entry]
  cases w with
  | subscribe =>
    simp only [advanceWait, look, slot_subscribe, h.slot]
    simp only [QueryClient.subscribe, h.sender]
  | recheck rx =>
    simp only [advanceWait, cached_agree h]
    split
    · simp only [look, h.slot]
    · simp only [look, h.slot]
  | judge rx data =>
    simp only [advanceWait, hstale]
    apply look_leave h
  | receive rx =>
    simp only [advanceWait, recvPoll, h.sender]
    split
    · simp only [look, h.slot]
    · split
      · simp only [look, slot_setSender, h.slot]
      · simp only [look, slot_setSender, h.slot]
      · simp only [look, leave, slot_dropReceiver, slot_setSender, h.slot]
  | parked rx => simp only [advanceWait, look, h.slot]
  | received rx variant =>
    simp only [advanceWait, cached_agree h]
    split
    · apply look_leave h
    · apply look_leave h
    · apply look_leave h
    · simp only [look, h.slot]

theorem look_advanceFetch
    (h : Agree r.query.key.cacheKey c d) (ha : i ∈ c.signals.aborted ↔ i ∈ d.signals.aborted)
    (cancelled : Bool) (f : FetchPc V) (o : Outcome V) :
  (r.advanceFetch i now c cancelled f o).map (look r.query.key.cacheKey)
    = (r.advanceFetch i now d cancelled f o).map (look r.query.key.cacheKey)
  := by
  obtain ⟨-, honline, hdefaults⟩ := h.settings
  have same (pc : Pc V) :
      look r.query.key.cacheKey (c, pc) = look r.query.key.cacheKey (d, pc) := by
    simp only [look, h.slot]
  have told (v : QueryStateVariant) (pc : Pc V) :
      look r.query.key.cacheKey (c.notifySubscribers r.query.key.cacheKey v, pc)
        = look r.query.key.cacheKey (d.notifySubscribers r.query.key.cacheKey v, pc) := by
    simp only [look, slot_notifySubscribers, h.slot]
  have stored (data : V) :
      look r.query.key.cacheKey
          (c.storeQueryData now r.query.key data r.query.options, Pc.fetch .stored)
        = look r.query.key.cacheKey
          (d.storeQueryData now r.query.key data r.query.options, Pc.fetch .stored) := by
    simp only [look, slot_storeQueryData, h.slot, h.newEntry]
  unfold advanceFetch
  rw [honline, cached_agree h]
  split
  all_goals repeat' split
  -- a branch leaves the client, tells its subscribers, stores, or resumes
  all_goals
    first
    | rfl
    | apply congrArg some (same _)
    | apply congrArg some (told _ _)
    | apply congrArg some (stored _)
    | apply congrArg some (look_resume h ha _)

/-- A step looks the same on clients that agree on the key of the execution. -/
theorem look_advance
    (h : Agree r.query.key.cacheKey c d) (o : Outcome V)
    (hc : i ∈ c.signals.cancelled ↔ i ∈ d.signals.cancelled)
    (ha : i ∈ c.signals.aborted ↔ i ∈ d.signals.aborted) :
  (r.advance i now c o).map (look r.query.key.cacheKey)
    = (r.advance i now d o).map (look r.query.key.cacheKey)
  := by
  have same (pc : Pc V) :
      look r.query.key.cacheKey (c, pc) = look r.query.key.cacheKey (d, pc) := by
    simp only [look, h.slot]
  have hinFlight : c.isInFlight r.query.key = d.isInFlight r.query.key := by
    simp only [isInFlight, h.task]
  have cleared (pc : Pc V) :
      look r.query.key.cacheKey (c.clearInFlight r.query.key, pc)
        = look r.query.key.cacheKey (d.clearInFlight r.query.key, pc) := by
    have hslot (c : QueryClient V) :
        (c.clearInFlight r.query.key).slot r.query.key.cacheKey
          = (c.slot r.query.key.cacheKey).withdraw := by
      simp only [QueryClient.slot, clearInFlight, AList.lookup_erase, Slot.withdraw]
    simp only [look, hslot, h.slot]
  have counted (pc : Pc V) :
      look r.query.key.cacheKey (c.decFetching, pc)
        = look r.query.key.cacheKey (d.decFetching, pc) := same pc
  unfold advance
  simp only [h.settings.1, hinFlight, hc]
  split
  all_goals repeat' split
  all_goals
    first
    | rfl
    | apply congrArg some (same _)
    | apply congrArg some (cleared _)
    | apply congrArg some (counted _)
    | apply congrArg some (look_resume h ha _)
    | apply congrArg some (look_advanceWait h _)
    | apply look_advanceFetch h ha

/-- A step on one of two clients that agree can be taken on the other. -/
theorem advance_agree
    {o : Outcome V} {c' : QueryClient V} {pc : Pc V} (h : Agree r.query.key.cacheKey c d)
    (hc : i ∈ c.signals.cancelled ↔ i ∈ d.signals.cancelled)
    (ha : i ∈ c.signals.aborted ↔ i ∈ d.signals.aborted)
    (hs : r.advance i now c o = some (c', pc)) :
  ∃ d', r.advance i now d o = some (d', pc) ∧ Agree r.query.key.cacheKey c' d'
  := by
  have hlook : (r.advance i now c o).map _ = (r.advance i now d o).map _ := look_advance h o hc ha
  rw [hs, Option.map_some, eq_comm, Option.map_eq_some_iff] at hlook
  obtain ⟨⟨d', pc'⟩, hd, heq⟩ := hlook
  obtain ⟨hslot, rfl⟩ := Prod.mk.inj heq
  refine ⟨d', hd, hslot.symm, ?_⟩
  obtain ⟨hr, ho, hdefaults⟩ := h.settings
  obtain ⟨hr₁, ho₁, hd₁⟩ := settings_advance hs
  obtain ⟨hr₂, ho₂, hd₂⟩ := settings_advance hd
  exact ⟨hr₁.trans (hr.trans hr₂.symm), ho₁.trans (ho.trans ho₂.symm),
    hd₁.trans (hdefaults.trans hd₂.symm)⟩

/-- A step of an execution leaves the slots of other keys as they are. -/
theorem slot_advance_of_ne
    {k : String} {o : Outcome V} {c' : QueryClient V} {pc : Pc V}
    (hk : k ≠ r.query.key.cacheKey) (h : r.advance i now c o = some (c', pc)) :
  c'.slot k = c.slot k
  := by
  have resumed {pc₀ : Pc V} (h : r.resume i c pc₀ = (c', pc)) : c'.slot k = c.slot k := by
    have hslot : (r.resume i c pc₀).1.slot k = c.slot k := by
      unfold resume
      split
      · rfl
      · rfl
    rwa [h] at hslot
  cases takes_of_advance h with
  | poll _ h => apply resumed h
  | @wait w _ _ _ h =>
    have hslot : (r.advanceWait i now c w).1.slot k = c.slot k := by
      cases w with
      | subscribe => simp only [advanceWait, slot_subscribe, if_neg hk]
      | recheck rx =>
        simp only [advanceWait]
        split
        · rfl
        · rfl
      | judge rx data => simp only [advanceWait, leave, slot_dropReceiver, if_neg hk]
      | receive rx =>
        simp only [advanceWait, recvPoll]
        split
        · rfl
        · split
          all_goals simp only [leave, slot_dropReceiver, slot_setSender, if_neg hk]
      | parked rx => rfl
      | received rx variant =>
        simp only [advanceWait]
        split
        all_goals simp only [leave, slot_dropReceiver, if_neg hk]
    rwa [h] at hslot
  | fetch _ h =>
    cases takes_of_advanceFetch h with
    | resumeFetch h | resumeWait h | resumeSleep h => apply resumed h
    | loading | stored | notifyError => rw [slot_notifySubscribers, if_neg hk]
    | store => rw [slot_storeQueryData, if_neg hk]
    | _ => rfl
  | deregister => simp only [QueryClient.slot, clearInFlight, AList.lookup_erase_ne hk]
  | _ => rfl

/-- The execution is one of a query of the key. -/
def OfKey (k : String) (r : Run V) : Prop :=
  r.query.key.cacheKey = k

instance (k : String) (r : Run V) : Decidable (r.OfKey k) :=
  inferInstanceAs (Decidable (_ = _))

end Run

/-! ### Systems -/

/-- The step concerns an execution of another key, or is a call that does not select the
key. -/
def Action.Elsewhere (k : String) (s : Sys V) : Action V → Prop
  | .register i | .advance i _ | .abort i | .detach i | .drop i | .dropFuture i | .cancelToken i =>
    ∃ r ∈ s.runs.lookup i, ¬ r.OfKey k
  | .call operation => operation.Elsewhere k s.now s.client
  | .spawn _ | .execute _ | .tick _ => False

instance (k : String) (s : Sys V) (a : Action V) : Decidable (a.Elsewhere k s) := by
  unfold Action.Elsewhere
  rcases a with _ | _ <;> infer_instance

namespace Sys

variable {k : String} {s s' t : Sys V} {i : Nat}

/-- Two systems look the same under a key: the clients, the executions of the key and the
signals sent to them. -/
structure Agree (k : String) (s t : Sys V) : Prop where
  sane : s.Sane ∧ t.Sane
  client : QueryClient.Agree k s.client t.client
  now : s.now = t.now
  nextRun : s.nextRun = t.nextRun
  runs : ∀ i (r : Run V), r.OfKey k → (s.runs.lookup i = some r ↔ t.runs.lookup i = some r)
  cancelled : ∀ i r, s.runs.lookup i = some r → r.OfKey k →
    (i ∈ s.client.signals.cancelled ↔ i ∈ t.client.signals.cancelled)
  aborted : ∀ i r, s.runs.lookup i = some r → r.OfKey k →
    (i ∈ s.client.signals.aborted ↔ i ∈ t.client.signals.aborted)

/-- What a step that is elsewhere leaves as it is. -/
structure Untouched (k : String) (s s' : Sys V) : Prop where
  client : QueryClient.Agree k s'.client s.client
  now : s'.now = s.now
  nextRun : s'.nextRun = s.nextRun
  runs : ∀ i (r : Run V), r.OfKey k → (s'.runs.lookup i = some r ↔ s.runs.lookup i = some r)
  cancelled : ∀ i r, s.runs.lookup i = some r → r.OfKey k →
    (i ∈ s'.client.signals.cancelled ↔ i ∈ s.client.signals.cancelled)
  aborted : ∀ i r, s.runs.lookup i = some r → r.OfKey k →
    (i ∈ s'.client.signals.aborted ↔ i ∈ s.client.signals.aborted)

theorem Agree.hide (h : Agree k s t) (hs' : s'.Sane) (hu : Untouched k s s') :
  Agree k s' t
  := by
  obtain ⟨hr, ho, hd⟩ := h.client.settings
  obtain ⟨hr', ho', hd'⟩ := hu.client.settings
  constructor
  case sane => exact ⟨hs', h.sane.2⟩
  case client =>
    exact ⟨hu.client.slot.trans h.client.slot, hr'.trans hr, ho'.trans ho, hd'.trans hd⟩
  case now => rw [hu.now, h.now]
  case nextRun => rw [hu.nextRun, h.nextRun]
  case runs =>
    intro i r hr
    rw [hu.runs i r hr, h.runs i r hr]
  case cancelled =>
    intro i r hi hr
    have hi := (hu.runs i r hr).mp hi
    rw [hu.cancelled i r hi hr, h.cancelled i r hi hr]
  case aborted =>
    intro i r hi hr
    have hi := (hu.runs i r hr).mp hi
    rw [hu.aborted i r hi hr, h.aborted i r hi hr]

/-- Replacing an execution of another key does not show among those of the key. -/
theorem lookup_insert_of_not_ofKey
    {q q' r : Run V} (hq : s.runs.lookup i = some q) (hne : ¬ q.OfKey k)
    (hquery : q'.query = q.query) (hr : r.OfKey k) (j : Nat) :
  (s.runs.insert i q').lookup j = some r ↔ s.runs.lookup j = some r
  := by
  rw [Table.lookup_insert_eq]
  split
  · next hj =>
    rw [hj, hq]
    constructor
    · rintro h
      obtain rfl := Option.some.inj h
      rw [Run.OfKey, hquery] at hr
      exact absurd hr hne
    · rintro h
      obtain rfl := Option.some.inj h
      exact absurd hr hne
  · rfl

/-- An execution that a step elsewhere concerns is not one of the key. -/
theorem ne_of_not_ofKey
    {q r : Run V} {j : Nat} (hq : s.runs.lookup i = some q) (hne : ¬ q.OfKey k)
    (hr : s.runs.lookup j = some r) (hk : r.OfKey k) :
  j ≠ i
  := by
  rintro rfl
  rw [hq] at hr
  obtain rfl := Option.some.inj hr
  apply hne hk

/-- A step that replaces an execution of another key and changes the client elsewhere. -/
theorem Untouched.of_insert
    {q q' : Run V} (hq : s.runs.lookup i = some q) (hne : ¬ q.OfKey k)
    (hruns : s'.runs = s.runs.insert i q') (hquery : q'.query = q.query)
    (hclient : QueryClient.Agree k s'.client s.client) (hnow : s'.now = s.now)
    (hnext : s'.nextRun = s.nextRun)
    (hcancelled : s'.client.signals.cancelled = s.client.signals.cancelled)
    (haborted : s'.client.signals.aborted = s.client.signals.aborted) :
  Untouched k s s'
  := by
  constructor
  case client => apply hclient
  case now => apply hnow
  case nextRun => apply hnext
  case runs =>
    intro j r hr
    rw [hruns]
    apply lookup_insert_of_not_ofKey hq hne hquery hr
  case cancelled =>
    intro j r _ _
    rw [hcancelled]
  case aborted =>
    intro j r _ _
    rw [haborted]

/-- A step that signals an execution of another key. -/
theorem Untouched.of_signal
    {q : Run V} (hq : s.runs.lookup i = some q) (hne : ¬ q.OfKey k)
    (hclient : QueryClient.Agree k s'.client s.client) (hnow : s'.now = s.now)
    (hnext : s'.nextRun = s.nextRun) (hruns : s'.runs = s.runs)
    (hcancelled : ∀ j, j ≠ i →
      (j ∈ s'.client.signals.cancelled ↔ j ∈ s.client.signals.cancelled))
    (haborted : ∀ j, j ≠ i → (j ∈ s'.client.signals.aborted ↔ j ∈ s.client.signals.aborted)) :
  Untouched k s s'
  := by
  constructor
  case client => apply hclient
  case now => apply hnow
  case nextRun => apply hnext
  case runs => simp only [hruns, implies_true]
  case cancelled =>
    intro j r hr hk
    apply hcancelled j (ne_of_not_ofKey hq hne hr hk)
  case aborted =>
    intro j r hr hk
    apply haborted j (ne_of_not_ofKey hq hne hr hk)

/-- The executions of a key are signalled by a call through the registration of the key. -/
theorem Sane.signals_call
    {r : Run V} {j : Nat} (h : s.Sane) (hr : s.runs.lookup j = some r) (hk : r.OfKey k)
    (call : Call V) :
  let c' := call.apply s.now s.client
  let Withdrawn := ∃ task, s.client.inFlight.lookup k = some task ∧
    c'.inFlight.lookup k = none ∧ task.abort = j
  (j ∈ c'.signals.cancelled ↔ j ∈ s.client.signals.cancelled ∨ Withdrawn) ∧
    (j ∈ c'.signals.aborted ↔ j ∈ s.client.signals.aborted ∨ Withdrawn)
  := by
  intro c' Withdrawn
  have hw : Withdraws s.client c' := call.withdraws_apply s.now s.client
  -- a registration names the same execution twice, and is one of its key
  have own (f : InFlightTask → Nat) (hf : ∀ k' task, s.client.inFlight.lookup k' = some task →
      f task = task.abort) :
      (∃ k' task, s.client.inFlight.lookup k' = some task ∧ c'.inFlight.lookup k' = none ∧
        f task = j) ↔ Withdrawn := by
    constructor
    · rintro ⟨k', task, htask, hgone, rfl⟩
      obtain ⟨-, q, hq, -, -, hkey⟩ := h.registered k' task htask
      rw [hf k' task htask, hq] at hr
      obtain rfl := Option.some.inj hr
      obtain rfl : k' = k := hkey.symm.trans hk
      exact ⟨task, htask, hgone, (hf _ _ htask).symm⟩
    · rintro ⟨task, htask, hgone, rfl⟩
      exact ⟨k, task, htask, hgone, hf k task htask⟩
  constructor
  · rw [hw.cancelled, own]
    exact fun k' task htask => (h.registered k' task htask).1
  · rw [hw.aborted, own]
    exact fun _ _ _ => rfl

/-- A call that is elsewhere touches nothing of the key. -/
theorem Untouched.of_call
    {call : Call V} (h : s.Sane) (hcall : call.Elsewhere k s.now s.client) :
  Untouched k s { s with client := call.apply s.now s.client }
  := by
  have hslot := hcall.slot
  have none_withdrawn (j : Nat) : ¬ ∃ task, s.client.inFlight.lookup k = some task ∧
      (call.apply s.now s.client).inFlight.lookup k = none ∧ task.abort = j := by
    rintro ⟨task, htask, hgone, -⟩
    have hsame : (call.apply s.now s.client).inFlight.lookup k = s.client.inFlight.lookup k :=
      congrArg Slot.task hslot
    rw [hgone, htask] at hsame
    contradiction
  constructor
  case client => exact ⟨hslot, Call.settings_apply hcall.keepsSettings _ _⟩
  case now => rfl
  case nextRun => rfl
  case runs => exact fun _ _ _ => Iff.rfl
  case cancelled =>
    intro j r hr hk
    rw [(h.signals_call hr hk call).1, or_iff_left (none_withdrawn j)]
  case aborted =>
    intro j r hr hk
    rw [(h.signals_call hr hk call).2, or_iff_left (none_withdrawn j)]

/-- A step that is elsewhere touches nothing of the key. -/
theorem untouched_of_elsewhere
    {a : Action V} (h : s.Sane) (ha : a.Elsewhere k s) (hs : s.step a = some s') :
  Untouched k s s'
  := by
  have same : QueryClient.Agree k s.client s.client := ⟨rfl, rfl, rfl, rfl⟩
  cases a with
  | register i =>
    obtain ⟨q, hq, hne⟩ := ha
    obtain ⟨r, hr, -, -, rfl⟩ := step_register hs
    obtain rfl := Option.some.inj (hq.symm.trans hr)
    refine Untouched.of_insert hq hne rfl rfl ?_ rfl rfl rfl rfl
    refine ⟨?_, rfl, rfl, rfl⟩
    simp only [QueryClient.slot, setInFlight, AList.lookup_insert_ne (Ne.symm hne)]
  | advance i o =>
    obtain ⟨q, hq, hne⟩ := ha
    obtain ⟨r, c, pc, hr, ha, rfl⟩ := step_advance hs
    obtain rfl := Option.some.inj (hq.symm.trans hr)
    have hc : QueryClient.Agree k c s.client :=
      ⟨Run.slot_advance_of_ne (Ne.symm hne) ha, Run.settings_advance ha⟩
    obtain ⟨_, -, -, rfl, -⟩ | ⟨hf, -⟩ := Run.advance_cases ha
    · exact Untouched.of_insert hq hne rfl rfl hc rfl rfl rfl rfl
    · exact Untouched.of_insert hq hne rfl rfl hc rfl rfl hf.cancelled hf.aborted
  | abort i =>
    obtain ⟨q, hq, hne⟩ := ha
    obtain ⟨r, -, -, -, rfl⟩ := step_abort hs
    refine Untouched.of_signal hq hne ⟨rfl, rfl, rfl, rfl⟩ rfl rfl rfl ?_ ?_
    · exact fun _ _ => Iff.rfl
    · intro j hj
      simp only [abortTask, Finset.mem_insert, hj, false_or]
  | detach i =>
    obtain ⟨q, hq, hne⟩ := ha
    obtain ⟨r, hr, -, rfl⟩ := step_detach hs
    obtain rfl := Option.some.inj (hq.symm.trans hr)
    exact Untouched.of_insert hq hne rfl rfl same rfl rfl rfl rfl
  | drop i =>
    obtain ⟨q, hq, hne⟩ := ha
    obtain ⟨r, -, -, -, rfl⟩ := step_drop hs
    split
    · refine Untouched.of_signal hq hne ⟨rfl, rfl, rfl, rfl⟩ rfl rfl rfl ?_ ?_
      · exact fun _ _ => Iff.rfl
      · exact fun _ _ => Iff.rfl
    · refine Untouched.of_signal hq hne ⟨rfl, rfl, rfl, rfl⟩ rfl rfl rfl ?_ ?_
      · exact fun _ _ => Iff.rfl
      · intro j hj
        simp only [abortTask, Finset.mem_insert, hj, false_or]
  | dropFuture i =>
    obtain ⟨q, hq, hne⟩ := ha
    obtain ⟨r, c, hr, -, hc, rfl⟩ := step_dropFuture hs
    obtain rfl := Option.some.inj (hq.symm.trans hr)
    have hf := frame_dropFuture hc
    refine Untouched.of_insert hq hne rfl rfl ?_ rfl rfl hf.cancelled hf.aborted
    unfold Run.dropFuture at hc
    split at hc
    · obtain rfl := Option.some.inj hc
      refine ⟨?_, rfl, rfl, rfl⟩
      rw [Run.slot_dropReceiver, if_neg (Ne.symm hne)]
    · obtain rfl := Option.some.inj hc
      apply same
    · obtain rfl := Option.some.inj hc
      apply same
    · obtain rfl := Option.some.inj hc
      apply same
    · contradiction
  | cancelToken i =>
    obtain ⟨q, hq, hne⟩ := ha
    obtain ⟨r, -, -, rfl⟩ := step_cancelToken hs
    refine Untouched.of_signal hq hne ⟨rfl, rfl, rfl, rfl⟩ rfl rfl rfl ?_ ?_
    · intro j hj
      simp only [Finset.mem_insert, hj, false_or]
    · exact fun _ _ => Iff.rfl
  | call call =>
    obtain rfl := Option.some.inj hs
    apply Untouched.of_call h ha
  | spawn | execute | tick => contradiction

/-- The same signals are sent to an execution on both sides. -/
def Signalled (s t : Sys V) (i : Nat) : Prop :=
  (i ∈ s.client.signals.cancelled ↔ i ∈ t.client.signals.cancelled) ∧
    (i ∈ s.client.signals.aborted ↔ i ∈ t.client.signals.aborted)

/-- Replacing or adding the same execution on both sides. -/
theorem Agree.replace
    {t' : Sys V} {q : Run V} (h : Agree k s t) (hi : Signalled s t i) (hs : s'.Sane) (ht : t'.Sane)
    (hruns : s'.runs = s.runs.insert i q) (hruns' : t'.runs = t.runs.insert i q)
    (hclient : QueryClient.Agree k s'.client t'.client) (hnow : s'.now = t'.now)
    (hnext : s'.nextRun = t'.nextRun)
    (hf : s'.client.signals.cancelled = s.client.signals.cancelled ∧
      s'.client.signals.aborted = s.client.signals.aborted)
    (hf' : t'.client.signals.cancelled = t.client.signals.cancelled ∧
      t'.client.signals.aborted = t.client.signals.aborted) :
  Agree k s' t'
  := by
  have signalled (j : Nat) (r : Run V) (hj : s'.runs.lookup j = some r) (hr : r.OfKey k) :
      Signalled s t j := by
    rw [hruns, Table.lookup_insert_eq] at hj
    split at hj
    · next heq => rwa [heq]
    · exact ⟨h.cancelled j r hj hr, h.aborted j r hj hr⟩
  constructor
  case sane => exact ⟨hs, ht⟩
  case client => apply hclient
  case now => apply hnow
  case nextRun => apply hnext
  case runs =>
    intro j r hr
    rw [hruns, hruns', Table.lookup_insert_eq, Table.lookup_insert_eq]
    split
    · rfl
    · apply h.runs j r hr
  case cancelled =>
    intro j r hj hr
    rw [hf.1, hf'.1]
    apply (signalled j r hj hr).1
  case aborted =>
    intro j r hj hr
    rw [hf.2, hf'.2]
    apply (signalled j r hj hr).2

/-- Sending the same signals on both sides. -/
theorem Agree.signal
    {t' : Sys V} (h : Agree k s t) (hs : s'.Sane) (ht : t'.Sane)
    (hruns : s'.runs = s.runs) (hruns' : t'.runs = t.runs)
    (hclient : QueryClient.Agree k s'.client t'.client) (hnow : s'.now = t'.now)
    (hnext : s'.nextRun = t'.nextRun)
    (hsignalled : ∀ j r, s.runs.lookup j = some r → r.OfKey k → Signalled s' t' j) :
  Agree k s' t'
  := by
  constructor
  case sane => exact ⟨hs, ht⟩
  case client => apply hclient
  case now => apply hnow
  case nextRun => apply hnext
  case runs =>
    rw [hruns, hruns']
    apply h.runs
  case cancelled =>
    rw [hruns]
    exact fun j r hj hr => (hsignalled j r hj hr).1
  case aborted =>
    rw [hruns]
    exact fun j r hj hr => (hsignalled j r hj hr).2

/-- No signals have been sent to the next execution. -/
theorem Agree.signalled_next (h : Agree k s t) :
  Signalled s t s.nextRun
  := by
  have unsent {s : Sys V} (hs : s.Sane) : ¬ (s.nextRun ∈ s.client.signals.cancelled ∨
      s.nextRun ∈ s.client.signals.aborted) := by
    intro hmem
    obtain ⟨r, hr, -⟩ := hs.signalled _ hmem
    apply Nat.lt_irrefl _ (hs.numbered _ r hr).1
  have hs := not_or.mp (unsent h.sane.1)
  have ht := not_or.mp (unsent h.sane.2)
  rw [← h.nextRun] at ht
  exact ⟨iff_of_false hs.1 ht.1, iff_of_false hs.2 ht.2⟩

/-- A call made on both sides. -/
theorem Agree.call (h : Agree k s t) (call : Call V) :
  Agree k { s with client := call.apply s.now s.client }
    { t with client := call.apply t.now t.client }
  := by
  have hstep (s : Sys V) :
      s.step (.call call) = some { s with client := call.apply s.now s.client } := rfl
  have hclient := Call.agree_apply h.client call s.now
  have htask : s.client.inFlight.lookup k = t.client.inFlight.lookup k := h.client.task
  have htask' := hclient.task
  apply h.signal (h.sane.1.step (hstep s)) (h.sane.2.step (hstep t)) rfl rfl _ h.now h.nextRun
  · intro j r hj hr
    obtain ⟨hsc, hsa⟩ := h.sane.1.signals_call hj hr call
    obtain ⟨htc, hta⟩ := h.sane.2.signals_call ((h.runs j r hr).mp hj) hr call
    rw [← h.now] at htc hta
    constructor
    · simp only [← h.now]
      rw [hsc, htc, h.cancelled j r hj hr, htask, htask']
    · simp only [← h.now]
      rw [hsa, hta, h.aborted j r hj hr, htask, htask']
  · simp only [← h.now]
    apply hclient

/-- Aborting the same task on both sides. -/
theorem Agree.abortTask
    (h : Agree k s t) (hs : (s.abortTask i).Sane) (ht : (t.abortTask i).Sane) :
  Agree k (s.abortTask i) (t.abortTask i)
  := by
  refine h.signal hs ht rfl rfl ⟨h.client.slot, h.client.settings⟩ h.now h.nextRun ?_
  intro j r hj hr
  constructor
  · apply h.cancelled j r hj hr
  · simp only [Sys.abortTask, Finset.mem_insert, h.aborted j r hj hr]

theorem step_of_spawned
    {r : Run V} (hr : s.runs.lookup i = some r) (hspawned : r.spawned = true) :
  (r.returned = false → s.step (.register i) = some { s.setRun i { r with returned := true } with
      client := s.client.setInFlight r.query.key ⟨i, i⟩
      latest := s.latest.insert r.query.key.cacheKey i }) ∧
    (r.returned = true → s.step (.abort i) = some (s.abortTask i) ∧
      s.step (.detach i) = some (s.setRun i { r with detached := true }) ∧
      s.step (.drop i) = some (if r.detached then s else s.abortTask i))
  := by
  constructor
  · intro hreturned
    simp only [step, hr, hspawned, hreturned, Option.bind_eq_bind, Option.bind_some]
    rfl
  · intro hreturned
    simp only [step, hr, hspawned, hreturned, Option.bind_eq_bind, Option.bind_some, and_self,
      if_true]

theorem step_detach_returned (h : s.step (.detach i) = some s') :
  ∃ r, s.runs.lookup i = some r ∧ r.spawned = true ∧ r.returned = true ∧
    s' = s.setRun i { r with detached := true }
  := by
  obtain ⟨r, hr, h⟩ := Option.bind_eq_some_iff.mp h
  split at h
  · next hs => exact ⟨r, hr, hs.1, hs.2, (Option.some.inj h).symm⟩
  · contradiction

/-- The dropping of the same future on clients that agree. -/
theorem dropFuture_agree
    {r : Run V} {c d c' : QueryClient V} (h : QueryClient.Agree r.query.key.cacheKey c d)
    (hc : r.dropFuture c = some c') :
  ∃ d', r.dropFuture d = some d' ∧ QueryClient.Agree r.query.key.cacheKey c' d'
  := by
  unfold Run.dropFuture at hc ⊢
  split at hc
  · obtain rfl := Option.some.inj hc
    refine ⟨_, rfl, ?_, h.settings⟩
    rw [Run.slot_dropReceiver, Run.slot_dropReceiver, h.slot]
  · obtain rfl := Option.some.inj hc
    exact ⟨d, rfl, h⟩
  · obtain rfl := Option.some.inj hc
    exact ⟨d, rfl, h⟩
  · obtain rfl := Option.some.inj hc
    exact ⟨d, rfl, h⟩
  · contradiction

/-- A step that is not elsewhere can be taken on the other side. -/
theorem Agree.follow
    {a : Action V} (h : Agree k s t) (ha : ¬ a.Elsewhere k s) (hs : s.step a = some s') :
  ∃ t', t.step a = some t' ∧ Agree k s' t'
  := by
  suffices follows : ∃ t', t.step a = some t' ∧ (s'.Sane → t'.Sane → Agree k s' t') by
    obtain ⟨t', ht, hagree⟩ := follows
    exact ⟨t', ht, hagree (h.sane.1.step hs) (h.sane.2.step ht)⟩
  -- an execution that a visible step concerns is one of the key, on both sides
  have visible {i : Nat} {r : Run V} (hr : s.runs.lookup i = some r)
      (hi : ¬ ∃ r ∈ s.runs.lookup i, ¬ r.OfKey k) :
      r.OfKey k ∧ t.runs.lookup i = some r ∧ Signalled s t i := by
    have hk : r.OfKey k := by
      by_contra hk
      apply hi ⟨r, hr, hk⟩
    exact ⟨hk, (h.runs i r hk).mp hr, h.cancelled i r hr hk, h.aborted i r hr hk⟩
  have hnext : s.nextRun + 1 = t.nextRun + 1 := by rw [h.nextRun]
  cases a with
  | spawn query =>
    obtain rfl := Option.some.inj hs
    refine ⟨_, rfl, fun hs ht' => ?_⟩
    have hrestoring : t.client.isRestoring = s.client.isRestoring := h.client.settings.1.symm
    have hsig := h.signalled_next
    unfold spawn at hs ht' ⊢
    rw [hrestoring] at ht' ⊢
    by_cases hr : s.client.isRestoring = true
    · simp only [if_pos hr] at hs ht' ⊢
      refine h.replace hsig hs ht' rfl ?_ h.client h.now hnext ⟨rfl, rfl⟩ ⟨rfl, rfl⟩
      simp only [newRun, setRun, h.nextRun]
    · simp only [if_neg hr] at hs ht' ⊢
      have hclient : QueryClient.Agree k s.client.incFetching t.client.incFetching :=
        ⟨h.client.slot, h.client.settings⟩
      refine h.replace hsig hs ht' rfl ?_ hclient h.now hnext ⟨rfl, rfl⟩ ⟨rfl, rfl⟩
      simp only [newRun, setRun, h.nextRun]
  | register i =>
    obtain ⟨r, hr, hsp, hret, rfl⟩ := step_register hs
    obtain ⟨hk, ht, hsig⟩ := visible hr ha
    refine ⟨_, (step_of_spawned ht hsp).1 hret, fun hs ht' => ?_⟩
    refine h.replace hsig hs ht' rfl rfl ⟨?_, h.client.settings⟩ h.now h.nextRun ⟨rfl, rfl⟩
      ⟨rfl, rfl⟩
    have hentry := h.client.entry
    have hsender := h.client.sender
    subst hk
    simp only [QueryClient.slot, setInFlight, AList.lookup_insert, hentry, hsender]
  | execute query =>
    obtain rfl := Option.some.inj hs
    refine ⟨_, rfl, fun hs ht' => ?_⟩
    refine h.replace h.signalled_next hs ht' rfl ?_ h.client h.now hnext ⟨rfl, rfl⟩ ⟨rfl, rfl⟩
    simp only [newRun, setRun, h.nextRun]
  | advance i o =>
    obtain ⟨r, c, pc, hr, hadv, rfl⟩ := step_advance hs
    obtain ⟨hk, ht, hsig⟩ := visible hr ha
    subst hk
    obtain ⟨d, hd, hagree⟩ := Run.advance_agree h.client hsig.1 hsig.2 hadv
    have signals {c c' : QueryClient V} {now : Instant} {pc : Pc V}
        (hc : r.advance i now c o = some (c', pc)) :
        c'.signals.cancelled = c.signals.cancelled ∧ c'.signals.aborted = c.signals.aborted := by
      obtain ⟨_, -, -, rfl, -⟩ | ⟨hf, -⟩ := Run.advance_cases hc
      · exact ⟨rfl, rfl⟩
      · exact ⟨hf.cancelled, hf.aborted⟩
    rw [h.now] at hd
    refine ⟨_, step_of_advance ht hd, fun hs ht' => ?_⟩
    apply h.replace hsig hs ht' rfl rfl hagree h.now h.nextRun (signals hadv) (signals hd)
  | abort i =>
    obtain ⟨r, hr, hsp, hret, rfl⟩ := step_abort hs
    obtain ⟨-, ht, -⟩ := visible hr ha
    exact ⟨_, ((step_of_spawned ht hsp).2 hret).1, fun hs ht' => h.abortTask hs ht'⟩
  | detach i =>
    obtain ⟨r, hr, hsp, hret, rfl⟩ := step_detach_returned hs
    obtain ⟨-, ht, hsig⟩ := visible hr ha
    refine ⟨_, ((step_of_spawned ht hsp).2 hret).2.1, fun hs ht' => ?_⟩
    apply h.replace hsig hs ht' rfl rfl h.client h.now h.nextRun ⟨rfl, rfl⟩ ⟨rfl, rfl⟩
  | drop i =>
    obtain ⟨r, hr, hsp, hret, rfl⟩ := step_drop hs
    obtain ⟨-, ht, -⟩ := visible hr ha
    refine ⟨_, ((step_of_spawned ht hsp).2 hret).2.2, fun hs ht' => ?_⟩
    cases hdetached : r.detached with
    | true => apply h
    | false =>
      simp only [hdetached] at hs ht'
      apply h.abortTask hs ht'
  | dropFuture i =>
    obtain ⟨r, c, hr, hsp, hc, rfl⟩ := step_dropFuture hs
    obtain ⟨hk, ht, hsig⟩ := visible hr ha
    subst hk
    obtain ⟨d, hd, hagree⟩ := dropFuture_agree h.client hc
    have hstep : t.step (.dropFuture i)
        = some { t.setRun i { r with pc := .dropped } with client := d } := by
      simp [step, ht, hsp, hd]
    refine ⟨_, hstep, fun hs ht' => ?_⟩
    have hf := frame_dropFuture hc
    have hf' := frame_dropFuture hd
    exact h.replace hsig hs ht' rfl rfl hagree h.now h.nextRun ⟨hf.cancelled, hf.aborted⟩
      ⟨hf'.cancelled, hf'.aborted⟩
  | cancelToken i =>
    obtain ⟨r, hr, hsp, rfl⟩ := step_cancelToken hs
    obtain ⟨-, ht, -⟩ := visible hr ha
    have hstep : t.step (.cancelToken i)
        = some { t with client.signals.cancelled := insert i t.client.signals.cancelled } := by
      simp [step, ht, hsp]
    refine ⟨_, hstep, fun hs ht' => ?_⟩
    refine h.signal hs ht' rfl rfl ⟨h.client.slot, h.client.settings⟩ h.now h.nextRun ?_
    intro j r hj hr
    constructor
    · simp only [Finset.mem_insert, h.cancelled j r hj hr]
    · apply h.aborted j r hj hr
  | call call =>
    obtain rfl := Option.some.inj hs
    exact ⟨_, rfl, fun _ _ => h.call call⟩
  | tick n =>
    obtain rfl := Option.some.inj hs
    refine ⟨_, rfl, fun hs ht' => ?_⟩
    refine h.signal hs ht' rfl rfl h.client ?_ h.nextRun ?_
    · simp only [h.now]
    · exact fun j r hj hr => ⟨h.cancelled j r hj hr, h.aborted j r hj hr⟩

/-- What is elsewhere is hidden from an observer of the key. -/
theorem unwinds (k : String) :
  (machine (V := V)).Unwinds (fun s a => a.Elsewhere k s) (Agree k)
  := by
  constructor
  case hides =>
    intro s s' t a h ha hs
    apply h.hide (h.sane.1.step hs) (untouched_of_elsewhere h.sane.1 ha hs)
  case follows =>
    intro s s' t a h ha hs
    apply h.follow ha hs

/-- Without the steps that are elsewhere, the other steps of an execution of the system
can be taken all the same, and end in a state that looks the same under the key. -/
theorem agree_of_exec (k : String) {as : List (Action V)} {s : Sys V}
    (h : machine.exec initial as = some s) :
  ∃ t, machine.exec initial (machine.visible (fun s a => a.Elsewhere k s) initial as) = some t ∧
    Agree k s t
  := by
  apply (unwinds k).exec _ h
  constructor
  case sane => exact ⟨sane_initial, sane_initial⟩
  case client => exact ⟨rfl, rfl, rfl, rfl⟩
  case now => rfl
  case nextRun => rfl
  case runs => exact fun _ _ _ => Iff.rfl
  case cancelled => exact fun _ _ _ _ => Iff.rfl
  case aborted => exact fun _ _ _ _ => Iff.rfl

/-- A fetch of `"k"` is spawned between writes and invalidations of another key. -/
def amidOthers : List (Action (String ⊕ Nat)) :=
  [.call (.setQueryData (.new "other") (.inl "old") {}), .spawn queryK, .register 0,
    .call (.invalidateQueries (.new "other")), .advance 0 .next, .advance 0 .next,
    .call (.cancelQuery (.new "other"))]

theorem agree_of_exec_amidOthers :
  ∃ s, machine.exec initial amidOthers = some s ∧
    machine.visible (fun s a => a.Elsewhere "k" s) initial amidOthers
      = [.spawn queryK, .register 0, .advance 0 .next, .advance 0 .next] ∧
    ∃ t, machine.exec initial
        (machine.visible (fun s a => a.Elsewhere "k" s) initial amidOthers) = some t ∧
      Agree "k" s t
  := ⟨_, rfl, rfl, agree_of_exec "k" rfl⟩

end Sys

end RsQuery
