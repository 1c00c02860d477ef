import RsQuery.Lib.Machine
import RsQuery.Observer

/-!
# Where the data of an observer comes from

The data an observer shows is followed to its origin: the transitions are those of the
observer, over data that carries its origin along.  The accessor of a state's data does not
tell placeholder data from cached data, and three transitions keep whatever it gives; so a
placeholder that is still shown when one of them is made becomes data of the query:
`Traced.genuine_iff`.
-/

namespace RsQuery

/-- Where data comes from. -/
inductive Origin where
  | cache
  | initialData
  | success
  | placeholder
deriving DecidableEq

variable {D E : Type}

namespace QueryState

/-- The state with other data. -/
def mapData (f : D → E) : QueryState D → QueryState E
  | .idle => .idle
  | .loading => .loading
  | .loadingWithPlaceholder d => .loadingWithPlaceholder (f d)
  | .refetching d => .refetching (f d)
  | .success d => .success (f d)
  | .stale d => .stale (f d)
  | .error e staleData => .error e (staleData.map f)

/-- The data a state carries as data of the query. -/
def ownData : QueryState D → Option D
  | .idle | .loading | .loadingWithPlaceholder _ => none
  | .refetching d | .success d | .stale d => some d
  | .error _ staleData => staleData

theorem data_mapData (f : D → E) (state : QueryState D) :
  (state.mapData f).data = state.data.map f
  := by
  cases state with
  | _ => rfl

theorem isPlaceholder_mapData (f : D → E) (state : QueryState D) :
  (state.mapData f).isPlaceholder = state.isPlaceholder
  := by
  cases state with
  | _ => rfl

theorem mapData_mapData {F : Type} (f : D → E) (g : E → F) (state : QueryState D) :
  (state.mapData f).mapData g = state.mapData (g ∘ f)
  := by
  cases state with
  | error e staleData => simp [mapData]
  | _ => rfl

theorem mapData_id (state : QueryState D) :
  state.mapData id = state
  := by
  cases state with
  | error e staleData => simp [mapData]
  | _ => rfl

theorem mapData_observe (f : D → E) (state : QueryState D) (data : Option D) (isStale : Bool) :
  (state.observe data isStale).mapData f = (state.mapData f).observe (data.map f) isStale
  := by
  cases data with
  | none => rw [observe_none, Option.map_none, observe_none, mapData]
  | some d =>
    rw [observe_some, Option.map_some, observe_some]
    cases isStale with
    | _ => rfl

/-- Where no placeholder is shown, all data is data of the query. -/
theorem ownData_eq_data {state : QueryState D} (h : state.isPlaceholder = false) :
  state.ownData = state.data
  := by
  cases state with
  | loadingWithPlaceholder d => contradiction
  | _ => rfl

end QueryState

/-- A placeholder whose data carries its origin. -/
def PlaceholderData.traced : PlaceholderData D → PlaceholderData (D × Origin)
  | .value data => .value (data, .placeholder)
  | .function f => .function fun previous => (f (previous.map Prod.fst), .placeholder)

theorem PlaceholderData.resolve_traced (p : PlaceholderData D) :
  p.traced.resolve none = (p.resolve none, .placeholder)
  := by
  cases p with
  | value data => rfl
  | function f => rfl

variable {V : Type} [PartialEqAny V]

namespace QueryObserver

/-- The observer showing data that carries its origin. -/
def traced (o : QueryObserver V) (state : QueryState (V × Origin)) : QueryObserver (V × Origin) :=
  { o with state := state, placeholderData := o.placeholderData.map .traced }

/-- A call, with the origin of the data it brings. -/
def callTraced (t : QueryObserver (V × Origin)) : Call V → QueryObserver (V × Origin)
  | .update now c =>
    t.observe ((c.getQueryData t.key t.typeId).map (·, .cache)) (c.isStale now t.key)
  | .setLoading now => t.setLoading now
  | .setSuccess now data => t.setSuccess now (data, .success)
  | .setError now error => t.setError now error
  | .setStale now => t.setStale now

/-- Following the data does not change what the observer shows. -/
theorem mapData_callTraced
    {o : QueryObserver V} {state : QueryState (V × Origin)}
    (h : state.mapData Prod.fst = o.state) (a : Call V) :
  ((o.traced state).callTraced a).state.mapData Prod.fst = (o.call a).state
  := by
  have hdata : state.data.map Prod.fst = o.state.data := by
    rw [← h, QueryState.data_mapData]
  cases a with
  | update now c =>
    show (state.observe _ _).mapData _ = o.state.observe _ _
    rw [QueryState.mapData_observe, h, Option.map_map]
    congr 1
    apply Option.map_id'
  | setLoading now =>
    simp only [callTraced, call, setLoading, traced, ← hdata]
    cases state.data with
    | some d => rfl
    | none =>
      cases o.placeholderData with
      | none => rfl
      | some p => simp [QueryState.mapData, p.resolve_traced]
  | setSuccess now data => rfl
  | setError now error =>
    simp only [callTraced, call, setError, traced, QueryState.mapData, hdata]
  | setStale now =>
    simp only [callTraced, call, setStale, traced, ← hdata]
    cases state.data with
    | some d => rfl
    | none => apply h

end QueryObserver

/-- An observer, and the state it shows with the origins of the data. -/
structure Traced (V : Type) where
  observer : QueryObserver V
  state : QueryState (V × Origin)
  erases : state.mapData Prod.fst = observer.state

namespace Traced

/-- A new observer; what it shows is cached, or else the initial data. -/
def mount (c : QueryClient V) (now : Instant) (m : QueryObserver.Mount V) : Traced V :=
  let observer := (QueryObserver.mount c now m).2
  let cached := (c.getQueryData observer.key observer.typeId).isSome
  { observer := observer
    state := observer.state.mapData (·, if cached then .cache else .initialData)
    erases := by rw [QueryState.mapData_mapData]; apply QueryState.mapData_id }

def call (t : Traced V) (a : QueryObserver.Call V) : Traced V where
  observer := t.observer.call a
  state := ((t.observer.traced t.state).callTraced a).state
  erases := QueryObserver.mapData_callTraced t.erases a

def machine : Machine (Traced V) (QueryObserver.Call V) where
  init t := ∃ c now m, t = mount c now m
  step t a := some (t.call a)

/-- Placeholder data is not among the data of the query: what a state carries as such has
another origin, and so there is data where a refetch is said to have failed. -/
structure Genuine (t : Traced V) : Prop where
  ownData : ∀ d ∈ t.state.ownData, d.2 ≠ .placeholder
  refetchError : ∀ online, (t.observer.flags online).isRefetchError = true →
    ∃ d ∈ t.state.data, d.2 ≠ .placeholder

/-- The call keeps the data that is shown. -/
def Keeps : QueryObserver.Call V → Prop
  | .setLoading _ | .setError .. | .setStale _ => True
  | .update .. | .setSuccess .. => False

/-- A call that keeps the data that is shown is not made while that is a placeholder. -/
def KeepsOwnData (t : Traced V) (a : QueryObserver.Call V) : Prop :=
  Keeps a → t.observer.state.isPlaceholder = false

omit [PartialEqAny V] in
theorem isPlaceholder_eq (t : Traced V) :
  t.observer.state.isPlaceholder = t.state.isPlaceholder
  := by
  rw [← t.erases, QueryState.isPlaceholder_mapData]

omit [PartialEqAny V] in
/-- A failed state says nothing of placeholders beyond what it carries. -/
theorem genuine_iff_ownData (t : Traced V) :
  t.Genuine ↔ ∀ d ∈ t.state.ownData, d.2 ≠ .placeholder
  := by
  constructor
  · intro h
    apply h.ownData
  · intro h
    refine ⟨h, ?_⟩
    intro online herror
    have herror : (t.observer.state.isError && t.observer.state.hasData) = true := herror
    rw [← t.erases] at herror
    cases hs : t.state with
    | error e staleData =>
      rw [hs] at herror h
      cases staleData with
      | none => contradiction
      | some d => exact ⟨d, rfl, h d rfl⟩
    | _ =>
      rw [hs] at herror
      contradiction

/-- What is shown as a placeholder is one, and nothing else is. -/
structure Told (t : Traced V) : Prop where
  ownData : ∀ d ∈ t.state.ownData, d.2 ≠ .placeholder
  placeholder : ∀ d, t.state = .loadingWithPlaceholder d → d.2 = .placeholder

theorem told_mount (c : QueryClient V) (now : Instant) (m : QueryObserver.Mount V) :
  (mount c now m).Told
  := by
  have hplaceholder : (mount c now m).observer.state.isPlaceholder = false :=
    QueryObserver.isPlaceholder_mount c now m
  rw [isPlaceholder_eq] at hplaceholder
  constructor
  · intro d hd
    rw [QueryState.ownData_eq_data hplaceholder, mount, QueryState.data_mapData] at hd
    obtain ⟨v, -, rfl⟩ := Option.map_eq_some_iff.mp hd
    show (if _ then _ else _) ≠ _
    split
    · simp
    · simp
  · intro d hd
    rw [hd] at hplaceholder
    contradiction

/-- An update shows what is cached. -/
theorem state_update (t : Traced V) (now : Instant) (c : QueryClient V) :
  (t.call (.update now c)).state =
    match c.getQueryData t.observer.key t.observer.typeId with
    | some v => .ofCached (v, .cache) (c.isStale now t.observer.key)
    | none => .idle
  := by
  show t.state.observe ((c.getQueryData t.observer.key t.observer.typeId).map _) _ = _
  cases c.getQueryData t.observer.key t.observer.typeId with
  | some v => apply QueryState.observe_some
  | none => apply QueryState.observe_none

/-- A call that keeps the data makes whatever is shown data of the query. -/
theorem ownData_call_of_keeps (t : Traced V) {a : QueryObserver.Call V} (ha : Keeps a) :
  (t.call a).state.ownData = t.state.data
  := by
  cases a with
  | update now c => contradiction
  | setSuccess now data => contradiction
  | setError now error => rfl
  | setLoading now =>
    simp only [call, QueryObserver.callTraced, QueryObserver.setLoading, QueryObserver.traced]
    cases t.state.data with
    | some d => rfl
    | none =>
      cases t.observer.placeholderData with
      | none => rfl
      | some p => rfl
  | setStale now =>
    simp only [call, QueryObserver.callTraced, QueryObserver.setStale, QueryObserver.traced]
    cases hd : t.state.data with
    | some d => rfl
    | none =>
      cases hs : t.state with
      | error e staleData =>
        rw [hs] at hd
        apply hd
      | refetching d => simp [hs, QueryState.data] at hd
      | success d => simp [hs, QueryState.data] at hd
      | stale d => simp [hs, QueryState.data] at hd
      | _ => rfl

/-- Any other call shows data of the cache or of a fetch. -/
theorem ownData_call_of_not_keeps (t : Traced V) {a : QueryObserver.Call V} (ha : ¬ Keeps a) :
  ∀ d ∈ (t.call a).state.ownData, d.2 ≠ .placeholder
  := by
  cases a with
  | setSuccess now data =>
    rintro d ⟨⟩
    simp
  | update now c =>
    rw [state_update]
    cases c.getQueryData t.observer.key t.observer.typeId with
    | none => exact nofun
    | some v =>
      intro d hd
      simp only [QueryState.ofCached] at hd
      split at hd
      · cases hd
        simp
      · cases hd
        simp
  | setLoading now => exact absurd trivial ha
  | setError now error => exact absurd trivial ha
  | setStale now => exact absurd trivial ha

/-- What a call shows as a placeholder is one. -/
theorem Told.placeholder_call {t : Traced V} (h : t.Told) (a : QueryObserver.Call V)
    (d : V × Origin) (hd : (t.call a).state = .loadingWithPlaceholder d) :
  d.2 = .placeholder
  := by
  cases a with
  | setSuccess now data => contradiction
  | setError now error => contradiction
  | update now c =>
    rw [state_update] at hd
    split at hd
    · rw [QueryState.ofCached] at hd
      split at hd
      · contradiction
      · contradiction
    · contradiction
  | setLoading now =>
    simp only [call, QueryObserver.callTraced, QueryObserver.setLoading,
      QueryObserver.traced] at hd
    cases hdata : t.state.data with
    | some d => simp [hdata] at hd
    | none =>
      cases hp : t.observer.placeholderData with
      | none => simp [hdata, hp] at hd
      | some p =>
        simp only [hdata, hp, Option.map_some, p.resolve_traced] at hd
        cases hd
        rfl
  | setStale now =>
    simp only [call, QueryObserver.callTraced, QueryObserver.setStale,
      QueryObserver.traced] at hd
    cases hdata : t.state.data with
    | some d => simp [hdata] at hd
    | none =>
      simp only [hdata] at hd
      apply h.placeholder d hd

omit [PartialEqAny V] in
/-- The data that is shown is data of the query exactly if it is no placeholder. -/
theorem Told.data_iff {t : Traced V} (h : t.Told) :
  (∀ d ∈ t.state.data, d.2 ≠ .placeholder) ↔ t.observer.state.isPlaceholder = false
  := by
  rw [isPlaceholder_eq]
  constructor
  · intro hd
    cases hs : t.state with
    | loadingWithPlaceholder d => exact absurd (h.placeholder d hs) (hd d (by rw [hs]; rfl))
    | _ => rfl
  · intro hs
    rw [← QueryState.ownData_eq_data hs]
    apply h.ownData

/-- What a call leads to is genuine exactly where it does not keep a placeholder. -/
theorem Told.genuine_call_iff {t : Traced V} (h : t.Told) (a : QueryObserver.Call V) :
  (t.call a).Genuine ↔ t.KeepsOwnData a
  := by
  rw [genuine_iff_ownData, KeepsOwnData]
  by_cases ha : Keeps a
  · rw [ownData_call_of_keeps t ha, h.data_iff]
    simp only [ha, true_imp_iff]
  · simp only [ha, false_imp_iff, iff_true]
    apply t.ownData_call_of_not_keeps ha

/-- Along the calls on an observer the data of the query is genuine exactly if none that
keeps the data is made while a placeholder is shown. -/
theorem genuine_iff
    (c : QueryClient V) (now : Instant) (m : QueryObserver.Mount V)
    (calls : List (QueryObserver.Call V)) :
  machine.Meets (fun t a => (t.call a).Genuine) (mount c now m) calls ↔
    machine.Meets KeepsOwnData (mount c now m) calls
  := by
  apply Machine.meets_congr (told_mount c now m)
  · intro t a h
    apply h.genuine_call_iff
  · intro t a t' h hgenuine ht
    obtain rfl := Option.some.inj ht
    exact ⟨hgenuine.ownData, h.placeholder_call a⟩

/-- A query that shows a placeholder until it is fetched. -/
def placeheld : SeededQuery (String ⊕ Nat) where
  key := .new "user"
  typeId := typeOf (.inl "" : String ⊕ Nat)
  select := none
  options := {}
  select_typeOf := nofun
  initialData := none
  placeholderData := some (.value (.inl "..."))
  initialData_typeOf := nofun

/-- A first fetch that fails leaves the placeholder as stale data, and a refetch error. -/
theorem not_genuine_setError :
  ¬ ∀ (c : QueryClient (String ⊕ Nat)) (now : Instant) (m : QueryObserver.Mount (String ⊕ Nat))
      (calls : List (QueryObserver.Call (String ⊕ Nat))),
    machine.Meets (fun t a => (t.call a).Genuine) (mount c now m) calls
  := by
  intro h
  obtain ⟨-, h⟩ := h .new 0 (.fromQuery placeheld) [.setLoading 1, .setError 2 (.network "down")]
  obtain ⟨h, -⟩ := h _ rfl
  apply h.ownData (.inl "...", .placeholder) rfl rfl

end Traced

end RsQuery
