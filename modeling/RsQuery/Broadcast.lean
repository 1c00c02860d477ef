import Mathlib.Tactic.Common
import RsQuery.Lib.Machine
import RsQuery.Replicas

/-!
# Broadcasting a client

One client publishes snapshots of itself on a channel, and the receiving loop of another
hydrates each as it comes.  Beside the states is kept what was published, with the string
the publisher held under the key `key`, and what was applied, with the time on the
subscriber's clock.

Applied at the time `t`, a snapshot in which an entry is of the age `a` dates the entry of
the subscriber `t - a`, and replaces it when that is later than the date it has.  So the
subscriber holds what the last snapshot says if this dates the entry later than all the
snapshots before it: `Link.agrees_of_run`.
-/

namespace RsQuery

/-- A persisted client. -/
structure PersistedClient where
  timestampMs : Nat
  buster : String
  clientState : DehydratedState

/-- Maximum number of queued snapshots per channel before a slow receiver lags. -/
def channelCapacity : Nat :=
  64

variable {V : Type} [StringAny V]

namespace QueryClient

variable (serde : Option SerdeJson)

/-- The snapshot `publish_state` takes. -/
def snapshot (client : QueryClient V) (wall : SystemTime) (now : Instant) : PersistedClient where
  timestampMs := unixNowMs wall
  buster := ""
  clientState := client.dehydrate serde wall now

/-- Publishes the current dehydrated state to a channel, if anybody receives from it. -/
def publishState (client : QueryClient V) (wall : SystemTime) (now : Instant)
    (channel : Bus.Shared PersistedClient) : Bus.Shared PersistedClient :=
  if Bus.receiverCount channel = 0 then channel
  else (Bus.send channel (client.snapshot serde wall now)).1

end QueryClient

/-- A publishing and a subscribed client, the channel between them, and the subscriber's
receiver. -/
structure Link (V : Type) where
  wall : SystemTime
  publisher : QueryClient V
  publisherClock : Instant
  subscriber : QueryClient V
  subscriberClock : Instant
  channel : Bus.Shared PersistedClient
  receiver : Nat
  published : List (PersistedClient × Option String)
  applied : List (PersistedClient × Instant)

namespace Link

/-- A step of the system. -/
inductive Action (V : Type) where
  /-- Time passes. -/
  | pass (d : Duration)
  /-- Data is written to the publisher. -/
  | setQueryData (key : QueryKey) (data : V) (options : QueryOptions)
  | publish
  /-- The receiving loop polls its receiver. -/
  | receive (waker : Waker)

variable (serde : Option SerdeJson)

/-- One round of the receiving loop; a lag notice is skipped. -/
def receive (s : Link V) (waker : Waker) : Link V :=
  match Bus.recvPoll s.channel s.receiver waker with
  | (channel, some (.ok message)) =>
    { s with
      channel := channel
      subscriber := s.subscriber.hydrate serde s.subscriberClock message.clientState {}
      applied := s.applied ++ [(message, s.subscriberClock)] }
  | (channel, _) => { s with channel := channel }

/-- The string the publisher holds under a key. -/
def held (s : Link V) (key : QueryKey) : Option String :=
  (s.publisher.cache.lookup key.cacheKey).bind fun e => asString e.data

/-- What an action does; the strings noted are those under `key`. -/
def step (key : QueryKey) (s : Link V) : Action V → Option (Link V)
  | .pass d =>
    some
      { s with
        wall := s.wall + d
        publisherClock := s.publisherClock + d
        subscriberClock := s.subscriberClock + d }
  | .setQueryData key' data options =>
    some { s with publisher := s.publisher.setQueryData s.publisherClock key' data options }
  | .publish =>
    some
      { s with
        channel := s.publisher.publishState serde s.wall s.publisherClock s.channel
        published :=
          s.published ++ [(s.publisher.snapshot serde s.wall s.publisherClock, s.held key)] }
  | .receive waker => some (s.receive serde waker)

/-- A subscriber with nothing under the key, whose receiver has been sent nothing. -/
structure Subscribed (key : QueryKey) (s : Link V) : Prop where
  fresh : s.subscriber.cache.lookup key.cacheKey = none
  receives : s.channel.receivers.lookup s.receiver = some .fresh
  sendersAlive : s.channel.sendersAlive = true
  published : s.published = []
  applied : s.applied = []

/-- The system of a publisher and a subscriber of one channel. -/
def machine (key : QueryKey) : Machine (Link V) (Action V) where
  init := Subscribed key
  step := step serde key

/-- The receiver does not lag: what is published finds room in its queue. -/
def KeepsUp (s : Link V) : Action V → Prop
  | .publish => ∀ r ∈ s.channel.receivers.lookup s.receiver, r.queue.length < s.channel.capacity
  | _ => True

/-- When a snapshot dates an entry it is restored to. -/
def date (m : PersistedClient × Instant) (q : DehydratedQuery) : Instant :=
  (m.2.checkedSub (m.1.clientState.age q)).getD m.2

/-- A snapshot dates the entry of a key later than each of the snapshots before it does. -/
def Outdates (k : String) (earlier : List (PersistedClient × Instant))
    (last : PersistedClient × Instant) : Prop :=
  ∀ m ∈ earlier, ∀ q ∈ m.1.clientState.queries, q.queryHash = k →
    ∀ q' ∈ last.1.clientState.queries, q'.queryHash = k →
      date m q + last.1.clientState.age q' < last.2

/-! ### What holds of every state -/

variable {serde} {key : QueryKey}

/-- A snapshot that was published: its queries are of different hashes, and the string that
was noted is that of the query of the key. -/
structure Faithful (serde : Option SerdeJson) (k : String)
    (p : PersistedClient × Option String) : Prop where
  nodup : (p.1.clientState.queries.map (·.queryHash)).Nodup
  noted : ∀ data, p.2 = some data → ∃ q ∈ p.1.clientState.queries, q.queryHash = k ∧
    q.dataJson.isSome = true ∧ deserializeEntryData serde (q.dataJson.getD "") = data

/-- What was published has been applied or is queued, in order; the entry of the subscriber
is dated by a snapshot applied; and it is that of the last snapshot, if this outdates those
before. -/
structure Kept (serde : Option SerdeJson) (k : String) (s : Link V) : Prop where
  queued : s.channel.sendersAlive = true ∧
    ∃ r ∈ s.channel.receivers.lookup s.receiver, r.alive = true ∧ r.missed = 0 ∧
      s.published.map Prod.fst = s.applied.map Prod.fst ++ r.queue
  faithful : ∀ p ∈ s.published, Faithful serde k p
  dated : ∀ e, s.subscriber.cache.lookup k = some e →
    ∃ m ∈ s.applied, ∃ q ∈ m.1.clientState.queries, q.queryHash = k ∧ e.fetchedAt = date m q
  last : ∀ earlier last, s.applied = earlier ++ [last] → Outdates k earlier last →
    ∀ q ∈ last.1.clientState.queries, q.queryHash = k → q.dataJson.isSome = true →
      ∃ e, s.subscriber.cache.lookup k = some e ∧ e.typeId = typeOf e.data ∧
        e.data = ofString (deserializeEntryData serde (q.dataJson.getD ""))

theorem Kept.of_same
    {k : String} {s s' : Link V} (h : s.Kept serde k) (hchannel : s'.channel = s.channel)
    (hreceiver : s'.receiver = s.receiver) (hpublished : s'.published = s.published)
    (happlied : s'.applied = s.applied) (hsubscriber : s'.subscriber = s.subscriber) :
  s'.Kept serde k
  := by
  constructor
  case queued =>
    rw [hchannel, hreceiver, hpublished, happlied]
    apply h.queued
  case faithful =>
    rw [hpublished]
    apply h.faithful
  case dated =>
    rw [hsubscriber, happlied]
    apply h.dated
  case last =>
    rw [hsubscriber, happlied]
    apply h.last

/-- A snapshot notes the string the publisher holds. -/
theorem faithful_snapshot
    (hserde : ∀ json ∈ serde, json.RoundTrips) (s : Link V) (wall : SystemTime) (now : Instant) :
  Faithful serde key.cacheKey (s.publisher.snapshot serde wall now, s.held key)
  := by
  constructor
  case nodup => apply nodup_dehydrateState
  case noted =>
    intro data hdata
    obtain ⟨e, he, has⟩ := Option.bind_eq_some_iff.mp hdata
    let q := dehydrateCacheEntry serde now key.cacheKey e none (unixNowMs wall) {}
    have hjson : q.dataJson = some (serializeEntryData serde data {}) := by
      simp only [q, dehydrateCacheEntry, has, Option.map_some]
    have hsome : q.dataJson.isSome = true := by rw [hjson, Option.isSome_some]
    refine ⟨q, ?_, rfl, hsome, ?_⟩
    · apply (mem_dehydrateState_iff serde).mpr
      use key.cacheKey, e, he, hsome
    · rw [hjson, Option.getD_some, deserializeEntryData_serializeEntryData hserde]

/-- A live receiver is counted. -/
theorem receiverCount_ne_zero
    {T : Type} {c : Bus.Shared T} {id : Nat} {r : Bus.RecvState T}
    (hr : c.receivers.lookup id = some r) (halive : r.alive = true) :
  Bus.receiverCount c ≠ 0
  := by
  have hmem : r ∈ (Table.values c.receivers).filter (·.alive) :=
    List.mem_filter.mpr ⟨Table.mem_values_iff.mpr ⟨id, hr⟩, halive⟩
  apply List.length_pos_of_mem hmem |>.ne'

theorem Kept.publish
    {s s' : Link V} (h : s.Kept serde key.cacheKey) (hserde : ∀ json ∈ serde, json.RoundTrips)
    (hok : s.KeepsUp .publish) (hs : s.step serde key .publish = some s') :
  s'.Kept serde key.cacheKey
  := by
  obtain rfl := Option.some.inj hs
  obtain ⟨halive, r, hr, hlive, hmissed, hqueue⟩ := h.queued
  constructor
  case dated => apply h.dated
  case last => apply h.last
  case faithful =>
    intro p hp
    obtain hp | rfl := List.mem_append.mp hp |>.imp_right List.mem_singleton.mp
    · apply h.faithful p hp
    · apply faithful_snapshot hserde
  case queued =>
    simp only [QueryClient.publishState, if_neg (receiverCount_ne_zero hr hlive)]
    use halive
    rw [Bus.send_lookup, hr, Option.map_some, Bus.RecvState.push_of_short hlive (hok r hr)]
    refine ⟨_, rfl, hlive, hmissed, ?_⟩
    rw [List.map_append, hqueue, List.append_assoc]
    rfl

omit [StringAny V] in
/-- A query is restored over an entry that is older. -/
theorem restores_of_older
    {state : DehydratedState} {q : DehydratedQuery} {now : Instant} {e : CacheEntry V}
    (hdata : q.dataJson.isSome = true) (h : e.fetchedAt + state.age q < now) :
  QueryClient.restores (some e) now state.dehydratedAtMs {} q = true
  := by
  have hnewer : dehydratedIsNewer now e.fetchedAt state.dehydratedAtMs q.fetchedAtMs = true :=
    decide_eq_true (Nat.lt_sub_iff_add_lt'.mpr h)
  simp only [QueryClient.restores, Option.all_none, hdata, QueryClient.payloadWins, hnewer,
    Bool.and_self]

theorem Kept.apply
    {s s' : Link V} {k : String} (h : s.Kept serde k) {message : PersistedClient}
    {rest : List PersistedClient} {r : Bus.RecvState PersistedClient}
    (hpublished : s.published.map Prod.fst = s.applied.map Prod.fst ++ message :: rest)
    (hr : s'.channel.receivers.lookup s'.receiver = some r) (hqueue : r.queue = rest)
    (hlive : r.alive = true) (hmissed : r.missed = 0) (hopen : s'.channel.sendersAlive = true)
    (hs' : s'.published = s.published ∧ s'.applied = s.applied ++ [(message, s.subscriberClock)] ∧
      s'.subscriber = s.subscriber.hydrate serde s.subscriberClock message.clientState {}) :
  s'.Kept serde k
  := by
  obtain ⟨hsame, happlied, hsubscriber⟩ := hs'
  obtain ⟨p, hp, rfl⟩ : ∃ p ∈ s.published, p.1 = message := by
    apply List.mem_map.mp
    rw [hpublished]
    apply List.mem_append_right _ List.mem_cons_self
  have hnodup := (h.faithful p hp).nodup
  constructor
  case queued =>
    refine ⟨hopen, r, hr, hlive, hmissed, ?_⟩
    rw [hsame, happlied, hpublished, hqueue, List.map_append, List.append_assoc]
    rfl
  case faithful =>
    rw [hsame]
    apply h.faithful
  case dated =>
    intro e he
    rw [hsubscriber] at he
    rw [happlied]
    obtain hkept | ⟨q, hq, hk, -, hrestored⟩ :
        (s.subscriber.hydrate serde s.subscriberClock p.1.clientState {}).cache.lookup k = _ ∨ _ :=
      QueryClient.hydrate_cases serde hnodup k
    · obtain ⟨m, hm, q, hq, hk, hdate⟩ := h.dated e (hkept.symm.trans he)
      exact ⟨m, List.mem_append_left _ hm, q, hq, hk, hdate⟩
    · obtain rfl := Option.some.inj (hrestored.symm.trans he)
      exact ⟨_, List.mem_append_right _ (List.mem_singleton_self _), q, hq, hk, rfl⟩
  case last =>
    intro earlier last hlast houtdates q hq hk hdata
    obtain ⟨rfl, hone⟩ := List.append_inj' (happlied.symm.trans hlast) rfl
    obtain rfl := List.singleton_inj.mp hone
    subst hk
    have hrestores : QueryClient.restores (s.subscriber.cache.lookup q.queryHash)
        s.subscriberClock p.1.clientState.dehydratedAtMs {} q = true := by
      cases he : s.subscriber.cache.lookup q.queryHash with
      | none => apply QueryClient.restores_none rfl hdata
      | some e =>
        obtain ⟨m, hm, q', hq', hk', hdate⟩ := h.dated e he
        apply restores_of_older hdata
        rw [hdate]
        apply houtdates m hm q' hq' hk' q hq rfl
    refine ⟨s.subscriber.restoredEntry serde s.subscriberClock p.1.clientState.dehydratedAtMs {} q,
      ?_, ?_, QueryClient.restoredEntry_data serde⟩
    · rw [hsubscriber, QueryClient.hydrate_lookup serde hnodup hq, QueryClient.hydrateQuery_lookup,
        if_pos ⟨rfl, hrestores⟩]
    · rw [QueryClient.restoredEntry_data]
      rfl

theorem Kept.receive
    {s : Link V} {k : String} (h : s.Kept serde k) (waker : Waker) :
  (s.receive serde waker).Kept serde k
  := by
  obtain ⟨hopen, r, hr, hlive, hmissed, hqueue⟩ := h.queued
  have hpoll := Bus.recvPoll_of_open hr hmissed hopen waker
  cases hq : r.queue with
  | nil =>
    rw [hq] at hpoll
    simp only [Link.receive, hpoll]
    constructor
    case faithful => apply h.faithful
    case dated => apply h.dated
    case last => apply h.last
    case queued =>
      rw [hq] at hqueue
      exact ⟨hopen, _, AList.lookup_insert _, hlive, hmissed, hqueue⟩
  | cons message rest =>
    rw [hq] at hpoll hqueue
    simp only [Link.receive, hpoll]
    exact h.apply hqueue (AList.lookup_insert _) rfl hlive hmissed hopen ⟨rfl, rfl, rfl⟩

theorem kept_of_run
    {s : Link V} (hserde : ∀ json ∈ serde, json.RoundTrips)
    (h : (machine (V := V) serde key).Run KeepsUp s) :
  s.Kept serde key.cacheKey
  := by
  apply h.invariant
  · rintro s ⟨hfresh, hreceives, hopen, hpublished, happlied⟩
    constructor
    case queued =>
      refine ⟨hopen, _, hreceives, rfl, rfl, ?_⟩
      rw [hpublished, happlied]
      rfl
    case faithful =>
      rw [hpublished]
      apply List.forall_mem_nil
    case dated =>
      intro e he
      rw [hfresh] at he
      contradiction
    case last =>
      intro earlier last hlast
      rw [happlied] at hlast
      apply absurd hlast.symm (List.append_ne_nil_of_right_ne_nil _ (List.cons_ne_nil _ _))
  · intro s a s' _ hk hok hs
    cases a with
    | pass d =>
      obtain rfl := Option.some.inj hs
      exact hk.of_same rfl rfl rfl rfl rfl
    | setQueryData key' data options =>
      obtain rfl := Option.some.inj hs
      exact hk.of_same rfl rfl rfl rfl rfl
    | publish => apply hk.publish hserde hok hs
    | receive waker =>
      obtain rfl := Option.some.inj hs
      apply hk.receive

/-- When everything published has been applied, and the last snapshot outdates those before,
the subscriber has the string the publisher had when it was last published. -/
theorem agrees_of_run
    {s : Link V} (hserde : ∀ json ∈ serde, json.RoundTrips)
    (h : (machine (V := V) serde key).Run KeepsUp s)
    {earlier : List (PersistedClient × Instant)} {last : PersistedClient × Instant}
    (happlied : s.applied = earlier ++ [last])
    (hdelivered : s.applied.length = s.published.length)
    (houtdates : Outdates key.cacheKey earlier last) {snapshot : PersistedClient} {data : String}
    (hpublished : s.published.getLast? = some (snapshot, some data)) :
  s.subscriber.getQueryData key (typeOf (ofString data : V)) = some (ofString data)
  := by
  have hkept := kept_of_run hserde h
  obtain ⟨-, r, -, -, -, hqueue⟩ := hkept.queued
  have hempty : r.queue = [] := by
    have hlength := congrArg List.length hqueue
    rw [List.length_append, List.length_map, List.length_map, hdelivered] at hlength
    apply List.eq_nil_of_length_eq_zero
    omega
  have hsnapshot : last.1 = snapshot := by
    have hlast := congrArg List.getLast? hqueue
    rw [hempty, List.append_nil, List.getLast?_map, List.getLast?_map, hpublished, happlied,
      List.getLast?_concat] at hlast
    apply (Option.some.inj hlast).symm
  subst hsnapshot
  obtain ⟨q, hq, hk, hsome, rfl⟩ :=
    (hkept.faithful _ (List.mem_of_getLast? hpublished)).noted data rfl
  obtain ⟨e, he, htype, hdata⟩ := hkept.last earlier last happlied houtdates q hq hk hsome
  have hof : e.typeId = typeOf (ofString (deserializeEntryData serde (q.dataJson.getD "")) : V) := by
    rw [htype, hdata]
  simp only [QueryClient.getQueryData, he, hof, downcast, hdata, ne_eq, not_true, if_false, if_true]

/-- A publisher and a subscriber with nothing cached, at the start of every clock. -/
def fresh : Link (String ⊕ Nat) where
  wall := 0
  publisher := .new
  publisherClock := 0
  subscriber := .new
  subscriberClock := 0
  channel := (Bus.channel channelCapacity).1
  receiver := (Bus.channel (T := PersistedClient) channelCapacity).2
  published := []
  applied := []

theorem fresh_subscribed :
  Subscribed (.new "user") fresh
  := ⟨rfl, rfl, rfl, rfl, rfl⟩

instance (k : String) (earlier : List (PersistedClient × Instant))
    (last : PersistedClient × Instant) : Decidable (Outdates k earlier last) := by
  unfold Outdates
  infer_instance

instance (s : Link V) (a : Action V) : Decidable (s.KeepsUp a) := by
  unfold KeepsUp
  split
  all_goals infer_instance

/-- The second write is published a tenth of a second late, and its snapshot applied a
millisecond after the first. -/
def late : List (Action (String ⊕ Nat)) :=
  [.setQueryData (.new "user") (.inl "ada") {}, .publish, .pass (Duration.fromMillis 5),
    .setQueryData (.new "user") (.inl "grace") {}, .pass (Duration.fromMillis 100), .publish,
    .receive 0, .pass (Duration.fromMillis 1), .receive 0]

/-- Each write is published at once, and applied before the next. -/
def prompt : List (Action (String ⊕ Nat)) :=
  [.setQueryData (.new "user") (.inl "ada") {}, .publish, .pass (Duration.fromMillis 5),
    .receive 0, .setQueryData (.new "user") (.inl "grace") {}, .publish,
    .pass (Duration.fromMillis 1), .receive 0]

/-- How many snapshots have been published and applied, the string noted last, and what the
subscriber has. -/
def seen (s : Link (String ⊕ Nat)) : Nat × Nat × Option (Option String) × Option (String ⊕ Nat) :=
  (s.published.length, s.applied.length, s.published.getLast?.map (·.2),
    s.subscriber.getQueryData (.new "user") 0)

/-- The subscriber keeps the first string when the snapshot of the second is rejected. -/
theorem exists_disagree_late :
  ¬ ∀ (s : Link (String ⊕ Nat)), (machine none (.new "user")).Run KeepsUp s →
    s.applied.length = s.published.length →
    ∀ snapshot data, s.published.getLast? = some (snapshot, some data) →
      s.subscriber.getQueryData (.new "user") 0 = some (.inl data)
  := by
  intro h
  have meets : (machine none (.new "user")).Meets KeepsUp fresh late := by decide +kernel
  obtain ⟨s, hrun, hseen⟩ :=
    Machine.exists_run_of_exec late seen (2, 2, some (some "grace"), some (.inl "ada"))
      fresh_subscribed meets (by decide +kernel)
  simp only [seen, Prod.mk.injEq] at hseen
  obtain ⟨hpublished, happlied, hlast, hdata⟩ := hseen
  obtain ⟨⟨snapshot, data⟩, hlast, rfl⟩ := Option.map_eq_some_iff.mp hlast
  have := h s hrun (by rw [happlied, hpublished]) snapshot "grace" hlast
  rw [hdata] at this
  revert this
  decide

/-- What is needed to know that the last snapshot counts. -/
def seenLast (s : Link (String ⊕ Nat)) : Nat × Nat × Option (Option String) × Option Bool :=
  (s.published.length, s.applied.length, s.published.getLast?.map (·.2),
    s.applied.getLast?.map fun last => decide (Outdates "user" s.applied.dropLast last))

/-- With prompt publishing the subscriber follows. -/
theorem agrees_of_run_prompt :
  ∃ s : Link (String ⊕ Nat), (machine none (.new "user")).Run KeepsUp s ∧
    s.subscriber.getQueryData (.new "user") 0 = some (.inl "grace")
  := by
  have meets : (machine none (.new "user")).Meets KeepsUp fresh prompt := by decide +kernel
  obtain ⟨s, hrun, hseen⟩ :=
    Machine.exists_run_of_exec prompt seenLast (2, 2, some (some "grace"), some true)
      fresh_subscribed meets (by decide +kernel)
  simp only [seenLast, Prod.mk.injEq] at hseen
  obtain ⟨hpublished, hlength, hlast, houtdates⟩ := hseen
  obtain ⟨⟨snapshot, data⟩, hlast, rfl⟩ := Option.map_eq_some_iff.mp hlast
  obtain ⟨last, happlied, houtdates⟩ := Option.map_eq_some_iff.mp houtdates
  have hserde : ∀ json ∈ (none : Option SerdeJson), json.RoundTrips := nofun
  exact ⟨s, hrun, agrees_of_run hserde hrun (List.dropLast_append_getLast? last happlied).symm
    (by rw [hlength, hpublished]) (of_decide_eq_true houtdates) hlast⟩

end Link

end RsQuery
