import RsQuery.Hub

/-!
# Delivery by the hub

In every run of the hub a subscription is connected until it is unsubscribed or aborted; what
is published after it was made reaches it; and once its stop flag is set it applies at most
one snapshot more.
-/

namespace RsQuery

variable {T : Type}

namespace Hub

open Bus.Handles (liveness)

variable {s s' : Hub T} {i p : Nat} {sub sub' : Subscription T} {pub : Publish T}

/-! ### What a step does to a subscription and to a publish -/

/-- A loop that is told to stop, or leaves, was unsubscribed. -/
structure Honest (sub : Subscription T) : Prop where
  stopped : sub.stopped = true → sub.unsubscribe = true
  leaves : sub.pc = .leave ∨ sub.pc = .remove → sub.unsubscribe = true

theorem Honest.of_pc {pc : ReceivingPc T} (h : Honest sub) (hleave : pc ≠ .leave)
    (hremove : pc ≠ .remove) :
  Honest { sub with pc := pc }
  := by
  refine ⟨h.stopped, ?_⟩
  rintro (hpc | hpc)
  · apply absurd hpc hleave
  · apply absurd hpc hremove

/-- The same subscription, which has a receiver only if it had. -/
structure Continues (sub sub' : Subscription T) : Prop where
  channel : sub'.channel = sub.channel
  bus : sub'.bus = sub.bus
  receiver : sub'.receiver = sub.receiver
  receives : sub'.pc.Receives → sub.pc.Receives
  honest : Honest sub → Honest sub'

theorem Continues.refl (sub : Subscription T) :
  Continues sub sub
  := ⟨rfl, rfl, rfl, id, id⟩

/-- A future that is dropped, or runs out. -/
theorem Continues.done (sub : Subscription T) :
  Continues sub { sub with pc := .done }
  := ⟨rfl, rfl, rfl, False.elim, fun h => h.of_pc (by simp) (by simp)⟩

theorem entry_frame (s : Hub T) (channel : String) :
  (s.entry channel).1.subscriptions = s.subscriptions ∧
    (s.entry channel).1.publishes = s.publishes ∧ (s.entry channel).1.next = s.next
  := by
  unfold Hub.entry
  split
  · exact ⟨rfl, rfl, rfl⟩
  · exact ⟨rfl, rfl, rfl⟩

theorem publishes_maybeRemoveChannel (s : Hub T) (channel : String) :
  (s.maybeRemoveChannel channel).publishes = s.publishes
  := by
  unfold Hub.maybeRemoveChannel
  split
  · rfl
  · split
    · rfl
    · rfl

/-- A receiver of an open bus is not told that it is closed. -/
theorem recvPoll_ne_closed {c : Bus.Shared T} {receiver : Nat} {w : Waker}
    (hopen : c.sendersAlive = true) (hlive : liveness c receiver = some true) :
  (Bus.recvPoll c receiver w).2 ≠ some (.error .closed)
  := by
  obtain ⟨r, hr, -⟩ := Option.map_eq_some_iff.mp hlive
  simp only [Bus.recvPoll, Bus.pollState, hr, hopen]
  by_cases hmissed : r.missed > 0
  · simp [hmissed]
  · cases hqueue : r.queue with
    | nil => simp [hmissed]
    | cons value rest => simp [hmissed]

theorem recv_frame {bus : Bus.Shared T} (hpc : sub.pc.Receives)
    (hopen : bus.sendersAlive = true) (hlive : liveness bus sub.receiver = some true) :
  ∃ sub', (s.recv i sub bus).subscriptions = s.subscriptions.insert i sub' ∧
    Continues sub sub' ∧ (s.recv i sub bus).publishes = s.publishes
  := by
  have hclosed := recvPoll_ne_closed (w := i) hopen hlive
  unfold Hub.recv
  dsimp only
  split
  case h_3 hpoll => contradiction
  all_goals exact ⟨_, rfl, ⟨rfl, rfl, rfl, fun _ => hpc, fun h => h.of_pc nofun nofun⟩, rfl⟩

theorem advance_frame (h : s.Kept) (hsub : s.subscriptions.lookup i = some sub)
    (hs : s.advance i sub = some s') :
  ∃ sub', s'.subscriptions = s.subscriptions.insert i sub' ∧ Continues sub sub' ∧
    s'.publishes = s.publishes
  := by
  unfold Hub.advance at hs
  split at hs
  case h_4 hpc =>
    obtain ⟨bus, hbus, rfl⟩ := Option.map_eq_some_iff.mp hs
    have hreceives : sub.pc.Receives := by
      rw [hpc]
      trivial
    obtain ⟨-, bus₀, hbus₀, halive⟩ := h.joined.live i sub hsub hreceives
    rw [hbus] at hbus₀
    obtain rfl := Option.some.inj hbus₀
    apply recv_frame hreceives (h.sendersAlive hsub hreceives hbus) halive
  case h_3 hpc =>
    obtain rfl := Option.some.inj hs
    refine ⟨_, rfl, ⟨rfl, rfl, rfl, fun _ => ?_, fun hhonest => ?_⟩, rfl⟩
    · rw [hpc]
      trivial
    · split
      · next hstopped => exact ⟨hhonest.stopped, fun _ => hhonest.stopped hstopped⟩
      · exact ⟨hhonest.stopped, nofun⟩
  case h_5 hpc =>
    obtain rfl := Option.some.inj hs
    refine ⟨_, rfl, ⟨rfl, rfl, rfl, fun _ => ?_, fun hhonest => ?_⟩, rfl⟩
    · rw [hpc]
      trivial
    · split
      · next hunsubscribe => exact ⟨hhonest.stopped, fun _ => hunsubscribe⟩
      · exact ⟨hhonest.stopped, nofun⟩
  case h_9 hpc =>
    obtain rfl := Option.some.inj hs
    exact ⟨_, rfl, ⟨rfl, rfl, rfl, nofun,
      fun hhonest => ⟨hhonest.stopped, fun _ => hhonest.leaves (.inl hpc)⟩⟩, rfl⟩
  case h_10 hpc =>
    obtain rfl := Option.some.inj hs
    refine ⟨{ sub with pc := .done }, ?_, .done sub, ?_⟩
    · rw [← subscriptions_maybeRemoveChannel s sub.channel]
      rfl
    · apply publishes_maybeRemoveChannel
  case h_11 => contradiction
  all_goals
    next hpc =>
      obtain rfl := Option.some.inj hs
      refine ⟨_, rfl, ⟨rfl, rfl, rfl, fun _ => ?_, fun hhonest => ?_⟩, rfl⟩
      · rw [hpc]
        trivial
      · exact ⟨hhonest.stopped, nofun⟩

theorem deliver_frame (hs : s.deliver p pub = some s') :
  ∃ pub', s'.publishes = s.publishes.insert p pub' ∧ pub'.channel = pub.channel ∧
    pub'.message = pub.message ∧ s'.subscriptions = s.subscriptions
  := by
  unfold Hub.deliver at hs
  split at hs
  case h_1 =>
    obtain ⟨bus, hbus, hs⟩ := Option.bind_eq_some_iff.mp hs
    obtain rfl := Option.some.inj hs
    exact ⟨_, rfl, rfl, rfl, rfl⟩
  case h_4 => contradiction
  all_goals
    obtain rfl := Option.some.inj hs
    exact ⟨_, rfl, rfl, rfl, rfl⟩

/-- A subscription is new, or it continues one. -/
theorem subscription_of_step {a : Action T} (h : s.Kept) (hs : s.step a = some s')
    (hsub' : s'.subscriptions.lookup i = some sub') :
  (i = s.next ∧ Honest sub') ∨ ∃ sub, s.subscriptions.lookup i = some sub ∧ Continues sub sub'
  := by
  have same (h : s'.subscriptions = s.subscriptions) :
      ∃ sub, s.subscriptions.lookup i = some sub ∧ Continues sub sub' :=
    ⟨sub', h ▸ hsub', .refl sub'⟩
  have goes {j : Nat} {old new : Subscription T} (hold : s.subscriptions.lookup j = some old)
      (h : s'.subscriptions = s.subscriptions.insert j new) (hcontinues : Continues old new) :
      ∃ sub, s.subscriptions.lookup i = some sub ∧ Continues sub sub' := by
    rw [h] at hsub'
    obtain ⟨rfl, rfl⟩ | ⟨-, hsub'⟩ := Table.lookup_insert_cases hsub'
    · exact ⟨old, hold, hcontinues⟩
    · exact ⟨sub', hsub', .refl sub'⟩
  cases a with
  | subscribe channel =>
    obtain ⟨bus, hbus, hs⟩ := Option.bind_eq_some_iff.mp hs
    obtain rfl := Option.some.inj hs
    obtain ⟨hsubs, -, hnext⟩ := s.entry_frame channel
    simp only [Hub.setSubscription, hsubs, hnext] at hsub'
    obtain ⟨hi, rfl⟩ | ⟨-, hsub'⟩ := Table.lookup_insert_cases hsub'
    · exact .inl ⟨hi, by simp, by simp⟩
    · exact .inr ⟨sub', hsub', .refl sub'⟩
  | returns j =>
    obtain ⟨old, hold, hs⟩ := Option.bind_eq_some_iff.mp hs
    split at hs
    · contradiction
    · obtain rfl := Option.some.inj hs
      exact .inr (goes hold rfl ⟨rfl, rfl, rfl, id, fun h => ⟨h.stopped, h.leaves⟩⟩)
  | unsubscribe j =>
    obtain ⟨old, hold, hs⟩ := Option.bind_eq_some_iff.mp hs
    obtain rfl := Option.some.inj hs
    exact .inr (goes hold rfl ⟨rfl, rfl, rfl, id, fun _ => ⟨fun _ => rfl, fun _ => rfl⟩⟩)
  | stop j =>
    obtain ⟨old, hold, hs⟩ := Option.bind_eq_some_iff.mp hs
    split at hs
    · next hunsubscribe =>
      obtain rfl := Option.some.inj hs
      exact .inr (goes hold rfl ⟨rfl, rfl, rfl, id, fun h => ⟨fun _ => hunsubscribe, h.leaves⟩⟩)
    · contradiction
  | advance j =>
    obtain ⟨old, hold, hs⟩ := Option.bind_eq_some_iff.mp hs
    obtain ⟨new, hnew, hcontinues, -⟩ := advance_frame h hold hs
    exact .inr (goes hold hnew hcontinues)
  | abort j =>
    obtain ⟨old, hold, hs⟩ := Option.bind_eq_some_iff.mp hs
    split at hs
    case h_3 => contradiction
    all_goals
      obtain rfl := Option.some.inj hs
      exact .inr (goes hold rfl (.done old))
  | publish channel message =>
    obtain rfl := Option.some.inj hs
    exact .inr (same (s.entry_frame channel).1)
  | deliver q =>
    obtain ⟨pub, -, hs⟩ := Option.bind_eq_some_iff.mp hs
    obtain ⟨-, -, -, -, hsubs⟩ := deliver_frame hs
    exact .inr (same hsubs)

/-- A publish is new, or it was there and has gone on if it was its turn. -/
theorem publish_of_step {a : Action T} {pub' : Publish T} (h : s.Kept) (hs : s.step a = some s')
    (hpub' : s'.publishes.lookup p = some pub') :
  (p = s.next ∧ pub'.pc = .count) ∨ ∃ pub, s.publishes.lookup p = some pub ∧
    pub'.channel = pub.channel ∧ pub'.message = pub.message ∧
    (pub' = pub ∨ a = .deliver p ∧ s.deliver p pub = some s')
  := by
  have same (h : s'.publishes = s.publishes) : ∃ pub, s.publishes.lookup p = some pub ∧
      pub'.channel = pub.channel ∧ pub'.message = pub.message ∧
      (pub' = pub ∨ a = .deliver p ∧ s.deliver p pub = some s') :=
    ⟨pub', h ▸ hpub', rfl, rfl, .inl rfl⟩
  cases a with
  | subscribe channel =>
    obtain ⟨bus, hbus, hs⟩ := Option.bind_eq_some_iff.mp hs
    obtain rfl := Option.some.inj hs
    exact .inr (same (s.entry_frame channel).2.1)
  | returns j =>
    obtain ⟨old, -, hs⟩ := Option.bind_eq_some_iff.mp hs
    split at hs
    · contradiction
    · obtain rfl := Option.some.inj hs
      exact .inr (same rfl)
  | unsubscribe j =>
    obtain ⟨old, -, hs⟩ := Option.bind_eq_some_iff.mp hs
    obtain rfl := Option.some.inj hs
    exact .inr (same rfl)
  | stop j =>
    obtain ⟨old, -, hs⟩ := Option.bind_eq_some_iff.mp hs
    split at hs
    · obtain rfl := Option.some.inj hs
      exact .inr (same rfl)
    · contradiction
  | advance j =>
    obtain ⟨old, hold, hs⟩ := Option.bind_eq_some_iff.mp hs
    obtain ⟨-, -, -, hpubs⟩ := advance_frame h hold hs
    exact .inr (same hpubs)
  | abort j =>
    obtain ⟨old, -, hs⟩ := Option.bind_eq_some_iff.mp hs
    split at hs
    case h_3 => contradiction
    all_goals
      obtain rfl := Option.some.inj hs
      exact .inr (same rfl)
  | publish channel message =>
    obtain rfl := Option.some.inj hs
    obtain ⟨-, hpubs, hnext⟩ := s.entry_frame channel
    simp only [Hub.setPublish, Hub.onBus, hpubs, hnext] at hpub'
    obtain ⟨hp, rfl⟩ | ⟨-, hpub'⟩ := Table.lookup_insert_cases hpub'
    · exact .inl ⟨hp, rfl⟩
    · exact .inr ⟨pub', hpub', rfl, rfl, .inl rfl⟩
  | deliver q =>
    obtain ⟨pub, hpub, hs⟩ := Option.bind_eq_some_iff.mp hs
    obtain ⟨new, hpubs, hchannel, hmessage, -⟩ := deliver_frame hs
    rw [hpubs] at hpub'
    right
    obtain ⟨rfl, rfl⟩ | ⟨-, hpub'⟩ := Table.lookup_insert_cases hpub'
    · exact ⟨pub, hpub, hchannel, hmessage, .inr ⟨rfl, hs⟩⟩
    · exact ⟨pub', hpub', rfl, rfl, .inl rfl⟩

/-! ### Subscriptions of a channel -/

/-- A subscription with a receiver receives from the open bus that is registered for its
channel; its loop leaves only if it was unsubscribed. -/
structure Connected (s : Hub T) (sub : Subscription T) : Prop where
  registered : sub.pc.Receives → s.registry.lookup sub.channel = some sub.bus
  live : sub.pc.Receives → ∃ bus r, s.buses.lookup sub.bus = some bus ∧
    bus.sendersAlive = true ∧ bus.receivers.lookup sub.receiver = some r ∧ r.alive = true
  leaves : sub.pc = .leave ∨ sub.pc = .remove → sub.unsubscribe = true

/-- Under every interleaving subscriptions stay connected until they are unsubscribed or
aborted. -/
theorem subscribed_of_reachable (h : (machine T).Reachable s)
    (hsub : s.subscriptions.lookup i = some sub) :
  s.Connected sub
  := by
  have hhonest : ∀ i sub, s.subscriptions.lookup i = some sub → Honest sub := by
    apply h.invariant
    · rintro s rfl
      simp [initial]
    · intro s a s' hreachable hhonest _ hs j q' hq'
      have hkept : s.Kept := kept_of_reachable hreachable
      obtain ⟨-, hq⟩ | ⟨q, hq, hcontinues⟩ := subscription_of_step hkept hs hq'
      · apply hq
      · apply hcontinues.honest (hhonest j q hq)
  have hkept := kept_of_reachable h
  refine ⟨fun hpc => ?_, fun hpc => ?_, (hhonest i sub hsub).leaves⟩
  · apply (hkept.joined.live i sub hsub hpc).1
  · obtain ⟨-, bus, hbus, halive⟩ := hkept.joined.live i sub hsub hpc
    obtain ⟨r, hr, halive⟩ := Option.map_eq_some_iff.mp halive
    exact ⟨bus, r, hbus, hkept.sendersAlive hsub hpc hbus, hr, halive⟩

/-- The last subscription of a channel leaves, and the channel is subscribed to again. -/
def resubscribed : List (Action Nat) :=
  [.subscribe "c", .returns 0, .unsubscribe 0, .stop 0, .advance 0, .advance 0, .advance 0,
    .advance 0, .subscribe "c"]

theorem subscribed_of_reachable_resubscribed :
  ∃ s sub, (machine Nat).Reachable s ∧ s.subscriptions.lookup 1 = some sub ∧ sub.bus = 1 ∧
    s.Connected sub
  := by
  obtain ⟨s, hs, hbus⟩ := Machine.exists_reachable_of_exec resubscribed
    (fun s : Hub Nat => (s.subscriptions.lookup 1).map (·.bus)) (some 1) (M := machine Nat)
    (s := initial) rfl rfl
  obtain ⟨sub, hsub, hbus⟩ := Option.map_eq_some_iff.mp hbus
  exact ⟨s, sub, hs, hsub, hbus, subscribed_of_reachable hs hsub⟩

/-! ### Publishes to a channel -/

/-- A step of a publish: the bus it has, and those who receive from that bus before and
after the step. -/
structure Sent (T : Type) where
  publish : Nat
  bus : Nat
  before : Table Nat (Bus.RecvState T)
  after : Table Nat (Bus.RecvState T)

/-- The receivers of a bus. -/
def receivers (s : Hub T) (b : Nat) : Table Nat (Bus.RecvState T) :=
  (s.buses.lookup b).elim ∅ fun bus => bus.receivers

/-- What a step does for a publish. -/
def sent (s : Hub T) (a : Action T) (s' : Hub T) : List (Sent T) :=
  match a with
  | .deliver p =>
    (s.publishes.lookup p).elim [] fun pub =>
      [⟨p, pub.bus, s.receivers pub.bus, s'.receivers pub.bus⟩]
  | _ => []

/-- The hub with a log of what is sent. -/
def sending (T : Type) : Machine (Hub T × List (Sent T)) (Action T) :=
  (machine T).noting sent

/-- A step has put a message at the end of the queue of a live receiver; a full queue has
lost its oldest. -/
def Sent.Queues (e : Sent T) (message : T) (receiver : Nat) : Prop :=
  ∃ r r', e.before.lookup receiver = some r ∧ e.after.lookup receiver = some r' ∧
    r'.alive = true ∧ (r'.queue = r.queue ++ [message] ∨ r'.queue = r.queue.tail ++ [message])

/-- A publish has reached a receiver. -/
def Reached (log : List (Sent T)) (p : Nat) (message : T) (bus receiver : Nat) : Prop :=
  ∃ e ∈ log, e.publish = p ∧ e.bus = bus ∧ e.Queues message receiver

/-- Publishes that have run their course have reached the subscriptions made before them. -/
def Delivered (s : Hub T) (log : List (Sent T)) : Prop :=
  ∀ p pub i sub, s.publishes.lookup p = some pub → s.subscriptions.lookup i = some sub →
    pub.pc = .drop ∨ pub.pc = .done → sub.pc.Receives → i < p → sub.channel = pub.channel →
    Reached log p pub.message sub.bus sub.receiver

/-- A send queues its message for every live receiver. -/
theorem push_queue {r : Bus.RecvState T} (h : r.alive = true) (capacity : Nat) (message : T) :
  (r.push capacity message).alive = true ∧
    ((r.push capacity message).queue = r.queue ++ [message] ∨
      (r.push capacity message).queue = r.queue.tail ++ [message])
  := by
  unfold Bus.RecvState.push
  rw [h, Bool.not_true, if_neg Bool.false_ne_true]
  split
  · exact ⟨rfl, .inr rfl⟩
  · exact ⟨rfl, .inl rfl⟩

theorem Delivered.step {log : List (Sent T)} {a : Action T} (h : s.Delivered log)
    (hkept : s.Kept) (hs : s.step a = some s') :
  s'.Delivered (log ++ s.sent a s')
  := by
  intro p pub' i sub' hpub' hsub' hover hpc' hip hchannel
  obtain ⟨rfl, hcount⟩ | ⟨pub, hpub, hch, hmessage, hgoes⟩ := publish_of_step hkept hs hpub'
  · rw [hcount] at hover
    obtain hover | hover := hover
    · contradiction
    · contradiction
  · obtain ⟨rfl, -⟩ | ⟨sub, hsub, hcontinues⟩ := subscription_of_step hkept hs hsub'
    · apply absurd (hkept.joined.publishes p pub hpub) (Nat.lt_asymm hip)
    · have hpc := hcontinues.receives hpc'
      rw [hcontinues.channel, hch] at hchannel
      rw [hcontinues.bus, hcontinues.receiver, hmessage]
      have already (hover : pub.pc = .drop ∨ pub.pc = .done) :
          Reached (log ++ s.sent a s') p pub.message sub.bus sub.receiver := by
        obtain ⟨e, he, hreached⟩ := h p pub i sub hpub hsub hover hpc hip hchannel
        exact ⟨e, List.mem_append_left _ he, hreached⟩
      obtain rfl | ⟨rfl, hdeliver⟩ := hgoes
      · apply already hover
      · have hdone : pub.pc ≠ .done := by
          rintro hdone
          rw [Hub.deliver, hdone] at hdeliver
          contradiction
        have hbus := hkept.joined.heard p pub i sub hpub hsub hdone hpc hip hchannel
        obtain ⟨-, bus, hb, halive⟩ := hkept.joined.live i sub hsub hpc
        unfold Hub.deliver at hdeliver
        split at hdeliver
        case h_1 hcount =>
          -- it was skipped, but somebody receives
          obtain ⟨bus₀, hb₀, hdeliver⟩ := Option.bind_eq_some_iff.mp hdeliver
          rw [hbus, hb] at hb₀
          obtain rfl := Option.some.inj hb₀
          obtain rfl := Option.some.inj hdeliver
          obtain rfl := Option.some.inj ((AList.lookup_insert _).symm.trans hpub')
          simp [receiverCount_of_liveness halive] at hover
        case h_2 hsend =>
          have hb₀ : s.buses.lookup pub.bus = some bus := by rwa [hbus]
          obtain ⟨r, hr, hlive⟩ := Option.map_eq_some_iff.mp halive
          have hafter : (s'.receivers pub.bus).lookup sub.receiver
              = some (r.push bus.capacity pub.message) := by
            rw [← Option.some.inj hdeliver]
            simp only [receivers, Hub.setPublish, lookup_onBus, if_true, hb₀, Option.map_some,
              Option.elim_some, Bus.send_lookup, hr]
          refine ⟨⟨p, pub.bus, s.receivers pub.bus, s'.receivers pub.bus⟩, ?_, rfl, hbus, r,
            r.push bus.capacity pub.message, ?_, hafter,
            push_queue hlive bus.capacity pub.message⟩
          · simp only [sent, hpub]
            exact List.mem_append_right _ (List.mem_singleton_self _)
          · rw [receivers, hb₀]
            apply hr
        case h_3 hdrop => apply already (.inl hdrop)
        case h_4 => contradiction

/-- Under every interleaving what is published after a subscription was made has reached it,
if it still receives, once the publish has run its course. -/
theorem reached_of_reachable {t : Hub T × List (Sent T)} (h : (sending T).Reachable t)
    {pub : Publish T} (hpub : t.1.publishes.lookup p = some pub)
    (hsub : t.1.subscriptions.lookup i = some sub) (hover : pub.pc = .drop ∨ pub.pc = .done)
    (hpc : sub.pc.Receives) (hip : i < p) (hchannel : sub.channel = pub.channel) :
  Reached t.2 p pub.message sub.bus sub.receiver
  := by
  have hall : t.1.Kept ∧ t.1.Delivered t.2 := by
    apply h.invariant
    · rintro ⟨s, log⟩ ⟨hs, hlog⟩
      refine ⟨kept_of_reachable (.init hs), ?_⟩
      obtain rfl : s = initial := hs
      intro p pub i sub hpub
      simp [initial] at hpub
    · rintro t a t' _ ⟨hkept, hdelivered⟩ _ hs
      obtain ⟨hstep, hlog⟩ := Machine.step_noting hs
      rw [hlog]
      exact ⟨hkept.step hstep, hdelivered.step hkept hstep⟩
  apply hall.2 p pub i sub hpub hsub hover hpc hip hchannel

/-- A snapshot is sent to a subscription that polls meanwhile. -/
def published : List (Action Nat) :=
  [.subscribe "c", .advance 0, .publish "c" 7, .advance 0, .deliver 1, .advance 0, .deliver 1]

theorem reached_of_reachable_published :
  ∃ t : Hub Nat × List (Sent Nat), (sending Nat).Reachable t ∧ Reached t.2 1 7 0 1
  := by
  obtain ⟨t, ht, hseen⟩ := Machine.exists_reachable_of_exec published
    (fun t : Hub Nat × List (Sent Nat) =>
      (t.1.publishes.lookup 1).bind fun pub => (t.1.subscriptions.lookup 0).map fun sub =>
        ((pub.pc, pub.message, pub.channel), (sub.pc, sub.bus, sub.receiver, sub.channel)))
    (some ((.drop, 7, "c"), (.parked, 0, 1, "c"))) (M := sending Nat) (s := (initial, []))
    ⟨rfl, rfl⟩ rfl
  obtain ⟨pub, hpub, hseen⟩ := Option.bind_eq_some_iff.mp hseen
  obtain ⟨sub, hsub, hseen⟩ := Option.map_eq_some_iff.mp hseen
  simp only [Prod.mk.injEq] at hseen
  obtain ⟨⟨hover, hmessage, hch⟩, hpc, hbus, hreceiver, hchannel⟩ := hseen
  have hreached := reached_of_reachable ht hpub hsub (.inl hover) (by rw [hpc]; trivial)
    Nat.zero_lt_one (hchannel.trans hch.symm)
  rw [hmessage, hbus, hreceiver] at hreached
  exact ⟨t, ht, hreached⟩

end Hub

/-! ### After unsubscribing -/

/-- What a subscription is told, and what it does. -/
inductive ReceivingEvent (T : Type) where
  | unsubscribed
  | applied (message : T)

/-- A snapshot is applied. -/
def ReceivingEvent.isApplied : ReceivingEvent T → Bool
  | .applied _ => true
  | .unsubscribed => false

/-- How many snapshots passed the test of the flag and are not applied yet. -/
def ReceivingPc.pending : ReceivingPc T → Nat
  | .raise _ | .apply _ => 1
  | _ => 0

theorem ReceivingPc.pending_le (pc : ReceivingPc T) :
  pc.pending ≤ 1
  := by
  unfold ReceivingPc.pending
  split
  all_goals decide

namespace Hub

variable {s s' : Hub T} {i : Nat} {sub sub' : Subscription T}

/-- What a step does to subscription `i`. -/
def noted (i : Nat) (s : Hub T) : Action T → List (ReceivingEvent T)
  | .unsubscribe j => if j = i then [.unsubscribed] else []
  | .advance j =>
    if j = i then
      (s.subscriptions.lookup i).elim [] fun sub =>
        match sub.pc with
        | .apply message => [.applied message]
        | _ => []
    else []
  | _ => []

/-- The hub with a log of what subscription `i` is told and does. -/
def following (T : Type) (i : Nat) : Machine (Hub T × List (ReceivingEvent T)) (Action T) :=
  (machine T).noting fun s a _ => s.noted i a

/-- What a step can do to a subscription: nothing is noted, and no snapshot passes the test
of a flag that is set; or the flag is set; or a snapshot is applied. -/
inductive Notes (sub : Subscription T) : List (ReceivingEvent T) → Subscription T → Prop where
  | nothing {sub' : Subscription T} : sub'.unsubscribe = sub.unsubscribe →
      sub'.pc.pending ≤ sub.pc.pending ∨ sub.unsubscribe = false → Notes sub [] sub'
  | unsubscribed {sub' : Subscription T} : sub'.unsubscribe = true → sub'.pc = sub.pc →
      Notes sub [.unsubscribed] sub'
  | applied {sub' : Subscription T} {message : T} : sub'.unsubscribe = sub.unsubscribe →
      sub.pc.pending = 1 → sub'.pc.pending = 0 → Notes sub [.applied message] sub'

theorem Notes.refl (sub : Subscription T) :
  Notes sub [] sub
  := .nothing rfl (.inl (Nat.le_refl _))

/-- A loop comes to a program point where nothing is pending. -/
theorem Notes.of_pending (sub : Subscription T) {pc : ReceivingPc T} (h : pc.pending = 0) :
  Notes sub [] { sub with pc := pc }
  := .nothing rfl (.inl (h ▸ Nat.zero_le _))

theorem notes_recv (sub : Subscription T) (bus : Bus.Shared T) :
  ∃ sub', (s.recv i sub bus).subscriptions.lookup i = some sub' ∧ Notes sub [] sub'
  := by
  unfold Hub.recv
  dsimp only
  split
  all_goals exact ⟨_, AList.lookup_insert _, .of_pending sub rfl⟩

theorem notes_advance (hsub : s.subscriptions.lookup i = some sub)
    (hs : s.advance i sub = some s') :
  ∃ sub', s'.subscriptions.lookup i = some sub' ∧ Notes sub (s.noted i (.advance i)) sub'
  := by
  simp only [noted, hsub, if_true, Option.elim_some]
  cases hpc : sub.pc with
  | recv =>
    simp only [Hub.advance, hpc] at hs
    obtain ⟨bus, -, rfl⟩ := Option.map_eq_some_iff.mp hs
    apply notes_recv
  | received message =>
    simp only [Hub.advance, hpc, Option.some.injEq] at hs
    obtain rfl := hs
    refine ⟨_, AList.lookup_insert _, .nothing rfl ?_⟩
    by_cases hflag : sub.unsubscribe = true
    · left
      simp only [hflag, if_true]
      apply Nat.zero_le
    · exact .inr (Bool.of_not_eq_true hflag)
  | raise message =>
    simp only [Hub.advance, hpc, Option.some.injEq] at hs
    obtain rfl := hs
    exact ⟨_, AList.lookup_insert _, .nothing rfl (.inl (by rw [hpc]; rfl))⟩
  | apply message =>
    simp only [Hub.advance, hpc, Option.some.injEq] at hs
    obtain rfl := hs
    exact ⟨_, AList.lookup_insert _, .applied rfl (by rw [hpc]; rfl) rfl⟩
  | select =>
    simp only [Hub.advance, hpc, Option.some.injEq] at hs
    obtain rfl := hs
    refine ⟨_, AList.lookup_insert _, .of_pending sub ?_⟩
    split
    · rfl
    · rfl
  | done =>
    simp only [Hub.advance, hpc] at hs
    contradiction
  | queued | parked | lower | leave | remove =>
    simp only [Hub.advance, hpc, Option.some.injEq] at hs
    obtain rfl := hs
    exact ⟨_, AList.lookup_insert _, .nothing rfl (.inl (Nat.zero_le _))⟩

theorem notes_of_step {a : Action T} (h : s.Kept) (hs : s.step a = some s')
    (hsub : s.subscriptions.lookup i = some sub) :
  ∃ sub', s'.subscriptions.lookup i = some sub' ∧ Notes sub (s.noted i a) sub'
  := by
  have same (hsubs : s'.subscriptions = s.subscriptions) :
      ∃ sub', s'.subscriptions.lookup i = some sub' ∧ Notes sub [] sub' :=
    ⟨sub, by rwa [hsubs], .refl sub⟩
  -- a step that concerns subscription `j` and notes nothing
  have goes {j : Nat} {old new : Subscription T} (hold : s.subscriptions.lookup j = some old)
      (hsubs : s'.subscriptions = s.subscriptions.insert j new) (hnotes : Notes old [] new) :
      ∃ sub', s'.subscriptions.lookup i = some sub' ∧ Notes sub [] sub' := by
    rw [hsubs, Table.lookup_insert_eq]
    split
    · next hij =>
      rw [hij, hold] at hsub
      obtain rfl := Option.some.inj hsub
      exact ⟨new, rfl, hnotes⟩
    · exact ⟨sub, hsub, .refl sub⟩
  cases a with
  | subscribe channel =>
    obtain ⟨bus, hbus, hs⟩ := Option.bind_eq_some_iff.mp hs
    obtain rfl := Option.some.inj hs
    obtain ⟨hsubs, -, hnext⟩ := s.entry_frame channel
    have hne : i ≠ s.next := Nat.ne_of_lt (h.joined.numbered i sub hsub).1
    refine ⟨sub, ?_, .refl sub⟩
    simp only [Hub.setSubscription, hsubs, hnext, AList.lookup_insert_ne hne, hsub]
  | returns j =>
    obtain ⟨old, hold, hs⟩ := Option.bind_eq_some_iff.mp hs
    split at hs
    · contradiction
    · obtain rfl := Option.some.inj hs
      apply goes hold rfl (.nothing rfl (.inl (Nat.le_refl _)))
  | unsubscribe j =>
    obtain ⟨old, hold, hs⟩ := Option.bind_eq_some_iff.mp hs
    obtain rfl := Option.some.inj hs
    simp only [noted]
    split
    · next hij =>
      rw [hij, hsub] at hold
      obtain rfl := Option.some.inj hold
      rw [hij]
      exact ⟨_, AList.lookup_insert _, .unsubscribed rfl rfl⟩
    · next hij =>
      exact ⟨sub, (AList.lookup_insert_ne (Ne.symm hij)).trans hsub, .refl sub⟩
  | stop j =>
    obtain ⟨old, hold, hs⟩ := Option.bind_eq_some_iff.mp hs
    split at hs
    · obtain rfl := Option.some.inj hs
      apply goes hold rfl (.nothing rfl (.inl (Nat.le_refl _)))
    · contradiction
  | advance j =>
    obtain ⟨old, hold, hs⟩ := Option.bind_eq_some_iff.mp hs
    by_cases hij : j = i
    · rw [hij] at hold hs ⊢
      rw [hsub] at hold
      obtain rfl := Option.some.inj hold
      apply notes_advance hsub hs
    · obtain ⟨new, hsubs, -⟩ := advance_frame h hold hs
      simp only [noted, if_neg hij]
      refine ⟨sub, ?_, .refl sub⟩
      rw [hsubs, AList.lookup_insert_ne (Ne.symm hij), hsub]
  | abort j =>
    obtain ⟨old, hold, hs⟩ := Option.bind_eq_some_iff.mp hs
    split at hs
    case h_3 => contradiction
    all_goals
      obtain rfl := Option.some.inj hs
      apply goes hold rfl (.of_pending old rfl)
  | publish channel message =>
    obtain rfl := Option.some.inj hs
    apply same (s.entry_frame channel).1
  | deliver q =>
    obtain ⟨pub, -, hs⟩ := Option.bind_eq_some_iff.mp hs
    obtain ⟨-, -, -, -, hsubs⟩ := deliver_frame hs
    apply same hsubs

/-- Of the snapshots applied and pending since the flag was set there is at most one. -/
def Quiet (s : Hub T) (i : Nat) (log : List (ReceivingEvent T)) : Prop :=
  (s.subscriptions.lookup i).elim (log = []) fun sub =>
    (.unsubscribed ∈ log → sub.unsubscribe = true) ∧
      ∀ l₁ l₂, log = l₁ ++ .unsubscribed :: l₂ →
        l₂.countP ReceivingEvent.isApplied + sub.pc.pending ≤ 1

theorem noted_of_none {a : Action T} (hs : s.step a = some s')
    (hnone : s.subscriptions.lookup i = none) :
  s.noted i a = []
  := by
  cases a with
  | unsubscribe j =>
    obtain ⟨old, hold, -⟩ := Option.bind_eq_some_iff.mp hs
    simp only [noted, ite_eq_right_iff]
    rintro rfl
    rw [hnone] at hold
    contradiction
  | advance j => simp only [noted, hnone, Option.elim_none, ite_self]
  | _ => rfl

theorem Quiet.step {log : List (ReceivingEvent T)} {a : Action T} (h : s.Quiet i log)
    (hkept : s.Kept) (hs : s.step a = some s') :
  s'.Quiet i (log ++ s.noted i a)
  := by
  unfold Quiet at h ⊢
  cases hsub : s.subscriptions.lookup i with
  | none =>
    obtain rfl : log = [] := by rwa [hsub] at h
    rw [noted_of_none hs hsub]
    cases s'.subscriptions.lookup i with
    | none => rfl
    | some sub' =>
      refine ⟨nofun, ?_⟩
      simp
  | some sub =>
    rw [hsub] at h
    obtain ⟨hflag, hquiet⟩ := h
    obtain ⟨sub', hsub', hnotes⟩ := notes_of_step hkept hs hsub
    rw [hsub']
    generalize s.noted i a = events at hnotes
    cases hnotes with
    | nothing hsame hpending =>
      rw [List.append_nil]
      refine ⟨fun hmem => hsame.trans (hflag hmem), fun l₁ l₂ hlog => ?_⟩
      have hle := hquiet l₁ l₂ hlog
      obtain hpending | hfalse := hpending
      · omega
      · rw [hflag (by rw [hlog]; simp)] at hfalse
        contradiction
    | unsubscribed htrue hpc =>
      refine ⟨fun _ => htrue, fun l₁ l₂ hlog => ?_⟩
      rw [hpc]
      obtain ⟨l, hl, rfl⟩ | ⟨-, -, rfl⟩ := Machine.concat_eq_append_cons hlog
      · rw [List.countP_append]
        apply hquiet l₁ l hl
      · rw [List.countP_nil, Nat.zero_add]
        apply ReceivingPc.pending_le
    | applied hsame hpending hpending' =>
      refine ⟨fun hmem => hsame.trans (hflag (by simpa using hmem)), fun l₁ l₂ hlog => ?_⟩
      obtain ⟨l, hl, rfl⟩ | ⟨h, -, -⟩ := Machine.concat_eq_append_cons hlog
      · have hle := hquiet l₁ l hl
        rw [List.countP_append, hpending', List.countP_singleton, ReceivingEvent.isApplied,
          if_pos rfl]
        omega
      · contradiction

/-- Under every interleaving a subscription applies at most one snapshot after its stop flag
is set. -/
theorem quiet_of_reachable {t : Hub T × List (ReceivingEvent T)} (h : (following T i).Reachable t)
    {l₁ l₂ : List (ReceivingEvent T)} (hlog : t.2 = l₁ ++ .unsubscribed :: l₂) :
  l₂.countP ReceivingEvent.isApplied ≤ 1
  := by
  have hall : t.1.Kept ∧ t.1.Quiet i t.2 := by
    apply h.invariant
    · rintro ⟨s, log⟩ ⟨hs, hlog⟩
      obtain rfl : s = initial := hs
      exact ⟨kept_of_reachable (.init rfl), hlog⟩
    · rintro t a t' _ ⟨hkept, hquiet⟩ _ hs
      obtain ⟨hstep, hlog⟩ := Machine.step_noting hs
      rw [hlog]
      exact ⟨hkept.step hstep, hquiet.step hkept hstep⟩
  have hquiet := hall.2
  unfold Quiet at hquiet
  cases hsub : t.1.subscriptions.lookup i with
  | none =>
    rw [hsub, Option.elim_none, hlog] at hquiet
    simp at hquiet
  | some sub =>
    rw [hsub] at hquiet
    apply Nat.le_trans (Nat.le_add_right _ _) (hquiet.2 l₁ l₂ hlog)

/-- A subscription is unsubscribed when a snapshot has passed the test of its flag. -/
def unsubscribedLate : List (Action Nat) :=
  [.subscribe "c", .publish "c" 7, .deliver 1, .deliver 1, .advance 0, .advance 0, .advance 0,
    .advance 0, .unsubscribe 0, .advance 0, .advance 0]

theorem quiet_of_reachable_late :
  ∃ t : Hub Nat × List (ReceivingEvent Nat), (following Nat 0).Reachable t ∧
    t.2 = [] ++ .unsubscribed :: [.applied 7] ∧
    [ReceivingEvent.applied 7].countP ReceivingEvent.isApplied ≤ 1
  := by
  obtain ⟨t, ht, hlog⟩ := Machine.exists_reachable_of_exec unsubscribedLate
    (fun t : Hub Nat × List (ReceivingEvent Nat) => t.2) ([] ++ .unsubscribed :: [.applied 7])
    (M := following Nat 0) (s := (initial, [])) ⟨rfl, rfl⟩ rfl
  exact ⟨t, ht, hlog, quiet_of_reachable ht hlog⟩

end Hub

end RsQuery
