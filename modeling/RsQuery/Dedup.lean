import RsQuery.Waiting

/-!
# Deduplicated calls

A call that finds its key in flight waits for a release, and something has to release
it: what it has queued already, or a fetch of its key and type that has yet to tell how
it ended.  A fetch owes that until it tells; it fails to when it ends without a
notification, and so strands the calls that rely on it.
-/

namespace RsQuery

variable {V : Type}

open QueryClient

/-- What a waiting call has come by releases it, given whether data of its type is
cached. -/
def WaitPc.Assured (x : Slot V) (data : Bool) : WaitPc V → Prop
  | .subscribe => data = true
  | .recheck rx => data = true ∨ x.Releases data rx
  | .judge _ _ => True
  | .receive rx | .parked rx => x.Releases data rx
  | .received rx variant => variant.releases data = true ∨ x.Releases data rx

instance (x : Slot V) (data : Bool) (w : WaitPc V) : Decidable (w.Assured x data) := by
  unfold WaitPc.Assured
  split
  all_goals infer_instance

/-- Data in the cache does not keep a call waiting. -/
theorem WaitPc.Assured.mono
    {w : WaitPc V} {x : Slot V} {data data' : Bool} (h : w.Assured x data)
    (hd : data = true → data' = true) :
  w.Assured x data'
  := by
  have releases {v : QueryStateVariant} (hv : v.releases data = true) :
      v.releases data' = true := by
    cases v with
    | error => rfl
    | success => apply hd hv
    | stale => apply hd hv
    | _ => contradiction
  have received {rx : Nat} : x.Releases data rx → x.Releases data' rx := by
    rintro ⟨st, hst, hm | ⟨u, hu, hv⟩⟩
    · exact ⟨st, hst, .inl hm⟩
    · exact ⟨st, hst, .inr ⟨u, hu, releases hv⟩⟩
  cases w with
  | subscribe => apply hd h
  | recheck rx => apply h.imp hd received
  | judge rx v => trivial
  | receive rx => apply received h
  | parked rx => apply received h
  | received rx v => apply h.imp releases received

/-- A waiting call stays assured where its receiver keeps its releases and data stays
cached, and what is told assures it. -/
theorem WaitPc.Assured.feeds
    {w : WaitPc V} {x x' : Slot V} {own : Option Nat} {told : List QueryStateVariant}
    {data : Bool} (hf : x.Feeds own told x') (hown : ∀ rx ∈ w.rx, own ≠ some rx)
    (hatt : ∀ rx ∈ w.rx, x.Attached rx)
    (h : w.Assured x data ∨ ∃ rx ∈ w.rx, ∃ v ∈ told, v.releases data = true) :
  w.Assured x' data
  := by
  have released (rx : Nat) (hrx : rx ∈ w.rx)
      (h : x.Releases data rx ∨ ∃ v ∈ told, v.releases data = true) : x'.Releases data rx :=
    hf.released rx data (hown rx hrx) (hatt rx hrx) h
  have told_of (rx : Nat) (hw : w.rx = some rx)
      (h : ∃ rx ∈ w.rx, ∃ v ∈ told, v.releases data = true) : x'.Releases data rx := by
    obtain ⟨rx', hrx', hv⟩ := h
    apply released rx hw (.inr hv)
  cases w with
  | subscribe =>
    obtain h | ⟨rx, hrx, -⟩ := h
    · apply h
    · contradiction
  | recheck rx =>
    obtain (h | h) | h := h
    · exact .inl h
    · exact .inr (released rx rfl (.inl h))
    · exact .inr (told_of rx rfl h)
  | judge rx data => trivial
  | receive rx =>
    obtain h | h := h
    · apply released rx rfl (.inl h)
    · apply told_of rx rfl h
  | parked rx =>
    obtain h | h := h
    · apply released rx rfl (.inl h)
    · apply told_of rx rfl h
  | received rx variant =>
    obtain (h | h) | h := h
    · exact .inl h
    · exact .inr (released rx rfl (.inl h))
    · exact .inr (told_of rx rfl h)

theorem WaitPc.rx_onUpdate (rx : Nat) (variant : QueryStateVariant) :
  (onUpdate rx variant : WaitPc V).rx = some rx
  := by
  cases variant with
  | _ => rfl

/-- An update that releases is looked at, after which the call has its result. -/
theorem WaitPc.assured_onUpdate
    {rx : Nat} {variant : QueryStateVariant} {x : Slot V} {data : Bool}
    (h : variant.releases data = true ∨ x.Releases data rx) :
  (onUpdate rx variant : WaitPc V).Assured x data
  := by
  cases variant with
  | success => apply h
  | stale => apply h
  | error => apply h
  | _ =>
    obtain h | h := h
    · contradiction
    · apply h

variable [PartialEqAny V]

namespace Run

variable {r : Run V} {i : Nat} {now : Instant} {c c' : QueryClient V} {o : Outcome V} {pc : Pc V}

/-- The slot of the run's key. -/
def slotOf (r : Run V) (c : QueryClient V) : Slot V :=
  c.slot r.query.key.cacheKey

/-- What a step of a waiting call comes to: it waits on, with its receiver or a new one
attached and as assured as before, or it has its result. -/
def WaitsOn (r : Run V) (c c' : QueryClient V) (w : WaitPc V) (pc : Pc V) : Prop :=
  (∃ w', pc = .waitForDedup w' ∧
    (∀ rx ∈ w'.rx, (r.slotOf c').Attached rx ∧
      (rx ∈ w.rx ∨ (w.rx = none ∧ (r.slotOf c).nextRx ≤ rx))) ∧
    (w.Assured (r.slotOf c) ((r.slotOf c).hasData r.query.typeId) →
      w'.Assured (r.slotOf c') ((r.slotOf c).hasData r.query.typeId))) ∨
  ∃ result, pc = .finish result

theorem waitsOn_subscribe (r : Run V) (c : QueryClient V) :
  r.WaitsOn c (c.subscribe r.query.key.cacheKey).1 .subscribe
    (.waitForDedup (.recheck (c.subscribe r.query.key.cacheKey).2))
  := by
  left
  refine ⟨_, rfl, ?_, .inl⟩
  rintro rx ⟨⟩
  obtain ⟨hattached, hnew⟩ := c.attached_subscribe r.query.key.cacheKey
  exact ⟨hattached, .inr ⟨rfl, hnew⟩⟩

/-- A poll of the receiver takes nothing away that releases the call but to release it. -/
theorem waitsOn_recvPoll {rx : Nat} (hatt : (r.slotOf c).Attached rx) (i : Nat) :
  r.WaitsOn c (r.recvPoll i c rx).1 (.receive rx) (r.recvPoll i c rx).2
  := by
  obtain ⟨hlt, st, hst, halive⟩ := hatt
  obtain ⟨sender, hs, hlookup⟩ := Option.bind_eq_some_iff.mp hst
  have hs : c.subscribers.lookup r.query.key.cacheKey = some sender := hs
  have hnext : (Bus.recvPoll sender rx i).1.nextId = sender.nextId := by
    rw [Bus.recvPoll_fst]
    apply (Bus.pollState_lookup_ne (Nat.succ_ne_self rx) sender _).2
  have hlt : rx < sender.nextId := by
    simpa [slotOf, slot, Slot.nextRx, hs] using hlt
  simp only [recvPoll, hs]
  generalize hpoll : Bus.recvPoll sender rx i = polled at hnext
  have hcases := Bus.recvPoll_cases hlookup i
  rw [hpoll] at hcases
  obtain ⟨sender', poll⟩ := polled
  -- the receiver afterwards, and what it had queued before
  have attached {st' : Bus.RecvState QueryStateUpdate}
      (h : sender'.receivers.lookup rx = some st') (ha : st'.alive = true) :
      (r.slotOf { c with
        subscribers := c.subscribers.insert r.query.key.cacheKey sender' }).Attached rx := by
    refine ⟨?_, st', ?_, ha⟩
    · simp only [slotOf, slot, Slot.nextRx, AList.lookup_insert]
      rw [← hnext] at hlt
      apply hlt
    · simp only [slotOf, slot, Slot.receiver, AList.lookup_insert]
      apply h
  have before {data : Bool} (h : (r.slotOf c).Releases data rx) : st.Releases data := by
    obtain ⟨st', hst', h⟩ := h
    rwa [Option.some.inj (hst.symm.trans hst')]
  obtain ⟨e, he⟩ | ⟨u, rest, hq, hm, he, hl⟩ | ⟨hq, he, hl⟩ := hcases
  · obtain rfl := he
    exact .inr ⟨_, rfl⟩
  · obtain rfl := he
    have releases {data : Bool} (h : (r.slotOf c).Releases data rx) :
        u.stateVariant.releases data = true ∨ (r.slotOf { c with
          subscribers := c.subscribers.insert r.query.key.cacheKey sender' }).Releases
            data rx := by
      obtain ⟨hm', -⟩ | ⟨u', hu', h⟩ := before h
      · omega
      · rw [hq] at hu'
        obtain rfl | hu' := List.mem_cons.mp hu'
        · exact .inl h
        · right
          refine ⟨{ st with queue := rest }, ?_, .inr ⟨u', hu', h⟩⟩
          simp only [slotOf, slot, Slot.receiver, AList.lookup_insert]
          apply hl
    refine .inl ⟨_, rfl, ?_, ?_⟩
    · intro rx' hrx'
      rw [WaitPc.rx_onUpdate] at hrx'
      obtain rfl := Option.some.inj hrx'
      exact ⟨attached hl halive, .inl rfl⟩
    · intro h
      apply WaitPc.assured_onUpdate (releases h)
  · obtain rfl := he
    refine .inl ⟨_, rfl, ?_, ?_⟩
    · rintro rx' ⟨⟩
      exact ⟨attached hl halive, .inl rfl⟩
    · intro h
      obtain ⟨-, h⟩ | ⟨u', hu', -⟩ := before h
      · exact absurd hq h
      · rw [hq] at hu'
        contradiction

/-- A step of a waiting call. -/
theorem waitsOn_advanceWait
    {w : WaitPc V} (hatt : ∀ rx ∈ w.rx, (r.slotOf c).Attached rx) (i : Nat) (now : Instant) :
  r.WaitsOn c (r.advanceWait i now c w).1 w (r.advanceWait i now c w).2
  := by
  have hdata : (r.cached c).isSome = (r.slotOf c).hasData r.query.typeId := cached_isSome r c
  -- a step that leaves the client as it is and keeps the receiver
  have stays {rx : Nat} {w' : WaitPc V} (hrx : w.rx = some rx) (hrx' : w'.rx = some rx)
      (h : w.Assured (r.slotOf c) ((r.slotOf c).hasData r.query.typeId) →
        w'.Assured (r.slotOf c) ((r.slotOf c).hasData r.query.typeId)) :
      r.WaitsOn c c w (.waitForDedup w') := by
    refine .inl ⟨w', rfl, ?_, h⟩
    intro rx' hmem
    rw [hrx'] at hmem
    obtain rfl := Option.some.inj hmem
    exact ⟨hatt rx hrx, .inl hrx⟩
  cases w with
  | subscribe => apply waitsOn_subscribe
  | recheck rx =>
    simp only [advanceWait]
    cases hc : r.cached c with
    | some data => exact stays rfl rfl fun _ => trivial
    | none =>
      rw [hc] at hdata
      refine stays rfl rfl ?_
      rintro (h | h)
      · rw [← hdata] at h
        contradiction
      · apply h
  | judge rx data => exact .inr ⟨_, rfl⟩
  | receive rx => apply waitsOn_recvPoll (hatt rx rfl) i
  | parked rx => exact stays rfl rfl id
  | received rx variant =>
    -- without data of its type in the cache, success and staleness release nothing
    have waits (hnone : r.cached c = none)
        (h : (r.slotOf c).hasData r.query.typeId = true ∨
          (r.slotOf c).Releases ((r.slotOf c).hasData r.query.typeId) rx) :
        (r.slotOf c).Releases ((r.slotOf c).hasData r.query.typeId) rx := by
      rw [hnone] at hdata
      obtain h | h := h
      · rw [← hdata] at h
        contradiction
      · apply h
    cases variant with
    | error => exact .inr ⟨_, rfl⟩
    | success =>
      simp only [advanceWait]
      cases hc : r.cached c with
      | some data => exact .inr ⟨_, rfl⟩
      | none => exact stays rfl rfl (waits hc)
    | stale =>
      simp only [advanceWait]
      cases hc : r.cached c with
      | some data => exact .inr ⟨_, rfl⟩
      | none => exact stays rfl rfl (waits hc)
    | _ =>
      refine stays rfl rfl ?_
      rintro (h | h)
      · contradiction
      · apply h

end Run

end RsQuery
