import RsQuery.Lib.Machine
import RsQuery.Watch

/-!
# The watchers of a cell

A watch cell together with its watchers and the tasks that poll them.  Each call takes
the lock of the cell once and is one step; a sender wakes the wakers it has taken after
it has released the lock, one by one and in any order.  What was sent, and how much of it
each watcher had seen when it last observed the cell, is kept beside.

A watcher that waits has seen the latest version and left its waker, or somebody is about
to wake it; and it finds a change exactly if something was sent since it last looked.
-/

namespace RsQuery

namespace Watch

/-- A cell with its watchers; the tasks whose last poll of `changed` was pending and that
have not been woken since; the wakers taken and still to be woken; and the values sent,
with how many of them each watcher has observed. -/
structure Handles (T : Type) where
  cell : Shared T
  watchers : Table Nat Watcher
  pending : Table Nat Waker
  hand : List Waker
  sent : List T
  observed : Nat → Nat

namespace Handles

variable {T : Type}

/-- A step of the system. -/
inductive Action (T : Type) where
  | send (value : T)
  | subscribe (i : Nat)
  /-- The watcher `j` is made as a clone of `i`. -/
  | clone (i j : Nat)
  | borrow (i : Nat)
  /-- The task of `t` polls `changed`. -/
  | changed (i : Nat) (t : Waker)
  /-- A sender wakes one of the wakers taken. -/
  | wake (t : Waker)

/-- A new cell and its first watcher. -/
def initial (value : T) : Handles T where
  cell := (new value).1
  watchers := (∅ : Table Nat Watcher).insert 0 (new value).2
  pending := ∅
  hand := []
  sent := []
  observed _ := 0

/-- The watcher `i` becomes `w`, and has observed this many of the values sent. -/
def setWatcher (s : Handles T) (cell : Shared T) (i : Nat) (w : Watcher) (observed : Nat) :
    Handles T :=
  { s with
    cell := cell
    watchers := s.watchers.insert i w
    observed := Function.update s.observed i observed }

/-- The state after an action, if it is enabled. -/
def step (s : Handles T) : Action T → Option (Handles T)
  | .send value =>
    let (cell, wakers) := Watch.send s.cell value
    some { s with cell := cell, hand := wakers ++ s.hand, sent := s.sent ++ [value] }
  | .subscribe i =>
    if (s.watchers.lookup i).isSome then none
    else
      let (cell, w) := Watch.subscribe s.cell
      some (s.setWatcher cell i w s.sent.length)
  | .clone i j => do
    let w ← s.watchers.lookup i
    if (s.watchers.lookup j).isSome then none
    else
      let (cell, w) := cloneWatcher s.cell w
      some (s.setWatcher cell j w (s.observed i))
  | .borrow i => do
    let w ← s.watchers.lookup i
    some (s.setWatcher s.cell i (Watch.borrow s.cell w).1 s.sent.length)
  | .changed i t => do
    let w ← s.watchers.lookup i
    match changedPoll s.cell w t with
    | (cell, w, some _) =>
      some { s.setWatcher cell i w s.sent.length with pending := s.pending.erase i }
    | (cell, w, none) =>
      some { s.setWatcher cell i w (s.observed i) with pending := s.pending.insert i t }
  | .wake t =>
    if t ∈ s.hand then
      some { s with
        hand := s.hand.erase t
        pending := Table.retain (fun _ t' => t' ≠ t) s.pending }
    else none

/-- A new cell with this value, and every step. -/
def machine (value : T) : Machine (Handles T) (Action T) :=
  ⟨fun s => s = initial value, step⟩

variable {s s' : Handles T} {a : Action T} {value : T} {i : Nat} {w : Watcher} {t : Waker}

/-- The value of the latest send, or the first one. -/
def latest (value : T) (sent : List T) : T :=
  sent.getLast?.getD value

/-- A watcher has seen the version of what it observed, and a fresh id has not been given
to any. -/
structure Sees (s : Handles T) (i : Nat) (w : Watcher) : Prop where
  lastSeen : w.lastSeen = s.observed i
  le : s.observed i ≤ s.sent.length
  fresh : w.id < s.cell.nextId

/-- The version counts the values sent, watchers have their own ids and have seen what
they observed, and a task that waits is being woken, or has seen the latest version and
left its waker. -/
structure Kept (value : T) (s : Handles T) : Prop where
  version : s.cell.version = s.sent.length
  alive : s.cell.alive = true
  value : s.cell.value = latest value s.sent
  sees : ∀ i w, s.watchers.lookup i = some w → s.Sees i w
  distinct : ∀ i j w w', s.watchers.lookup i = some w → s.watchers.lookup j = some w' →
    w.id = w'.id → i = j
  pending : ∀ i t, s.pending.lookup i = some t → ∃ w, s.watchers.lookup i = some w ∧
    (t ∈ s.hand ∨ w.lastSeen = s.cell.version ∧ s.cell.waiters.lookup w.id = some t)

theorem kept_initial (value : T) :
  (initial value).Kept value
  := by
  have hlookup (i : Nat) (w : Watcher) (h : (initial value).watchers.lookup i = some w) :
      i = 0 ∧ w = (new value).2 := by
    simp only [initial, Table.lookup_insert_eq] at h
    split at h
    · next hi => exact ⟨hi, (Option.some.inj h).symm⟩
    · simp at h
  constructor
  · rfl
  · rfl
  · rfl
  · intro i w h
    rw [(hlookup i w h).2]
    exact ⟨rfl, Nat.le_refl _, Nat.lt_succ_self 1⟩
  · intro i j w w' hi hj _
    rw [(hlookup i w hi).1, (hlookup j w' hj).1]
  · intro i t h
    simp [initial] at h

theorem Kept.send (h : s.Kept value) (v : T) :
  Kept value { s with
    cell := (Watch.send s.cell v).1
    hand := (Watch.send s.cell v).2 ++ s.hand
    sent := s.sent ++ [v] }
  := by
  constructor
  · simp [Watch.send, h.version]
  · apply h.alive
  · simp [Watch.send, latest]
  · intro i w hi
    obtain ⟨hseen, hle, hfresh⟩ := h.sees i w hi
    refine ⟨hseen, ?_, hfresh⟩
    simp only [List.length_append, List.length_singleton]
    omega
  · apply h.distinct
  · intro i t hp
    obtain ⟨w, hi, ht⟩ := h.pending i t hp
    refine ⟨w, hi, .inl ?_⟩
    rw [List.mem_append]
    obtain ht | ⟨-, ht⟩ := ht
    · exact .inr ht
    · exact .inl (mem_send.mpr ⟨w.id, ht⟩)

/-- A new watcher is made, or one observes the latest version. -/
theorem Kept.setWatcher
    {n observed : Nat} (h : s.Kept value) (hn : s.cell.nextId ≤ n)
    (hseen : w.lastSeen = observed) (hle : observed ≤ s.sent.length) (hfresh : w.id < n)
    (hold : ∀ w₀, s.watchers.lookup i = some w₀ → w.id = w₀.id ∧ observed = s.sent.length)
    (hnew : s.watchers.lookup i = none → s.cell.nextId ≤ w.id) :
  (s.setWatcher { s.cell with nextId := n } i w observed).Kept value
  := by
  have hother (j : Nat) (w' : Watcher) (hne : j ≠ i) (hj : s.watchers.lookup j = some w') :
      w'.id ≠ w.id := by
    intro hid
    cases hi : s.watchers.lookup i with
    | none => exact absurd (h.sees j w' hj).fresh (Nat.not_lt_of_le (hid ▸ hnew hi))
    | some w₀ => apply hne (h.distinct j i w' w₀ hj hi (hid.trans (hold w₀ hi).1))
  constructor
  · apply h.version
  · apply h.alive
  · apply h.value
  · intro j w' hj
    simp only [Handles.setWatcher, Table.lookup_insert_eq] at hj
    split at hj
    · next hji =>
      cases hj
      rw [hji]
      constructor
      · simp [Handles.setWatcher, hseen]
      · simpa [Handles.setWatcher] using hle
      · apply hfresh
    · next hne =>
      obtain ⟨hseen', hle', hfresh'⟩ := h.sees j w' hj
      constructor
      · simpa [Handles.setWatcher, hne] using hseen'
      · simpa [Handles.setWatcher, hne] using hle'
      · apply Nat.lt_of_lt_of_le hfresh' hn
  · intro j k w₁ w₂ hj hk hid
    simp only [Handles.setWatcher, Table.lookup_insert_eq] at hj hk
    split at hj
    · next hji =>
      split at hk
      · next hki => rw [hji, hki]
      · next hne =>
        cases hj
        exact absurd hid.symm (hother k w₂ hne hk)
    · next hne =>
      split at hk
      · cases hk
        exact absurd hid (hother j w₁ hne hj)
      · apply h.distinct j k w₁ w₂ hj hk hid
  · intro j t hp
    obtain ⟨w', hj, ht⟩ := h.pending j t hp
    simp only [Handles.setWatcher, Table.lookup_insert_eq]
    split
    · next hji =>
      rw [hji] at hj
      obtain ⟨hid, hobs⟩ := hold w' hj
      refine ⟨w, rfl, ht.imp_right fun ht => ⟨?_, ?_⟩⟩
      · rw [hseen, hobs]
        apply h.version.symm
      · rw [hid]
        apply ht.2
    · exact ⟨w', hj, ht⟩

/-- A watcher observes the latest version. -/
theorem Kept.observe (h : s.Kept value) (hi : s.watchers.lookup i = some w) :
  (s.setWatcher s.cell i { w with lastSeen := s.cell.version } s.sent.length).Kept value
  := by
  apply h.setWatcher (w := { w with lastSeen := s.cell.version }) (Nat.le_refl _) h.version
    (Nat.le_refl _) (h.sees i w hi).fresh
  · intro w₀ hi₀
    rw [hi] at hi₀
    cases hi₀
    exact ⟨rfl, rfl⟩
  · simp [hi]

/-- A watcher leaves its waker. -/
theorem Kept.park
    (h : s.Kept value) (hi : s.watchers.lookup i = some w) (hseen : s.cell.version = w.lastSeen) :
  Kept value { s.setWatcher { s.cell with waiters := s.cell.waiters.insert w.id t } i w
    (s.observed i) with pending := s.pending.insert i t }
  := by
  have hlookup (j : Nat) : (s.watchers.insert i w).lookup j = s.watchers.lookup j := by
    rw [Table.lookup_insert_eq]
    split
    · next hj => rw [hj, hi]
    · rfl
  have hobserved : Function.update s.observed i (s.observed i) = s.observed :=
    Function.update_eq_self ..
  constructor
  · apply h.version
  · apply h.alive
  · apply h.value
  · intro j w' hj
    simp only [Handles.setWatcher, hlookup] at hj
    obtain ⟨hseen', hle', hfresh'⟩ := h.sees j w' hj
    constructor
    · simpa only [Handles.setWatcher, hobserved] using hseen'
    · simpa only [Handles.setWatcher, hobserved] using hle'
    · apply hfresh'
  · intro j k w₁ w₂ hj hk
    simp only [Handles.setWatcher, hlookup] at hj hk
    apply h.distinct j k w₁ w₂ hj hk
  · intro j t' hp
    simp only [Handles.setWatcher, hlookup]
    simp only [Table.lookup_insert_eq] at hp
    split at hp
    · next hji =>
      cases hp
      rw [hji]
      exact ⟨w, hi, .inr ⟨hseen.symm, AList.lookup_insert _⟩⟩
    · next hne =>
      obtain ⟨w', hj, ht⟩ := h.pending j t' hp
      have hid : w'.id ≠ w.id := fun hid => hne (h.distinct j i w' w hj hi hid)
      refine ⟨w', hj, ht.imp_right fun ht => ⟨ht.1, ?_⟩⟩
      rw [AList.lookup_insert_ne hid]
      apply ht.2

theorem Kept.unpark
    {hand : List Waker} {pending : Table Nat Waker} (h : s.Kept value)
    (hp : ∀ i t, pending.lookup i = some t → s.pending.lookup i = some t ∧ (t ∈ s.hand → t ∈ hand)) :
  Kept value { s with hand := hand, pending := pending }
  := by
  refine { h with sees := ?_, pending := fun i t ht => ?_ }
  · intro i w hi
    obtain ⟨hseen, hle, hfresh⟩ := h.sees i w hi
    exact ⟨hseen, hle, hfresh⟩
  · obtain ⟨ht, hhand⟩ := hp i t ht
    obtain ⟨w, hi, hw⟩ := h.pending i t ht
    exact ⟨w, hi, hw.imp_left hhand⟩

theorem Kept.step (h : s.Kept value) (hs : s.step a = some s') :
  s'.Kept value
  := by
  cases a with
  | send v =>
    cases hs
    apply h.send v
  | subscribe i =>
    simp only [Handles.step] at hs
    split at hs
    · contradiction
    · next hi =>
      cases hs
      have hi : s.watchers.lookup i = none := by simpa using hi
      apply h.setWatcher (Nat.le_succ _) h.version (Nat.le_refl _) (Nat.lt_succ_self _)
      · simp [hi]
      · exact fun _ => Nat.le_refl _
  | clone i j =>
    obtain ⟨w, hi, hs⟩ := Option.bind_eq_some_iff.mp hs
    split at hs
    · contradiction
    · next hj =>
      cases hs
      have hj : s.watchers.lookup j = none := by simpa using hj
      obtain ⟨hseen, hle, -⟩ := h.sees i w hi
      apply h.setWatcher (w := { w with id := s.cell.nextId }) (Nat.le_succ _) hseen hle
        (Nat.lt_succ_self _)
      · simp [hj]
      · exact fun _ => Nat.le_refl _
  | borrow i =>
    obtain ⟨w, hi, hs⟩ := Option.bind_eq_some_iff.mp hs
    cases hs
    apply h.observe hi
  | changed i t =>
    obtain ⟨w, hi, hs⟩ := Option.bind_eq_some_iff.mp hs
    by_cases hv : s.cell.version = w.lastSeen
    · rw [changedPoll_pending hv h.alive] at hs
      cases hs
      apply h.park hi hv
    · rw [changedPoll_ready hv] at hs
      cases hs
      have hkept : Kept value { s with hand := s.hand, pending := s.pending.erase i } := by
        apply h.unpark
        intro j t' hp
        obtain ⟨-, hp⟩ := Table.lookup_of_erase hp
        exact ⟨hp, fun ht => ht⟩
      apply hkept.observe hi
  | wake t =>
    simp only [Handles.step] at hs
    split at hs
    · cases hs
      apply h.unpark
      intro i t' hp
      simp only [Table.lookup_retain, Option.filter_eq_some_iff, decide_eq_true_eq] at hp
      exact ⟨hp.1, (List.mem_erase_of_ne hp.2).mpr⟩
    · contradiction

/-- Watchers stay, and a new one is subscribed or cloned. -/
theorem isSome_watchers_step (hs : s.step a = some s') (i : Nat) :
  (s'.watchers.lookup i).isSome ↔
    (s.watchers.lookup i).isSome ∨ a = .subscribe i ∨ ∃ j, a = .clone j i
  := by
  have observed {j : Nat} {w : Watcher} (w' : Watcher) (hj : s.watchers.lookup j = some w) :
      ((s.watchers.insert j w').lookup i).isSome ↔ (s.watchers.lookup i).isSome := by
    rw [Table.lookup_insert_eq]
    split
    · next hi =>
      rw [hi, hj]
      rfl
    · rfl
  cases a with
  | send v =>
    obtain rfl := Option.some.inj hs
    simp
  | subscribe j =>
    simp only [Handles.step] at hs
    split at hs
    · contradiction
    · obtain rfl := Option.some.inj hs
      simp only [Handles.setWatcher, Table.lookup_insert_eq]
      split
      · next hi => simp [hi]
      · next hi => simp [Ne.symm hi]
  | clone k j =>
    obtain ⟨w, hk, hs⟩ := Option.bind_eq_some_iff.mp hs
    split at hs
    · contradiction
    · obtain rfl := Option.some.inj hs
      simp only [Handles.setWatcher, Table.lookup_insert_eq]
      split
      · next hi => simp [hi]
      · next hi => simp [Ne.symm hi]
  | borrow j =>
    obtain ⟨w, hj, hs⟩ := Option.bind_eq_some_iff.mp hs
    obtain rfl := Option.some.inj hs
    simpa [setWatcher] using observed _ hj
  | changed j t =>
    obtain ⟨w, hj, hs⟩ := Option.bind_eq_some_iff.mp hs
    split at hs
    · obtain rfl := Option.some.inj hs
      simpa [setWatcher] using observed _ hj
    · obtain rfl := Option.some.inj hs
      simpa [setWatcher] using observed _ hj
  | wake t =>
    simp only [Handles.step] at hs
    split at hs
    · obtain rfl := Option.some.inj hs
      simp
    · contradiction

/-- A task waits that did, or that has polled. -/
theorem pending_of_step (hs : s.step a = some s') (hp : s'.pending.lookup i = some t) :
  s.pending.lookup i = some t ∨ a = .changed i t
  := by
  cases a with
  | send v =>
    obtain rfl := Option.some.inj hs
    exact .inl hp
  | subscribe j =>
    simp only [Handles.step] at hs
    split at hs
    · contradiction
    · obtain rfl := Option.some.inj hs
      exact .inl hp
  | clone k j =>
    obtain ⟨w, -, hs⟩ := Option.bind_eq_some_iff.mp hs
    split at hs
    · contradiction
    · obtain rfl := Option.some.inj hs
      exact .inl hp
  | borrow j =>
    obtain ⟨w, -, hs⟩ := Option.bind_eq_some_iff.mp hs
    obtain rfl := Option.some.inj hs
    exact .inl hp
  | changed j t' =>
    obtain ⟨w, -, hs⟩ := Option.bind_eq_some_iff.mp hs
    split at hs
    · obtain rfl := Option.some.inj hs
      obtain ⟨-, hp⟩ := Table.lookup_of_erase hp
      exact .inl hp
    · obtain rfl := Option.some.inj hs
      simp only [Table.lookup_insert_eq] at hp
      split at hp
      · next hij =>
        right
        rw [hij, Option.some.inj hp]
      · exact .inl hp
  | wake t' =>
    simp only [Handles.step] at hs
    split at hs
    · obtain rfl := Option.some.inj hs
      simp only [Table.lookup_retain, Option.filter_eq_some_iff] at hp
      exact .inl hp.1
    · contradiction

/-- The action makes the watcher `i`, observes the cell through it, or wakes its task, which
has the same number. -/
def Action.IsAbout (i : Nat) : Action T → Prop
  | .send _ => False
  | .subscribe j | .clone _ j | .borrow j | .changed j _ | .wake j => j = i

/-- What the actions that are not about a watcher leave of it. -/
structure Spares (s s' : Handles T) (i : Nat) : Prop where
  watchers : s'.watchers.lookup i = s.watchers.lookup i
  pending : s.pending.lookup i = some i → s'.pending.lookup i = some i
  observed : s'.observed i = s.observed i
  sent : s.sent.length ≤ s'.sent.length

theorem Spares.refl (s : Handles T) :
  s.Spares s i
  := ⟨rfl, id, rfl, Nat.le_refl _⟩

theorem spares_setWatcher
    {cell : Shared T} {j observed : Nat} {pending : Table Nat Waker} (hne : j ≠ i)
    (hp : s.pending.lookup i = some i → pending.lookup i = some i) :
  s.Spares { s.setWatcher cell j w observed with pending := pending } i
  := by
  constructor
  · apply AList.lookup_insert_ne hne.symm
  · apply hp
  · apply Function.update_of_ne hne.symm
  · apply Nat.le_refl

theorem spares_of_step (hs : s.step a = some s') (hne : ¬ a.IsAbout i) :
  s.Spares s' i
  := by
  cases a with
  | send v =>
    obtain rfl := Option.some.inj hs
    constructor
    · rfl
    · apply id
    · rfl
    · simp
  | subscribe j =>
    simp only [Handles.step] at hs
    split at hs
    · contradiction
    · obtain rfl := Option.some.inj hs
      apply spares_setWatcher hne id
  | clone k j =>
    obtain ⟨w, hk, hs⟩ := Option.bind_eq_some_iff.mp hs
    split at hs
    · contradiction
    · obtain rfl := Option.some.inj hs
      apply spares_setWatcher hne id
  | borrow j =>
    obtain ⟨w, hj, hs⟩ := Option.bind_eq_some_iff.mp hs
    obtain rfl := Option.some.inj hs
    apply spares_setWatcher hne id
  | changed j t =>
    obtain ⟨w, hj, hs⟩ := Option.bind_eq_some_iff.mp hs
    split at hs
    · obtain rfl := Option.some.inj hs
      apply spares_setWatcher hne
      intro hp
      rwa [AList.lookup_erase_ne (Ne.symm hne)]
    · obtain rfl := Option.some.inj hs
      apply spares_setWatcher hne
      intro hp
      rwa [AList.lookup_insert_ne (Ne.symm hne)]
  | wake t =>
    simp only [Handles.step] at hs
    split at hs
    · obtain rfl := Option.some.inj hs
      constructor
      · rfl
      · intro hp
        simp only [Table.lookup_retain, hp, Option.filter_some, decide_eq_true_eq]
        apply if_pos (Ne.symm hne)
      · rfl
      · apply Nat.le_refl
    · contradiction

/-- A watcher that waits and is not being woken has seen the latest version and left its
waker; a watcher finds a change exactly if something was sent since it observed the cell,
it finds one change however many values were sent, and reads the latest one then. -/
structure WakesUp (value : T) (s : Handles T) : Prop where
  pending : ∀ i w t, s.watchers.lookup i = some w → s.pending.lookup i = some t → t ∉ s.hand →
    w.lastSeen = s.cell.version ∧ s.cell.waiters.lookup w.id = some t
  resolves : ∀ i w t, s.watchers.lookup i = some w →
    ((changedPoll s.cell w t).2.2 = some (.ok ()) ↔ s.observed i < s.sent.length)
  coalesces : ∀ i w t t', s.watchers.lookup i = some w → s.observed i < s.sent.length →
    (changedPoll (changedPoll s.cell w t).1 (changedPoll s.cell w t).2.1 t').2.2 = none
  latest : ∀ i w t, s.watchers.lookup i = some w →
    (Watch.borrow (changedPoll s.cell w t).1 (changedPoll s.cell w t).2.1).2 = latest value s.sent

theorem Kept.changed_iff (h : s.Kept value) (hi : s.watchers.lookup i = some w) :
  s.observed i < s.sent.length ↔ s.cell.version ≠ w.lastSeen
  := by
  obtain ⟨hseen, hle, -⟩ := h.sees i w hi
  rw [hseen, h.version]
  omega

/-- Whatever the order of sends, new watchers, polls and wake-ups, no watcher misses a
change. -/
theorem wakesUp_of_reachable (h : (machine value).Reachable s) :
  s.WakesUp value
  := by
  have hkept : s.Kept value := by
    apply h.invariant
    · rintro s rfl
      apply kept_initial value
    · exact fun s a s' _ hkept _ hs => hkept.step hs
  constructor
  · intro i w t hi hp ht
    obtain ⟨w', hi', hhand | hw⟩ := hkept.pending i t hp
    · contradiction
    · cases hi.symm.trans hi'
      apply hw
  · intro i w t hi
    rw [hkept.changed_iff hi]
    by_cases hv : s.cell.version = w.lastSeen
    · simp [changedPoll_pending hv hkept.alive, hv]
    · simp [changedPoll_ready hv, hv]
  · intro i w t t' hi hsent
    have hv := (hkept.changed_iff hi).mp hsent
    rw [changedPoll_ready hv, changedPoll_pending rfl hkept.alive]
  · intro i w t hi
    rw [← hkept.value]
    by_cases hv : s.cell.version = w.lastSeen
    · rw [changedPoll_pending hv hkept.alive]
      rfl
    · rw [changedPoll_ready hv]
      rfl

/-- A watcher waits; then two values are sent, and it finds the second one. -/
theorem wakesUp_of_reachable_sent :
  ∃ s, (machine 0).Reachable s ∧ s.sent = [1, 2] ∧ s.pending.lookup 0 = none ∧
    (s.watchers.lookup 0).map (fun w => (changedPoll s.cell w 7).2.2.isSome) = some true ∧
    s.WakesUp 0
  := by
  obtain ⟨s, hs, hv⟩ := Machine.exists_reachable_of_exec (M := machine 0) (s := initial 0)
    [.changed 0 7, .clone 0 1, .changed 1 8, .send 1, .wake 7, .send 2]
    (fun s : Handles Nat => (s.sent, s.pending.lookup 0,
      (s.watchers.lookup 0).map fun w => (changedPoll s.cell w 7).2.2.isSome))
    ([1, 2], none, some true) rfl (by decide +kernel)
  simp only [Prod.mk.injEq] at hv
  exact ⟨s, hs, hv.1, hv.2.1, hv.2.2, wakesUp_of_reachable hs⟩

end Handles

end Watch

end RsQuery
