import RsQuery.Entries

/-!
# The queues of the scopes

The entries of a mutation cache and the queues of its scopes are kept apart, under two
locks.  When every call is made in one go, they agree in every state: a queue holds ids
of entries that are present and belong to its scope, in the order they were assigned, and
a scope with a queue is not forgotten unless the cache is cleared.  Ids are assigned in
increasing order, so none is ever given to two entries.
-/

namespace RsQuery

namespace MutationCache

open Mutations (SameEntries sameEntries_joinScope sameEntries_markFinished)

/-! ### Calls made in one go -/

/-- Enters the scope of an entry that has one. -/
def enterScope (c : MutationCache) (entry : MutationCacheEntry) :
    MutationCache × MutationCacheEntry :=
  match entry.scope with
  | some scope => c.joinScope scope.id entry
  | none => (c, entry)

/-- Assigns an id to `entry` and inserts it; gives the id. -/
def add (c : MutationCache) (entry : MutationCacheEntry) : MutationCache × Nat :=
  let (c, id) := c.assignId
  let (c, entry) := c.enterScope { entry with id }
  ((c.pushEntry entry).send (.added id), id)

/-- Applies `apply` to the entry with the given id. -/
def update (c : MutationCache) (id : Nat) (apply : MutationCacheEntry → MutationCacheEntry) :
    MutationCache × Bool :=
  let (c, found) := c.updateEntry id apply
  (if found then c.send (.updated id) else c, found)

/-- Removes the entry with the given id and splices it out of the queue of its scope. -/
def remove (c : MutationCache) (id : Nat) : MutationCache × Bool :=
  let (c, removed) := c.removeEntry id
  let c :=
    match removed with
    | some (some scope) => c.spliceScope scope id
    | _ => c
  (c.send (.removed id), removed.isSome)

/-- Removes every entry and every scope. -/
def clear (c : MutationCache) : MutationCache :=
  let (c, ids) := c.takeEntries
  (ids.foldl (fun c id => c.send (.removed id)) c.clearScopes).send .cleared

/-- Releases a scope; the wakers taken are still to be woken. -/
def finish (c : MutationCache) (scope : String) : MutationCache × List Waker :=
  (c.markFinished scope).sendRelease scope

/-- Takes the next id from the queue of a scope; the wakers taken are still to be woken. -/
def runNext (c : MutationCache) (scope : String) : MutationCache × Option Nat × List Waker :=
  let (c, next) := c.popNext scope
  match next with
  | some id =>
    let (c, wakers) := (c.send (.scopeResumed scope)).sendRelease scope
    (c, some id, wakers)
  | none => (c, none, [])

/-- A change of an entry that keeps its id and its scope. -/
structure Change where
  apply : MutationCacheEntry → MutationCacheEntry
  id_apply : ∀ entry, (apply entry).id = entry.id
  scope_apply : ∀ entry, (apply entry).scope = entry.scope

/-- A call. -/
inductive CacheCall where
  | add (entry : MutationCacheEntry)
  | update (id : Nat) (change : Change)
  | remove (id : Nat)
  | clear
  | markRunning (scope : String)
  | markFinished (scope : String)
  | runNext (scope : String)

/-- The cache after a call. -/
def call (c : MutationCache) : CacheCall → MutationCache
  | .add entry => (c.add entry).1
  | .update id change => (c.update id change.apply).1
  | .remove id => (c.remove id).1
  | .clear => c.clear
  | .markRunning scope => c.markRunning scope
  | .markFinished scope => (c.finish scope).1
  | .runNext scope => (c.runNext scope).1

/-- The id that a call assigns. -/
def assigned (c : MutationCache) : CacheCall → MutationCache → List Nat
  | .add entry, _ => [(c.add entry).2]
  | _, _ => []

/-- A new cache and every call, with a log of the ids assigned. -/
def calls : Machine (MutationCache × List Nat) CacheCall :=
  (Machine.mk (· = new) fun c a => some (c.call a)).noting assigned

/-! ### What a call does to the owners and to the queues -/

variable {c c' : MutationCache} {scope scope' : String} {id : Nat} {entry : MutationCacheEntry}

/-- The ids of the entries and the scopes they belong to. -/
def owners (c : MutationCache) : List (Nat × Option MutationScope) :=
  c.entries.map fun entry => (entry.id, entry.scope)

/-- The ids queued in a scope. -/
def queue (c : MutationCache) (scope : String) : List Nat :=
  (c.scopeState scope).queue

theorem mem_owners {owner : Nat × Option MutationScope} :
  owner ∈ c.owners ↔ ∃ entry ∈ c.entries, entry.id = owner.1 ∧ entry.scope = owner.2
  := by
  simp [owners, Prod.ext_iff]

theorem ids_owners :
  c.owners.map Prod.fst = c.entries.map (·.id)
  := by
  simp [owners]

/-- A change of an entry keeps whose it is. -/
theorem owners_applyTo (change : Change) (entries : List MutationCacheEntry) :
  (applyTo id change.apply entries).map (fun entry => (entry.id, entry.scope))
    = entries.map fun entry => (entry.id, entry.scope)
  := by
  induction entries with
  | nil => rfl
  | cons entry entries ih =>
    rw [applyTo]
    split
    · rw [List.map_cons, List.map_cons, change.id_apply, change.scope_apply]
    · rw [List.map_cons, List.map_cons, ih]

theorem owners_removeEntry :
  (c.removeEntry id).1.owners = c.owners.eraseP fun owner => owner.1 = id
  := by
  rw [owners, owners, List.eraseP_map]
  rfl

/-- Where the entry belonged that was removed. -/
theorem removeEntry_snd (hdistinct : (c.owners.map Prod.fst).Nodup)
    (h : (id, some ⟨scope⟩) ∈ c.owners) :
  (c.removeEntry id).2 = some (some scope)
  := by
  obtain ⟨entry, hentry, hid, hscope⟩ := mem_owners.mp h
  rw [ids_owners] at hdistinct
  have hfind : c.entries.find? (fun entry => entry.id = id) = some entry := by
    obtain ⟨found, hfound⟩ :
        ∃ found, c.entries.find? (fun entry => entry.id = id) = some found := by
      rw [← Option.isSome_iff_exists, List.find?_isSome]
      use entry, hentry
      simpa using hid
    have hfoundId : found.id = id := by simpa using List.find?_some hfound
    rw [hfound, List.inj_on_of_nodup_map hdistinct (List.mem_of_find?_eq_some hfound) hentry
      (hfoundId.trans hid.symm)]
  rw [removeEntry, hfind]
  simp [hscope]

/-- Queues hold ids of entries of their scope in increasing order, and ids are given
once. -/
structure QueuesKept (c : MutationCache) : Prop where
  sorted : ∀ scope, (c.queue scope).Pairwise (· < ·)
  owned : ∀ scope, ∀ id ∈ c.queue scope, (id, some ⟨scope⟩) ∈ c.owners
  fresh : ∀ owner ∈ c.owners, owner.1 ≤ c.nextId
  distinct : (c.owners.map Prod.fst).Nodup

theorem queuesKept_new :
  new.QueuesKept
  := by
  constructor
  · intro scope
    apply List.Pairwise.nil
  · intro scope id h
    contradiction
  · intro owner h
    contradiction
  · apply List.nodup_nil

/-- Queues and owners are dropped only, and the owners of what stays queued stay. -/
structure Shrinks (c c' : MutationCache) : Prop where
  nextId : c'.nextId = c.nextId
  owners : c'.owners.Sublist c.owners
  queue : ∀ scope, (c'.queue scope).Sublist (c.queue scope)
  owned : ∀ scope, ∀ id ∈ c'.queue scope, (id, some ⟨scope⟩) ∈ c.owners →
    (id, some ⟨scope⟩) ∈ c'.owners

theorem QueuesKept.shrinks (h : c.QueuesKept) (hs : c.Shrinks c') :
  c'.QueuesKept
  := by
  constructor
  · intro scope
    apply (h.sorted scope).sublist (hs.queue scope)
  · intro scope id hid
    apply hs.owned scope id hid
    apply h.owned scope id ((hs.queue scope).subset hid)
  · intro owner howner
    rw [hs.nextId]
    apply h.fresh owner (hs.owners.subset howner)
  · apply h.distinct.sublist (hs.owners.map Prod.fst)

theorem Shrinks.of_owners (hnext : c'.nextId = c.nextId) (howners : c'.owners = c.owners)
    (hqueue : ∀ scope, (c'.queue scope).Sublist (c.queue scope)) :
  c.Shrinks c'
  := by
  constructor
  · apply hnext
  · rw [howners]
  · apply hqueue
  · intro scope id _ hid
    rwa [howners]

/-- The queue of one scope is dropped from, and the others are as they were. -/
theorem queue_sublist {state : ScopeState} (hqueue : state.queue.Sublist (c.queue scope))
    (hstate : ∀ scope',
      c'.scopeState scope' = if scope' = scope then state else c.scopeState scope')
    (scope' : String) :
  (c'.queue scope').Sublist (c.queue scope')
  := by
  rw [queue, hstate]
  split
  · next heq =>
    rw [heq]
    apply hqueue
  · apply List.Sublist.refl

theorem Shrinks.of_scopes (hs : SameEntries c c') (hscopes : c'.scopes = c.scopes) :
  c.Shrinks c'
  := by
  apply Shrinks.of_owners hs.1
  · rw [MutationCache.owners, MutationCache.owners, hs.2]
  · intro scope
    rw [MutationCache.queue, MutationCache.queue, scopeState, scopeState, hscopes]

theorem Shrinks.trans {c'' : MutationCache} (h : c.Shrinks c') (h' : c'.Shrinks c'') :
  c.Shrinks c''
  := by
  constructor
  · rw [h'.nextId, h.nextId]
  · apply h'.owners.trans h.owners
  · intro scope
    apply (h'.queue scope).trans (h.queue scope)
  · intro scope id hid howned
    apply h'.owned scope id hid
    apply h.owned scope id ((h'.queue scope).subset hid) howned

theorem Shrinks.send (h : c.Shrinks c') (event : MutationCacheEvent) :
  c.Shrinks (c'.send event)
  := h.trans (.of_scopes ⟨rfl, rfl⟩ rfl)

theorem Shrinks.foldl_send (h : c.Shrinks c') (ids : List Nat) :
  c.Shrinks (ids.foldl (fun c id => c.send (.removed id)) c')
  := by
  induction ids generalizing c' with
  | nil => apply h
  | cons id ids ih => apply ih (h.send _)

theorem Shrinks.sendRelease (h : c.Shrinks c') (scope : String) :
  c.Shrinks (c'.sendRelease scope).1
  := by
  apply h.trans
  apply Shrinks.of_scopes
  · unfold MutationCache.sendRelease
    split
    · exact ⟨rfl, rfl⟩
    · exact ⟨rfl, rfl⟩
  · apply scopes_sendRelease

theorem sameEntries_enterScope :
  SameEntries c (c.enterScope entry).1
  := by
  unfold enterScope
  split
  · apply sameEntries_joinScope
  · exact ⟨rfl, rfl⟩

theorem owner_enterScope :
  (c.enterScope entry).2.id = entry.id ∧ (c.enterScope entry).2.scope = entry.scope
  := by
  unfold enterScope
  split
  · unfold joinScope
    dsimp only
    split
    · exact ⟨rfl, rfl⟩
    · exact ⟨rfl, rfl⟩
  · exact ⟨rfl, rfl⟩

/-- The id of an entry is queued in its scope if the scope is running. -/
theorem queue_enterScope :
  (c.enterScope entry).1.queue scope =
    if entry.scope = some ⟨scope⟩ ∧ (c.scopeState scope).running = true then
      c.queue scope ++ [entry.id]
    else c.queue scope
  := by
  unfold enterScope
  split
  · next s hs =>
    rw [queue, scopeState_joinScope]
    by_cases h : scope = s.id
    · subst h
      simp only [hs, true_and]
      split
      · rfl
      · rfl
    · have hne : s ≠ ⟨scope⟩ := by
        rintro rfl
        apply h rfl
      simp [hs, h, hne, queue]
  · next hs => simp [hs]

/-- An entry is added beside the others. -/
theorem owners_pushEntry :
  ((c.enterScope entry).1.pushEntry (c.enterScope entry).2).owners
    = c.owners ++ [(entry.id, entry.scope)]
  := by
  obtain ⟨hid, hscope⟩ :
      (c.enterScope entry).2.id = entry.id ∧ (c.enterScope entry).2.scope = entry.scope :=
    owner_enterScope
  simp [owners, pushEntry, sameEntries_enterScope.2, hid, hscope]

theorem owners_add (c : MutationCache) (entry : MutationCacheEntry) :
  (c.add entry).1.owners = c.owners ++ [(c.nextId + 1, entry.scope)]
  := by
  apply owners_pushEntry (c := c.assignId.1)

theorem nextId_add (c : MutationCache) (entry : MutationCacheEntry) :
  (c.add entry).1.nextId = c.nextId + 1
  := (sameEntries_enterScope (c := c.assignId.1)).1

theorem queue_add (c : MutationCache) (entry : MutationCacheEntry) (scope : String) :
  (c.add entry).1.queue scope =
    if entry.scope = some ⟨scope⟩ ∧ (c.scopeState scope).running = true then
      c.queue scope ++ [c.nextId + 1]
    else c.queue scope
  := by
  apply queue_enterScope (c := c.assignId.1)

/-- A number above all others is not among them. -/
theorem nodup_concat_succ {ids : List Nat} {n : Nat} (hids : ids.Nodup) (hle : ∀ id ∈ ids, id ≤ n) :
  (ids ++ [n + 1]).Nodup
  := by
  apply List.Nodup.append hids (List.nodup_singleton _)
  intro id hid hid'
  have hle := hle id hid
  rw [List.mem_singleton.mp hid'] at hle
  apply Nat.not_succ_le_self _ hle

/-- The entry that is added gets an id that no other has, which may be queued last in its
scope. -/
theorem QueuesKept.add (h : c.QueuesKept) (entry : MutationCacheEntry) :
  (c.add entry).1.QueuesKept
  := by
  have hbelow (scope : String) (id : Nat) (hid : id ∈ c.queue scope) : id ≤ c.nextId :=
    h.fresh _ (h.owned scope id hid)
  constructor
  · intro scope
    rw [queue_add]
    split
    · rw [List.pairwise_append]
      use h.sorted scope, List.pairwise_singleton _ _
      intro id hid id' hid'
      rw [List.mem_singleton.mp hid']
      apply Nat.lt_succ_of_le (hbelow scope id hid)
    · apply h.sorted scope
  · intro scope id hid
    rw [queue_add] at hid
    rw [owners_add]
    split at hid
    · next hjoins =>
      rcases List.mem_append.mp hid with hid | hid
      · apply List.mem_append_left _ (h.owned scope id hid)
      · rw [List.mem_singleton.mp hid, hjoins.1]
        apply List.mem_append_right _ List.mem_cons_self
    · apply List.mem_append_left _ (h.owned scope id hid)
  · intro owner howner
    rw [owners_add] at howner
    rw [nextId_add]
    rcases List.mem_append.mp howner with howner | howner
    · apply Nat.le_succ_of_le (h.fresh owner howner)
    · rw [List.mem_singleton.mp howner]
  · rw [owners_add, List.map_append]
    apply nodup_concat_succ h.distinct
    intro id hid
    obtain ⟨owner, howner, rfl⟩ := List.mem_map.mp hid
    apply h.fresh owner howner

theorem shrinks_update (c : MutationCache) (id : Nat) (change : Change) :
  c.Shrinks (c.update id change.apply).1
  := by
  have hentry : c.Shrinks (c.updateEntry id change.apply).1 := by
    apply Shrinks.of_owners
    · rfl
    · apply owners_applyTo
    · intro scope
      apply List.Sublist.refl
  simp only [update]
  split
  · apply hentry.send
  · apply hentry

/-- The id that is removed is queued in the scope of its entry only. -/
theorem QueuesKept.shrinks_remove (h : c.QueuesKept) (id : Nat) :
  c.Shrinks (c.remove id).1
  := by
  have howners : (c.removeEntry id).1.owners = c.owners.eraseP fun owner => owner.1 = id :=
    owners_removeEntry
  have hkept (scope : String) (id' : Nat) (hne : id' ≠ id) (hid : (id', some ⟨scope⟩) ∈ c.owners) :
      (id', some ⟨scope⟩) ∈ (c.removeEntry id).1.owners := by
    rw [howners, List.mem_eraseP_of_neg (by simpa using hne)]
    apply hid
  have hsublist : (c.removeEntry id).1.owners.Sublist c.owners := by
    rw [howners]
    apply List.eraseP_sublist
  simp only [remove]
  apply Shrinks.send
  split
  · next scope hremoved =>
    constructor
    · rfl
    · apply hsublist
    · apply queue_sublist _ (scopeState_spliceScope (c.removeEntry id).1 scope · id)
      apply List.filter_sublist
    · intro scope' id' hid' howned
      apply hkept scope' id' _ howned
      rintro rfl
      -- the entry is queued in its own scope, from which it is spliced out
      obtain rfl : scope' = scope := by
        simpa [hremoved] using (removeEntry_snd h.distinct howned).symm
      rw [queue, scopeState_spliceScope, if_pos rfl] at hid'
      simp at hid'
  · next hremoved =>
    constructor
    · rfl
    · apply hsublist
    · intro scope
      apply List.Sublist.refl
    · intro scope id' hid' howned
      apply hkept scope id' _ howned
      rintro rfl
      apply hremoved scope (removeEntry_snd h.distinct howned)

theorem shrinks_clear (c : MutationCache) :
  c.Shrinks c.clear
  := by
  have hcleared : c.Shrinks c.takeEntries.1.clearScopes := by
    constructor
    · rfl
    · apply List.nil_sublist
    · intro scope
      apply List.nil_sublist
    · intro scope id hid
      contradiction
  apply (hcleared.foldl_send _).send

theorem shrinks_markRunning (c : MutationCache) (scope : String) :
  c.Shrinks (c.markRunning scope)
  := by
  apply Shrinks.of_owners
  · rfl
  · rfl
  · apply queue_sublist _ (scopeState_markRunning c scope)
    apply List.Sublist.refl

theorem shrinks_finish (c : MutationCache) (scope : String) :
  c.Shrinks (c.finish scope).1
  := by
  apply Shrinks.sendRelease
  obtain ⟨hnext, hentries⟩ := sameEntries_markFinished c scope
  apply Shrinks.of_owners hnext
  · rw [owners, owners, hentries]
  · apply queue_sublist _ (scopeState_markFinished c scope)
    apply List.Sublist.refl

theorem sameEntries_popNext (c : MutationCache) (scope : String) :
  SameEntries c (c.popNext scope).1
  := by
  unfold popNext
  split
  · exact ⟨rfl, rfl⟩
  · exact ⟨rfl, rfl⟩

theorem shrinks_runNext (c : MutationCache) (scope : String) :
  c.Shrinks (c.runNext scope).1
  := by
  have hpop : c.Shrinks (c.popNext scope).1 := by
    obtain ⟨hnext, hentries⟩ := sameEntries_popNext c scope
    apply Shrinks.of_owners hnext
    · rw [owners, owners, hentries]
    · apply queue_sublist _ (scopeState_popNext c scope)
      apply List.tail_sublist
  simp only [runNext]
  split
  · apply (hpop.send _).sendRelease
  · apply hpop

/-- A call other than `add` only drops ids and entries. -/
theorem QueuesKept.shrinks_call (h : c.QueuesKept) {a : CacheCall} (ha : ∀ entry, a ≠ .add entry) :
  c.Shrinks (c.call a)
  := by
  cases a with
  | add entry =>
    exfalso
    apply ha entry rfl
  | update id change => apply shrinks_update
  | remove id => apply h.shrinks_remove
  | clear => apply shrinks_clear
  | markRunning scope => apply shrinks_markRunning
  | markFinished scope => apply shrinks_finish
  | runNext scope => apply shrinks_runNext

/-! ### Only a clear forgets a scope with a queue -/

/-- The scopes with a queue are still there. -/
def Remembers (c c' : MutationCache) : Prop :=
  ∀ scope state, c.scopes.lookup scope = some state → state.queue ≠ [] →
    (c'.scopes.lookup scope).isSome = true

theorem Remembers.of_scopes (h : c'.scopes = c.scopes) :
  c.Remembers c'
  := by
  intro scope state hstate _
  rw [h, hstate]
  rfl

theorem Remembers.setScope (c : MutationCache) (scope : String) (state : ScopeState) :
  c.Remembers (c.setScope scope state)
  := by
  intro scope' state' hstate _
  rw [MutationCache.setScope, Table.lookup_insert_eq]
  split
  · rfl
  · rw [hstate]
    rfl

theorem Remembers.enterScope (c : MutationCache) (entry : MutationCacheEntry) :
  c.Remembers (c.enterScope entry).1
  := by
  unfold MutationCache.enterScope
  split
  · unfold joinScope
    dsimp only
    split
    · apply Remembers.setScope
    · apply Remembers.setScope
  · apply Remembers.of_scopes rfl

theorem Remembers.spliceScope (c : MutationCache) (scope : String) (id : Nat) :
  c.Remembers (c.spliceScope scope id)
  := by
  intro scope' state hstate _
  rw [MutationCache.spliceScope, Table.lookup_adjust]
  split
  · rw [hstate]
    rfl
  · rw [hstate]
    rfl

theorem Remembers.markFinished (c : MutationCache) (scope : String) :
  c.Remembers (c.markFinished scope)
  := by
  unfold MutationCache.markFinished
  split
  · next state hstate =>
    split
    · next hempty =>
      -- the scope that is forgotten has no queue
      intro scope' state' hstate' hqueue
      rw [Table.lookup_erase_eq, if_neg, hstate']
      · rfl
      · rintro rfl
        obtain rfl := Option.some.inj (hstate.symm.trans hstate')
        apply hqueue (List.isEmpty_iff.mp hempty)
    · apply Remembers.setScope
  · apply Remembers.of_scopes rfl

theorem Remembers.popNext (c : MutationCache) (scope : String) :
  c.Remembers (c.popNext scope).1
  := by
  unfold MutationCache.popNext
  split
  · apply Remembers.setScope
  · apply Remembers.of_scopes rfl

theorem remembers_call (c : MutationCache) {a : CacheCall} (ha : a ≠ .clear) :
  c.Remembers (c.call a)
  := by
  cases a with
  | add entry => apply Remembers.enterScope c.assignId.1
  | update id change =>
    apply Remembers.of_scopes
    simp only [MutationCache.call, MutationCache.update]
    split
    · rfl
    · rfl
  | remove id =>
    simp only [MutationCache.call, MutationCache.remove]
    split
    · apply Remembers.spliceScope (c.removeEntry id).1
    · apply Remembers.of_scopes rfl
  | clear => contradiction
  | markRunning scope => apply Remembers.setScope
  | markFinished scope =>
    intro scope' state hstate hqueue
    rw [MutationCache.call, MutationCache.finish, scopes_sendRelease]
    apply Remembers.markFinished c scope scope' state hstate hqueue
  | runNext scope =>
    intro scope' state hstate hqueue
    have h := Remembers.popNext c scope scope' state hstate hqueue
    simp only [MutationCache.call, MutationCache.runNext]
    split
    · rw [scopes_sendRelease]
      apply h
    · apply h

/-! ### The queues in every state -/

/-- The queues are kept, no id was assigned twice, and the entries have ids that were
assigned. -/
structure CallsKept (t : MutationCache × List Nat) : Prop where
  queues : t.1.QueuesKept
  nodup : t.2.Nodup
  fresh : ∀ id ∈ t.2, id ≤ t.1.nextId
  assigned : ∀ owner ∈ t.1.owners, owner.1 ∈ t.2

theorem callsKept_new :
  CallsKept (new, [])
  := by
  constructor
  · apply queuesKept_new
  · apply List.nodup_nil
  · intro id hid
    contradiction
  · intro owner howner
    contradiction

theorem CallsKept.step {t t' : MutationCache × List Nat} {a : CacheCall} (h : CallsKept t)
    (hstep : calls.step t a = some t') :
  CallsKept t'
  := by
  obtain ⟨c, log⟩ := t
  cases hstep
  by_cases ha : ∃ entry, a = .add entry
  · obtain ⟨entry, rfl⟩ := ha
    constructor
    · apply h.queues.add entry
    · apply nodup_concat_succ h.nodup h.fresh
    · intro id hid
      rw [call, nextId_add]
      rcases List.mem_append.mp hid with hid | hid
      · apply Nat.le_succ_of_le (h.fresh id hid)
      · rw [List.mem_singleton.mp hid]
        rfl
    · intro owner howner
      rw [call, owners_add] at howner
      rcases List.mem_append.mp howner with howner | howner
      · apply List.mem_append_left _ (h.assigned owner howner)
      · rw [List.mem_singleton.mp howner]
        apply List.mem_append_right _ List.mem_cons_self
  · rw [not_exists] at ha
    have hshrinks := h.queues.shrinks_call ha
    have hlog : c.assigned a (c.call a) = [] := by
      unfold MutationCache.assigned
      split
      · next entry => exact absurd rfl (ha entry)
      · rfl
    simp only [hlog, List.append_nil]
    constructor
    · apply h.queues.shrinks hshrinks
    · apply h.nodup
    · intro id hid
      rw [hshrinks.nextId]
      apply h.fresh id hid
    · intro owner howner
      apply h.assigned owner (hshrinks.owners.subset howner)

/-- In every state, the queue of a scope is increasing and holds ids of entries of the
scope, and no id was assigned twice; and no call but `clear` forgets a scope with a
queue. -/
theorem scopeQueues (t : MutationCache × List Nat) (h : calls.Reachable t) :
  (∀ scope state, t.1.scopes.lookup scope = some state →
    state.queue.Pairwise (· < ·) ∧
      ∀ id ∈ state.queue, ∃ entry ∈ t.1.entries, entry.id = id ∧ entry.scope = some ⟨scope⟩) ∧
    (∀ a, a ≠ .clear → t.1.Remembers (t.1.call a)) ∧
    t.2.Nodup ∧ ∀ entry ∈ t.1.entries, entry.id ∈ t.2
  := by
  have hkept : CallsKept t := by
    apply h.invariant
    · rintro t ⟨hnew, hlog⟩
      obtain ⟨c, log⟩ := t
      obtain rfl := hnew
      obtain rfl := hlog
      apply callsKept_new
    · intro t a t' _ ht _ hstep
      apply ht.step hstep
  constructor
  · intro scope state hstate
    have hqueue : t.1.queue scope = state.queue := by rw [queue, scopeState, hstate]; rfl
    rw [← hqueue]
    use hkept.queues.sorted scope
    intro id hid
    apply mem_owners.mp (hkept.queues.owned scope id hid)
  constructor
  · intro a ha
    apply remembers_call t.1 ha
  use hkept.nodup
  intro entry hentry
  apply hkept.assigned (entry.id, entry.scope) (mem_owners.mpr ⟨entry, hentry, rfl, rfl⟩)

/-- An entry submitted in a scope. -/
def uploadsEntry : MutationCacheEntry where
  id := 0
  mutationKey := none
  scope := some ⟨"uploads"⟩
  status := .idle
  isPaused := false
  submittedAtMs := none
  hasResult := false
  error := none
  hasContext := false

/-- Two entries are queued behind a running one, and one of them is removed. -/
theorem scopeQueues_uploads :
  ∃ t, calls.exec (new, []) [.markRunning "uploads", .add uploadsEntry, .add uploadsEntry,
      .remove 1] = some t ∧
    t.1.queue "uploads" = [2] ∧ t.2 = [1, 2] ∧
    (∀ scope state, t.1.scopes.lookup scope = some state →
      state.queue.Pairwise (· < ·) ∧
        ∀ id ∈ state.queue, ∃ entry ∈ t.1.entries, entry.id = id ∧ entry.scope = some ⟨scope⟩) ∧
      (∀ a, a ≠ .clear → t.1.Remembers (t.1.call a)) ∧
      t.2.Nodup ∧ ∀ entry ∈ t.1.entries, entry.id ∈ t.2
  := by
  obtain ⟨t, ht⟩ : ∃ t, calls.exec (new, []) [.markRunning "uploads", .add uploadsEntry,
      .add uploadsEntry, .remove 1] = some t := ⟨_, rfl⟩
  have hinit : calls.Reachable (new, []) := .init ⟨rfl, rfl⟩
  use t, ht
  constructor
  · cases ht
    rfl
  constructor
  · cases ht
    rfl
  · apply scopeQueues t (hinit.exec ht)

end MutationCache

end RsQuery
