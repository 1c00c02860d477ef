import RsQuery.Turns

/-!
# Whose entry is whose

An execution adds one entry to the cache, under an id nobody else has, and what the
others do leaves that entry alone, unless they remove it or clear the cache.
-/

namespace RsQuery

namespace MutationCache

variable {c c' : MutationCache} {k : Nat}

/-! ### Reading an entry after an update of the entries -/

theorem get_pushEntry {entry : MutationCacheEntry} (h : entry.id ≠ k) :
  (c.pushEntry entry).get k = c.get k
  := by
  simp [get, pushEntry, List.find?_append, h]

theorem get_pushEntry_self {entry : MutationCacheEntry} (h : c.get entry.id = none) :
  (c.pushEntry entry).get entry.id = some entry
  := by
  simp only [get] at h
  simp [get, pushEntry, List.find?_append, h]

/-- An update is seen under its own id only. -/
theorem get_updateEntry
    {i : Nat} {apply : MutationCacheEntry → MutationCacheEntry} (h : ∀ e, (apply e).id = e.id) :
  (c.updateEntry i apply).1.get k = if i = k then (c.get k).map apply else c.get k
  := by
  simp only [updateEntry, get]
  induction c.entries with
  | nil => simp [applyTo]
  | cons entry entries ih =>
    simp only [applyTo, List.find?_cons]
    by_cases hentry : entry.id = i
    · by_cases hk : i = k
      · simp [h, hentry, hk]
      · simp [h, hentry, hk]
    · by_cases hk : entry.id = k
      · have hne : ¬ i = k := fun h => hentry (hk.trans h.symm)
        have hne' : ¬ k = i := Ne.symm hne
        simp [hk, hne, hne']
      · simp [hentry, hk, ih]

theorem get_removeEntry {id : Nat} (h : id ≠ k) :
  (c.removeEntry id).1.get k = c.get k
  := by
  simp only [removeEntry, get]
  induction c.entries with
  | nil => rfl
  | cons entry entries ih =>
    by_cases hentry : entry.id = id
    · have hne : ¬ entry.id = k := fun hk => h (hentry.symm.trans hk)
      simp [hentry, h]
    · by_cases hk : entry.id = k
      · have hne : ¬ k = id := Ne.symm h
        simp [hk, hne]
      · simp [hentry, hk, ih]

theorem removeEntry_of_get_eq_none (h : c.get k = none) :
  (c.removeEntry k).1.entries = c.entries
  := by
  simp only [get, List.find?_eq_none] at h
  apply List.eraseP_of_forall_not h

theorem id_of_mem_applyTo
    {id : Nat} {apply : MutationCacheEntry → MutationCacheEntry} (h : ∀ e, (apply e).id = e.id)
    {entry : MutationCacheEntry} {entries : List MutationCacheEntry}
    (hentry : entry ∈ applyTo id apply entries) :
  ∃ entry' ∈ entries, entry'.id = entry.id
  := by
  induction entries with
  | nil => contradiction
  | cons first entries ih =>
    simp only [applyTo] at hentry
    split at hentry
    · obtain rfl | hentry := List.mem_cons.mp hentry
      · exact ⟨first, List.mem_cons_self, (h first).symm⟩
      · exact ⟨entry, List.mem_cons_of_mem _ hentry, rfl⟩
    · obtain rfl | hentry := List.mem_cons.mp hentry
      · exact ⟨entry, List.mem_cons_self, rfl⟩
      · obtain ⟨entry', hentry', hid⟩ := ih hentry
        exact ⟨entry', List.mem_cons_of_mem _ hentry', hid⟩

/-- Only the entry with the id `k` may have changed, or been added. -/
def Touches (k : Nat) (c c' : MutationCache) : Prop :=
  c'.nextId = c.nextId ∧ (∀ k', k' ≠ k → c'.get k' = c.get k') ∧
    ∀ entry ∈ c'.entries, entry.id = k ∨ ∃ entry' ∈ c.entries, entry'.id = entry.id

theorem Touches.of_entries (hn : c'.nextId = c.nextId) (h : c'.entries = c.entries) :
  Touches k c c'
  := by
  refine ⟨hn, ?_, ?_⟩
  · intro k' _
    rw [get, get, h]
  · intro entry hentry
    exact .inr ⟨entry, h ▸ hentry, rfl⟩

theorem Touches.pushEntry (c : MutationCache) (entry : MutationCacheEntry) :
  Touches entry.id c (c.pushEntry entry)
  := by
  refine ⟨rfl, ?_, ?_⟩
  · exact fun k' hk => get_pushEntry (Ne.symm hk)
  · intro entry' hentry
    obtain hentry | hentry := List.mem_append.mp hentry
    · exact .inr ⟨entry', hentry, rfl⟩
    · rw [List.mem_singleton.mp hentry]
      exact .inl rfl

theorem Touches.updateEntry
    {apply : MutationCacheEntry → MutationCacheEntry} (c : MutationCache) (id : Nat)
    (h : ∀ e, (apply e).id = e.id) :
  Touches id c (c.updateEntry id apply).1
  := by
  refine ⟨rfl, ?_, ?_⟩
  · intro k' hk
    rw [get_updateEntry h, if_neg (Ne.symm hk)]
  · intro entry hentry
    exact .inr (id_of_mem_applyTo h hentry)

end MutationCache

namespace Mutations

open MutationCache

variable {s s' : Mutations} {a : Action} {i j k nowMs : Nat} {e e' : Exec}
  {c c' : MutationCache} {o : Outcome} {scope : String}

theorem touches_update
    {update : MutationCacheEntry → MutationCacheEntry} {found missing : BodyPc} {pc' : Pc}
    (h : e.update c update found missing = (c', pc'))
    (hid : ∀ entry, (update entry).id = entry.id) :
  Touches e.entryId c c'
  := by
  rw [(update_cases h).1]
  apply Touches.updateEntry c e.entryId hid

theorem touches_advanceBody
    {pc : BodyPc} {pc' : Pc} (h : e.advanceBody c pc o = some (c', pc')) :
  Touches e.entryId c c'
  := by
  have hsettled (result : Result) (entry : MutationCacheEntry) :
      (Exec.settled result entry).id = entry.id := by
    cases result with
    | ok => rfl
    | error => rfl
  cases takes_of_advanceBody h with
  | unpause h | keepContext h => apply touches_update h fun _ => rfl
  | settle h => apply touches_update h (hsettled _)
  | _ => apply Touches.of_entries rfl rfl

/-- Nothing is done to the entries. -/
def SameEntries (c c' : MutationCache) : Prop :=
  c'.nextId = c.nextId ∧ c'.entries = c.entries

theorem SameEntries.get (h : SameEntries c c') (k : Nat) :
  c'.get k = c.get k
  := by
  rw [MutationCache.get, MutationCache.get, h.2]

theorem sameEntries_joinScope (c : MutationCache) (scope : String) (entry : MutationCacheEntry) :
  SameEntries c (c.joinScope scope entry).1
  := by
  unfold joinScope
  dsimp only
  split
  · exact ⟨rfl, rfl⟩
  · exact ⟨rfl, rfl⟩

theorem sameEntries_markFinished (c : MutationCache) (scope : String) :
  SameEntries c (c.markFinished scope)
  := by
  unfold markFinished
  split
  · split
    · exact ⟨rfl, rfl⟩
    · exact ⟨rfl, rfl⟩
  · exact ⟨rfl, rfl⟩

theorem sameEntries_notify
    {pc : NotifyPc} {pc' : Option NotifyPc} (h : pc.advance scope c = some (c', pc')) :
  SameEntries c c'
  := by
  cases pc with
  | lookup =>
    cases h
    exact ⟨rfl, rfl⟩
  | send =>
    cases h
    split
    · exact ⟨rfl, rfl⟩
    · exact ⟨rfl, rfl⟩
  | wake wakers =>
    cases wakers with
    | nil =>
      cases h
      exact ⟨rfl, rfl⟩
    | cons => contradiction

theorem sameEntries_runNext
    {pc : RunNextPc} {pc' : Option RunNextPc} (h : pc.advance scope c = some (c', pc')) :
  SameEntries c c'
  := by
  cases pc with
  | pop =>
    cases h
    split
    · exact ⟨rfl, rfl⟩
    · exact ⟨rfl, rfl⟩
  | resumed =>
    cases h
    exact ⟨rfl, rfl⟩
  | notify pc =>
    obtain ⟨⟨c'', pc''⟩, hn, heq⟩ := Option.map_eq_some_iff.mp h
    cases heq
    apply sameEntries_notify hn

theorem sameEntries_gate
    {pc : GatePc} {pc' : Pc} (h : Exec.advanceGate i scope c pc = some (c', pc')) :
  SameEntries c c'
  := by
  cases pc with
  | check w =>
    cases h
    exact ⟨rfl, rfl⟩
  | mark =>
    cases h
    exact ⟨rfl, rfl⟩
  | poll w =>
    have hpoll : ∀ p ∈ c.pollRelease scope w i, SameEntries c p.1 := by
      intro p hp
      obtain ⟨cell, -, rfl⟩ := Option.map_eq_some_iff.mp hp
      exact ⟨rfl, rfl⟩
    simp only [Exec.advanceGate] at h
    split at h
    · next hp =>
      cases h
      apply hpoll _ hp
    · next hp =>
      cases h
      apply hpoll _ hp
    · contradiction
  | parked w => contradiction

/-- From the id `k` in hand to `k'`, which is the same, or new, or none. -/
structure Hands (k k' : Nat) (c c' : MutationCache) : Prop where
  next : c.nextId ≤ c'.nextId
  id : k' = 0 ∨ k' = k ∨ k' = c.nextId + 1 ∧ c'.nextId = c.nextId + 1
  ids : ∀ entry ∈ c'.entries, entry.id = k ∨ ∃ entry' ∈ c.entries, entry'.id = entry.id

theorem hands_assignId (k : Nat) (c : MutationCache) :
  Hands k (c.nextId + 1) c c.assignId.1
  := ⟨Nat.le_succ _, .inr (.inr ⟨rfl, rfl⟩), fun entry h => .inr ⟨entry, h, rfl⟩⟩

theorem Hands.of_touches (h : Touches k c c') :
  Hands k k c c'
  := ⟨h.1.ge, .inr (.inl rfl), h.2.2⟩

/-- An advance of an execution touches no entry but its own. -/
theorem entries_advance (hown : e.AddsOwn) (h : e.advance i nowMs c o = some (c', e')) :
  Hands e.entryId e'.entryId c c' ∧ ∀ k, k ≠ e.entryId → c'.get k = c.get k
  := by
  have touches {c'' : MutationCache} {e'' : Exec} (h : Touches e.entryId c c'')
      (hid : e''.entryId = e.entryId) :
      Hands e.entryId e''.entryId c c'' ∧ ∀ k, k ≠ e.entryId → c''.get k = c.get k :=
    ⟨by rw [hid]; exact .of_touches h, h.2.1⟩
  have same {c'' : MutationCache} {e'' : Exec} (h : SameEntries c c'')
      (hid : e''.entryId = e.entryId) :
      Hands e.entryId e''.entryId c c'' ∧ ∀ k, k ≠ e.entryId → c''.get k = c.get k :=
    touches (Touches.of_entries h.1 h.2) hid
  unfold Exec.AddsOwn at hown
  cases takes_of_advance h with
  | poll | toScope | toBody | subscribe => exact same ⟨rfl, rfl⟩ rfl
  | add hpc hadd =>
    rw [hpc] at hown
    cases takes_of_add hadd with
    | assign => exact ⟨hands_assignId _ c, fun _ _ => rfl⟩
    | join => apply same (sameEntries_joinScope ..) ((joinScope_snd ..).1.trans hown.1)
    | noScope => apply same ⟨rfl, rfl⟩ hown.1
    | @push entry => apply touches (hown.1 ▸ Touches.pushEntry c entry) hown.1
    | hook => apply same ⟨rfl, rfl⟩ hown
  | added _ hadd =>
    cases takes_of_add hadd
    exact same ⟨rfl, rfl⟩ rfl
  | body _ hb => apply touches (touches_advanceBody hb) rfl
  | gate _ _ hg => apply same (sameEntries_gate hg) rfl
  | markFinished => apply same (sameEntries_markFinished ..) rfl
  | notify _ _ hn => apply same (sameEntries_notify hn) rfl
  | runNext _ _ hn => apply same (sameEntries_runNext hn) rfl

/-- The id of the entry a call adds. -/
def CallPc.addedId : CallPc → Nat
  | .add pc => pc.entryId
  | _ => 0

/-- The call removes the entry with the id when it advances. -/
def CallPc.Removes (k : Nat) : CallPc → Prop
  | .remove id => id = k
  | .clear => True
  | _ => False

instance (k : Nat) (pc : CallPc) : Decidable (pc.Removes k) := by
  unfold CallPc.Removes
  split
  all_goals infer_instance

/-- An advance of a call touches no entry but the one it adds and those it removes. -/
theorem entries_advanceCall
    {pc : CallPc} {pc' : Option CallPc} (h : pc.advance c = some (c', pc')) :
  Hands pc.addedId (pc'.elim 0 CallPc.addedId) c c' ∧
    ∀ k, k ≠ pc.addedId → ¬ ((c.get k).isSome ∧ pc.Removes k) → c'.get k = c.get k
  := by
  have same {c'' : MutationCache} {pc'' : Option CallPc} (h : SameEntries c c'')
      (hid : pc''.elim 0 CallPc.addedId = 0 ∨ pc''.elim 0 CallPc.addedId = pc.addedId) :
      Hands pc.addedId (pc''.elim 0 CallPc.addedId) c c'' ∧
        ∀ k, k ≠ pc.addedId → ¬ ((c.get k).isSome ∧ pc.Removes k) → c''.get k = c.get k := by
    refine ⟨⟨h.1.ge, hid.imp_right .inl, ?_⟩, ?_⟩
    · exact fun entry hentry => .inr ⟨entry, h.2 ▸ hentry, rfl⟩
    · exact fun k _ _ => h.get k
  cases pc with
  | add pc =>
    cases pc with
    | assign entry =>
      cases h
      exact ⟨hands_assignId _ c, fun _ _ _ => rfl⟩
    | join entry =>
      cases hentry : entry.scope with
      | none =>
        simp only [CallPc.advance, AddPc.advance, hentry] at h
        cases h
        exact same ⟨rfl, rfl⟩ (.inr rfl)
      | some scope =>
        simp only [CallPc.advance, AddPc.advance, hentry] at h
        cases h
        exact same (sameEntries_joinScope ..) (.inr (joinScope_snd c scope.id entry).1)
    | push entry =>
      cases h
      have ht := Touches.pushEntry c entry
      exact ⟨.of_touches ht, fun k hk _ => ht.2.1 k hk⟩
    | hook id =>
      cases h
      exact same ⟨rfl, rfl⟩ (.inr rfl)
    | announce id =>
      cases h
      exact same ⟨rfl, rfl⟩ (.inl rfl)
  | remove id =>
    have hc : c' = (c.removeEntry id).1 ∧ pc'.elim 0 CallPc.addedId = 0 := by
      simp only [CallPc.advance] at h
      split at h
      · next heq =>
        cases h
        rw [heq]
        exact ⟨rfl, rfl⟩
      · next heq =>
        cases h
        rw [heq]
        exact ⟨rfl, rfl⟩
    obtain ⟨rfl, hid⟩ := hc
    rw [hid]
    refine ⟨⟨Nat.le_refl _, .inl rfl, ?_⟩, ?_⟩
    · intro entry hentry
      exact .inr ⟨entry, List.mem_of_mem_eraseP hentry, rfl⟩
    · intro k _ hremoves
      obtain rfl | hne := eq_or_ne id k
      · have hnone : c.get id = none := by simpa [CallPc.Removes] using hremoves
        rw [MutationCache.get, removeEntry_of_get_eq_none hnone, ← MutationCache.get]
      · exact get_removeEntry hne
  | clear =>
    cases h
    refine ⟨⟨Nat.le_refl _, .inl rfl, List.forall_mem_nil _⟩, ?_⟩
    intro k _ hremoves
    have hnone : c.get k = none := by simpa [CallPc.Removes] using hremoves
    rw [hnone]
    rfl
  | runNext scope pc =>
    obtain ⟨⟨c'', pc''⟩, hn, heq⟩ := Option.map_eq_some_iff.mp h
    cases heq
    apply same (sameEntries_runNext hn)
    cases pc'' with
    | none => exact .inl rfl
    | some => exact .inl rfl
  | cleared ids =>
    cases ids with
    | nil =>
      cases h
      exact same ⟨rfl, rfl⟩ (.inl rfl)
    | cons =>
      cases h
      exact same ⟨rfl, rfl⟩ (.inl rfl)
  | _ =>
    cases h
    exact same ⟨rfl, rfl⟩ (.inl rfl)

/-! ### The ids in hand -/

/-- The id an execution or a call has in hand, `0` for none. -/
def held (s : Mutations) : Nat ⊕ Nat → Nat
  | .inl i => (s.execs.lookup i).elim 0 Exec.entryId
  | .inr j => (s.calls.lookup j).elim 0 CallPc.addedId

/-- Ids are given out once, and an execution that adds an entry adds its own. -/
structure Ids (s : Mutations) : Prop where
  addsOwn : ∀ i e, s.execs.lookup i = some e → e.AddsOwn
  held : ∀ x, s.held x ≤ s.cache.nextId
  entries : ∀ entry ∈ s.cache.entries, entry.id ≤ s.cache.nextId
  apart : ∀ x y, x ≠ y → s.held x = s.held y → s.held x = 0

theorem Ids.of_hands
    {x : Nat ⊕ Nat} (h : s.Ids) (hown : ∀ i e, s'.execs.lookup i = some e → e.AddsOwn)
    (hheld : s'.held = Function.update s.held x k) (hc : Hands (s.held x) k s.cache s'.cache) :
  s'.Ids
  := by
  have hnew (y : Nat ⊕ Nat) (hy : y ≠ x) (heq : k = s.held y) : k = 0 := by
    obtain hk | hk | ⟨hk, -⟩ := hc.id
    · apply hk
    · apply hk.trans (h.apart x y hy.symm (hk.symm.trans heq))
    · have := h.held y
      omega
  constructor
  · apply hown
  · intro y
    rw [hheld, Function.update_apply]
    have hnext := hc.next
    split
    · have := h.held x
      obtain hk | hk | ⟨hk, hn⟩ := hc.id
      · omega
      · omega
      · omega
    · apply (h.held y).trans hnext
  · intro entry hentry
    obtain hid | ⟨entry', hentry', hid⟩ := hc.ids entry hentry
    · rw [hid]
      apply (h.held x).trans hc.next
    · rw [← hid]
      apply (h.entries entry' hentry').trans hc.next
  · intro y z hyz
    rw [hheld, Function.update_apply, Function.update_apply]
    split
    · next hy =>
      rw [if_neg (hy ▸ hyz.symm)]
      intro heq
      apply hnew z (hy ▸ hyz.symm) heq
    · next hy =>
      split
      · intro heq
        rw [heq]
        apply hnew y hy heq.symm
      · apply h.apart y z hyz

theorem held_insert_exec
    {cache : MutationCache} {woken : Finset Nat} (s : Mutations) (i : Nat) (e : Exec) :
  held { s.setExec i e with cache := cache, woken := woken }
    = Function.update s.held (.inl i) e.entryId
  := by
  funext x
  cases x with
  | inl j =>
    simp only [held, setExec, Table.lookup_insert_eq, Function.update_apply, Sum.inl.injEq]
    split
    · rfl
    · rfl
  | inr j => rfl

theorem held_calls
    {cache : MutationCache} {woken : Finset Nat} (s : Mutations) (j : Nat)
    (pc : Option CallPc) :
  held { s with
      cache := cache
      woken := woken
      calls := pc.elim (s.calls.erase j) (s.calls.insert j) }
    = Function.update s.held (.inr j) (pc.elim 0 CallPc.addedId)
  := by
  funext x
  cases x with
  | inl i => rfl
  | inr j' =>
    simp only [held, Function.update_apply, Sum.inr.injEq]
    cases pc with
    | none =>
      simp only [Option.elim_none, Table.lookup_erase_eq]
      split
      · rfl
      · rfl
    | some pc =>
      simp only [Option.elim_some, Table.lookup_insert_eq]
      split
      · rfl
      · rfl

theorem hands_none (k : Nat) (c : MutationCache) :
  Hands k 0 c c
  := ⟨Nat.le_refl _, .inl rfl, fun entry h => .inr ⟨entry, h, rfl⟩⟩

theorem hands_same (k : Nat) (c : MutationCache) :
  Hands k k c c
  := ⟨Nat.le_refl _, .inr (.inl rfl), fun entry h => .inr ⟨entry, h, rfl⟩⟩

theorem Ids.of_exec
    {cache : MutationCache} {woken : Finset Nat} (h : s.Ids) (hown : e.AddsOwn)
    (hc : Hands (s.held (.inl i)) e.entryId s.cache cache) :
  Ids { s.setExec i e with cache := cache, woken := woken }
  := by
  refine h.of_hands ?_ (held_insert_exec s i e) hc
  intro j e' he'
  obtain ⟨-, rfl⟩ | ⟨-, he'⟩ := Table.lookup_insert_cases he'
  · apply hown
  · apply h.addsOwn j e' he'

theorem held_exec (he : s.execs.lookup i = some e) :
  s.held (.inl i) = e.entryId
  := congrArg (Option.elim · 0 Exec.entryId) he

theorem held_call {pc : CallPc} (hj : s.calls.lookup j = some pc) :
  s.held (.inr j) = pc.addedId
  := congrArg (Option.elim · 0 CallPc.addedId) hj

theorem Ids.start
    {pc : CallPc} (h : s.Ids) (hs : s.start j pc = some s') (hpc : pc.addedId = 0) :
  s'.Ids
  := by
  obtain ⟨-, rfl⟩ := start_eq_some hs
  refine h.of_hands h.addsOwn (held_calls s j (some pc)) ?_
  simp only [Option.elim_some, hpc]
  apply hands_none _ _

theorem Ids.of_cache
    (h : s.Ids) (hnext : c.nextId = s.cache.nextId)
    (hids : ∀ entry ∈ c.entries, ∃ entry' ∈ s.cache.entries, entry'.id = entry.id) :
  Ids { s with cache := c }
  := by
  refine ⟨h.addsOwn, fun x => ?_, fun entry hentry => ?_, h.apart⟩
  · rw [hnext]
    apply h.held x
  · obtain ⟨entry', hentry', hid⟩ := hids entry hentry
    rw [hnext, ← hid]
    apply h.entries entry' hentry'

/-- Every step gives out ids once. -/
theorem Ids.step (h : s.Ids) (hs : s.step a = some s') :
  s'.Ids
  := by
  cases a with
  | submit i m =>
    obtain ⟨-, rfl⟩ := step_submit hs
    apply h.of_exec (e := ⟨m, 0, .queued⟩) trivial (hands_none _ _)
  | advance i o =>
    obtain ⟨e, c, e', he, ha, rfl⟩ := step_advance hs
    have hown := h.addsOwn i e he
    apply h.of_exec (hown.advance ha)
    rw [held_exec he]
    apply (entries_advance hown ha).1
  | resume i =>
    obtain ⟨e, w, he, -, rfl⟩ := step_resume hs
    apply h.of_exec (e := { e with pc := .gate (.poll w) }) trivial
    rw [held_exec he]
    apply hands_same _ _
  | abandon i =>
    obtain ⟨e, he, -, rfl⟩ := step_abandon hs
    apply h.of_exec (e := { e with pc := .dropped }) trivial
    rw [held_exec he]
    apply hands_same _ _
  | wake i w =>
    obtain ⟨e, he, -, rfl⟩ := step_wake hs
    apply h.of_exec ((h.addsOwn i e he).waken w)
    rw [held_exec he]
    apply hands_same _ _
  | add j entry => apply h.start hs rfl
  | remove j id => apply h.start hs rfl
  | clear j => apply h.start hs rfl
  | runNext j scope => apply h.start hs rfl
  | advanceCall j =>
    obtain ⟨pc, c, pc', hj, ha, rfl⟩ := step_advanceCall hs
    refine h.of_hands h.addsOwn (held_calls s j pc') ?_
    rw [held_call hj]
    apply (entries_advanceCall ha).1
  | wakeCall j w =>
    obtain ⟨pc, hj, -, rfl⟩ := step_wakeCall hs
    refine h.of_hands h.addsOwn (held_calls s j (some (pc.waken w))) ?_
    rw [held_call hj]
    have hid : (pc.waken w).addedId = pc.addedId := by
      cases pc with
      | _ => rfl
    simp only [Option.elim_some, hid]
    apply hands_same _ _
  | tick n =>
    obtain rfl := Option.some.inj hs
    exact ⟨h.addsOwn, h.held, h.entries, h.apart⟩

theorem ids_initial :
  initial.Ids
  := by
  have hheld (x : Nat ⊕ Nat) : initial.held x = 0 := by
    cases x with
    | inl i => rfl
    | inr j => rfl
  constructor
  · intro i e he
    simp [initial] at he
  · intro x
    rw [hheld]
    apply Nat.zero_le _
  · intro entry hentry
    exact absurd hentry List.not_mem_nil
  · exact fun x _ _ _ => hheld x

/-! ### What one execution does, and what the others do -/

/-- The step is one of execution `i`. -/
def Action.By (i : Nat) : Action → Prop
  | .submit j _ | .advance j _ | .resume j | .abandon j | .wake j _ => j = i
  | _ => False

/-- The step removes the entry of execution `i`. -/
def RemovesEntry (s : Mutations) (i : Nat) (a : Action) : Prop :=
  match a, s.execs.lookup i with
  | .advanceCall j, some e =>
    (s.cache.get e.entryId).isSome ∧ ∃ pc ∈ s.calls.lookup j, pc.Removes e.entryId
  | _, _ => False

instance (i : Nat) (a : Action) : Decidable (a.By i) := by
  unfold Action.By
  rcases a with _ | _ <;> infer_instance

instance (s : Mutations) (i : Nat) (a : Action) : Decidable (s.RemovesEntry i a) := by
  unfold RemovesEntry
  rcases a with _ | _ <;> rcases s.execs.lookup i with _ | _ <;> infer_instance

/-- What a step of execution `i` makes of it. -/
inductive OwnStep (s s' : Mutations) (i : Nat) : Action → Exec → Prop where
  | submit {m : Mutation} : s.execs.lookup i = none → s'.cache = s.cache →
      OwnStep s s' i (.submit i m) ⟨m, 0, .queued⟩
  | advance {o : Outcome} {e e' : Exec} : s.execs.lookup i = some e →
      e.advance i s.nowMs s.cache o = some (s'.cache, e') → OwnStep s s' i (.advance i o) e'
  | resume {e : Exec} {w : Watch.Watcher} : s.execs.lookup i = some e →
      e.pc = .gate (.parked w) → s'.cache = s.cache →
      OwnStep s s' i (.resume i) { e with pc := .gate (.poll w) }
  | abandon {e : Exec} : s.execs.lookup i = some e → e.pc.interruptible = true →
      s'.cache = s.cache → OwnStep s s' i (.abandon i) { e with pc := .dropped }
  | wake {e : Exec} {w : Waker} : s.execs.lookup i = some e → w ∈ e.pc.hand →
      s'.cache = s.cache → OwnStep s s' i (.wake i w) { e with pc := e.pc.waken w }

theorem ownStep_of_step (hs : s.step a = some s') (ha : a.By i) :
  ∃ e, s'.execs.lookup i = some e ∧ OwnStep s s' i a e
  := by
  cases a with
  | submit j m =>
    obtain rfl : j = i := ha
    obtain ⟨hj, rfl⟩ := step_submit hs
    exact ⟨_, AList.lookup_insert _, .submit hj rfl⟩
  | advance j o =>
    obtain rfl : j = i := ha
    obtain ⟨e, c, e', he, hadvance, rfl⟩ := step_advance hs
    exact ⟨_, AList.lookup_insert _, .advance he hadvance⟩
  | resume j =>
    obtain rfl : j = i := ha
    obtain ⟨e, w, he, hpc, rfl⟩ := step_resume hs
    exact ⟨_, AList.lookup_insert _, .resume he hpc rfl⟩
  | abandon j =>
    obtain rfl : j = i := ha
    obtain ⟨e, he, hinterruptible, rfl⟩ := step_abandon hs
    exact ⟨_, AList.lookup_insert _, .abandon he hinterruptible rfl⟩
  | wake j w =>
    obtain rfl : j = i := ha
    obtain ⟨e, he, hw, rfl⟩ := step_wake hs
    exact ⟨_, AList.lookup_insert _, .wake he hw rfl⟩
  | _ => contradiction

/-- An execution is left alone by what the others do. -/
theorem lookup_others (hs : s.step a = some s') (ha : ¬ a.By i) :
  s'.execs.lookup i = s.execs.lookup i
  := by
  have other {j : Nat} (hj : j ≠ i) (e : Exec) :
      (s.execs.insert j e).lookup i = s.execs.lookup i :=
    AList.lookup_insert_ne hj.symm
  cases a with
  | submit j m =>
    obtain ⟨-, rfl⟩ := step_submit hs
    apply other ha _
  | advance j o =>
    obtain ⟨e, c, e', -, -, rfl⟩ := step_advance hs
    apply other ha _
  | resume j =>
    obtain ⟨e, w, -, -, rfl⟩ := step_resume hs
    apply other ha _
  | abandon j =>
    obtain ⟨e, -, -, rfl⟩ := step_abandon hs
    apply other ha _
  | wake j w =>
    obtain ⟨e, -, -, rfl⟩ := step_wake hs
    apply other ha _
  | advanceCall j =>
    obtain ⟨pc, c, pc', -, -, rfl⟩ := step_advanceCall hs
    rfl
  | wakeCall j w =>
    obtain ⟨pc, -, -, rfl⟩ := step_wakeCall hs
    rfl
  | tick n =>
    obtain rfl := Option.some.inj hs
    rfl
  | _ =>
    obtain ⟨-, rfl⟩ := start_eq_some hs
    rfl

/-- The entry of an execution is left alone by what the others do, as long as they do
not remove it. -/
theorem Ids.get_others
    (h : s.Ids) (hs : s.step a = some s') (he : s.execs.lookup i = some e)
    (ha : ¬ a.By i) (hremoves : ¬ s.RemovesEntry i a) (hk : e.entryId ≠ 0) :
  s'.cache.get e.entryId = s.cache.get e.entryId
  := by
  have apart {x : Nat ⊕ Nat} (hx : x ≠ .inl i) : e.entryId ≠ s.held x := by
    rw [← held_exec he] at hk ⊢
    exact fun heq => hk (h.apart _ x hx.symm heq)
  cases a with
  | submit j m =>
    obtain ⟨-, rfl⟩ := step_submit hs
    rfl
  | advance j o =>
    obtain ⟨e', c, e'', he', hadvance, rfl⟩ := step_advance hs
    apply (entries_advance (h.addsOwn j e' he') hadvance).2
    rw [← held_exec he']
    apply apart fun hx => ha (Sum.inl.inj hx)
  | resume j =>
    obtain ⟨e', w, -, -, rfl⟩ := step_resume hs
    rfl
  | abandon j =>
    obtain ⟨e', -, -, rfl⟩ := step_abandon hs
    rfl
  | wake j w =>
    obtain ⟨e', -, -, rfl⟩ := step_wake hs
    rfl
  | advanceCall j =>
    obtain ⟨pc, c, pc', hj, hadvance, rfl⟩ := step_advanceCall hs
    apply (entries_advanceCall hadvance).2
    · rw [← held_call hj]
      apply apart Sum.inr_ne_inl
    · rintro ⟨hsome, hpc⟩
      apply hremoves
      simp only [RemovesEntry, he]
      exact ⟨hsome, pc, hj, hpc⟩
  | wakeCall j w =>
    obtain ⟨pc, -, -, rfl⟩ := step_wakeCall hs
    rfl
  | tick n =>
    obtain rfl := Option.some.inj hs
    rfl
  | _ =>
    obtain ⟨-, rfl⟩ := start_eq_some hs
    rfl

end Mutations

end RsQuery
