import RsQuery.Stranded

/-!
# Reading back stored data

An execution stores what it fetched, tells its subscribers, and reads the data back from the
cache; it panics when none is there.  Calls and other executions come in between.  In a run
the data is read back exactly when the last thing that happened to the entry before was that
data of the type of the query was stored: `Sys.readsBack_iff`.
-/

namespace RsQuery

variable {V : Type} [PartialEqAny V]

open QueryClient

/-- What changes the data under a cache key. -/
inductive Touch where
  | stored (typeId : TypeId)
  | removed
deriving DecidableEq, Repr

/-- Whether data of the type is there after a touch. -/
def Touch.leaves (T : TypeId) : Touch → Bool
  | .stored typeId => decide (typeId = T)
  | .removed => false

/-- The touches, the latest of which counts, leave data of the type. -/
def Leaves (log : List Touch) (T : TypeId) : Prop :=
  log.getLast? = some (.stored T)

theorem leaves_concat {log : List Touch} {t : Touch} {T : TypeId} :
  Leaves (log ++ [t]) T ↔ t.leaves T = true
  := by
  rw [Leaves, List.getLast?_concat, Option.some.injEq]
  cases t with
  | stored typeId => simp [Touch.leaves]
  | removed => simp [Touch.leaves]

/-- What a call does to the data under a cache key: a gc pass removes the entry if it was not
accessed for its gc time, resets and removals the entries they match. -/
def Call.touch (call : Call V) (now : Instant) (c : QueryClient V) (k : String) : Option Touch :=
  match call with
  | .setQueryData key data _ => if k = key.cacheKey then some (.stored (typeOf data)) else none
  | .clear => some .removed
  | .gc =>
    if (c.cache.lookup k).any fun e => e.options.gcTime ≤ Instant.elapsed now e.lastAccessed then
      some .removed
    else none
  | .resetQueries filters | .removeQueries filters =>
    (c.matching now filters k).map fun _ => .removed
  | _ => none

/-- What the next step of an execution does to the data under a cache key. -/
def Run.touch (r : Run V) (k : String) : Option Touch :=
  match r.pc with
  | .fetch (.selected data) =>
    if k = r.query.key.cacheKey then some (.stored (typeOf data)) else none
  | _ => none

/-- Data of the type is under a cache key after a call that left it, or touched nothing. -/
theorem Call.leavesData_eq
    (call : Call V) (now : Instant) (c : QueryClient V) (k : String) (T : TypeId) :
  call.leavesData now c k T
    = (call.touch now c k).elim ((c.slot k).hasData T) (Touch.leaves T)
  := by
  cases call with
  | setQueryData key data options =>
    simp only [leavesData, touch]
    split
    · rfl
    · rfl
  | gc =>
    have hentry : (c.slot k).entry = c.cache.lookup k := rfl
    simp only [leavesData, touch, Slot.hasData, Slot.collect, hentry]
    cases c.cache.lookup k with
    | none => rfl
    | some e =>
      by_cases hage : e.options.gcTime ≤ Instant.elapsed now e.lastAccessed
      · simp [hage, Touch.leaves, Nat.not_lt.mpr hage]
      · simp [hage, Nat.not_le.mp hage]
  | resetQueries filters | removeQueries filters =>
    simp only [leavesData, touch]
    cases c.matching now filters k with
    | none => rfl
    | some m => rfl
  | _ => rfl

theorem Run.leavesData_eq (r : Run V) (c : QueryClient V) (k : String) (T : TypeId) :
  r.leavesData c k T = (r.touch k).elim ((c.slot k).hasData T) (Touch.leaves T)
  := by
  cases hpc : r.pc with
  | fetch pc =>
    cases pc with
    | selected data =>
      simp only [leavesData, touch, hpc]
      split
      · rfl
      · rfl
    | _ => simp only [leavesData, touch, hpc, Option.elim_none]
  | _ => simp only [leavesData, touch, hpc, Option.elim_none]

/-- The execution reads its data back next. -/
def Pc.isReadBack : Pc V → Bool
  | .fetch .readBack => true
  | _ => false

omit [PartialEqAny V] in
theorem Pc.isReadBack_iff {pc : Pc V} :
  pc.isReadBack = true ↔ pc = .fetch .readBack
  := by
  unfold Pc.isReadBack
  split
  · simp
  · next h => simpa using h

namespace Sys

variable {s s' : Sys V} {a : Action V} {k : String} {i : Nat} {r : Run V}

/-- What a step does to the data under a cache key. -/
def touch (s : Sys V) (a : Action V) (k : String) : Option Touch :=
  match a with
  | .advance i _ => (s.runs.lookup i).bind fun r => r.touch k
  | .call call => call.touch s.now s.client k
  | _ => none

/-- The system with a log of what happens to the data under a cache key. -/
def touching (k : String) : Machine (Sys V × List Touch) (Action V) :=
  machine.noting fun s a _ => (s.touch a k).toList

/-- The step is the read-back of an execution for the cache key. -/
def ReadsBack (s : Sys V) (a : Action V) (k : String) (i : Nat) (r : Run V) : Prop :=
  a = .advance i .next ∧ s.runs.lookup i = some r ∧ r.query.key.cacheKey = k ∧
    r.pc = .fetch .readBack

/-- What is read back is there, and the execution succeeds with it. -/
def ReadsData (k : String) (s : Sys V × List Touch) (a : Action V) : Prop :=
  ∀ i r, ReadsBack s.1 a k i r → ∃ data,
    r.advance i s.1.now s.1.client .next = some (s.1.client, .finish (.success data))

/-- When data is read back, the latest touch stored data of the type of the query. -/
def StoredLast (k : String) (s : Sys V × List Touch) (a : Action V) : Prop :=
  ∀ i r, ReadsBack s.1 a k i r → Leaves s.2 r.query.typeId

theorem leavesData_eq (s : Sys V) (a : Action V) (k : String) (T : TypeId) :
  s.leavesData a k T = (s.touch a k).elim ((s.client.slot k).hasData T) (Touch.leaves T)
  := by
  cases a with
  | advance i o =>
    simp only [leavesData, touch]
    cases s.runs.lookup i with
    | none => rfl
    | some r => apply r.leavesData_eq
  | call call => apply call.leavesData_eq
  | _ => rfl

/-- What the log says is there is there. -/
theorem hasData_of_reachable
    {s : Sys V × List Touch} (h : (touching k).Reachable s) (T : TypeId) :
  (s.1.client.slot k).hasData T = true ↔ Leaves s.2 T
  := by
  apply h.invariant (I := fun s => (s.1.client.slot k).hasData T = true ↔ Leaves s.2 T)
  · rintro ⟨s, log⟩ ⟨rfl, rfl⟩
    simp [Leaves, initial, QueryClient.new, slot, Slot.hasData]
  · rintro s a s' - ih - hs
    obtain ⟨hs, hlog⟩ := Machine.step_noting hs
    rw [hasData_step hs, leavesData_eq, hlog]
    cases s.1.touch a k with
    | none =>
      rw [Option.toList_none, List.append_nil]
      apply ih
    | some t => apply leaves_concat.symm

/-- An execution that reads back finds data of its type, or panics. -/
theorem readsData_iff_hasData (hpc : r.pc = .fetch .readBack) (c : QueryClient V) (now : Instant) :
  (∃ data, r.advance i now c .next = some (c, .finish (.success data))) ↔
    (c.slot r.query.key.cacheKey).hasData r.query.typeId = true
  := by
  rw [← cached_isSome]
  simp only [Run.advance, hpc, Run.advanceFetch]
  cases r.cached c with
  | none =>
    have hpanicked (result : QueryState V) (h : r.panicked (.string "data should be set") = .finish result) :
        False := by
      unfold Run.panicked at h
      split at h
      · contradiction
      · contradiction
    simpa using fun data => hpanicked (.success data)
  | some data => simp

/-- In a run every execution reads back what it stored, or other data of its type, exactly when
the last thing that happened to the entry was that data of its type was stored. -/
theorem readsBack_iff (k : String) (as : List (Action V)) :
  (touching k).Meets (ReadsData k) (initial, []) as ↔
    (touching k).Meets (StoredLast k) (initial, []) as
  := by
  have init : (touching k).init ((initial, []) : Sys V × List Touch) := ⟨rfl, rfl⟩
  apply Machine.Reachable.meets_congr (.init init)
  intro s a hs
  apply forall₂_congr
  intro i r
  apply imp_congr_right
  rintro ⟨-, -, rfl, hpc⟩
  rw [readsData_iff_hasData hpc, hasData_of_reachable hs]

/-- The cache is cleared between the store and the read-back, and the execution panics. -/
theorem not_readsBack_cleared :
  ∃ s : Sys (String ⊕ Nat) × List Touch, (touching "k").Reachable s ∧
    ∃ r, ReadsBack s.1 (.advance 0 .next) "k" 0 r ∧
      r.advance 0 s.1.now s.1.client .next
        = some (s.1.client, r.panicked (.string "data should be set"))
  := by
  have init : (touching "k").init ((initial, []) : Sys (String ⊕ Nat) × List Touch) := ⟨rfl, rfl⟩
  obtain ⟨s, hs, hseen⟩ := Machine.exists_reachable_of_exec
    [.execute queryK, .advance 0 .next, .advance 0 .next, .advance 0 .next, .advance 0 .next,
      .advance 0 .next, .advance 0 .next, .advance 0 (.ready (.ok (.inl "ada"))),
      .advance 0 .next, .advance 0 .next, .advance 0 .next, .call .clear]
    (fun s : Sys (String ⊕ Nat) × List Touch => (s.1.runs.lookup 0).map fun r =>
      (r.query.key.cacheKey, r.pc.isReadBack, r.cached s.1.client))
    (some ("k", true, none)) init (by decide +kernel)
  obtain ⟨r, hr, hseen⟩ := Option.map_eq_some_iff.mp hseen
  simp only [Prod.mk.injEq] at hseen
  obtain ⟨hkey, hreadsBack, hcached⟩ := hseen
  have hpc : r.pc = .fetch .readBack := Pc.isReadBack_iff.mp hreadsBack
  refine ⟨s, hs, r, ⟨rfl, hr, hkey, hpc⟩, ?_⟩
  simp only [Run.advance, hpc, Run.advanceFetch, hcached]

end Sys

end RsQuery
