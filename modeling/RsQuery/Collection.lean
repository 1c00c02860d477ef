import RsQuery.Freshness

/-!
# Garbage collection

A gc pass removes the entries whose last access is at least their gc time ago.  Writes date
the last access; reads do not, so an entry in use is removed once its last write is old.  In
a run, the gc passes spare what was used and remove the rest exactly when every entry that
was read recently was written recently: `Timed.gcSparesUsed_iff`.
-/

namespace RsQuery

variable {V T P : Type}

/-- A client at a time. -/
structure Timed (V : Type) where
  client : QueryClient V
  now : Instant

/-- A use of the entry under a cache key. -/
inductive Use where
  | written (cacheKey : String) (time : Instant)
  | read (cacheKey : String) (time : Instant)
deriving DecidableEq, Repr

namespace Timed

/-- A write, a read or a gc pass, or something else that happens to the client. -/
inductive Action (V T P : Type) where
  /-- A call, which can be `set_query_data` or `gc`. -/
  | call (call : Call V)
  | setInfiniteData (key : QueryKey) (data : InfiniteData T P) (options : QueryOptions)
  /-- `append_infinite_page` and `prepend_infinite_page`. -/
  | addPage (key : QueryKey) (request : PageRequest) (page : T) (pageParam : P)
      (maxPages : Option Nat)
  | getQueryData (key : QueryKey) (typeId : TypeId)
  | getInfiniteData (key : QueryKey)
  | tick (n : Nat)

variable [StringAny V] [InfiniteAny V T P]

/-- The state after an action. -/
def step (s : Timed V) : Action V T P → Option (Timed V)
  | .call call => some { s with client := call.apply s.now s.client }
  | .setInfiniteData key data options =>
    some { s with client := s.client.setInfiniteData s.now key data options }
  | .addPage key request page pageParam maxPages =>
    match s.client.addPage s.now key request page pageParam maxPages with
    | some (c, _) => some { s with client := c }
    | none => some s
  | .getQueryData _ _ | .getInfiniteData _ => some s
  | .tick n => some { s with now := s.now + n }

/-- What an action uses: a write that stores data, or a read that returns some. -/
def uses (s : Timed V) : Action V T P → List Use
  | .call (.setQueryData key _ _) | .setInfiniteData key _ _ => [.written key.cacheKey s.now]
  | .addPage key request page pageParam maxPages =>
    match s.client.addPage s.now key request page pageParam maxPages with
    | some (_, some _) => [.written key.cacheKey s.now]
    | _ => []
  | .getQueryData key typeId =>
    if (s.client.getQueryData key typeId).isSome then [.read key.cacheKey s.now] else []
  | .getInfiniteData key =>
    if (s.client.getInfiniteData (T := T) (P := P) key).isSome then [.read key.cacheKey s.now]
    else []
  | _ => []

/-- The actions from a new client on, with a log of the uses. -/
def machine : Machine (Timed V × List Use) (Action V T P) :=
  Machine.noting ⟨fun s => s = ⟨.new, 0⟩, step⟩ fun s a _ => s.uses a

/-- The entry under the cache key was written or read within the time. -/
def UsedWithin (s : Timed V × List Use) (k : String) (d : Duration) : Prop :=
  ∃ t, (.written k t ∈ s.2 ∨ .read k t ∈ s.2) ∧ Instant.elapsed s.1.now t < d

/-- The entry under the cache key was written within the time. -/
def WrittenWithin (s : Timed V × List Use) (k : String) (d : Duration) : Prop :=
  ∃ t, .written k t ∈ s.2 ∧ Instant.elapsed s.1.now t < d

/-- A gc pass spares the entries used within their gc time and removes the others. -/
structure CollectsUnused (s : Timed V × List Use) : Prop where
  spares : ∀ k e, s.1.client.cache.lookup k = some e → UsedWithin s k e.options.gcTime →
    (s.1.client.gc s.1.now).cache.lookup k = some e
  removes : ∀ k e, s.1.client.cache.lookup k = some e → ¬ UsedWithin s k e.options.gcTime →
    (s.1.client.gc s.1.now).cache.lookup k = none

/-- Every entry read within its gc time was written within it. -/
def ReadsRecent (s : Timed V × List Use) : Prop :=
  ∀ k e, s.1.client.cache.lookup k = some e → UsedWithin s k e.options.gcTime →
    WrittenWithin s k e.options.gcTime

/-! ### What a step uses -/

variable {s s' : Timed V} {a : Action V T P} {k : String}

/-- A step dates the last access of the entry it writes, and leaves of the others nothing or
all but their stale flag. -/
theorem step_lookup (hs : s.step a = some s') (k : String) :
  (.written k s.now ∈ s.uses a ∧ ∀ e ∈ s'.client.cache.lookup k, e.lastAccessed = s.now) ∨
    ((∀ t, .written k t ∉ s.uses a) ∧
      OnlyFlagged (s.client.cache.lookup k) (s'.client.cache.lookup k))
  := by
  have hset (key : QueryKey) (data : V) (options : QueryOptions)
      (huses : s.uses a = [.written key.cacheKey s.now])
      (hclient : s'.client = s.client.setQueryData s.now key data options) :
      (.written k s.now ∈ s.uses a ∧ ∀ e ∈ s'.client.cache.lookup k, e.lastAccessed = s.now) ∨
        ((∀ t, .written k t ∉ s.uses a) ∧
          OnlyFlagged (s.client.cache.lookup k) (s'.client.cache.lookup k)) := by
    rw [huses, hclient, QueryClient.setQueryData_cache, Table.lookup_insert_eq]
    split
    · next hk =>
      left
      simp [hk, QueryClient.newEntry]
    · next hk =>
      right
      refine ⟨by simp [hk], OnlyFlagged.refl _⟩
  cases a with
  | call call =>
    obtain rfl := Option.some.inj hs
    by_cases hwrites : ∃ key data options, call = .setQueryData key data options
    · obtain ⟨key, data, options, rfl⟩ := hwrites
      apply hset key data options rfl rfl
    · right
      have hne : ¬ call.Writes k := by
        cases call with
        | setQueryData key data options => exact absurd ⟨key, data, options, rfl⟩ hwrites
        | _ => apply id
      have huses : s.uses (.call call : Action V T P) = [] := by
        cases call with
        | setQueryData key data options => exact absurd ⟨key, data, options, rfl⟩ hwrites
        | _ => rfl
      rw [huses]
      exact ⟨by simp, call.onlyFlagged_apply _ _ hne⟩
  | setInfiniteData key data options =>
    obtain rfl := Option.some.inj hs
    apply hset key _ options rfl rfl
  | addPage key request page pageParam maxPages =>
    simp only [step] at hs
    split at hs
    · next c result hadd =>
      obtain rfl := Option.some.inj hs
      obtain ⟨rfl, rfl⟩ | ⟨data, d, hdata, rfl, rfl⟩ := QueryClient.addPage_cases hadd
      · right
        simp only [uses, hadd]
        exact ⟨by simp, OnlyFlagged.refl _⟩
      · have huses : s.uses (.addPage key request page pageParam maxPages)
            = [.written key.cacheKey s.now] := by
          simp only [uses, hadd]
        rw [huses, QueryClient.replacePages_lookup]
        by_cases hk : k = key.cacheKey
        · left
          rw [if_pos hk]
          refine ⟨by simp [hk], ?_⟩
          intro e he
          obtain ⟨e', -, rfl⟩ := Option.mem_map.mp he
          rfl
        · right
          rw [if_neg hk]
          exact ⟨by simp [hk], OnlyFlagged.refl _⟩
    · next hadd =>
      obtain rfl := Option.some.inj hs
      right
      simp only [uses, hadd]
      exact ⟨by simp, OnlyFlagged.refl _⟩
  | getQueryData key typeId =>
    obtain rfl := Option.some.inj hs
    right
    refine ⟨?_, OnlyFlagged.refl _⟩
    intro t
    simp only [uses]
    split
    · simp
    · simp
  | getInfiniteData key =>
    obtain rfl := Option.some.inj hs
    right
    refine ⟨?_, OnlyFlagged.refl _⟩
    intro t
    simp only [uses]
    split
    · simp
    · simp
  | tick n =>
    obtain rfl := Option.some.inj hs
    right
    exact ⟨by simp [uses], OnlyFlagged.refl _⟩

/-- A step uses what it uses at its time. -/
theorem time_of_uses {t : Instant} (h : .written k t ∈ s.uses a) :
  t = s.now
  := by
  unfold uses at h
  split at h
  all_goals try split at h
  all_goals simp_all

theorem now_le_of_step (hs : s.step a = some s') :
  s.now ≤ s'.now
  := by
  cases a with
  | tick n =>
    obtain rfl := Option.some.inj hs
    apply Nat.le_add_right
  | addPage key request page pageParam maxPages =>
    simp only [step] at hs
    split at hs
    · obtain rfl := Option.some.inj hs
      apply Nat.le_refl
    · obtain rfl := Option.some.inj hs
      apply Nat.le_refl
  | _ =>
    obtain rfl := Option.some.inj hs
    apply Nat.le_refl

/-! ### Runs -/

/-- The last access of an entry is its last write. -/
structure Kept (s : Timed V × List Use) : Prop where
  written : ∀ k, ∀ e ∈ s.1.client.cache.lookup k, .written k e.lastAccessed ∈ s.2
  latest : ∀ k, ∀ e ∈ s.1.client.cache.lookup k, ∀ t, .written k t ∈ s.2 → t ≤ e.lastAccessed
  past : ∀ k t, .written k t ∈ s.2 → t ≤ s.1.now

theorem kept_of_reachable {s : Timed V × List Use}
    (h : (machine : Machine _ (Action V T P)).Reachable s) :
  Kept s
  := by
  apply h.invariant
  · rintro ⟨s, log⟩ ⟨rfl, rfl⟩
    constructor
    · intro k e he
      contradiction
    · intro k e he
      contradiction
    · intro k t ht
      contradiction
  · rintro s a s' - ih - hs
    obtain ⟨hs, hlog⟩ := Machine.step_noting hs
    have hpast (k : String) (t : Instant) (ht : .written k t ∈ s'.2) : t ≤ s.1.now := by
      rw [hlog, List.mem_append] at ht
      rcases ht with ht | ht
      · apply ih.past k t ht
      · apply (time_of_uses ht).le
    constructor
    · intro k e' he'
      rw [hlog, List.mem_append]
      rcases step_lookup hs k with ⟨huse, hdate⟩ | ⟨-, hkept⟩
      · right
        rw [hdate e' he']
        apply huse
      · left
        obtain ⟨e, he, rfl | rfl⟩ := hkept e' he'
        · apply ih.written k e' he
        · apply ih.written k e he
    · intro k e' he' t ht
      rcases step_lookup hs k with ⟨-, hdate⟩ | ⟨hno, hkept⟩
      · rw [hdate e' he']
        apply hpast k t ht
      · rw [hlog, List.mem_append, or_iff_left (hno t)] at ht
        obtain ⟨e, he, rfl | rfl⟩ := hkept e' he'
        · apply ih.latest k e' he t ht
        · apply ih.latest k e he t ht
    · intro k t ht
      apply (hpast k t ht).trans (now_le_of_step hs)

omit [StringAny V] in
/-- A gc pass spares an entry exactly when it was written within its gc time. -/
theorem Kept.lookup_gc
    {s : Timed V × List Use} {e : CacheEntry V} (h : Kept s)
    (he : s.1.client.cache.lookup k = some e) :
  (WrittenWithin s k e.options.gcTime ∧ (s.1.client.gc s.1.now).cache.lookup k = some e) ∨
    (¬ WrittenWithin s k e.options.gcTime ∧ (s.1.client.gc s.1.now).cache.lookup k = none)
  := by
  have hwritten : WrittenWithin s k e.options.gcTime ↔
      Instant.elapsed s.1.now e.lastAccessed < e.options.gcTime := by
    constructor
    · rintro ⟨t, ht, hage⟩
      apply Nat.lt_of_le_of_lt _ hage
      apply Nat.sub_le_sub_left (h.latest k e he t ht)
    · intro hage
      exact ⟨e.lastAccessed, h.written k e he, hage⟩
  rw [hwritten, QueryClient.gc, Table.lookup_retain, he]
  by_cases hage : Instant.elapsed s.1.now e.lastAccessed < e.options.gcTime
  · left
    exact ⟨hage, by simp [hage]⟩
  · right
    exact ⟨hage, by simp [Nat.not_lt.mp hage]⟩

omit [StringAny V] in
/-- A gc pass spares what was used and removes the rest exactly when what was read recently
was written recently. -/
theorem Kept.collectsUnused_iff {s : Timed V × List Use} (h : Kept s) :
  CollectsUnused s ↔ ReadsRecent s
  := by
  constructor
  · intro hcollects k e he hused
    rcases h.lookup_gc he with ⟨hwritten, -⟩ | ⟨-, hnone⟩
    · apply hwritten
    · rw [hcollects.spares k e he hused] at hnone
      contradiction
  · intro hrecent
    constructor
    · intro k e he hused
      rcases h.lookup_gc he with ⟨-, hspared⟩ | ⟨hold, -⟩
      · apply hspared
      · exact absurd (hrecent k e he hused) hold
    · intro k e he hunused
      rcases h.lookup_gc he with ⟨⟨t, ht, hage⟩, -⟩ | ⟨-, hnone⟩
      · exact absurd ⟨t, .inl ht, hage⟩ hunused
      · apply hnone

/-- The gc passes of a run spare what was used within its gc time and remove the rest
exactly when, at each pass, every entry read within its gc time was written within it. -/
theorem gcSparesUsed_iff (as : List (Action V T P)) :
  machine.Meets (fun s a => a = .call .gc → CollectsUnused s) (⟨.new, 0⟩, []) as ↔
    machine.Meets (fun s a => a = .call .gc → ReadsRecent s) (⟨.new, 0⟩, []) as
  := by
  have init : (machine : Machine _ (Action V T P)).init (⟨.new, 0⟩, []) := ⟨rfl, rfl⟩
  apply Machine.Reachable.meets_congr (.init init)
  intro s a hs
  rw [(kept_of_reachable hs).collectsUnused_iff]

/-- An entry that is read every minute is removed five minutes after it was written. -/
theorem not_gcSparesUsed_read :
  ∃ s : Timed (String ⊕ InfiniteData String Nat) × List Use,
    (machine : Machine _ (Action _ String Nat)).Reachable s ∧ ∃ e t,
      s.1.client.cache.lookup "user" = some e ∧ .read "user" t ∈ s.2 ∧
      Instant.elapsed s.1.now t < e.options.gcTime ∧
      (s.1.client.gc s.1.now).cache.lookup "user" = none
  := by
  have init : (machine : Machine _ (Action _ String Nat)).init
      ((⟨.new, 0⟩, []) : Timed (String ⊕ InfiniteData String Nat) × List Use) := ⟨rfl, rfl⟩
  obtain ⟨s, hs, hseen⟩ := Machine.exists_reachable_of_exec
    [.call (.setQueryData (.new "user") (.inl "ada") {}), .tick (Duration.fromSecs 240),
      .getQueryData (.new "user") 0, .tick (Duration.fromSecs 60)]
    (fun s : Timed (String ⊕ InfiniteData String Nat) × List Use =>
      ((s.1.client.cache.lookup "user").map fun e => e.options.gcTime,
        decide (Use.read "user" (Duration.fromSecs 240) ∈ s.2), s.1.now,
        ((s.1.client.gc s.1.now).cache.lookup "user").isNone))
    (some (Duration.fromSecs 300), true, Duration.fromSecs 300, true) init (by decide +kernel)
  simp only [Prod.mk.injEq] at hseen
  obtain ⟨hgc, hread, hnow, hnone⟩ := hseen
  obtain ⟨e, he, hgc⟩ := Option.map_eq_some_iff.mp hgc
  refine ⟨s, hs, e, Duration.fromSecs 240, he, of_decide_eq_true hread, ?_,
    Option.isNone_iff_eq_none.mp hnone⟩
  rw [hnow, hgc]
  decide

end Timed

end RsQuery
