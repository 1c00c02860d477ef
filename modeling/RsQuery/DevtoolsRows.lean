import RsQuery.Invalidation

/-!
# The rows of the devtools

The devtools show the cache of a client row by row, and each row has a button that marks it
stale and one that removes it.  The buttons rebuild the key of the row from its text and
hand it to operations on many queries: removing goes by segments and takes every key below
the row with it, and invalidating goes by text and marks every key that begins with the
text of the row.
-/

namespace RsQuery

/-- A cache row as displayed by the devtools. -/
structure CacheRow where
  cacheKey : String
  isStale : Bool
  fetchedAt : Instant
  status : QueryStatus
  inFlight : Bool

namespace Devtools

open QueryClient

variable {V : Type}

/-- The key of a row, rebuilt from its text. -/
def rowKey (cacheKey : String) : QueryKey :=
  .fromSegments (splitSegments cacheKey)

/-- The row of an entry. -/
def cacheRow (client : QueryClient V) (cacheKey : String) (entry : CacheEntry V) : CacheRow where
  cacheKey := cacheKey
  isStale := entry.isStale
  fetchedAt := entry.fetchedAt
  status := .success
  inFlight := client.isInFlight (rowKey cacheKey)

/-- The rows of every cached query. -/
def cacheRows (client : QueryClient V) : List CacheRow :=
  client.cache.entries.map fun entry => cacheRow client entry.1 entry.2

/-- Refetch action for one row. -/
def refetch (client : QueryClient V) (cacheKey : String) : QueryClient V :=
  client.invalidateQueries (rowKey cacheKey)

/-- Invalidate action for one row. -/
def invalidate (client : QueryClient V) (cacheKey : String) : QueryClient V :=
  client.invalidateQueries (rowKey cacheKey)

/-- Remove action for one row. -/
def remove (client : QueryClient V) (now : Instant) (cacheKey : String) : QueryClient V :=
  (client.removeQueries now (.withKey (rowKey cacheKey))).1

/-- The row of a key, if it is cached. -/
def rowOf (client : QueryClient V) (cacheKey : String) : Option CacheRow :=
  (client.cache.lookup cacheKey).map (cacheRow client cacheKey)

/-- The entry of the row becomes what `f` makes of it, and the entries and rows of all other
keys are as they were. -/
structure AffectsRow (f : Option (CacheEntry V) → Option (CacheEntry V)) (k : String)
    (c c' : QueryClient V) : Prop where
  entry : c'.cache.lookup k = f (c.cache.lookup k)
  others : ∀ k', k' ≠ k → c'.cache.lookup k' = c.cache.lookup k' ∧ rowOf c' k' = rowOf c k'

/-- The row is removed, and no other. -/
abbrev RemovesRow (k : String) (c c' : QueryClient V) : Prop :=
  AffectsRow (fun _ => none) k c c'

/-- The row is marked stale, and no other. -/
abbrev MarksRow (k : String) (c c' : QueryClient V) : Prop :=
  AffectsRow (Option.map fun entry => { entry with isStale := true }) k c c'

/-- No other cached key begins with the segments of the row. -/
def NoneBelow (c : QueryClient V) (k : String) : Prop :=
  ∀ k', k' ≠ k → (c.cache.lookup k').isSome = true → ¬ splitSegments k <+: splitSegments k'

/-- The other cached keys that begin with the text of the row are marked stale already, and
have no fetch in flight. -/
def NoneBeside (c : QueryClient V) (k : String) : Prop :=
  ∀ k', k' ≠ k → k.toList <+: k'.toList → ∀ entry ∈ c.cache.lookup k',
    entry.isStale = true ∧ c.inFlight.lookup k' = none

/-! ### What the actions do to a row -/

variable {c c' : QueryClient V} {k k' : String} {now : Instant}

theorem mem_cacheRows {row : CacheRow} :
  row ∈ cacheRows c ↔ ∃ k, rowOf c k = some row
  := by
  simp only [cacheRows, rowOf, List.mem_map, Option.map_eq_some_iff, Sigma.exists,
    ← AList.mem_lookup_iff, Option.mem_def]

/-- The entry and the row of a key are read off the slot. -/
theorem same_iff :
  c'.cache.lookup k = c.cache.lookup k ∧ rowOf c' k = rowOf c k ↔
    (c'.slot k).entry = (c.slot k).entry ∧
      ((c.slot k).entry ≠ none → (c'.slot k).task.isSome = (c.slot k).task.isSome)
  := by
  apply and_congr_right
  intro hentry
  rw [rowOf, rowOf, hentry]
  cases he : c.cache.lookup k with
  | none => simp [slot, he]
  | some e =>
    simp only [slot, he, cacheRow, isInFlight, rowKey, Option.map_some, Option.some.injEq,
      CacheRow.mk.injEq, true_and, ne_eq, reduceCtorEq, not_false_eq_true, forall_const]
    rw [QueryKey.cacheKey_rebuilt]

/-- Removing a row removes the entries whose keys begin with its segments. -/
theorem slot_remove (c : QueryClient V) (now : Instant) (k k' : String) :
  (remove c now k).slot k' =
    if (c.slot k').entry ≠ none ∧ splitSegments k <+: splitSegments k' then
      (c.slot k').drop .error k'
    else c.slot k'
  := by
  have hmatch (snapshot : QuerySnapshot) :
      matchQuery snapshot (.withKey (rowKey k)) = snapshot.key.startsWith (rowKey k) := by
    simp [matchQuery, QueryFilters.withKey, keyMatches]
  have hmatches (entry : CacheEntry V) (inFlight : Bool) :
      matchQuery (entrySnapshot now k' entry inFlight) (.withKey (rowKey k)) = true ↔
        splitSegments k <+: splitSegments k' := by
    rw [hmatch, QueryKey.startsWith_iff, rowKey, entrySnapshot, QueryKey.fromSegments_segments,
      QueryKey.fromSegments_segments]
  rw [remove, slot_removeQueries, matching]
  cases he : c.cache.lookup k' with
  | none => simp [slot, he]
  | some entry =>
    have hentry : (c.slot k').entry = some entry := he
    simp only [Option.map_some, Option.filter_some, hmatches, hentry]
    by_cases hbelow : splitSegments k <+: splitSegments k'
    · simp [hbelow]
    · simp [hbelow]

/-- Invalidating a row invalidates the entries whose keys begin with its text. -/
theorem slot_invalidate (c : QueryClient V) (k k' : String) :
  (invalidate c k).slot k' =
    if (c.slot k').entry ≠ none ∧ k.toList <+: k'.toList then (c.slot k').invalidate k'
    else c.slot k'
  := by
  have hmem : k' ∈ c.keysToInvalidate (rowKey k) ↔
      (c.slot k').entry ≠ none ∧ k.toList <+: k'.toList := by
    rw [mem_keysToInvalidate, rowKey, QueryKey.cacheKey_rebuilt, Option.isSome_iff_ne_none]
    rfl
  rw [invalidate, slot_invalidateQueries]
  simp only [hmem]

/-- A row is removed alone exactly if no other cached key begins with its segments. -/
theorem removesRow_iff :
  RemovesRow k c (remove c now k) ↔ NoneBelow c k
  := by
  constructor
  · rintro ⟨-, hothers⟩ k' hne hcached hbelow
    have hentry : (c.slot k').entry ≠ none := Option.isSome_iff_ne_none.mp hcached
    have hsame := (same_iff.mp (hothers k' hne)).1
    rw [slot_remove, if_pos ⟨hentry, hbelow⟩] at hsame
    apply hentry hsame.symm
  · intro h
    constructor
    · have hslot : (remove c now k).cache.lookup k = _ :=
        congrArg Slot.entry (slot_remove c now k k)
      rw [hslot]
      split
      · rfl
      · next hnone => simpa using hnone
    · intro k' hne
      apply same_iff.mpr
      rw [slot_remove, if_neg]
      · simp
      · rintro ⟨hentry, hbelow⟩
        apply h k' hne (Option.isSome_iff_ne_none.mpr hentry) hbelow

/-- A row is marked stale alone exactly if the other entries whose keys begin with its text
are stale already and at rest. -/
theorem marksRow_iff :
  MarksRow k c (invalidate c k) ↔ NoneBeside c k
  := by
  have hinvalidate {x : Slot V} {entry : CacheEntry V} (k : String) (h : x.entry = some entry) :
      (x.invalidate k).entry = x.markStale.entry := by
    rw [Slot.invalidate, h]
    rfl
  constructor
  · rintro ⟨-, hothers⟩ k' hne hbeside entry hentry
    have hentry : (c.slot k').entry = some entry := hentry
    have hne' : (c.slot k').entry ≠ none := by simp [hentry]
    obtain ⟨hsame, htask⟩ := same_iff.mp (hothers k' hne)
    rw [slot_invalidate, if_pos ⟨hne', hbeside⟩, hinvalidate k' hentry,
      markStale_entry_eq_iff] at hsame
    rw [slot_invalidate, if_pos ⟨hne', hbeside⟩, Slot.invalidate_task] at htask
    use hsame entry hentry
    have htask : (c.slot k').task = none := by simpa using (htask hne').symm
    apply htask
  · intro h
    constructor
    · have hslot : (invalidate c k).cache.lookup k = _ :=
        congrArg Slot.entry (slot_invalidate c k k)
      rw [hslot]
      cases he : (c.slot k).entry with
      | none =>
        have hlookup : c.cache.lookup k = none := he
        simp [he, hlookup]
      | some entry =>
        rw [if_pos ⟨by simp, List.prefix_rfl⟩, hinvalidate k he]
        rfl
    · intro k' hne
      apply same_iff.mpr
      rw [slot_invalidate]
      split
      · next hhit =>
        obtain ⟨hentry, hbeside⟩ := hhit
        obtain ⟨entry, hentry⟩ := Option.ne_none_iff_exists'.mp hentry
        obtain ⟨hstale, htask⟩ := h k' hne hbeside entry hentry
        have htask : (c.slot k').task = none := htask
        rw [hinvalidate k' hentry, markStale_entry_eq_iff, Slot.invalidate_task, htask]
        simp [hentry, hstale]
      · simp

/-- For every client and every row: what the actions of the row do is confined to it exactly
if no other cached key begins with its segments, for removing, and exactly if the other
entries whose keys begin with its text are stale already and at rest, for marking. -/
theorem rowActions_iff (c : QueryClient V) (now : Instant) (k : String) :
  (RemovesRow k c (remove c now k) ↔ NoneBelow c k) ∧
    (MarksRow k c (invalidate c k) ↔ NoneBeside c k) ∧
    (MarksRow k c (refetch c k) ↔ NoneBeside c k)
  := by
  use removesRow_iff, marksRow_iff
  apply marksRow_iff

/-- A client with entries under `"users"` and under `"users::id=1"`. -/
def usersAndOne : QueryClient (String ⊕ Nat) :=
  usersCached.setQueryData 0 ((QueryKey.new "users").segment "id=1") (.inl "ada") {}

/-- The actions of the row `"users"` reach the row `"users::id=1"`. -/
theorem not_rowActions_users :
  ¬ ∀ (c : QueryClient (String ⊕ Nat)) (now : Instant) (k : String),
    (c.cache.lookup k).isSome = true →
      RemovesRow k c (remove c now k) ∧ MarksRow k c (invalidate c k) ∧
        MarksRow k c (refetch c k)
  := by
  intro h
  obtain ⟨hremove, -, -⟩ := h usersAndOne 0 "users" (by decide)
  have hbelow := removesRow_iff.mp hremove "users::id=1" (by decide) (by decide)
  apply hbelow
  decide

end Devtools

end RsQuery
