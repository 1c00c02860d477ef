import RsQuery.Invalidation

/-!
# Selection by key

A filter compares its key with one rebuilt from the cache key of an entry.  On keys built
from segments without colons the rebuilt key is the key the entry was written under, so
the filters of a key select by the keys that callers write.
-/

namespace RsQuery

/-- Restricts to exact key matching. -/
def QueryFilters.exactly (filters : QueryFilters) : QueryFilters :=
  { filters with exact := true }

namespace QueryKey

/-- The key is built from segments that have no colon. -/
structure Clean (k : QueryKey) : Prop where
  built : k.Built
  colonFree : k.ColonFree

/-- Built keys are told apart by their segments. -/
theorem Built.ext {k k' : QueryKey} (hk : k.Built) (hk' : k'.Built)
    (h : k.segments = k'.segments) :
  k = k'
  := by
  have hkey : k.cacheKey = k'.cacheKey := by
    rw [hk.joins.2, hk'.joins.2, h]
  cases k
  cases k'
  simp only at h hkey
  simp only [h, hkey]

theorem Built.resplit {k : QueryKey} (hk : k.Built) :
  k.resplit = k.segments
  := by
  obtain ⟨hne, hkey⟩ := hk.joins
  have hpieces : k.pieces = k.segments := if_pos hkey
  rw [QueryKey.resplit, hpieces, if_neg hne]

/-- The key rebuilt from a cache key is the key it comes from. -/
theorem Clean.rebuilt {k : QueryKey} (hk : k.Clean) :
  fromSegments (splitSegments k.cacheKey) = k
  := by
  have hsegments : splitSegments k.cacheKey = k.segments := by
    rw [splitSegments_cacheKey hk.colonFree, hk.built.resplit]
  rw [hsegments]
  apply Built.ext (built_fromSegments hk.built.joins.1) hk.built
  apply fromSegments_segments

/-- Keys without colons are told apart by their cache keys. -/
theorem Clean.cacheKey_inj {k k' : QueryKey} (hk : k.Clean) (hk' : k'.Clean)
    (h : k.cacheKey = k'.cacheKey) :
  k = k'
  := by
  rw [← hk.rebuilt, ← hk'.rebuilt, h]

end QueryKey

namespace QueryClient

variable {V : Type} {c : QueryClient V} {now : Instant} {keys : List QueryKey}
  {filters : QueryFilters}

/-- The filters of the key select by the keys the entries were written under: the exact
filter the entry written under the key, if there is one, and the other the entries written
under keys it is a prefix of, each once and with the key it was written under. -/
structure SelectsByKey (c : QueryClient V) (now : Instant) (keys : List QueryKey)
    (f : QueryKey) : Prop where
  exact : (c.matchingEntries now (QueryFilters.withKey f).exactly).map Prod.fst
    = if f ∈ keys then [f.cacheKey] else []
  byPrefix : ∀ k ∈ keys, k.cacheKey ∈ (c.matchingEntries now (.withKey f)).map Prod.fst ↔
    f.segments <+: k.segments
  once : ((c.matchingEntries now (.withKey f)).map Prod.fst).Nodup
  written : ∀ m ∈ c.matchingEntries now (.withKey f), ∃ k ∈ keys, k.cacheKey = m.1 ∧ m.2.key = k

/-- The entries that match are the ones written under the keys the filter admits. -/
theorem mem_matchingEntries_of_holds
    (hkeys : c.Holds keys) (hclean : ∀ k ∈ keys, k.Clean) {admits : QueryKey → Prop}
    (hmatch : ∀ snapshot, matchQuery snapshot filters = true ↔ admits snapshot.key)
    (s : String) :
  s ∈ (c.matchingEntries now filters).map Prod.fst ↔ ∃ k ∈ keys, k.cacheKey = s ∧ admits k
  := by
  have hkey (entry : CacheEntry V) (inFlight : Bool) {k : QueryKey} (hk : k ∈ keys) :
      (entrySnapshot now k.cacheKey entry inFlight).key = k := (hclean k hk).rebuilt
  rw [List.mem_map]
  constructor
  · rintro ⟨m, hm, rfl⟩
    obtain ⟨entry, hentry, hsnapshot, hm⟩ := mem_matchingEntries.mp hm
    obtain ⟨k, hk, hks⟩ := (hkeys m.1).mp (by simp [hentry])
    rw [hmatch, hsnapshot, ← hks, hkey _ _ hk] at hm
    use k, hk, hks, hm
  · rintro ⟨k, hk, rfl, hadmits⟩
    obtain ⟨entry, hentry⟩ := Option.isSome_iff_exists.mp ((hkeys k.cacheKey).mpr ⟨k, hk, rfl⟩)
    use (k.cacheKey, entrySnapshot now k.cacheKey entry (c.inFlight.lookup k.cacheKey).isSome)
    rw [mem_matchingEntries]
    constructor
    · use entry, hentry, rfl
      rw [hmatch, hkey _ _ hk]
      apply hadmits
    · rfl

theorem matchQuery_withKey (snapshot : QuerySnapshot) (f : QueryKey) :
  matchQuery snapshot (.withKey f) = true ↔ f.segments <+: snapshot.key.segments
  := by
  rw [← QueryKey.startsWith_iff]
  simp [matchQuery, QueryFilters.withKey, keyMatches]

theorem matchQuery_exactly (snapshot : QuerySnapshot) (f : QueryKey) :
  matchQuery snapshot (QueryFilters.withKey f).exactly = true ↔ f = snapshot.key
  := by
  simp [matchQuery, QueryFilters.withKey, QueryFilters.exactly, keyMatches]

/-- Filters select by the key the caller wrote, although they see keys that are rebuilt
from cache keys. -/
theorem matchingEntries_selectsByKey
    (c : QueryClient V) (now : Instant) (keys : List QueryKey) (f : QueryKey)
    (hkeys : c.Holds keys) (hclean : ∀ k ∈ keys, k.Clean) :
  c.SelectsByKey now keys f
  := by
  have withKey (s : String) : s ∈ (c.matchingEntries now (.withKey f)).map Prod.fst ↔
      ∃ k ∈ keys, k.cacheKey = s ∧ f.segments <+: k.segments :=
    mem_matchingEntries_of_holds hkeys hclean (matchQuery_withKey · f) s
  constructor
  case exact =>
    have exactly (s : String) :
        s ∈ (c.matchingEntries now (QueryFilters.withKey f).exactly).map Prod.fst ↔
          ∃ k ∈ keys, k.cacheKey = s ∧ f = k :=
      mem_matchingEntries_of_holds hkeys hclean (matchQuery_exactly · f) s
    split
    · next hmem =>
      apply List.perm_singleton.mp
      apply (List.perm_ext_iff_of_nodup (nodup_matchingEntries _ _ _) (by simp)).mpr
      intro s
      rw [exactly, List.mem_singleton]
      constructor
      · rintro ⟨k, -, rfl, rfl⟩
        rfl
      · rintro rfl
        use f
    · next hmem =>
      apply List.eq_nil_iff_forall_not_mem.mpr
      intro s hs
      obtain ⟨k, hk, -, rfl⟩ := (exactly s).mp hs
      apply hmem hk
  case byPrefix =>
    intro k hk
    rw [withKey]
    constructor
    · rintro ⟨k', hk', heq, h⟩
      rwa [(hclean k' hk').cacheKey_inj (hclean k hk) heq] at h
    · intro h
      use k
  case once => apply nodup_matchingEntries
  case written =>
    intro m hm
    obtain ⟨k, hk, hks, -⟩ := (withKey m.1).mp (List.mem_map_of_mem hm)
    use k, hk, hks
    obtain ⟨entry, -, hsnapshot, -⟩ := mem_matchingEntries.mp hm
    rw [hsnapshot, ← hks]
    apply (hclean k hk).rebuilt

theorem blogKeys_built :
  ∀ k ∈ blogKeys, k.Built
  := by
  simp only [blogKeys, List.forall_mem_cons]
  exact ⟨.new _, .withParam _ _ (.new _), .segment _ (.withParam _ _ (.new _)), .new _,
    .segment _ (.new _), List.forall_mem_nil _⟩

/-- Selecting by `"users"` among the keys of users and posts. -/
theorem matchingEntries_selectsByKey_blog :
  (cachedUnder blogKeys).SelectsByKey 5 blogKeys (.new "users")
  := by
  apply matchingEntries_selectsByKey _ _ _ _ (cachedUnder_holds blogKeys)
  intro k hk
  use blogKeys_built k hk, blogKeys_colonFree k hk

end QueryClient

end RsQuery
