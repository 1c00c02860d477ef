import RsQuery.Invalidation
import RsQuery.Persister

/-!
# Garbage collection of persisted queries

Persisters of different prefixes share a storage.  `persister_gc` of one goes through the
storage, takes the entries whose storage key starts with its prefix for its own, and removes
those it cannot use; for each it invalidates the query hash on the client.  A prefix can go
on with the separator, and an invalidation goes by text, so it can remove entries of other
persisters and mark other queries stale.
-/

namespace RsQuery

/-- `str::strip_prefix`. -/
def stripPrefix (pre s : String) : Option String :=
  if pre.toList.isPrefixOf s.toList then some (String.ofList (s.toList.drop pre.toList.length))
  else none

theorem stripPrefix_eq_some_iff {pre s rest : String} :
  stripPrefix pre s = some rest ↔ s = pre ++ rest
  := by
  rw [stripPrefix, Option.ite_none_right_eq_some, List.isPrefixOf_iff_prefix]
  constructor
  · rintro ⟨⟨t, ht⟩, h⟩
    rw [← Option.some.inj h, ← ht, List.drop_left, ← String.toList_inj, String.toList_append, ← ht,
      String.toList_ofList]
  · rintro rfl
    rw [String.toList_append, List.drop_left, String.ofList_toList]
    exact ⟨List.prefix_append _ _, rfl⟩

namespace QueryPersister

variable {V : Type} [StringAny V] (json : PersisterJson V) (options : QueryPersisterOptions)

/-- Whether the persister cannot use what is stored: it is corrupted, expired or busted. -/
def dropsEntry (now : Nat) (raw : String) : Bool :=
  match json.queryFromStr raw with
  | .error _ => true
  | .ok persisted => isExpiredOrBusted options persisted now

/-- What `persister_gc` does with one entry. -/
def gcEntry (now : Nat) (s : QueryClient V × QueryStorage × Nat) (storageKey raw : String) :
    QueryClient V × QueryStorage × Nat :=
  let keyPrefix := options.keyPrefix ++ "-"
  if !keyPrefix.toList.isPrefixOf storageKey.toList then s
  else if dropsEntry json options now raw then
    let client :=
      match stripPrefix keyPrefix storageKey with
      | some queryHash => s.1.invalidateQueries (.fromSegments [queryHash])
      | none => s.1
    (client, s.2.1.erase storageKey, s.2.2 + 1)
  else s

/-- Removes expired, busted and corrupted entries owned by the prefix of this persister;
returns how many were removed. -/
def persisterGc (client : QueryClient V) (storage : QueryStorage) (wall : SystemTime) :
    QueryClient V × QueryStorage × Nat :=
  let now := unixNowMs wall
  storage.entries.foldl (fun s entry => gcEntry json options now s entry.1 entry.2)
    (client, storage, 0)

end QueryPersister

/-! ### A storage shared by persisters -/

/-- What a persister stores: its prefix, the query hash, and the value. -/
structure StoredQuery where
  keyPrefix : String
  queryHash : String
  value : String

/-- The storage key under which it is stored. -/
def StoredQuery.storageKey (q : StoredQuery) : String :=
  QueryPersister.storageKey { keyPrefix := q.keyPrefix } q.queryHash

/-- A storage, and what was stored last under each key, by whichever persister. -/
structure SharedStorage where
  /-- What the persisters see. -/
  storage : QueryStorage
  entries : Table String StoredQuery
  keyed : ∀ k q, entries.lookup k = some q → q.storageKey = k
  agrees : ∀ k, storage.lookup k = (entries.lookup k).map StoredQuery.value

namespace SharedStorage

/-- Nothing was stored. -/
def empty : SharedStorage :=
  ⟨∅, ∅, fun _ _ h => by contradiction, fun _ => rfl⟩

/-- A persister stores a query. -/
def store (shared : SharedStorage) (q : StoredQuery) : SharedStorage where
  storage := shared.storage.insert q.storageKey q.value
  entries := shared.entries.insert q.storageKey q
  keyed := by
    intro k q' h
    rw [Table.lookup_insert_eq] at h
    split at h
    · next hk => rw [hk, ← Option.some.inj h]
    · apply shared.keyed k q' h
  agrees := by
    intro k
    rw [Table.lookup_insert_eq, Table.lookup_insert_eq, shared.agrees]
    split
    · rfl
    · rfl

end SharedStorage

namespace QueryPersister

variable {V : Type} [StringAny V] {json : PersisterJson V} {options : QueryPersisterOptions}
  {client : QueryClient V} {shared : SharedStorage} {wall : SystemTime}

/-- A persist of a query stores it in the name of the persister, if anything. -/
theorem persistQuery_shared {key : QueryKey} {storage : QueryStorage}
    (h : persistQuery json options client shared.storage wall key = .ok storage) :
  storage = shared.storage ∨
    ∃ value, storage = (shared.store ⟨options.keyPrefix, key.cacheKey, value⟩).storage
  := by
  rw [persistQuery] at h
  split at h
  · left
    apply (Except.ok.inj h).symm
  · split at h
    · contradiction
    · dsimp only at h
      split at h
      · contradiction
      · next payload _ =>
        right
        use payload
        apply (Except.ok.inj h).symm

/-! ### What a collection does -/

/-- The storage key is one the persister takes for its own, and it drops what is stored
there. -/
def Takes (json : PersisterJson V) (options : QueryPersisterOptions) (now : Nat)
    (storageKey raw : String) : Prop :=
  (options.keyPrefix ++ "-").toList <+: storageKey.toList ∧ dropsEntry json options now raw = true

instance (now : Nat) (storageKey raw : String) :
    Decidable (Takes json options now storageKey raw) :=
  inferInstanceAs (Decidable (_ ∧ _))

theorem toList_storageKey (queryHash : String) :
  (storageKey options queryHash).toList = (options.keyPrefix ++ "-").toList ++ queryHash.toList
  := by
  rw [storageKey, String.toList_append]

theorem storageKey_injective : Function.Injective (storageKey options)
  := by
  intro h h' heq
  rw [← String.toList_inj, toList_storageKey, toList_storageKey] at heq
  rw [← String.toList_inj]
  apply List.append_cancel_left heq

omit [StringAny V] in
/-- The keys taken are those the persister stores under. -/
theorem takes_iff {now : Nat} {k raw : String} :
  Takes json options now k raw ↔
    ∃ queryHash, storageKey options queryHash = k ∧ dropsEntry json options now raw = true
  := by
  rw [Takes, exists_and_right]
  apply and_congr_left'
  constructor
  · rintro ⟨t, ht⟩
    use String.ofList t
    rw [← String.toList_inj, toList_storageKey, String.toList_ofList, ht]
  · rintro ⟨queryHash, rfl⟩
    rw [toList_storageKey]
    apply List.prefix_append

omit [StringAny V] in
/-- What is done with one entry under a key the persister stores under. -/
theorem gcEntry_storageKey (now : Nat) (s : QueryClient V × QueryStorage × Nat)
    (queryHash raw : String) :
  gcEntry json options now s (storageKey options queryHash) raw
    = if dropsEntry json options now raw = true then
        (s.1.invalidateQueries (.fromSegments [queryHash]),
          s.2.1.erase (storageKey options queryHash), s.2.2 + 1)
      else s
  := by
  have hstarts : (options.keyPrefix ++ "-").toList.isPrefixOf
      (storageKey options queryHash).toList = true := by
    rw [List.isPrefixOf_iff_prefix, toList_storageKey]
    apply List.prefix_append
  have hstrip : stripPrefix (options.keyPrefix ++ "-") (storageKey options queryHash)
      = some queryHash := stripPrefix_eq_some_iff.mpr rfl
  simp only [gcEntry, hstarts, hstrip, Bool.not_true, Bool.false_eq_true, if_false]

omit [StringAny V] in
/-- An entry that is not taken is left alone. -/
theorem gcEntry_of_not_takes {now : Nat} {k raw : String}
    (h : ¬ Takes json options now k raw) (s : QueryClient V × QueryStorage × Nat) :
  gcEntry json options now s k raw = s
  := by
  rw [gcEntry]
  split
  · rfl
  · next hstarts =>
    rw [Bool.not_eq_true, Bool.not_eq_false', List.isPrefixOf_iff_prefix] at hstarts
    rw [if_neg fun hdrops => h ⟨hstarts, hdrops⟩]

omit [StringAny V] in
/-- The entry of a key after an invalidation by a query hash. -/
theorem entry_invalidate_hash (c : QueryClient V) (queryHash s : String) :
  ((c.invalidateQueries (.fromSegments [queryHash])).slot s).entry
    = if queryHash.toList <+: s.toList then (c.slot s).markStale.entry else (c.slot s).entry
  := by
  have hkey : (QueryKey.fromSegments [queryHash]).cacheKey = queryHash := rfl
  rw [QueryClient.slot_invalidateQueries]
  rcases hs : c.cache.lookup s with _ | e
  · -- a key without an entry stays without
    have hentry : (c.slot s).entry = none := hs
    have hmark : (c.slot s).markStale.entry = none := by
      rw [Slot.markStale, hentry]
      rfl
    rw [if_neg, hmark, hentry, ite_self]
    simp [QueryClient.mem_keysToInvalidate, hs]
  · have hentry : (c.slot s).entry = some e := hs
    simp only [QueryClient.mem_keysToInvalidate, hs, Option.isSome_some, true_and, hkey]
    split
    · rw [Slot.invalidate, hentry]
      rfl
    · rfl

omit [StringAny V] in
/-- Going through some of the entries removes those taken. -/
theorem lookup_foldl_gcEntry
    (now : Nat) (es : List (Sigma fun _ : String => String)) (k : String)
    (s : QueryClient V × QueryStorage × Nat) :
  (es.foldl (fun s e => gcEntry json options now s e.1 e.2) s).2.1.lookup k
    = if ∃ e ∈ es, e.1 = k ∧ Takes json options now e.1 e.2 then none else s.2.1.lookup k
  := by
  induction es generalizing s with
  | nil => simp
  | cons e es ih =>
    obtain ⟨k', raw⟩ := e
    rw [List.foldl_cons, ih]
    simp only [List.exists_mem_cons_iff]
    by_cases ht : Takes json options now k' raw
    · obtain ⟨queryHash, rfl, hdrops⟩ := takes_iff.mp ht
      rw [gcEntry_storageKey, if_pos hdrops, Table.lookup_erase_eq]
      by_cases hk : storageKey options queryHash = k
      · simp [hk, hk ▸ ht]
      · simp only [hk, Ne.symm hk, false_and, false_or, if_false]
    · rw [gcEntry_of_not_takes ht]
      simp only [ht, and_false, false_or]

omit [StringAny V] in
/-- Going through some of the entries marks what starts with a query hash taken. -/
theorem entry_foldl_gcEntry
    (now : Nat) (es : List (Sigma fun _ : String => String)) (t : String)
    (s : QueryClient V × QueryStorage × Nat) :
  ((es.foldl (fun s e => gcEntry json options now s e.1 e.2) s).1.slot t).entry
    = if ∃ e ∈ es, Takes json options now e.1 e.2 ∧
          e.1.toList <+: (storageKey options t).toList
      then (s.1.slot t).markStale.entry else (s.1.slot t).entry
  := by
  induction es generalizing s with
  | nil => simp
  | cons e es ih =>
    obtain ⟨k', raw⟩ := e
    rw [List.foldl_cons, ih]
    simp only [List.exists_mem_cons_iff]
    by_cases ht : Takes json options now k' raw
    · obtain ⟨queryHash, rfl, hdrops⟩ := takes_iff.mp ht
      have hentry := entry_invalidate_hash s.1 queryHash t
      rw [gcEntry_storageKey, if_pos hdrops, Slot.markStale, hentry]
      simp only [ht, true_and, toList_storageKey, List.prefix_append_right_inj]
      by_cases hpre : queryHash.toList <+: t.toList
      · -- marking once more changes nothing
        simp only [hpre, if_true, true_or, Slot.markStale, Option.map_map]
        rw [ite_eq_right_iff]
        intro
        rfl
      · simp only [hpre, if_false, false_or]
        rfl
    · rw [gcEntry_of_not_takes ht]
      simp only [ht, false_and, false_or]

omit [StringAny V] in
/-- What is in the storage after a collection. -/
theorem lookup_persisterGc (client : QueryClient V) (storage : QueryStorage) (wall : SystemTime)
    (k : String) :
  (persisterGc json options client storage wall).2.1.lookup k
    = if ∃ raw ∈ storage.lookup k, Takes json options (unixNowMs wall) k raw then none
      else storage.lookup k
  := by
  rw [persisterGc, lookup_foldl_gcEntry]
  apply if_congr _ rfl rfl
  rw [← Table.exists_lookup_iff (p := fun k' raw => k' = k ∧ Takes json options _ k' raw)]
  constructor
  · rintro ⟨_, raw, hraw, rfl, ht⟩
    use raw, hraw
  · rintro ⟨raw, hraw, ht⟩
    use k, raw, hraw

omit [StringAny V] in
/-- The entries of the client after a collection. -/
theorem entry_persisterGc (client : QueryClient V) (storage : QueryStorage) (wall : SystemTime)
    (t : String) :
  ((persisterGc json options client storage wall).1.slot t).entry
    = if ∃ k raw, storage.lookup k = some raw ∧ Takes json options (unixNowMs wall) k raw ∧
          k.toList <+: (storageKey options t).toList
      then (client.slot t).markStale.entry else (client.slot t).entry
  := by
  rw [persisterGc, entry_foldl_gcEntry]
  apply if_congr _ rfl rfl
  rw [Table.exists_lookup_iff (p := fun k raw => Takes json options _ k raw ∧
    k.toList <+: (storageKey options t).toList)]

/-! ### What a collection should do -/

/-- Where the storage had a value it has one no more. -/
def Removed (shared : SharedStorage) (storage : QueryStorage) (k : String) (q : StoredQuery) :
    Prop :=
  shared.entries.lookup k = some q ∧ storage.lookup k = none

/-- A collection removes from the storage what its persister stored and drops, and nothing
else, and marks stale the entries cached under the query hash of something removed, and no
others. -/
structure CollectsExactly (json : PersisterJson V) (options : QueryPersisterOptions)
    (client : QueryClient V) (shared : SharedStorage) (wall : SystemTime) : Prop where
  removed : ∀ k q, shared.entries.lookup k = some q →
    ((persisterGc json options client shared.storage wall).2.1.lookup k = none ↔
      q.keyPrefix = options.keyPrefix ∧ dropsEntry json options (unixNowMs wall) q.value = true)
  kept : ∀ k, (persisterGc json options client shared.storage wall).2.1.lookup k = none ∨
    (persisterGc json options client shared.storage wall).2.1.lookup k = shared.storage.lookup k
  marked : ∀ t,
    (∃ k q, Removed shared (persisterGc json options client shared.storage wall).2.1 k q ∧
      q.queryHash = t) →
    ((persisterGc json options client shared.storage wall).1.slot t).entry
      = (client.slot t).markStale.entry
  unmarked : ∀ t,
    (¬ ∃ k q, Removed shared (persisterGc json options client shared.storage wall).2.1 k q ∧
      q.queryHash = t) →
    ((persisterGc json options client shared.storage wall).1.slot t).entry = (client.slot t).entry

/-- The persister would drop what is stored in its name under the query hash. -/
def DropsOwn (json : PersisterJson V) (options : QueryPersisterOptions) (shared : SharedStorage)
    (now : Nat) (queryHash : String) : Prop :=
  ∃ q, shared.entries.lookup (storageKey options queryHash) = some q ∧
    q.keyPrefix = options.keyPrefix ∧ dropsEntry json options now q.value = true

/-- No persister whose storage keys begin with the prefix and its separator, other than
this one, has stored something that this one would drop. -/
def TellsOwn (json : PersisterJson V) (options : QueryPersisterOptions) (shared : SharedStorage)
    (now : Nat) : Prop :=
  ∀ k q, shared.entries.lookup k = some q → Takes json options now k q.value →
    q.keyPrefix = options.keyPrefix

/-- A fresh entry whose cache key begins with a query hash that is dropped is cached under
one that is. -/
def TellsHashes (json : PersisterJson V) (options : QueryPersisterOptions)
    (client : QueryClient V) (shared : SharedStorage) (now : Nat) : Prop :=
  ∀ queryHash t, DropsOwn json options shared now queryHash →
    queryHash.toList <+: t.toList → (∃ e ∈ (client.slot t).entry, e.isStale = false) →
    DropsOwn json options shared now t

omit [StringAny V] in
/-- What the persister stored is under a key it takes. -/
theorem takes_of_own {now : Nat} {k : String} {q : StoredQuery}
    (hq : shared.entries.lookup k = some q) (hown : q.keyPrefix = options.keyPrefix)
    (hdrops : dropsEntry json options now q.value = true) :
  storageKey options q.queryHash = k ∧ Takes json options now k q.value
  := by
  have hkey : storageKey options q.queryHash = k := by
    rw [← shared.keyed k q hq, StoredQuery.storageKey, storageKey, storageKey, hown]
  use hkey
  apply takes_iff.mpr ⟨q.queryHash, hkey, hdrops⟩

omit [StringAny V] in
/-- What is removed from a shared storage. -/
theorem lookup_shared_eq_none_iff {k : String} {q : StoredQuery}
    (hq : shared.entries.lookup k = some q) :
  (persisterGc json options client shared.storage wall).2.1.lookup k = none ↔
    Takes json options (unixNowMs wall) k q.value
  := by
  rw [lookup_persisterGc, SharedStorage.agrees, hq, Option.map_some]
  constructor
  · intro h
    by_contra ht
    rw [if_neg] at h
    · contradiction
    · rintro ⟨raw, hraw, ht'⟩
      rw [← Option.some.inj hraw] at ht'
      apply ht ht'
  · intro ht
    apply if_pos ⟨q.value, rfl, ht⟩

omit [StringAny V] in
variable (client) in
/-- What is removed in the name of a query hash, where the persister tells its own. -/
theorem exists_removed_iff (h : TellsOwn json options shared (unixNowMs wall)) (t : String) :
  (∃ k q, Removed shared (persisterGc json options client shared.storage wall).2.1 k q ∧
      q.queryHash = t) ↔
    DropsOwn json options shared (unixNowMs wall) t
  := by
  constructor
  · rintro ⟨k, q, ⟨hq, hnone⟩, rfl⟩
    have ht := (lookup_shared_eq_none_iff hq).mp hnone
    have hown := h k q hq ht
    use q, (takes_of_own hq hown ht.2).1 ▸ hq, hown, ht.2
  · rintro ⟨q, hq, hown, hdrops⟩
    obtain ⟨hkey, ht⟩ := takes_of_own hq hown hdrops
    use storageKey options t, q, ⟨hq, (lookup_shared_eq_none_iff hq).mpr ht⟩
    apply storageKey_injective hkey

omit [StringAny V] in
/-- What a collection marks, where the persister tells its own: what begins with a query
hash it drops. -/
theorem exists_takes_iff
    (h : TellsOwn json options shared (unixNowMs wall)) (t : String) :
  (∃ k raw, shared.storage.lookup k = some raw ∧ Takes json options (unixNowMs wall) k raw ∧
      k.toList <+: (storageKey options t).toList) ↔
    ∃ queryHash, DropsOwn json options shared (unixNowMs wall) queryHash ∧
      queryHash.toList <+: t.toList
  := by
  constructor
  · rintro ⟨k, raw, hraw, ht, hpre⟩
    rw [SharedStorage.agrees, Option.map_eq_some_iff] at hraw
    obtain ⟨q, hq, rfl⟩ := hraw
    obtain ⟨hkey, -⟩ := takes_of_own hq (h k q hq ht) ht.2
    rw [← hkey, toList_storageKey, toList_storageKey, List.prefix_append_right_inj] at hpre
    use q.queryHash, ⟨q, hkey ▸ hq, h k q hq ht, ht.2⟩
  · rintro ⟨queryHash, ⟨q, hq, hown, hdrops⟩, hpre⟩
    use storageKey options queryHash, q.value, by simp [shared.agrees, hq], (takes_of_own hq hown hdrops).2
    rwa [toList_storageKey, toList_storageKey, List.prefix_append_right_inj]

omit [StringAny V] in
/-- A collection is exact just when the persister tells what it stored from what others
did, and the query hashes it drops from the cache keys that begin with them. -/
theorem collectsExactly_iff :
  CollectsExactly json options client shared wall ↔
    TellsOwn json options shared (unixNowMs wall) ∧
      TellsHashes json options client shared (unixNowMs wall)
  := by
  have hentry (t : String) : ((persisterGc json options client shared.storage wall).1.slot t).entry
      = _ := entry_persisterGc client shared.storage wall t
  constructor
  · intro h
    have tellsOwn : TellsOwn json options shared (unixNowMs wall) := by
      intro k q hq ht
      apply ((h.removed k q hq).mp ((lookup_shared_eq_none_iff hq).mpr ht)).1
    use tellsOwn
    rintro queryHash t ⟨q, hq, hown, hdrops⟩ hpre ⟨e, he, hfresh⟩
    rw [← exists_removed_iff client tellsOwn]
    by_contra hnone
    have hsame := h.unmarked t hnone
    rw [hentry, if_pos, QueryClient.markStale_entry_eq_iff] at hsame
    · rw [hsame e he] at hfresh
      contradiction
    · rw [exists_takes_iff tellsOwn]
      use queryHash, ⟨q, hq, hown, hdrops⟩
  · rintro ⟨tellsOwn, tellsHashes⟩
    constructor
    case removed =>
      intro k q hq
      rw [lookup_shared_eq_none_iff hq]
      constructor
      · intro ht
        exact ⟨tellsOwn k q hq ht, ht.2⟩
      · rintro ⟨hown, hdrops⟩
        apply (takes_of_own hq hown hdrops).2
    case kept =>
      intro k
      rw [lookup_persisterGc]
      split
      · left
        rfl
      · right
        rfl
    case marked =>
      intro t hremoved
      rw [exists_removed_iff client tellsOwn] at hremoved
      rw [hentry, if_pos]
      rw [exists_takes_iff tellsOwn]
      use t, hremoved
    case unmarked =>
      intro t hremoved
      rw [exists_removed_iff client tellsOwn] at hremoved
      rw [hentry, ite_eq_right_iff, exists_takes_iff tellsOwn]
      rintro ⟨queryHash, hdrops, hpre⟩
      -- what begins with a query hash dropped was stale already
      rw [QueryClient.markStale_entry_eq_iff]
      intro e he
      rw [← Bool.not_eq_false]
      intro hfresh
      apply hremoved (tellsHashes queryHash t hdrops hpre ⟨e, he, hfresh⟩)

/-- `serde_json` on a query of the name of a user. -/
def userJson : PersisterJson (String ⊕ Nat) where
  toString := fun name => .ok ("\"" ++ name ++ "\"")
  fromStr := fun _ _ => .error "unsupported"
  queryToString := fun query => .ok query.queryHash
  queryFromStr := fun text => .ok
    { buster := ""
      queryHash := text
      queryKey := [text]
      state := { dataJson := some "\"ada\"", dataUpdatedAtMs := some 0, error := none } }

/-- A client that has cached the name of a user. -/
def userCached : QueryClient (String ⊕ Nat) :=
  .setQueryData .new 0 (.new "user") (.inl "ada") {}

/-- The persister of the prefix `a` removes what the persister of the prefix `a-b` has
persisted, which has another buster. -/
theorem not_collectsExactly_prefixes :
  ∃ (storage : QueryStorage) (shared : SharedStorage),
    persistQuery userJson { keyPrefix := "a-b" } userCached ∅ 0 (.new "user") = .ok storage ∧
      shared.storage = storage ∧
      ¬ CollectsExactly userJson { keyPrefix := "a", buster := "v2" } userCached shared 0
  := by
  have hpersist : persistQuery userJson { keyPrefix := "a-b" } userCached
      SharedStorage.empty.storage 0 (.new "user")
        = .ok ((∅ : QueryStorage).insert "a-b-user" "user") := rfl
  obtain hnothing | ⟨value, hstored⟩ := persistQuery_shared hpersist
  · have hsome := AList.lookup_insert (b := "user") (∅ : QueryStorage) (a := "a-b-user")
    rw [hnothing] at hsome
    contradiction
  · refine ⟨_, SharedStorage.empty.store ⟨"a-b", "user", value⟩, hpersist, hstored.symm, ?_⟩
    intro h
    have hremoved := h.removed "a-b-user" ⟨"a-b", "user", value⟩ rfl
    rw [lookup_shared_eq_none_iff rfl, takes_iff] at hremoved
    have hforeign : "a-b" = "a" := (hremoved.mp ⟨"b-user", rfl, rfl⟩).1
    revert hforeign
    decide

end QueryPersister

end RsQuery
