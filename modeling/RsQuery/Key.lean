import RsQuery.Lib.Separator

/-!
# Query keys

A query key is a list of segments together with the string under which the query is
cached, which joins them with `"::"`.  A key grown from no segments at all keeps the
empty string as its first joined piece, so the pieces of a key are its segments, or
its segments after an empty one.

Segments are not escaped when they are joined.  `QueryKey.cacheKey_inj_iff` says which
keys can be told from their cache key: those whose segments do not lean on a separator.
-/

namespace RsQuery

/-- Strings joined with `"::"`. -/
def joinSegments : List String → String
  | [] => ""
  | [s] => s
  | s :: t :: ss => s ++ "::" ++ joinSegments (t :: ss)

/-- `str::split("::")`. -/
def splitSegments (s : String) : List String :=
  (Separator.split ':' s.toList).map String.ofList

theorem toList_joinSegments (ss : List String) :
  (joinSegments ss).toList = Separator.join ':' (ss.map String.toList)
  := by
  induction ss with
  | nil => rfl
  | cons s ss ih =>
    cases ss with
    | nil => rfl
    | cons t ss =>
      rw [joinSegments, String.toList_append, String.toList_append, ih]
      simp [Separator.join]

theorem joinSegments_concat {ss : List String} {s : String} (h : ss ≠ []) :
  joinSegments (ss ++ [s]) = joinSegments ss ++ "::" ++ s
  := by
  rw [← String.toList_inj]
  simp only [String.toList_append, toList_joinSegments, List.map_append, List.map_singleton]
  rw [Separator.join_concat (by simpa using h)]
  simp

/-- A hierarchical key for identifying queries in the cache. -/
structure QueryKey where
  segments : List String
  /-- Pre-computed cache key string. -/
  cacheKey : String
  joined : cacheKey = joinSegments segments ∨
    segments ≠ [] ∧ cacheKey = joinSegments ("" :: segments)
deriving DecidableEq

namespace QueryKey

/-- A key with an initial segment. -/
def new (segment : String) : QueryKey :=
  ⟨[segment], segment, .inl rfl⟩

/-- The key of no segments. -/
def empty : QueryKey :=
  ⟨[], "", .inl rfl⟩

/-- Adds a plain segment. -/
def segment (k : QueryKey) (name : String) : QueryKey where
  segments := k.segments ++ [name]
  cacheKey := k.cacheKey ++ "::" ++ name
  joined := by
    obtain h | ⟨hne, h⟩ := k.joined
    · by_cases hne : k.segments = []
      · right
        rw [h, hne]
        exact ⟨by simp, rfl⟩
      · left
        rw [joinSegments_concat hne, h]
    · right
      rw [← List.cons_append, joinSegments_concat (by simp), h]
      exact ⟨by simp, rfl⟩

@[simp]
theorem segment_segments (k : QueryKey) (name : String) :
  (k.segment name).segments = k.segments ++ [name]
  := rfl

@[simp]
theorem segment_cacheKey (k : QueryKey) (name : String) :
  (k.segment name).cacheKey = k.cacheKey ++ "::" ++ name
  := rfl

/-- Adds a parameter segment, `label=value`. -/
def withParam {α : Type} [ToString α] (k : QueryKey) (label : String) (value : α) : QueryKey :=
  k.segment (label ++ "=" ++ toString value)

/-- A key from raw segments. -/
def fromSegments : List String → QueryKey
  | [] => empty
  | first :: rest => rest.foldl segment (new first)

/-- Whether the key starts with `pre` segment-wise. -/
def startsWith (k pre : QueryKey) : Bool :=
  decide (k.segments.length ≥ pre.segments.length) &&
    k.segments.take pre.segments.length == pre.segments

theorem startsWith_iff {k pre : QueryKey} :
  k.startsWith pre = true ↔ pre.segments <+: k.segments
  := by
  rw [startsWith, Bool.and_eq_true, decide_eq_true_iff, beq_iff_eq, List.prefix_iff_eq_take]
  constructor
  · rintro ⟨-, h⟩
    apply h.symm
  · intro h
    use List.IsPrefix.length_le (List.prefix_iff_eq_take.mpr h), h.symm

theorem foldl_segment_segments (ss : List String) (k : QueryKey) :
  (ss.foldl segment k).segments = k.segments ++ ss
  := by
  induction ss generalizing k with
  | nil => simp
  | cons s ss ih => simp [ih]

theorem fromSegments_segments (ss : List String) :
  (fromSegments ss).segments = ss
  := by
  cases ss with
  | nil => rfl
  | cons s ss => apply foldl_segment_segments

/-! ### The pieces of a cache key -/

/-- What the cache key of a key joins: the segments, after an empty one where the key
was grown from no segments. -/
def pieces (k : QueryKey) : List String :=
  if k.cacheKey = joinSegments k.segments then k.segments else "" :: k.segments

theorem joinSegments_pieces (k : QueryKey) :
  joinSegments k.pieces = k.cacheKey
  := by
  unfold pieces
  split
  · next h => rw [h]
  · next h =>
    obtain h' | ⟨-, h'⟩ := k.joined
    · contradiction
    · rw [h']

/-- The cache key as a list of characters. -/
theorem toList_cacheKey (k : QueryKey) :
  k.cacheKey.toList = Separator.join ':' (k.pieces.map String.toList)
  := by
  rw [← joinSegments_pieces, toList_joinSegments]

/-- The keys made by `new` followed by any number of `with_param` and `segment`. -/
inductive Built : QueryKey → Prop where
  | new (s : String) : Built (new s)
  | segment {k : QueryKey} (name : String) : Built k → Built (k.segment name)
  | withParam {k : QueryKey} {α : Type} [ToString α] (label : String) (value : α) :
      Built k → Built (k.withParam label value)

/-- A built key has segments, and its cache key joins them. -/
theorem Built.joins {k : QueryKey} (h : k.Built) :
  k.segments ≠ [] ∧ k.cacheKey = joinSegments k.segments
  := by
  have step {k : QueryKey} (name : String)
      (ih : k.segments ≠ [] ∧ k.cacheKey = joinSegments k.segments) :
      (k.segment name).segments ≠ [] ∧
        (k.segment name).cacheKey = joinSegments (k.segment name).segments := by
    use by simp
    rw [segment_segments, segment_cacheKey, joinSegments_concat ih.1, ih.2]
  induction h with
  | new s => exact ⟨by simp [QueryKey.new], rfl⟩
  | segment name _ ih => apply step name ih
  | withParam label value _ ih => apply step _ ih

/-- Every nonempty list of segments is that of a built key. -/
theorem built_fromSegments {ss : List String} (h : ss ≠ []) :
  (fromSegments ss).Built
  := by
  have foldl (ss : List String) : ∀ {k : QueryKey}, k.Built → (ss.foldl segment k).Built := by
    induction ss with
    | nil => exact id
    | cons s ss ih => exact fun h => ih (.segment s h)
  cases ss with
  | nil => contradiction
  | cons s ss => apply foldl ss (.new s)

/-! ### Telling keys from their cache key -/

/-- No segment of the key contains `"::"`. -/
def Undoubled (k : QueryKey) : Prop :=
  ∀ s ∈ k.segments, ¬ [':', ':'] <:+: s.toList

/-- No segment of the key leans on a separator: none that another follows ends with a
colon, none that follows another begins with one, and none between two others is empty. -/
def Spaced (k : QueryKey) : Prop :=
  Separator.Spaced ':' (k.segments.map String.toList)

theorem undoubled_iff {k : QueryKey} :
  k.Undoubled ↔ Separator.Undoubled ':' (k.segments.map String.toList)
  := by
  simp [Undoubled, Separator.Undoubled]

/-- Among the keys without `"::"` in a segment, exactly the spaced ones share their
cache key with no key of other segments. -/
theorem cacheKey_inj_iff (k : QueryKey) (hk : k.Built) (hd : k.Undoubled) :
  (∀ k' : QueryKey, k'.Built → k'.Undoubled → k'.cacheKey = k.cacheKey →
    k'.segments = k.segments) ↔ k.Spaced
  := by
  obtain ⟨hne, hkey⟩ := hk.joins
  have injective : Function.Injective (List.map String.toList) :=
    List.map_injective_iff.mpr fun _ _ => String.toList_inj.mp
  rw [Spaced, ← Separator.join_inj_iff_spaced (by simpa using hne) (undoubled_iff.mp hd)]
  constructor
  · intro h ts hts hdt heq
    -- the segments `ts` are those of a key
    have hmap : (ts.map String.ofList).map String.toList = ts := by simp
    have hsegments := fromSegments_segments (ts.map String.ofList)
    have hbuilt : (fromSegments (ts.map String.ofList)).Built :=
      built_fromSegments (by simpa using hts)
    rw [← hmap, ← h _ hbuilt, hsegments]
    · rw [undoubled_iff, hsegments, hmap]
      apply hdt
    · rw [hbuilt.joins.2, hsegments, hkey, ← String.toList_inj, toList_joinSegments,
        toList_joinSegments, hmap, heq]
  · intro h k' hk' hd' heq
    obtain ⟨hne', hkey'⟩ := hk'.joins
    apply injective
    apply h _ (by simpa using hne') (undoubled_iff.mp hd')
    rw [← toList_joinSegments, ← toList_joinSegments, ← hkey, ← hkey', heq]

theorem cacheKey_inj_iff_users :
  (∀ k' : QueryKey, k'.Built → k'.Undoubled → k'.cacheKey = ((new "users").segment "id=1").cacheKey →
    k'.segments = ((new "users").segment "id=1").segments) ↔ ((new "users").segment "id=1").Spaced
  := by
  apply cacheKey_inj_iff ((new "users").segment "id=1") (.segment _ (.new _))
  simp only [Undoubled, segment_segments, new, List.singleton_append, List.forall_mem_cons]
  decide

/-- A colon at the end of a segment moves over the separator: `["a:", "b"]` and
`["a", ":b"]` are cached under the same string. -/
theorem cacheKey_not_injective :
  ¬ ∀ k k' : QueryKey, k.Built → k'.Built → k.Undoubled → k'.Undoubled →
    k.cacheKey = k'.cacheKey → k.segments = k'.segments
  := by
  intro h
  have := h ((new "a:").segment "b") ((new "a").segment ":b") (.segment _ (.new _))
    (.segment _ (.new _))
  simp only [Undoubled, segment_segments, segment_cacheKey, new] at this
  revert this
  decide

/-! ### Rebuilding a key from its cache key -/

theorem splitSegments_ne_nil (s : String) :
  splitSegments s ≠ []
  := by
  simpa [splitSegments] using Separator.split_ne_nil s.toList

theorem map_toList_splitSegments (s : String) :
  (splitSegments s).map String.toList = Separator.split ':' s.toList
  := by
  simp [splitSegments]

/-- The key rebuilt from a string is cached under it. -/
theorem cacheKey_rebuilt (s : String) :
  (fromSegments (splitSegments s)).cacheKey = s
  := by
  rw [(built_fromSegments (splitSegments_ne_nil s)).joins.2, fromSegments_segments,
    ← String.toList_inj, toList_joinSegments, map_toList_splitSegments, Separator.join_split]

/-- Splitting any string and joining the pieces is the identity, and no piece contains
`"::"`. -/
theorem cacheKey_fromSegments_splitSegments (s : String) :
  (fromSegments (splitSegments s)).cacheKey = s ∧
    (fromSegments (splitSegments s)).segments ≠ [] ∧
    ∀ piece ∈ (fromSegments (splitSegments s)).segments, ¬ [':', ':'] <:+: piece.toList
  := by
  use cacheKey_rebuilt s
  rw [fromSegments_segments]
  use splitSegments_ne_nil s
  have hundoubled := Separator.undoubled_split (c := ':') s.toList
  rw [← map_toList_splitSegments] at hundoubled
  intro piece hpiece
  apply hundoubled piece.toList (List.mem_map_of_mem hpiece)

end QueryKey

end RsQuery
