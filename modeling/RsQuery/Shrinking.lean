import RsQuery.Hydration
import RsQuery.Lib.FirstMin

/-!
# Shrinking a dehydrated state

A snapshot that cannot be restored is made smaller by removing its oldest query, as often as
the caller likes.  Each call looks for the oldest query anew, and removing a query moves
those after it.  Successive calls remove the queries in the order of their fetch times
nevertheless, a missing time being the oldest, and in the order of the list among equal
times.
-/

namespace RsQuery

namespace DehydratedQuery

/-- The fetch time of a query, oldest where it is missing. -/
def fetchTime (query : DehydratedQuery) : Nat :=
  query.fetchedAtMs.getD 0

end DehydratedQuery

namespace DehydratedState

/-- Removes the query fetched first, and tells whether there was one. -/
def removeOldestQuery (clientState : DehydratedState) : Bool × DehydratedState :=
  match FirstMin.firstMin DehydratedQuery.fetchTime clientState.queries with
  | some index => (true, { clientState with queries := clientState.queries.eraseIdx index })
  | none => (false, clientState)

/-- Successive calls of `remove_oldest_query`, with what they return. -/
def removeOldestQueries : Nat → DehydratedState → List Bool × DehydratedState
  | 0, clientState => ([], clientState)
  | k + 1, clientState =>
    let (removed, clientState) := clientState.removeOldestQuery
    let (results, clientState) := removeOldestQueries k clientState
    (removed :: results, clientState)

/-- The state with other queries. -/
def withQueries (s : DehydratedState) (queries : List DehydratedQuery) : DehydratedState :=
  { s with queries }

theorem removeOldestQuery_nil {s : DehydratedState} (h : s.queries = []) :
  s.removeOldestQuery = (false, s)
  := by
  rw [removeOldestQuery, FirstMin.firstMin_eq_none_iff.mpr h]

theorem removeOldestQuery_of_ne_nil {s : DehydratedState} (h : s.queries ≠ []) :
  s.removeOldestQuery
    = (true, s.withQueries (FirstMin.removeMin DehydratedQuery.fetchTime s.queries))
  := by
  cases hindex : FirstMin.firstMin DehydratedQuery.fetchTime s.queries with
  | none =>
    exfalso
    apply h (FirstMin.firstMin_eq_none_iff.mp hindex)
  | some index =>
    rw [removeOldestQuery, FirstMin.removeMin, hindex]
    rfl

/-- A loop that calls `remove_oldest_query` until it returns `false`: how often it has
called it, and the state it leaves. -/
def removeUntilNone (clientState : DehydratedState) : Nat × DehydratedState :=
  match _h : clientState.removeOldestQuery with
  | (true, smaller) =>
    let (calls, last) := removeUntilNone smaller
    (calls + 1, last)
  | (false, last) => (1, last)
termination_by clientState.queries.length
decreasing_by
  by_cases hne : clientState.queries = []
  · cases (removeOldestQuery_nil hne).symm.trans _h
  · cases (removeOldestQuery_of_ne_nil hne).symm.trans _h
    rw [withQueries, FirstMin.length_removeMin]
    have := List.length_pos_iff.mpr hne
    omega

/-- The queries of a state, by fetch time and among equal times by position. -/
def oldestFirst (s : DehydratedState) : List (DehydratedQuery × Nat) :=
  FirstMin.stableOrder DehydratedQuery.fetchTime s.queries

/-- The queries without the first `k` of the order, in the order of the list. -/
def withoutOldest (s : DehydratedState) (k : Nat) : List DehydratedQuery :=
  (s.queries.zipIdx.filter fun p => p.2 ∉ (s.oldestFirst.take k).map Prod.snd).map Prod.fst

/-- Each call removes the first minimum, while there is one. -/
theorem removeOldestQueries_eq (k : Nat) (s : DehydratedState) :
  s.removeOldestQueries k
    = (.replicate (min k s.queries.length) true ++ .replicate (k - s.queries.length) false,
        s.withQueries ((FirstMin.removeMin DehydratedQuery.fetchTime)^[k] s.queries))
  := by
  induction k generalizing s with
  | zero =>
    rw [Nat.zero_min, Nat.zero_sub]
    rfl
  | succ k ih =>
    rw [removeOldestQueries, Function.iterate_succ_apply]
    by_cases hne : s.queries = []
    · rw [removeOldestQuery_nil hne]
      simp only [ih, hne]
      simp [FirstMin.removeMin_nil, List.replicate_succ]
    · rw [removeOldestQuery_of_ne_nil hne]
      obtain ⟨n, hn⟩ := Nat.exists_eq_succ_of_ne_zero (mt List.length_eq_zero_iff.mp hne)
      have hlength : (FirstMin.removeMin DehydratedQuery.fetchTime s.queries).length = n := by
        rw [FirstMin.length_removeMin, hn]
        rfl
      simp only [ih, withQueries, hlength, hn, Nat.succ_eq_add_one, Nat.add_min_add_right,
        Nat.add_sub_add_right, List.replicate_succ, List.cons_append]

theorem removeUntilNone_nil {s : DehydratedState} (h : s.queries = []) :
  s.removeUntilNone = (1, s)
  := by
  rw [removeUntilNone]
  split
  · next heq => cases (removeOldestQuery_nil h).symm.trans heq
  · next heq =>
    cases (removeOldestQuery_nil h).symm.trans heq
    rfl

theorem removeUntilNone_of_ne_nil {s : DehydratedState} (h : s.queries ≠ []) :
  let smaller := s.withQueries (FirstMin.removeMin DehydratedQuery.fetchTime s.queries)
  s.removeUntilNone = (smaller.removeUntilNone.1 + 1, smaller.removeUntilNone.2)
  := by
  intro smaller
  rw [removeUntilNone]
  split
  · next heq =>
    cases (removeOldestQuery_of_ne_nil h).symm.trans heq
    rfl
  · next heq => cases (removeOldestQuery_of_ne_nil h).symm.trans heq

/-- The loop makes one call for each query and one more. -/
theorem removeUntilNone_eq {s : DehydratedState} {n : Nat} (hn : s.queries.length = n) :
  s.removeUntilNone = (n + 1, s.withQueries [])
  := by
  induction n generalizing s with
  | zero =>
    have hnil := List.length_eq_zero_iff.mp hn
    rw [removeUntilNone_nil hnil, withQueries, ← hnil]
  | succ n ih =>
    have hne : s.queries ≠ [] := List.ne_nil_of_length_eq_add_one hn
    rw [removeUntilNone_of_ne_nil hne, ih]
    · rfl
    · rw [withQueries, FirstMin.length_removeMin, hn]
      rfl

/-- Successive calls of `remove_oldest_query` remove the oldest queries first and keep all
else, and a loop calling it until it returns `false` ends with no queries. -/
theorem removeOldestQuery_oldest_first (s : DehydratedState) :
  (∀ k, s.removeOldestQueries k
    = (.replicate (min k s.queries.length) true ++ .replicate (k - s.queries.length) false,
        s.withQueries (s.withoutOldest k))) ∧
  s.removeUntilNone = (s.queries.length + 1, s.withQueries [])
  := by
  constructor
  · intro k
    rw [removeOldestQueries_eq, FirstMin.iterate_removeMin]
    rfl
  · apply removeUntilNone_eq rfl

end DehydratedState

end RsQuery
