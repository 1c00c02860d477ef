import RsQuery.Calls

/-!
# Calls that revise what is there

Most calls are loops over the selected keys that withdraw registrations, mark entries
stale, evict them and notify subscribers, and do nothing else.  So a relation between
clients that is reflexive, transitive and contains these four contains what such a call
does, however many keys it selects.
-/

namespace RsQuery

variable {V : Type}

/-- The call withdraws, marks stale, evicts and notifies, and nothing else. -/
def Call.Revises : Call V → Bool
  | .invalidateQueries _ | .cancelQuery _ | .cancelQueries _ | .resetQueries _ => true
  | .removeQueries _ | .invalidateQueriesFiltered _ | .refetchQueries _ _ => true
  | .refetchAllStale | .handleReconnect | .notifySubscribers _ _ => true
  | .setQueryData _ _ _ | .clear | .gc | .subscribe _ => false
  | .setDefaultOptions _ | .setIsRestoring _ | .setOnline _ => false

namespace QueryClient

/-- A preorder on clients in which each of the four changes is a step up. -/
structure Revision (P : QueryClient V → QueryClient V → Prop) : Prop where
  refl : ∀ c, P c c
  trans : ∀ {c c' c''}, P c c' → P c' c'' → P c c''
  withdraw : ∀ c k, P c (c.withdraw k)
  markStale : ∀ c k, P c (c.markStale k)
  evict : ∀ c k, P c (c.evict k)
  notify : ∀ c k v, P c (c.notifySubscribers k v)

namespace Revision

variable {P : QueryClient V → QueryClient V → Prop} (h : Revision P) (c : QueryClient V)

include h

/-- A loop goes up if its body does. -/
theorem forEach
    {β : Type} {body : QueryClient V → β → QueryClient V × Nat} (hbody : ∀ c b, P c (body c b).1)
    (bs : List β) (c : QueryClient V) :
  P c (QueryClient.forEach body bs c).1
  := by
  induction bs generalizing c with
  | nil => apply h.refl
  | cons b bs ih => apply h.trans (hbody c b) (ih _)

theorem invalidateKey (k : String) :
  P c (c.invalidateKey k)
  := by
  unfold QueryClient.invalidateKey
  apply h.trans (h.withdraw c k)
  simp only
  split
  · apply h.trans (h.markStale _ _) (h.notify _ _ _)
  · apply h.refl

theorem cancelKey (k : String) :
  P c (c.cancelKey k).1
  := by
  unfold QueryClient.cancelKey
  split
  · apply h.trans (h.withdraw c k) (h.notify _ _ _)
  · apply h.refl

theorem dropKey (variant : QueryStateVariant) (k : String) :
  P c (c.dropKey variant k).1
  := by
  apply h.trans (h.withdraw c k)
  apply h.trans (h.evict _ _) (h.notify _ _ _)

theorem triggerRefetch (k : String) :
  P c (c.triggerRefetch k)
  := by
  apply h.trans (h.withdraw c k)
  apply h.trans (h.markStale _ _) (h.notify _ _ _)

theorem refetchKey (cancelRefetch isStale : Bool) (k : String) :
  P c (c.refetchKey cancelRefetch isStale k).1
  := by
  unfold QueryClient.refetchKey
  split
  · apply h.refl
  · simp only
    split
    · apply h.refl
    · cases cancelRefetch with
      | false => apply h.trans (h.markStale _ _) (h.notify _ _ _)
      | true => apply h.triggerRefetch

theorem refreshKey (allows : CacheEntry V → Bool) (k : String) :
  P c (c.refreshKey allows k)
  := by
  unfold QueryClient.refreshKey
  split
  · split
    · apply h.trans (h.markStale _ _) (h.notify _ _ _)
    · apply h.refl
  · apply h.refl

/-- Calls that revise go up. -/
theorem apply [PartialEqAny V] {call : Call V} (hcall : call.Revises = true) (now : Instant) :
  P c (call.apply now c)
  := by
  cases call with
  | invalidateQueries pattern => apply h.forEach fun c k => h.invalidateKey c k
  | cancelQuery key => apply h.cancelKey
  | cancelQueries filters =>
    apply h.forEach fun c (m : String × QuerySnapshot) => h.cancelKey c m.1
  | resetQueries filters =>
    apply h.forEach fun c (m : String × QuerySnapshot) => h.dropKey c .loading m.1
  | removeQueries filters =>
    apply h.forEach fun c (m : String × QuerySnapshot) => h.dropKey c .error m.1
  | invalidateQueriesFiltered filters =>
    have marked (ms : List (String × QuerySnapshot)) (c : QueryClient V) :
        P c (QueryClient.forEach (uncounted fun c m => c.markStale m.1) ms c).1 :=
      h.forEach (fun c m => h.markStale c m.1) ms c
    apply h.trans (marked _ c)
    apply h.forEach
    exact fun c m => h.triggerRefetch c m.1
  | refetchQueries filters opts =>
    apply h.forEach fun c (m : String × QuerySnapshot) => h.refetchKey c _ _ m.1
  | refetchAllStale => apply h.forEach fun c k => h.refreshKey c _ k
  | handleReconnect => apply h.forEach fun c k => h.refreshKey c _ k
  | notifySubscribers cacheKey variant => apply h.notify
  | setQueryData | clear | gc | subscribe | setDefaultOptions | setIsRestoring | setOnline =>
    contradiction

end Revision

end QueryClient

end RsQuery
