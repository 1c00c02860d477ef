import RsQuery.Lib.Machine

/-!
# Hiding steps from an observer

Some steps of a machine are hidden from an observer, depending on the state they are
taken in.  `Machine.visible` keeps the others of a list of actions.  A relation unwinds
the machine if hidden steps on its left keep it, and each visible step on its left can be
taken on its right too and keeps it.  The visible actions of an execution then make an
execution of their own, which ends in a related state: what was hidden has not been seen.
-/

namespace Machine

variable {σ α : Type*} {M : Machine σ α} {hidden : σ → α → Prop} {R : σ → σ → Prop}

/-- The actions that are not hidden in the state they are taken in. -/
def visible (M : Machine σ α) (hidden : σ → α → Prop) [∀ s a, Decidable (hidden s a)] :
    σ → List α → List α
  | _, [] => []
  | s, a :: as =>
    match M.step s a with
    | none => []
    | some t => if hidden s a then visible M hidden t as else a :: visible M hidden t as

/-- Hidden steps on the left keep the relation, and visible ones can be followed. -/
structure Unwinds (M : Machine σ α) (hidden : σ → α → Prop) (R : σ → σ → Prop) : Prop where
  hides : ∀ {s s' t a}, R s t → hidden s a → M.step s a = some s' → R s' t
  follows : ∀ {s s' t a}, R s t → ¬ hidden s a → M.step s a = some s' →
    ∃ t', M.step t a = some t' ∧ R s' t'

/-- The visible actions of an execution can be executed on the other side. -/
theorem Unwinds.exec
    [∀ s a, Decidable (hidden s a)] (h : M.Unwinds hidden R) {as : List α} {s s' t : σ}
    (hR : R s t) (hs : M.exec s as = some s') :
  ∃ t', M.exec t (M.visible hidden s as) = some t' ∧ R s' t'
  := by
  induction as generalizing s t with
  | nil =>
      obtain rfl := Option.some.inj hs
      exact ⟨t, rfl, hR⟩
  | cons a as ih =>
      obtain ⟨u, hu, hs⟩ := Option.bind_eq_some_iff.mp hs
      rw [visible, hu]
      simp only
      split
      · next hhidden => apply ih (h.hides hR hhidden hu) hs
      · next hvisible =>
        obtain ⟨v, hv, hR⟩ := h.follows hR hvisible hu
        rw [exec_cons hv]
        apply ih hR hs

end Machine
