import Mathlib.Tactic.Common

/-!
# Overriding

A value that counts as set overrides another one.  Values of one type are overridden by a
test of being set; where exactly one value is not set, overriding is a monoid with that
value as its unit.
-/

section

variable {α : Type*} (isSet : α → Prop) [DecidablePred isSet]

/-- `provided` if it is set, and `fallback` otherwise. -/
def override (fallback provided : α) : α :=
  if isSet provided then provided else fallback

/-- Exactly the one value is not set. -/
def UnsetOnly (d : α) : Prop :=
  ∀ x, isSet x ↔ x ≠ d

variable {isSet} {d : α}

theorem override_of_isSet {provided : α} (h : isSet provided) (fallback : α) :
  override isSet fallback provided = provided
  := if_pos h

theorem override_unset_left (h : UnsetOnly isSet d) (provided : α) :
  override isSet d provided = provided
  := by
  unfold override
  split
  · rfl
  · next hset =>
    rw [h, not_not] at hset
    rw [hset]

theorem override_unset_right (h : UnsetOnly isSet d) (fallback : α) :
  override isSet fallback d = fallback
  := by
  apply if_neg
  rw [h, not_not]

/-- Overriding is associative, whatever counts as set. -/
theorem override_assoc (x y z : α) :
  override isSet x (override isSet y z) = override isSet (override isSet x y) z
  := by
  by_cases hz : isSet z
  · rw [override_of_isSet hz, override_of_isSet hz, override_of_isSet hz]
  · have drop : ∀ w, override isSet w z = w := fun w => if_neg hz
    rw [drop, drop]

/-- An override is what was provided exactly where both are unset together. -/
theorem override_eq_provided_iff (h : UnsetOnly isSet d) {fallback provided : α} :
  override isSet fallback provided = provided ↔ (provided = d → fallback = d)
  := by
  unfold override
  split
  · next hset =>
    have hne : provided ≠ d := (h provided).mp hset
    simp only [hne, false_imp_iff]
  · next hset =>
    rw [h, not_not] at hset
    simp only [hset, true_imp_iff]

end

theorem unsetOnly_ne {α : Type*} (d : α) :
  UnsetOnly (· ≠ d) d
  := fun _ => Iff.rfl

theorem unsetOnly_isSome {α : Type*} :
  UnsetOnly (fun o : Option α => o.isSome = true) none
  := fun _ => Option.isSome_iff_ne_none
