import Mathlib.Order.Lattice
import Mathlib.Algebra.Order.Ring.Nat

/-!
# Saturating arithmetic

Products and powers of natural numbers that stop at a largest value instead of wrapping
around.  A saturated product that is capped is the exact product, capped, as long as the cap
is not above what the saturated factors reach.
-/

namespace Saturating

variable {max a b c n : Nat}

/-- The product, or the largest value where that is less. -/
def mul (max a b : Nat) : Nat :=
  min (a * b) max

/-- The power, every product of which saturates. -/
def pow (max b : Nat) : Nat → Nat
  | 0 => 1
  | n + 1 => mul max b (pow max b n)

/-- Saturating at every product is saturating at the end. -/
theorem pow_eq (hmax : 0 < max) (hb : 0 < b) (n : Nat) :
  pow max b n = min (b ^ n) max
  := by
  induction n with
  | zero => simp [pow, Nat.succ_le_of_lt hmax]
  | succ n ih =>
    rw [pow, mul, ih, Nat.pow_succ']
    rcases Nat.le_total (b ^ n) max with hle | hge
    · rw [min_eq_left hle]
    · have hpow : max ≤ b * max := Nat.le_mul_of_pos_left max hb
      have hge' : max ≤ b * b ^ n := hpow.trans (Nat.mul_le_mul_left b hge)
      rw [min_eq_right hge, min_eq_right hpow, min_eq_right hge']

/-- A cap below the largest value does not see that a product saturates. -/
theorem min_mul (hc : c ≤ max) :
  min (mul max a b) c = min (a * b) c
  := by
  rw [mul, min_assoc, min_eq_right hc]

/-- A cap does not see that a factor saturates exactly when the factor does not, or nothing
is multiplied, or the cap is reached by then. -/
theorem min_mul_pow_eq_iff (hmax : 0 < max) (hb : 0 < b) :
  min (a * pow max b n) c = min (a * b ^ n) c ↔ b ^ n ≤ max ∨ a = 0 ∨ c ≤ a * max
  := by
  rw [pow_eq hmax hb]
  constructor
  · intro h
    by_contra hno
    obtain ⟨hpow, ha, hcap⟩ : max < b ^ n ∧ 0 < a ∧ a * max < c := by
      refine ⟨?_, ?_, ?_⟩
      all_goals grind
    have hlt : a * max < a * b ^ n := Nat.mul_lt_mul_of_pos_left hpow ha
    rw [min_eq_right hpow.le, min_eq_left hcap.le] at h
    have hmin : a * max < min (a * b ^ n) c := lt_min hlt hcap
    exact absurd h hmin.ne
  · rintro (hpow | rfl | hcap)
    · rw [min_eq_left hpow]
    · simp
    · rcases Nat.le_total (b ^ n) max with hle | hge
      · rw [min_eq_left hle]
      · have hge' : c ≤ a * b ^ n := hcap.trans (Nat.mul_le_mul_left a hge)
        rw [min_eq_right hge, min_eq_right hcap, min_eq_right hge']

end Saturating
