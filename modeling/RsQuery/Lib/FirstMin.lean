import Mathlib.Data.List.MinMax
import Mathlib.Data.List.Sort

/-!
# Removing the first minimum

`firstMin` is the position of the first element of a list whose key is least.  A list that
its first minimum is removed from again and again loses its elements in the order of their
keys, and among equal keys in the order of their positions (`stableOrder`).  Removing an
element changes the positions of those after it, so the elements carry the position they
began with: what is left after `k` removals are the elements whose position is not among the
first `k` of the order (`iterate_removeMin`).
-/

namespace FirstMin

variable {α κ : Type*} [LinearOrder κ] (key : α → κ)

/-- The position of the first element whose key is least. -/
def firstMin (l : List α) : Option Nat :=
  (l.zipIdx.argmin fun p => key p.1).map Prod.snd

/-- The list without the first element whose key is least. -/
def removeMin (l : List α) : List α :=
  match firstMin key l with
  | some i => l.eraseIdx i
  | none => l

/-- The order by key, and by position among equal keys. -/
def Before (p q : α × Nat) : Prop :=
  key p.1 < key q.1 ∨ key p.1 = key q.1 ∧ p.2 ≤ q.2

instance : DecidableRel (Before key) :=
  fun _ _ => inferInstanceAs (Decidable (_ ∨ _))

/-- The elements of a list with their positions, by key and among equal keys by
position. -/
def stableOrder (l : List α) : List (α × Nat) :=
  l.zipIdx.insertionSort (Before key)

variable {key}

theorem firstMin_eq_none_iff {l : List α} :
  firstMin key l = none ↔ l = []
  := by
  rw [firstMin, Option.map_eq_none_iff, List.argmin_eq_none, List.zipIdx_eq_nil_iff]

variable (key) in
/-- Every element before the first minimum has a greater key, and none after it a smaller
one. -/
theorem firstMin_split (l : List α) (hl : l ≠ []) :
  ∃ l₁ m l₂, l = l₁ ++ m :: l₂ ∧ (l.zipIdx.argmin fun p => key p.1) = some (m, l₁.length) ∧
    (∀ a ∈ l₁, key m < key a) ∧ ∀ a ∈ l₂, key m ≤ key a
  := by
  induction l using List.reverseRecOn with
  | nil => contradiction
  | append_singleton l a ih =>
    rw [List.zipIdx_append, List.zipIdx_singleton, List.argmin_concat, Nat.zero_add]
    by_cases hl : l = []
    · subst hl
      use [], a, []
      simp
    obtain ⟨l₁, m, l₂, rfl, hmin, hbefore, hafter⟩ := ih hl
    rw [hmin]
    simp only
    split
    · next hlt =>
      -- the last element is the only one with its key
      use l₁ ++ m :: l₂, a, []
      refine ⟨rfl, rfl, ?_, by simp⟩
      intro b hb
      rcases List.mem_append.mp hb with hb | hb
      · apply hlt.trans (hbefore b hb)
      · rcases List.mem_cons.mp hb with rfl | hb
        · apply hlt
        · apply hlt.trans_le (hafter b hb)
    · next hle =>
      use l₁, m, l₂ ++ [a]
      refine ⟨by simp, rfl, hbefore, ?_⟩
      intro b hb
      rcases List.mem_append.mp hb with hb | hb
      · apply hafter b hb
      · rw [List.mem_singleton.mp hb]
        apply not_lt.mp hle

variable (key) in
/-- Removing the first minimum of a list that is not empty. -/
theorem removeMin_split {l : List α} (hl : l ≠ []) :
  ∃ l₁ m l₂, l = l₁ ++ m :: l₂ ∧ removeMin key l = l₁ ++ l₂ ∧
    (∀ a ∈ l₁, key m < key a) ∧ ∀ a ∈ l₂, key m ≤ key a
  := by
  obtain ⟨l₁, m, l₂, heq, hmin, hbefore, hafter⟩ := firstMin_split key l hl
  use l₁, m, l₂, heq, ?_, hbefore, hafter
  rw [removeMin, firstMin, hmin]
  simp only [Option.map_some]
  rw [heq, List.eraseIdx_append_of_length_le le_rfl, Nat.sub_self, List.eraseIdx_cons_zero]

theorem removeMin_nil :
  removeMin key [] = []
  := rfl

theorem length_removeMin (l : List α) :
  (removeMin key l).length = l.length - 1
  := by
  by_cases hl : l = []
  · rw [hl]
    rfl
  · obtain ⟨l₁, m, l₂, heq, hremoved, -⟩ := removeMin_split key hl
    rw [hremoved, heq]
    simp

/-- An element that no earlier one comes before, and that comes before all later ones, is
sorted to the front. -/
theorem insertionSort_append_cons {β : Type*} {r : β → β → Prop} [DecidableRel r] {b : β}
    {l₁ l₂ : List β} (h₁ : ∀ a ∈ l₁, ¬ r a b) (h₂ : ∀ a ∈ l₂, r b a) :
  (l₁ ++ b :: l₂).insertionSort r = b :: (l₁ ++ l₂).insertionSort r
  := by
  induction l₁ with
  | nil => apply List.insertionSort_cons_of_forall_rel r h₂
  | cons a l₁ ih =>
    rw [List.forall_mem_cons] at h₁
    rw [List.cons_append, List.insertionSort_cons, ih h₁.2, List.orderedInsert_cons,
      if_neg h₁.1]
    rfl

/-- Elements with the positions they began with. -/
def Tagged (t : List (α × Nat)) : Prop :=
  t.Pairwise fun p q => p.2 < q.2

theorem tagged_zipIdx (l : List α) :
  Tagged l.zipIdx
  := by
  rw [Tagged, ← List.pairwise_map, List.zipIdx_map_snd, ← List.range_eq_range']
  apply List.pairwise_lt_range

variable (key) in
/-- One removal takes away the first element of the order. -/
theorem removeMin_tagged {t : List (α × Nat)} (ht : Tagged t) (hne : t ≠ []) :
  ∃ m t', t.insertionSort (Before key) = m :: t'.insertionSort (Before key) ∧
    removeMin key (t.map Prod.fst) = t'.map Prod.fst ∧ t' = t.filter (fun p => p.2 ≠ m.2) ∧
    Tagged t'
  := by
  obtain ⟨l₁, a, l₂, heq, hremoved, hbefore, hafter⟩ :=
    removeMin_split key (List.map_eq_nil_iff.not.mpr hne)
  obtain ⟨t₁, u, rfl, rfl, hu⟩ := List.map_eq_append_iff.mp heq
  obtain ⟨m, t₂, rfl, rfl, rfl⟩ := List.map_eq_cons_iff.mp hu
  obtain ⟨ht₁, hmt, hlt⟩ := List.pairwise_append.mp ht
  obtain ⟨hm, ht₂⟩ := List.pairwise_cons.mp hmt
  use m, t₁ ++ t₂
  constructor
  · apply insertionSort_append_cons
    · intro p hp
      have hkey := hbefore p.1 (List.mem_map_of_mem hp)
      rintro (h | ⟨h, -⟩)
      · apply absurd h hkey.not_gt
      · apply absurd h hkey.ne'
    · intro p hp
      rcases (hafter p.1 (List.mem_map_of_mem hp)).lt_or_eq with h | h
      · left
        apply h
      · right
        use h, (hm p hp).le
  constructor
  · rw [hremoved, List.map_append]
  constructor
  · have hkeep₁ : t₁.filter (fun p => p.2 ≠ m.2) = t₁ := by
      simp only [List.filter_eq_self, decide_eq_true_iff]
      intro p hp
      apply (hlt p hp m List.mem_cons_self).ne
    have hkeep₂ : t₂.filter (fun p => p.2 ≠ m.2) = t₂ := by
      simp only [List.filter_eq_self, decide_eq_true_iff]
      intro p hp
      apply (hm p hp).ne'
    rw [List.filter_append, List.filter_cons_of_neg (by simp), hkeep₁, hkeep₂]
  · apply List.Pairwise.sublist _ ht
    simp

variable (key) in
/-- What is left of elements with positions after `k` removals. -/
theorem iterate_removeMin_tagged (k : Nat) {t : List (α × Nat)} (ht : Tagged t) :
  (removeMin key)^[k] (t.map Prod.fst) = (t.filter fun p =>
    p.2 ∉ ((t.insertionSort (Before key)).take k).map Prod.snd).map Prod.fst
  := by
  induction k generalizing t with
  | zero => simp
  | succ k ih =>
    rw [Function.iterate_succ_apply]
    by_cases hne : t = []
    · rw [hne]
      apply ih List.Pairwise.nil
    obtain ⟨m, t', horder, hremoved, heq, ht'⟩ := removeMin_tagged key ht hne
    rw [hremoved, ih ht', horder, List.take_succ_cons, List.map_cons]
    generalize (t'.insertionSort (Before key)).take k = first
    rw [heq, List.filter_filter]
    congr 1
    apply List.filter_congr
    intro p _
    rw [Bool.eq_iff_iff]
    simp [and_comm]

/-- What is left after `k` removals: the elements whose position is not among the first `k`
of the order. -/
theorem iterate_removeMin (k : Nat) (l : List α) :
  (removeMin key)^[k] l
    = (l.zipIdx.filter fun p => p.2 ∉ ((stableOrder key l).take k).map Prod.snd).map Prod.fst
  := by
  have h := iterate_removeMin_tagged key k (tagged_zipIdx l)
  rwa [List.zipIdx_map_fst] at h

end FirstMin
