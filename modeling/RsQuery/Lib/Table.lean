import Mathlib.Algebra.GroupWithZero.Nat
import Mathlib.Data.List.AList

/-!
# Tables

A table is a finite map with distinct keys, an `AList` with values of one type.
Beside what an `AList` has, a table can have the value of one key adjusted, all its
values mapped, and the entries failing a test dropped; each is described by what a
lookup gives afterwards.  The values of a table can be counted and weighed.
-/

/-- A finite map from `κ` to `ν`. -/
abbrev Table (κ ν : Type*) := AList fun _ : κ => ν

namespace Table

variable {κ ν : Type*} [DecidableEq κ]

/-- The values of a table. -/
def values (t : Table κ ν) : List ν :=
  t.entries.map Sigma.snd

/-- The table with the value of `k`, if there is one, replaced by its image under `f`. -/
def adjust (k : κ) (f : ν → ν) (t : Table κ ν) : Table κ ν :=
  match t.lookup k with
  | some v => t.insert k (f v)
  | none => t

/-- The table with every value replaced by its image under `f`. -/
def mapValues (f : ν → ν) (t : Table κ ν) : Table κ ν :=
  ⟨t.entries.map (Sigma.map id fun _ => f), t.nodupKeys.map₂ _⟩

/-- The entries of a table that pass the test. -/
def retain (p : κ → ν → Bool) (t : Table κ ν) : Table κ ν :=
  ⟨t.entries.filter fun e => p e.1 e.2, t.nodupKeys.sublist List.filter_sublist⟩

theorem mem_values_iff {t : Table κ ν} {v : ν} :
  v ∈ values t ↔ ∃ k, t.lookup k = some v
  := by
  simp only [values, List.mem_map, Sigma.exists, exists_eq_right]
  simp only [← Option.mem_def, AList.mem_lookup_iff]

@[simp]
theorem lookup_adjust (k k' : κ) (f : ν → ν) (t : Table κ ν) :
  (adjust k f t).lookup k' = if k' = k then (t.lookup k').map f else t.lookup k'
  := by
  unfold adjust
  split
  · next v hv =>
    split
    · next h => rw [h, AList.lookup_insert, hv, Option.map_some]
    · next h => rw [AList.lookup_insert_ne h]
  · next hv =>
    split
    · next h => rw [h, hv, Option.map_none]
    · rfl

@[simp]
theorem lookup_mapValues (f : ν → ν) (t : Table κ ν) (k : κ) :
  (mapValues f t).lookup k = (t.lookup k).map f
  := by
  apply List.dlookup_map₂

@[simp]
theorem lookup_retain (p : κ → ν → Bool) (t : Table κ ν) (k : κ) :
  (retain p t).lookup k = (t.lookup k).filter (p k)
  := by
  apply Option.ext
  intro v
  rw [← Option.mem_def, ← Option.mem_def, AList.mem_lookup_iff, Option.mem_filter_iff,
    AList.mem_lookup_iff]
  simp [retain]

/-- Looking up a key after erasing one. -/
theorem lookup_erase_eq (k k' : κ) (t : Table κ ν) :
  (t.erase k).lookup k' = if k' = k then none else t.lookup k'
  := by
  split
  · next h => rw [h, AList.lookup_erase]
  · next h => rw [AList.lookup_erase_ne h]

/-- Looking up a key after inserting one. -/
theorem lookup_insert_eq (k k' : κ) (v : ν) (t : Table κ ν) :
  (t.insert k v).lookup k' = if k' = k then some v else t.lookup k'
  := by
  split
  · next h => rw [h, AList.lookup_insert]
  · next h => rw [AList.lookup_insert_ne h]

/-- What is found after an insertion was inserted, or was there before. -/
theorem lookup_insert_cases {k k' : κ} {v v' : ν} {t : Table κ ν}
    (h : (t.insert k v).lookup k' = some v') :
  k' = k ∧ v' = v ∨ k' ≠ k ∧ t.lookup k' = some v'
  := by
  rw [lookup_insert_eq] at h
  split at h
  · next heq => exact .inl ⟨heq, (Option.some.inj h).symm⟩
  · next hne => exact .inr ⟨hne, h⟩

/-- What is found after an erasure is under another key, and was there before. -/
theorem lookup_of_erase {k k' : κ} {v : ν} {t : Table κ ν} (h : (t.erase k).lookup k' = some v) :
  k' ≠ k ∧ t.lookup k' = some v
  := by
  rw [lookup_erase_eq] at h
  split at h
  · contradiction
  · next hne => exact ⟨hne, h⟩

/-- What is put under a key is gone when the key is erased. -/
theorem erase_insert (k : κ) (v : ν) (t : Table κ ν) :
  (t.insert k v).erase k = t.erase k
  := by
  apply AList.ext
  exact List.kerase_cons_eq rfl

theorem erase_of_lookup_eq_none {k : κ} {t : Table κ ν} (h : t.lookup k = none) :
  t.erase k = t
  := by
  apply AList.ext
  apply List.kerase_of_notMem_keys
  exact AList.lookup_eq_none.mp h

theorem forall_lookup_iff {t : Table κ ν} {p : κ → ν → Prop} :
  (∀ k v, t.lookup k = some v → p k v) ↔ ∀ e ∈ t.entries, p e.1 e.2
  := by
  simp only [← Option.mem_def, AList.mem_lookup_iff, Sigma.forall]

theorem exists_lookup_iff {t : Table κ ν} {p : κ → ν → Prop} :
  (∃ k v, t.lookup k = some v ∧ p k v) ↔ ∃ e ∈ t.entries, p e.1 e.2
  := by
  simp only [← Option.mem_def, AList.mem_lookup_iff, Sigma.exists]

instance (t : Table κ ν) (p : κ → ν → Prop) [∀ k v, Decidable (p k v)] :
    Decidable (∀ k v, t.lookup k = some v → p k v) :=
  decidable_of_iff _ forall_lookup_iff.symm

instance (t : Table κ ν) (p : κ → ν → Prop) [∀ k v, Decidable (p k v)] :
    Decidable (∃ k v, t.lookup k = some v ∧ p k v) :=
  decidable_of_iff _ exists_lookup_iff.symm

/-! ### Counting -/

/-- The sum of what the values weigh. -/
def total (f : ν → Nat) (t : Table κ ν) : Nat :=
  ((values t).map f).sum

/-- The number of values that pass the test. -/
def count (p : ν → Bool) (t : Table κ ν) : Nat :=
  (values t).countP p

/-- Inserting a value weighs it instead of the value it replaces. -/
theorem total_insert (f : ν → Nat) (k : κ) (v : ν) (t : Table κ ν) :
  total f (t.insert k v) + (t.lookup k).elim 0 f = total f t + f v
  := by
  -- what is erased is weighed no more
  have herase (es : List (Sigma fun _ : κ => ν)) :
      (((List.kerase k es).map Sigma.snd).map f).sum + (List.dlookup k es).elim 0 f
        = ((es.map Sigma.snd).map f).sum := by
    induction es with
    | nil => rfl
    | cons e es ih =>
      by_cases h : k = e.1
      · obtain ⟨k', w⟩ := e
        obtain rfl : k = k' := h
        have hrest : List.kerase k (⟨k, w⟩ :: es) = es := List.kerase_cons_eq rfl
        rw [hrest, List.dlookup_cons_eq, List.map_cons, List.map_cons, List.sum_cons]
        apply Nat.add_comm
      · rw [List.kerase_cons_ne h, List.dlookup_cons_ne _ _ h]
        simp only [List.map_cons, List.sum_cons]
        rw [← ih, Nat.add_assoc]
  rw [total, values, AList.entries_insert, List.map_cons, List.map_cons, List.sum_cons, total,
    values, ← herase t.entries]
  apply (Nat.add_assoc _ _ _).trans (Nat.add_comm _ _)

/-- Values weigh something together when one of them does. -/
theorem total_pos_iff {f : ν → Nat} {t : Table κ ν} :
  0 < total f t ↔ ∃ k v, t.lookup k = some v ∧ 0 < f v
  := by
  rw [total, List.sum_pos_iff_exists_pos_nat]
  constructor
  · rintro ⟨n, hn, hpos⟩
    obtain ⟨v, hv, rfl⟩ := List.mem_map.mp hn
    obtain ⟨k, hk⟩ := mem_values_iff.mp hv
    use k, v
  · rintro ⟨k, v, hk, hpos⟩
    use f v, List.mem_map_of_mem (mem_values_iff.mpr ⟨k, hk⟩)

/-- Values that weigh nothing weigh nothing together. -/
theorem total_eq_zero {f : ν → Nat} {t : Table κ ν} (h : ∀ k v, t.lookup k = some v → f v = 0) :
  total f t = 0
  := by
  apply List.sum_eq_zero_iff_forall_eq_nat.mpr
  intro n hn
  obtain ⟨v, hv, rfl⟩ := List.mem_map.mp hn
  obtain ⟨k, hk⟩ := mem_values_iff.mp hv
  apply h k v hk

omit [DecidableEq κ] in
theorem count_eq_total (p : ν → Bool) (t : Table κ ν) :
  count p t = total (fun v => (p v).toNat) t
  := by
  rw [count, total]
  induction values t with
  | nil => rfl
  | cons v vs ih =>
    rw [List.countP_cons, List.map_cons, List.sum_cons, ← ih, Nat.add_comm]
    cases p v with
    | false => rfl
    | true => rfl

/-- Inserting a value counts it instead of the value it replaces. -/
theorem count_insert (p : ν → Bool) (k : κ) (v : ν) (t : Table κ ν) :
  count p (t.insert k v) + ((t.lookup k).elim 0 fun w => (p w).toNat) = count p t + (p v).toNat
  := by
  rw [count_eq_total, count_eq_total]
  apply total_insert

/-- A value that is removed is counted no more. -/
theorem count_erase (p : ν → Bool) (k : κ) (t : Table κ ν) :
  count p (t.erase k) + ((t.lookup k).elim 0 fun w => (p w).toNat) = count p t
  := by
  cases hv : t.lookup k with
  | none =>
    have herase : t.erase k = t := by
      apply AList.ext
      apply List.kerase_of_notMem_keys
      apply AList.lookup_eq_none.mp hv
    rw [herase]
    rfl
  | some v =>
    have hinsert : (t.erase k).insert k v = t.insert k v := by
      apply AList.ext
      rw [AList.entries_insert, AList.entries_insert]
      apply congrArg (List.cons _)
      apply List.kerase_of_notMem_keys
      apply List.notMem_keys_kerase k t.nodupKeys
    have hleft := count_insert p k v (t.erase k)
    have hright := count_insert p k v t
    rw [hinsert, AList.lookup_erase] at hleft
    rw [hv] at hright
    simp only [Option.elim_some, Option.elim_none] at hleft hright ⊢
    omega

/-- A value that stops passing the test when one value is inserted is counted no more. -/
theorem count_of_insert
    {p : ν → Bool} {k j : κ} {v v' w : ν} {t : Table κ ν} (hv : t.lookup k = some v) (h : p v = true)
    (hv' : (t.insert j w).lookup k = some v') (h' : p v' = false) :
  count p (t.insert j w) + 1 = count p t
  := by
  rw [lookup_insert_eq] at hv'
  split at hv'
  · next heq =>
    obtain rfl := Option.some.inj hv'
    have hcount := count_insert p j w t
    rw [← heq, hv, Option.elim_some, h, h'] at hcount
    rw [← heq]
    apply hcount
  · rw [hv] at hv'
    obtain rfl := Option.some.inj hv'
    rw [h] at h'
    contradiction

/-- A value that passes the test is counted. -/
theorem count_pos {p : ν → Bool} {t : Table κ ν} {k : κ} {v : ν}
    (hv : t.lookup k = some v) (h : p v = true) :
  0 < count p t
  := by
  apply List.countP_pos_iff.mpr
  use v, mem_values_iff.mpr ⟨k, hv⟩

/-- Nothing is counted where nothing passes the test. -/
theorem count_eq_zero {p : ν → Bool} {t : Table κ ν} (h : ∀ k v, t.lookup k = some v → ¬ p v) :
  count p t = 0
  := by
  apply List.countP_eq_zero.mpr
  intro v hv
  obtain ⟨k, hk⟩ := mem_values_iff.mp hv
  apply h k v hk

/-! ### Updates of one key each -/

section Updates

omit [DecidableEq κ]

variable {σ β γ : Type*} (look : σ → κ → β) (f : σ → γ → σ) (key : γ → κ)

/-- Updates that concern other keys leave what is seen under a key. -/
theorem foldl_look_of_not_mem
    (frame : ∀ s g k, k ≠ key g → look (f s g) k = look s k) {k : κ} {l : List γ}
    (hk : k ∉ l.map key) (s : σ) :
  look (l.foldl f s) k = look s k
  := by
  induction l generalizing s with
  | nil => rfl
  | cons g l ih =>
    rw [List.map_cons, List.mem_cons, not_or] at hk
    rw [List.foldl_cons, ih hk.2, frame _ _ _ hk.1]

/-- Of updates that concern different keys, and depend on what is seen under their own,
each has the effect it would have alone. -/
theorem foldl_look_of_mem
    (frame : ∀ s g k, k ≠ key g → look (f s g) k = look s k)
    (congr : ∀ s t g, look s (key g) = look t (key g) → look (f s g) (key g) = look (f t g) (key g))
    {l : List γ} (hl : (l.map key).Nodup) {g : γ} (hg : g ∈ l) (s : σ) :
  look (l.foldl f s) (key g) = look (f s g) (key g)
  := by
  induction l generalizing s with
  | nil => contradiction
  | cons g' l ih =>
    rw [List.map_cons, List.nodup_cons] at hl
    rw [List.foldl_cons]
    obtain rfl | hg := List.mem_cons.mp hg
    · apply foldl_look_of_not_mem look f key frame hl.1
    · rw [ih hl.2 hg]
      apply congr
      apply frame
      rintro heq
      apply hl.1
      rw [← heq]
      apply List.mem_map_of_mem hg

end Updates

end Table
