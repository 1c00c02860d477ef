import Mathlib.Algebra.GroupWithZero.Nat
import Mathlib.Data.List.Induction

/-!
# Lossy queues

A queue of bounded length drops its oldest value to make room for a new one and counts
what it has dropped; whoever takes from it is first told how many were dropped, and then
given the next value.  `Accounts` reads the receipts of a reader back against what was
put into the queue: every value is the next one in, and every notice of a loss stands for
as many values in a row.
-/

namespace LossyQueue

variable {α : Type*}

/-- What a reader is given. -/
inductive Receipt (α : Type*) where
  | value (a : α)
  | lagged (n : Nat)
deriving DecidableEq, Repr

/-- The values received. -/
def values (rs : List (Receipt α)) : List α :=
  rs.filterMap fun
    | .value a => some a
    | .lagged _ => none

/-- The number of values reported as lost. -/
def lost (rs : List (Receipt α)) : Nat :=
  (rs.map fun
    | .value _ => 0
    | .lagged n => n).sum

/-- `Accounts rs l rest` says that the receipts `rs` stand for the values of `l` before
`rest`, each for its own ones in order. -/
inductive Accounts : List (Receipt α) → List α → List α → Prop where
  | nil (rest : List α) : Accounts [] rest rest
  | value {rs : List (Receipt α)} {l rest : List α} (a : α) :
      Accounts rs l rest → Accounts (.value a :: rs) (a :: l) rest
  | lagged {rs : List (Receipt α)} {l rest : List α} (skipped : List α) :
      Accounts rs l rest → Accounts (.lagged skipped.length :: rs) (skipped ++ l) rest

namespace Accounts

variable {rs : List (Receipt α)} {l rest : List α}

/-- What is put in later is left. -/
theorem push (h : Accounts rs l rest) (a : α) :
  Accounts rs (l ++ [a]) (rest ++ [a])
  := by
  induction h with
  | nil rest => exact .nil _
  | value b _ ih => exact .value b ih
  | lagged skipped _ ih =>
    rw [List.append_assoc]
    exact .lagged skipped ih

/-- The next value is received. -/
theorem receive {a : α} (h : Accounts rs l (a :: rest)) :
  Accounts (rs ++ [.value a]) l rest
  := by
  generalize heq : a :: rest = next at h
  induction h with
  | nil next =>
    rw [← heq]
    exact .value a (.nil rest)
  | value b _ ih => exact .value b (ih heq)
  | lagged skipped _ ih => exact .lagged skipped (ih heq)

/-- The next values are reported as lost. -/
theorem skip {skipped : List α} (h : Accounts rs l (skipped ++ rest)) :
  Accounts (rs ++ [.lagged skipped.length]) l rest
  := by
  generalize heq : skipped ++ rest = next at h
  induction h with
  | nil next =>
    rw [← heq]
    exact .lagged skipped (.nil rest)
  | value b _ ih => exact .value b (ih heq)
  | lagged skipped _ ih => exact .lagged skipped (ih heq)

/-- Every value put in is received, reported as lost or left. -/
theorem length (h : Accounts rs l rest) :
  l.length = (values rs).length + lost rs + rest.length
  := by
  induction h with
  | nil rest => simp [values, lost]
  | value a _ ih =>
    simp only [values, lost] at ih ⊢
    simp [ih]
    omega
  | lagged skipped _ ih =>
    simp only [values, lost] at ih ⊢
    simp [ih]
    omega

/-- The values received were put in in this order. -/
theorem sublist (h : Accounts rs l rest) :
  (values rs).Sublist l
  := by
  induction h with
  | nil rest => apply List.nil_sublist _
  | value a _ ih => apply ih.cons_cons a
  | lagged skipped _ ih => apply ih.trans (List.sublist_append_right _ _)

end Accounts

/-- What is queued, and how many values were dropped before it without a notice. -/
structure Queue (α : Type*) where
  queue : List α
  missed : Nat

namespace Queue

variable {q : Queue α} {rs : List (Receipt α)} {l : List α}

/-- Puts a value in; a full queue drops its oldest one. -/
def push (capacity : Nat) (a : α) (q : Queue α) : Queue α :=
  if capacity ≤ q.queue.length then ⟨q.queue.tail ++ [a], q.missed + 1⟩
  else ⟨q.queue ++ [a], q.missed⟩

/-- Takes the notice of a loss, or the next value. -/
def take (q : Queue α) : Option (Receipt α × Queue α) :=
  if 0 < q.missed then some (.lagged q.missed, { q with missed := 0 })
  else
    match q.queue with
    | [] => none
    | a :: queue => some (.value a, { q with queue := queue })

/-- The receipts of a reader, and what is missed and queued, account for the values put
in. -/
def Keeps (q : Queue α) (rs : List (Receipt α)) (l : List α) : Prop :=
  ∃ skipped, skipped.length = q.missed ∧ Accounts rs l (skipped ++ q.queue)

theorem length_take {r : Receipt α} {q' : Queue α} (ht : q.take = some (r, q')) :
  q'.queue.length ≤ q.queue.length
  := by
  unfold take at ht
  split at ht
  · cases ht
    apply Nat.le_refl _
  · split at ht
    · contradiction
    · next hq =>
      cases ht
      simp [hq]

theorem length_push {capacity : Nat} (hc : 0 < capacity) (h : q.queue.length ≤ capacity) (a : α) :
  (q.push capacity a).queue.length ≤ capacity
  := by
  unfold push
  split
  · simp
    omega
  · simp
    omega

/-- After values were put in, the last ones that fit are queued, and the others were
dropped. -/
theorem foldl_push {capacity : Nat} (hc : 0 < capacity) (h : q.queue.length ≤ capacity)
    (as : List α) :
  as.foldl (fun q a => q.push capacity a) q =
    let dropped := q.queue.length + as.length - capacity
    ⟨(q.queue ++ as).drop dropped, q.missed + dropped⟩
  := by
  induction as using List.reverseRecOn with
  | nil =>
    have hdropped : q.queue.length - capacity = 0 := by omega
    simp [hdropped]
  | append_singleton as a ih =>
    rw [List.foldl_append, ih]
    simp only [List.foldl_cons, List.foldl_nil, push, List.length_drop, List.length_append,
      List.length_singleton, List.tail_drop, ← List.append_assoc]
    have hdrop (n : Nat) (hn : n ≤ q.queue.length + as.length) :
        (q.queue ++ as ++ [a]).drop n = (q.queue ++ as).drop n ++ [a] := by
      apply List.drop_append_of_le_length
      rw [List.length_append]
      apply hn
    split
    · have hdropped : q.queue.length + (as.length + 1) - capacity =
          q.queue.length + as.length - capacity + 1 := by omega
      rw [hdropped, hdrop _ (by omega), Nat.add_assoc]
    · have hdropped : q.queue.length + as.length - capacity = 0 := by omega
      have hdropped' : q.queue.length + (as.length + 1) - capacity = 0 := by omega
      rw [hdropped, hdropped', hdrop _ (Nat.zero_le _)]

theorem Keeps.push {capacity : Nat} (hc : 0 < capacity) (h : q.Keeps rs l) (a : α) :
  (q.push capacity a).Keeps rs (l ++ [a])
  := by
  obtain ⟨skipped, hlen, hacc⟩ := h
  have hacc := hacc.push a
  unfold Queue.push
  split
  · next hfull =>
    obtain ⟨queue, missed⟩ := q
    cases queue with
    | nil =>
      simp at hfull
      omega
    | cons b queue =>
      refine ⟨skipped ++ [b], by simp [hlen], ?_⟩
      simpa using hacc
  · use skipped, hlen
    simpa using hacc

theorem Keeps.take {r : Receipt α} {q' : Queue α} (h : q.Keeps rs l) (ht : q.take = some (r, q')) :
  q'.Keeps (rs ++ [r]) l
  := by
  obtain ⟨skipped, hlen, hacc⟩ := h
  unfold Queue.take at ht
  split at ht
  · cases ht
    refine ⟨[], rfl, ?_⟩
    rw [← hlen]
    apply hacc.skip
  · next hmissed =>
    split at ht
    · contradiction
    · next a queue hq =>
      cases ht
      have hnone : skipped = [] := List.length_eq_zero_iff.mp (by omega)
      refine ⟨[], by simp only [List.length_nil]; omega, ?_⟩
      rw [hnone, hq] at hacc
      apply hacc.receive

end Queue

end LossyQueue
