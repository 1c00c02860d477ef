import Mathlib.Data.List.Basic
import Mathlib.Data.Option.Basic
import Mathlib.Tactic.Use

/-!
# Machines and their runs

A machine has initial states and a step function: the state after an action, or
nothing when the action is not enabled.  `Machine.Run ok` holds of the states
reached from an initial state by steps whose action is allowed by `ok` in the
state it is taken in, and `Machine.Reachable` of the states reached by any steps.
An invariant of the allowed steps holds of every state of a run.  `Machine.Meets`
says that each action of a list is allowed in the state it is taken in.
`Machine.noting` keeps a log beside the states, for what a run has done so far.
-/

/-- Initial states, and the state after an action where the action is enabled. -/
structure Machine (σ α : Type*) where
  init : σ → Prop
  step : σ → α → Option σ

namespace Machine

variable {σ α : Type*} {M : Machine σ α} {ok ok' : σ → α → Prop}

/-- The states reached by steps whose action `ok` allows in the state it is taken in. -/
inductive Run (M : Machine σ α) (ok : σ → α → Prop) : σ → Prop where
  | init {s : σ} : M.init s → Run M ok s
  | step {s s' : σ} {a : α} : Run M ok s → ok s a → M.step s a = some s' → Run M ok s'

/-- The states reached by any steps. -/
def Reachable (M : Machine σ α) : σ → Prop :=
  M.Run fun _ _ => True

/-- A property that holds initially and is kept by every allowed step holds along
every run. -/
theorem Run.invariant {I : σ → Prop} {s : σ} (h : M.Run ok s)
    (hinit : ∀ s, M.init s → I s)
    (hstep : ∀ s a s', M.Run ok s → I s → ok s a → M.step s a = some s' → I s') :
  I s
  := by
  induction h with
  | init h => apply hinit _ h
  | step hrun hok h ih => apply hstep _ _ _ hrun ih hok h

/-- Allowing more actions keeps every run. -/
theorem Run.mono (hok : ∀ s a, ok s a → ok' s a) {s : σ} (h : M.Run ok s) :
  M.Run ok' s
  := by
  induction h with
  | init h => apply Run.init h
  | step _ ha h ih => apply Run.step ih (hok _ _ ha) h

theorem Run.reachable {s : σ} (h : M.Run ok s) :
  M.Reachable s
  := h.mono fun _ _ _ => trivial

/-- The state after a list of actions, where each is enabled in turn. -/
def exec (M : Machine σ α) : σ → List α → Option σ
  | s, [] => some s
  | s, a :: as => (M.step s a).bind fun t => exec M t as

theorem exec_nil (s : σ) :
  M.exec s [] = some s
  := rfl

theorem exec_cons {a : α} {as : List α} {s t : σ} (h : M.step s a = some t) :
  M.exec s (a :: as) = M.exec t as
  := by
  rw [exec, h, Option.bind_some]

theorem exec_append (as bs : List α) (s : σ) :
  M.exec s (as ++ bs) = (M.exec s as).bind fun t => M.exec t bs
  := by
  induction as generalizing s with
  | nil => rfl
  | cons a as ih => simp only [List.cons_append, exec, ih, Option.bind_assoc]

/-- Every action of the list is allowed by `ok` in the state it is taken in. -/
def Meets (M : Machine σ α) (ok : σ → α → Prop) : σ → List α → Prop
  | _, [] => True
  | s, a :: as => ok s a ∧ ∀ t ∈ M.step s a, Meets M ok t as

theorem meets_of_forall {as : List α} (h : ∀ a ∈ as, ∀ s, ok s a) (s : σ) :
  M.Meets ok s as
  := by
  induction as generalizing s with
  | nil => trivial
  | cons a as ih =>
    use h a List.mem_cons_self s
    intro t _
    apply ih fun b hb => h b (List.mem_cons_of_mem a hb)

/-- Where actions are allowed alike in the states of an invariant, which the allowed ones
keep, so are the actions of a list. -/
theorem meets_congr
    {I : σ → Prop} {s : σ} (hs : I s) (h : ∀ s a, I s → (ok s a ↔ ok' s a))
    (hstep : ∀ s a s', I s → ok s a → M.step s a = some s' → I s') (as : List α) :
  M.Meets ok s as ↔ M.Meets ok' s as
  := by
  induction as generalizing s with
  | nil => rfl
  | cons a as ih =>
    rw [Meets, Meets, ← h s a hs]
    apply and_congr_right
    intro hok
    apply forall₂_congr
    intro t ht
    apply ih (hstep s a t hs hok ht)

/-- Where actions are allowed alike in every reachable state, so are the actions of a list. -/
theorem Reachable.meets_congr
    {s : σ} (hs : M.Reachable s) (h : ∀ s a, M.Reachable s → (ok s a ↔ ok' s a)) (as : List α) :
  M.Meets ok s as ↔ M.Meets ok' s as
  := by
  apply Machine.meets_congr hs h
  intro s a s' hs _ hstep
  apply Run.step hs trivial hstep

/-- Executing allowed actions extends a run. -/
theorem Run.exec {as : List α} :
    ∀ {s s' : σ}, M.Run ok s → M.Meets ok s as → M.exec s as = some s' → M.Run ok s' := by
  induction as with
  | nil =>
      intro s s' h _ hs
      obtain rfl := Option.some.inj hs
      apply h
  | cons a as ih =>
      intro s s' h hm hs
      obtain ⟨t, ht, hs⟩ := Option.bind_eq_some_iff.mp hs
      apply ih (h.step hm.1 ht) (hm.2 t ht) hs

/-- Executing actions from a reachable state reaches a state. -/
theorem Reachable.exec {as : List α} {s s' : σ} (h : M.Reachable s)
    (hs : M.exec s as = some s') :
  M.Reachable s'
  := by
  apply Run.exec h (meets_of_forall (fun _ _ _ => trivial) s) hs

instance Meets.decidable [∀ s a, Decidable (ok s a)] :
    ∀ (as : List α) (s : σ), Decidable (M.Meets ok s as)
  | [], _ => .isTrue trivial
  | a :: as, s =>
    have : DecidablePred fun t => M.Meets ok t as := fun t => Meets.decidable as t
    inferInstanceAs (Decidable (ok s a ∧ ∀ t ∈ M.step s a, M.Meets ok t as))

/-- What is seen after executing allowed actions from an initial state is seen in a run. -/
theorem exists_run_of_exec
    {γ : Type*} {s : σ} (as : List α) (f : σ → γ) (v : γ) (hinit : M.init s)
    (hm : M.Meets ok s as) (hexec : (M.exec s as).map f = some v) :
  ∃ s', M.Run ok s' ∧ f s' = v
  := by
  obtain ⟨s', hs, hv⟩ := Option.map_eq_some_iff.mp hexec
  use s', Run.exec (.init hinit) hm hs

/-- What is seen after executing actions from an initial state is seen in a reachable
state. -/
theorem exists_reachable_of_exec
    {γ : Type*} {s : σ} (as : List α) (f : σ → γ) (v : γ) (hinit : M.init s)
    (hexec : (M.exec s as).map f = some v) :
  ∃ s', M.Reachable s' ∧ f s' = v
  := by
  obtain ⟨s', hs, hv⟩ := Option.map_eq_some_iff.mp hexec
  use s', Reachable.exec (.init hinit) hs

/-- The machine with a log of what its steps note. -/
def noting {ε : Type*} (M : Machine σ α) (note : σ → α → σ → List ε) :
    Machine (σ × List ε) α where
  init t := M.init t.1 ∧ t.2 = []
  step t a := (M.step t.1 a).map fun s => (s, t.2 ++ note t.1 a s)

/-- An entry of a longer log is one of the log, or the entry that was added. -/
theorem concat_eq_append_cons
    {ε : Type*} {log l₁ l₂ : List ε} {e e' : ε} (h : log ++ [e] = l₁ ++ e' :: l₂) :
  (∃ l, log = l₁ ++ e' :: l ∧ l₂ = l ++ [e]) ∨ (e = e' ∧ log = l₁ ∧ l₂ = [])
  := by
  obtain rfl | ⟨l, e'', rfl⟩ := List.eq_nil_or_concat' l₂
  · right
    obtain ⟨hlog, he⟩ := List.append_inj' h rfl
    exact ⟨List.singleton_inj.mp he, hlog, rfl⟩
  · left
    have h : log ++ [e] = (l₁ ++ e' :: l) ++ [e''] := by simp [h]
    obtain ⟨hlog, he⟩ := List.append_inj' h rfl
    rw [List.singleton_inj.mp he]
    exact ⟨l, hlog, rfl⟩

/-- An entry that is none of the added ones is one of the log before. -/
theorem append_eq_append_cons
    {ε : Type*} {log l l₁ l₂ : List ε} {e : ε} (h : log ++ l = l₁ ++ e :: l₂) (he : e ∉ l) :
  ∃ l', log = l₁ ++ e :: l' ∧ l₂ = l' ++ l
  := by
  rcases List.append_eq_append_iff.mp h with ⟨l', -, rfl⟩ | ⟨l', rfl, hl⟩
  · exact absurd (List.mem_append_right l' List.mem_cons_self) he
  · cases l' with
    | nil =>
        obtain rfl : e :: l₂ = l := hl
        exact absurd List.mem_cons_self he
    | cons x l' =>
        obtain ⟨rfl, rfl⟩ := List.cons.inj hl
        exact ⟨l', rfl, rfl⟩

theorem noting_step
    {ε : Type*} {note : σ → α → σ → List ε} {t : σ × List ε} {a : α} {s : σ}
    (h : M.step t.1 a = some s) :
  (M.noting note).step t a = some (s, t.2 ++ note t.1 a s)
  := by
  simp only [noting, h, Option.map_some]

theorem step_noting
    {ε : Type*} {note : σ → α → σ → List ε} {t t' : σ × List ε} {a : α}
    (h : (M.noting note).step t a = some t') :
  M.step t.1 a = some t'.1 ∧ t'.2 = t.2 ++ note t.1 a t'.1
  := by
  obtain ⟨s, hs, rfl⟩ := Option.map_eq_some_iff.mp h
  exact ⟨hs, rfl⟩

end Machine
