import Mathlib.Data.List.Basic
import Mathlib.Data.List.Nodup
import Mathlib.Data.List.Pairwise
import Mathlib.Logic.Function.Basic
import RsQuery.Lib.Machine

/-!
# A line in front of a flag

Parties draw numbers, join a line, are listed, and go one after another through a stretch
guarded by a flag; whoever leaves lowers the flag and then calls the next in the queue.
But only a party that finds the flag raised when it joins is queued, and whoever finds
the flag lowered may go, called or not.  `Move` lists what can happen and what is noted
in the log.  When parties are listed as they joined, join a lowered flag only where
nobody else is in line, and go only when they are not queued (`Orderly`), they enter in
the order they were listed, and whoever is called is the next to go.
-/

namespace Line

variable {P : Type*}

/-- What is noted of a party. -/
inductive Kind where
  | joined
  | listed
  | acquired
  | entered
  | called
deriving DecidableEq, Repr

/-- An entry of the log: what is noted, and the number of the party. -/
abbrev Event := Kind × Nat

/-- The numbers noted as `k` in a log, in order. -/
def numbers (k : Kind) (log : List Event) : List Nat :=
  log.filterMap fun e => if e.1 = k then some e.2 else none

@[simp]
theorem numbers_append (k : Kind) (l l' : List Event) :
  numbers k (l ++ l') = numbers k l ++ numbers k l'
  := List.filterMap_append

@[simp]
theorem numbers_cons (k k' : Kind) (n : Nat) (l : List Event) :
  numbers k ((k', n) :: l) = if k' = k then n :: numbers k l else numbers k l
  := by
  unfold numbers
  rw [List.filterMap_cons]
  split
  · split
    · next h hk => simp [hk] at h
    · rfl
  · next m h =>
    split
    · next hk =>
      rw [if_pos hk] at h
      rw [← Option.some.inj h]
    · next hk => simp [hk] at h

@[simp]
theorem numbers_nil (k : Kind) :
  numbers k [] = []
  := rfl

/-- Where a party is. -/
inductive Stage where
  | away
  /-- Has a number and has not joined the line. -/
  | numbered (n : Nat)
  /-- Is in line and not listed yet. -/
  | joined (n : Nat)
  | waiting (n : Nat)
  /-- Has raised the flag; `past` says whether it is past the point where it enters. -/
  | inside (n : Nat) (past : Bool)
  /-- Has lowered the flag and not called the next one. -/
  | leaving (n : Nat)
  | gone

namespace Stage

/-- The party is in line. -/
def InLine (n : Nat) : Stage → Prop
  | joined m | waiting m => m = n
  | _ => False

/-- The party has raised the flag and not lowered it. -/
def Inside (n : Nat) : Stage → Prop
  | inside m _ => m = n
  | _ => False

/-- The party has raised the flag and not called the next one. -/
def Busy (n : Nat) : Stage → Prop
  | inside m _ | leaving m => m = n
  | _ => False

/-- The number of a party that is not gone. -/
def number : Stage → Option Nat
  | numbered n | joined n | waiting n | inside n _ | leaving n => some n
  | away | gone => none

@[grind →]
theorem InLine.number {n : Nat} {p : Stage} (h : p.InLine n) :
  p.number = some n
  := by
  cases p with
  | joined => apply congrArg some h
  | waiting => apply congrArg some h
  | _ => apply h.elim

theorem Inside.busy {n : Nat} {p : Stage} (h : p.Inside n) :
  p.Busy n
  := by
  cases p with
  | inside => apply h
  | _ => apply h.elim

end Stage

/-- The last number drawn, the flag, who is queued, where every party is, and the log. -/
@[ext]
structure State (P : Type*) where
  last : Nat
  raised : Bool
  queue : List Nat
  stage : P → Stage
  log : List Event

/-- What is done in line. -/
inductive Action (P : Type*) where
  | draw (i : P)
  | join (i : P)
  | list (i : P)
  | acquire (i : P)
  | enter (i : P)
  | skip (i : P)
  | lower (i : P)
  | call (i : P)
  | pass

variable [DecidableEq P]

/-- One party goes to another stage. -/
def State.setStage (s : State P) (i : P) (p : Stage) : State P :=
  { s with stage := Function.update s.stage i p }

/-- What an action does. -/
inductive Move : State P → Action P → State P → Prop where
  | draw {s : State P} {i : P} :
      s.stage i = .away →
      Move s (.draw i) { s.setStage i (.numbered (s.last + 1)) with last := s.last + 1 }
  /-- Numbers are drawn for other lines. -/
  | pass {s : State P} {n : Nat} : s.last ≤ n → Move s .pass { s with last := n }
  | joinBehind {s : State P} {i : P} {n : Nat} :
      s.stage i = .numbered n → s.raised = true →
      Move s (.join i) { s.setStage i (.joined n) with
        queue := s.queue ++ [n]
        log := s.log ++ [(.joined, n)] }
  | joinFree {s : State P} {i : P} {n : Nat} :
      s.stage i = .numbered n → s.raised = false →
      Move s (.join i) { s.setStage i (.joined n) with log := s.log ++ [(.joined, n)] }
  | list {s : State P} {i : P} {n : Nat} :
      s.stage i = .joined n →
      Move s (.list i) { s.setStage i (.waiting n) with log := s.log ++ [(.listed, n)] }
  | acquire {s : State P} {i : P} {n : Nat} :
      s.stage i = .waiting n →
      Move s (.acquire i) { s.setStage i (.inside n false) with
        raised := true
        log := s.log ++ [(.acquired, n)] }
  | enter {s : State P} {i : P} {n : Nat} :
      s.stage i = .inside n false →
      Move s (.enter i) { s.setStage i (.inside n true) with log := s.log ++ [(.entered, n)] }
  /-- A party goes past without entering. -/
  | skip {s : State P} {i : P} {n : Nat} :
      s.stage i = .inside n false → Move s (.skip i) (s.setStage i (.inside n true))
  | lower {s : State P} {i : P} {n : Nat} {past : Bool} :
      s.stage i = .inside n past →
      Move s (.lower i) { s.setStage i (.leaving n) with raised := false }
  | call {s : State P} {i : P} {n m : Nat} {queue : List Nat} :
      s.stage i = .leaving n → s.queue = m :: queue →
      Move s (.call i) { s.setStage i .gone with
        queue := queue
        log := s.log ++ [(.called, m)] }
  | callNone {s : State P} {i : P} {n : Nat} :
      s.stage i = .leaving n → s.queue = [] → Move s (.call i) (s.setStage i .gone)

namespace State

variable {s s' : State P} {a : Action P} {line : List Nat} {i : P} {n : Nat}

/-- Parties join a lowered flag only where nobody else is in line or has yet to call, are
listed as they joined, and go only when they are not queued. -/
def Orderly (s : State P) : Action P → Prop
  | .join _ => s.raised = false → ∀ j m, ¬ (s.stage j).InLine m ∧ ¬ (s.stage j).Busy m
  | .list i => ∀ n, s.stage i = .joined n → numbers .listed s.log ++ [n] <+: numbers .joined s.log
  | .acquire i => ∀ n, s.stage i = .waiting n → n ∉ s.queue
  | _ => True

/-- Numbers are drawn once, and whoever has yet to join has not joined before. -/
structure Numbered (s : State P) : Prop where
  le_last : ∀ i n, (s.stage i).number = some n → n ≤ s.last
  distinct : ∀ i j n, (s.stage i).number = some n → (s.stage j).number = some n → i = j
  joined_le : ∀ n ∈ numbers .joined s.log, n ≤ s.last
  notJoined : ∀ i n, s.stage i = .numbered n → n ∉ numbers .joined s.log
  nodup : (numbers .joined s.log).Nodup

/-- The flag is raised while somebody is inside, and at most one party is busy. -/
structure Single (s : State P) : Prop where
  raised : s.raised = true ↔ ∃ i n, (s.stage i).Inside n
  unique : ∀ i j n m, (s.stage i).Busy n → (s.stage j).Busy m → i = j

/-- Those who joined have acquired the flag in this order, or are in line; while somebody
is busy all in line are queued, and otherwise all but the first. -/
structure Lined (s : State P) (line : List Nat) : Prop where
  log : numbers .joined s.log = numbers .acquired s.log ++ line
  mem : ∀ n, n ∈ line ↔ ∃ i, (s.stage i).InLine n
  behind : ∀ i n, (s.stage i).Busy n → s.queue = line
  free : (∀ i n, ¬ (s.stage i).Busy n) → s.queue = line.tail

/-- Parties are listed as they joined, and those past it are listed. -/
structure Listed (s : State P) : Prop where
  isPrefix : numbers .listed s.log <+: numbers .joined s.log
  mem : ∀ i n, s.stage i = .waiting n ∨ s.stage i = .inside n false → n ∈ numbers .listed s.log

/-- Parties enter as they acquired the flag, after they are listed; whoever is yet to pass
is the last that acquired it. -/
structure Entered (s : State P) : Prop where
  sublist : (numbers .entered s.log).Sublist (numbers .acquired s.log)
  mem : ∀ n ∈ numbers .entered s.log, n ∈ numbers .listed s.log
  next : ∀ i n, s.stage i = .inside n false →
    ∃ l, numbers .acquired s.log = l ++ [n] ∧ (numbers .entered s.log).Sublist l

/-- Nobody is busy, and the number is in line without being queued. -/
structure Called (s : State P) (n : Nat) : Prop where
  free : ∀ i m, ¬ (s.stage i).Busy m
  unqueued : n ∉ s.queue
  inLine : ∃ i, (s.stage i).InLine n

/-- Whoever is called is the next that acquires the flag in the rest of the log, or may
still do so. -/
def Pops (s : State P) : Prop :=
  ∀ l₁ n l₂, s.log = l₁ ++ (.called, n) :: l₂ →
    (numbers .acquired l₂).head? = some n ∨ numbers .acquired l₂ = [] ∧ s.Called n

/-- All of these. -/
structure InTurn (s : State P) : Prop where
  numbered : s.Numbered
  single : s.Single
  lined : ∃ line, s.Lined line
  listed : s.Listed
  entered : s.Entered
  pops : s.Pops

/-! ### What a move does -/

theorem inLine_of_move (hm : Move s a s') (i : P) (n : Nat) :
  (s'.stage i).InLine n ↔
    a = .join i ∧ s.stage i = .numbered n ∨ (s.stage i).InLine n ∧ a ≠ .acquire i
  := by
  cases hm
  all_goals
    simp only [setStage, Function.update_apply]
    grind [Stage.InLine]

theorem waiting_of_move (hm : Move s a s') (i : P) (n : Nat) :
  s'.stage i = .waiting n ↔
    a = .list i ∧ s.stage i = .joined n ∨ s.stage i = .waiting n ∧ a ≠ .acquire i
  := by
  cases hm
  all_goals
    simp only [setStage, Function.update_apply]
    grind

/-- Whoever has yet to pass has acquired the flag. -/
theorem ahead_of_move (hm : Move s a s') (i : P) (n : Nat) :
  s'.stage i = .inside n false ↔
    a = .acquire i ∧ s.stage i = .waiting n ∨
      s.stage i = .inside n false ∧ a ≠ .enter i ∧ a ≠ .skip i ∧ a ≠ .lower i
  := by
  cases hm
  all_goals
    simp only [setStage, Function.update_apply]
    grind

theorem inside_of_move (hm : Move s a s') (i : P) (n : Nat) :
  (s'.stage i).Inside n ↔
    a = .acquire i ∧ (s.stage i).InLine n ∨ (s.stage i).Inside n ∧ a ≠ .lower i
  := by
  cases hm
  all_goals
    simp only [setStage, Function.update_apply]
    grind [Stage.InLine, Stage.Inside]

theorem busy_of_move (hm : Move s a s') (i : P) (n : Nat) :
  (s'.stage i).Busy n ↔
    a = .acquire i ∧ (s.stage i).InLine n ∨ (s.stage i).Busy n ∧ a ≠ .call i
  := by
  cases hm
  all_goals
    simp only [setStage, Function.update_apply]
    grind [Stage.InLine, Stage.Busy]

theorem Numbered.move (h : s.Numbered) (hm : Move s a s') :
  s'.Numbered
  := by
  obtain ⟨le_last, distinct, joined_le, notJoined, nodup⟩ := h
  cases hm
  all_goals
    constructor
    all_goals
      simp only [setStage, Function.update_apply, numbers_append, numbers_cons, numbers_nil,
        reduceCtorEq, ↓reduceIte, List.append_nil]
      grind [Stage.number]

omit [DecidableEq P] in
theorem Single.busy_of_raised (h : s.Single) (hr : s.raised = true) :
  ∃ i n, (s.stage i).Busy n
  := by
  obtain ⟨i, n, hi⟩ := h.raised.mp hr
  exact ⟨i, n, hi.busy⟩

omit [DecidableEq P] in
theorem Lined.sublist (h : s.Lined line) :
  line.Sublist (numbers .joined s.log)
  := by
  rw [h.log]
  apply List.sublist_append_right

omit [DecidableEq P] in
/-- Whoever goes is the first in line, and nobody is busy then. -/
theorem Lined.acquire (h : s.Lined line) (hok : s.Orderly (.acquire i)) (hi : s.stage i = .waiting n) :
  line = n :: s.queue ∧ ∀ j m, ¬ (s.stage j).Busy m
  := by
  have hn : n ∈ line := (h.mem n).mpr ⟨i, by rw [hi]; rfl⟩
  have hq : n ∉ s.queue := hok n hi
  have hfree : ∀ j m, ¬ (s.stage j).Busy m := by
    intro j m hj
    rw [h.behind j m hj] at hq
    contradiction
  refine ⟨?_, hfree⟩
  have htail := h.free hfree
  cases line with
  | nil => contradiction
  | cons m line =>
    obtain rfl | hn := List.mem_cons.mp hn
    · rw [htail]
      rfl
    · rw [htail] at hq
      contradiction

theorem acquire_waiting (hm : Move s (.acquire i) s') :
  ∃ n, s.stage i = .waiting n
  := by
  cases hm with
  | acquire hi => exact ⟨_, hi⟩

theorem Single.move (h : s.Single) (hl : s.Lined line) (hok : s.Orderly a) (hm : Move s a s') :
  s'.Single
  := by
  have hacq {i j : P} {n : Nat} (ha : a = .acquire i) (hj : (s.stage j).Busy n) : False := by
    subst ha
    obtain ⟨k, hk⟩ := acquire_waiting hm
    apply (hl.acquire hok hk).2 j n hj
  constructor
  · have hin := inside_of_move hm
    cases hm with
    | @acquire i n hi =>
        refine iff_of_true rfl ⟨i, n, (hin i n).mpr (.inl ⟨rfl, ?_⟩)⟩
        rw [hi]
        rfl
    | @lower i n past hi =>
        refine iff_of_false Bool.false_ne_true ?_
        rintro ⟨j, m, hj⟩
        obtain ⟨hj, -⟩ | ⟨hj, hne⟩ := (hin j m).mp hj
        · contradiction
        · have hji := h.unique i j n m (by rw [hi]; rfl) hj.busy
          apply hne (congrArg Action.lower hji)
    | _ =>
        refine h.raised.trans ?_
        constructor
        · rintro ⟨j, m, hj⟩
          exact ⟨j, m, (hin j m).mpr (.inr ⟨hj, nofun⟩)⟩
        · rintro ⟨j, m, hj⟩
          obtain ⟨hj, -⟩ | ⟨hj, -⟩ := (hin j m).mp hj
          · contradiction
          · exact ⟨j, m, hj⟩
  · intro i j n m hi hj
    obtain ⟨hi, -⟩ | ⟨hi, -⟩ := (busy_of_move hm i n).mp hi
    · obtain ⟨hj, -⟩ | ⟨hj, -⟩ := (busy_of_move hm j m).mp hj
      · rw [hi] at hj
        apply Action.acquire.inj hj
      · apply (hacq hi hj).elim
    · obtain ⟨hj, -⟩ | ⟨hj, -⟩ := (busy_of_move hm j m).mp hj
      · apply (hacq hj hi).elim
      · apply h.unique i j n m hi hj

/-- The line stays where nobody joins, goes or calls. -/
theorem Lined.of_same
    (h : s.Lined line) (hm : Move s a s') (hjoin : ∀ i, a ≠ .join i)
    (hacquire : ∀ i, a ≠ .acquire i) (hcall : ∀ i, a ≠ .call i) (hq : s'.queue = s.queue)
    (hlog : numbers .joined s'.log = numbers .joined s.log ∧
      numbers .acquired s'.log = numbers .acquired s.log) :
  s'.Lined line
  := by
  have hline {i : P} {n : Nat} : (s'.stage i).InLine n ↔ (s.stage i).InLine n := by
    rw [inLine_of_move hm]
    simp [hjoin i, hacquire i]
  have hbusy {i : P} {n : Nat} : (s'.stage i).Busy n ↔ (s.stage i).Busy n := by
    rw [busy_of_move hm]
    simp [hcall i, hacquire i]
  constructor
  · rw [hlog.1, hlog.2]
    apply h.log
  · intro n
    simp only [hline, h.mem n]
  · intro i n hi
    rw [hq]
    apply h.behind i n (hbusy.mp hi)
  · intro hfree
    rw [hq]
    apply h.free fun i n hi => hfree i n (hbusy.mpr hi)

/-- When the only busy party has called the next one, nobody is busy and the first in line
is not queued any more. -/
theorem Lined.of_call
    (h : s.Lined line) (hs : s.Single) (hm : Move s (.call i) s') (hi : s.stage i = .leaving n)
    (hq : s'.queue = s.queue.tail)
    (hlog : numbers .joined s'.log = numbers .joined s.log ∧
      numbers .acquired s'.log = numbers .acquired s.log) :
  s'.Lined line ∧ ∀ j m, ¬ (s'.stage j).Busy m
  := by
  have hi : (s.stage i).Busy n := by
    rw [hi]
    rfl
  have hfree : ∀ j m, ¬ (s'.stage j).Busy m := by
    intro j m hj
    obtain ⟨hj, -⟩ | ⟨hj, hne⟩ := (busy_of_move hm j m).mp hj
    · contradiction
    · apply hne (congrArg Action.call (hs.unique i j n m hi hj))
  refine ⟨⟨?_, ?_, ?_, ?_⟩, hfree⟩
  · rw [hlog.1, hlog.2]
    apply h.log
  · intro m
    simp [h.mem m, inLine_of_move hm]
  · exact fun j m hj => absurd hj (hfree j m)
  · intro _
    rw [hq, h.behind i n hi]

/-- Whoever joins is the last in line. -/
theorem mem_line_of_join
    (h : s.Lined line) (hm : Move s (.join i) s') (hi : s.stage i = .numbered n) (m : Nat) :
  m ∈ line ++ [n] ↔ ∃ j, (s'.stage j).InLine m
  := by
  simp only [List.mem_append, List.mem_singleton, h.mem m, inLine_of_move hm]
  constructor
  · rintro (⟨j, hj⟩ | rfl)
    · exact ⟨j, .inr ⟨hj, nofun⟩⟩
    · exact ⟨i, .inl ⟨rfl, hi⟩⟩
  · rintro ⟨j, ⟨hji, hj⟩ | ⟨hj, -⟩⟩
    · obtain rfl := Action.join.inj hji
      right
      apply (Stage.numbered.inj (hi.symm.trans hj)).symm
    · exact .inl ⟨j, hj⟩

theorem Lined.move
    (h : s.Lined line) (hs : s.Single) (hn : s.Numbered) (hok : s.Orderly a) (hm : Move s a s') :
  ∃ line', s'.Lined line'
  := by
  have hline := inLine_of_move hm
  have hbusy := busy_of_move hm
  cases hm with
  | @joinBehind i n hi hr =>
      use line ++ [n]
      obtain ⟨k, m, hk⟩ := hs.busy_of_raised hr
      have hq := h.behind k m hk
      constructor
      · simp [h.log]
      · apply mem_line_of_join h (.joinBehind hi hr) hi
      · intro _ _ _
        apply congrArg (· ++ [n]) hq
      · intro hfree
        exact absurd ((hbusy k m).mpr (.inr ⟨hk, nofun⟩)) (hfree k m)
  | @joinFree i n hi hr =>
      have hnone := hok hr
      have hempty : line = [] := by
        apply List.eq_nil_iff_forall_not_mem.mpr
        intro m hm
        obtain ⟨j, hj⟩ := (h.mem m).mp hm
        apply (hnone j m).1 hj
      use line ++ [n]
      constructor
      · simp [h.log]
      · apply mem_line_of_join h (.joinFree hi hr) hi
      · intro j m hj
        obtain ⟨hj, -⟩ | ⟨hj, -⟩ := (hbusy j m).mp hj
        · contradiction
        · exact absurd hj (hnone j m).2
      · intro _
        have hq := h.free fun j m => (hnone j m).2
        rw [hempty] at hq ⊢
        apply hq
  | @acquire i n hi =>
      obtain ⟨hfirst, hfree⟩ := h.acquire hok hi
      have hnodup := hn.nodup.sublist h.sublist
      rw [hfirst] at hnodup
      have hmem (m : Nat) : m ∈ n :: s.queue ↔ ∃ j, (s.stage j).InLine m := by
        rw [← hfirst]
        apply h.mem m
      use s.queue
      constructor
      · simp [h.log, hfirst]
      · intro m
        simp only [hline]
        constructor
        · intro hmq
          obtain ⟨j, hj⟩ := (hmem m).mp (List.mem_cons_of_mem _ hmq)
          refine ⟨j, .inr ⟨hj, ?_⟩⟩
          rintro ⟨⟩
          rw [hi] at hj
          obtain rfl : n = m := hj
          apply (List.nodup_cons.mp hnodup).1 hmq
        · rintro ⟨j, ⟨hj, -⟩ | ⟨hj, hne⟩⟩
          · contradiction
          · obtain rfl | hmq := List.mem_cons.mp ((hmem m).mpr ⟨j, hj⟩)
            · have hji := hn.distinct i j m (by rw [hi]; rfl) hj.number
              exact absurd (congrArg Action.acquire hji) hne
            · apply hmq
      · exact fun _ _ _ => rfl
      · intro hnone
        exact absurd ((hbusy i n).mpr (.inl ⟨rfl, by rw [hi]; rfl⟩)) (hnone i n)
  | call hi hq =>
      use line
      apply (h.of_call hs (.call hi hq) hi (by rw [hq]; rfl) (by simp)).1
  | callNone hi hq =>
      use line
      apply (h.of_call hs (.callNone hi hq) hi (by rw [hq]; exact hq) ⟨rfl, rfl⟩).1
  | draw hi => exact ⟨line, h.of_same (.draw hi) nofun nofun nofun rfl ⟨rfl, rfl⟩⟩
  | pass hn => exact ⟨line, h.of_same (.pass hn) nofun nofun nofun rfl ⟨rfl, rfl⟩⟩
  | list hi => exact ⟨line, h.of_same (.list hi) nofun nofun nofun rfl (by simp)⟩
  | enter hi => exact ⟨line, h.of_same (.enter hi) nofun nofun nofun rfl (by simp)⟩
  | skip hi => exact ⟨line, h.of_same (.skip hi) nofun nofun nofun rfl ⟨rfl, rfl⟩⟩
  | lower hi => exact ⟨line, h.of_same (.lower hi) nofun nofun nofun rfl ⟨rfl, rfl⟩⟩

/-! ### What the log says -/

/-- The list stays where nobody is listed. -/
theorem Listed.of_same
    (h : s.Listed) (hm : Move s a s') (hlist : ∀ i, a ≠ .list i)
    (hl : numbers .listed s'.log = numbers .listed s.log)
    (hj : numbers .joined s.log <+: numbers .joined s'.log) :
  s'.Listed
  := by
  constructor
  · rw [hl]
    apply h.isPrefix.trans hj
  · intro i n hi
    rw [hl]
    rw [waiting_of_move hm, ahead_of_move hm] at hi
    obtain (⟨ha, -⟩ | ⟨hi, -⟩) | ⟨-, hi⟩ | ⟨hi, -⟩ := hi
    · exact absurd ha (hlist i)
    · apply h.mem i n (.inl hi)
    · apply h.mem i n (.inl hi)
    · apply h.mem i n (.inr hi)

theorem Listed.move (h : s.Listed) (hok : s.Orderly a) (hm : Move s a s') :
  s'.Listed
  := by
  have hwaiting := waiting_of_move hm
  have hinside := ahead_of_move hm
  cases hm with
  | @list i n hi =>
      have hl : numbers .listed (s.log ++ [(.listed, n)]) = numbers .listed s.log ++ [n] := by simp
      have hj : numbers .joined (s.log ++ [(.listed, n)]) = numbers .joined s.log := by simp
      constructor
      · dsimp only
        rw [hl, hj]
        apply hok n hi
      · intro j m hm
        dsimp only
        rw [hl, List.mem_append, List.mem_singleton]
        rw [hwaiting, hinside] at hm
        obtain (⟨hji, hm⟩ | ⟨hm, -⟩) | ⟨hm, -⟩ | ⟨hm, -⟩ := hm
        · obtain rfl := Action.list.inj hji
          right
          apply (Stage.joined.inj (hi.symm.trans hm)).symm
        · exact .inl (h.mem j m (.inl hm))
        · contradiction
        · exact .inl (h.mem j m (.inr hm))
  | draw hi => apply h.of_same (.draw hi) nofun rfl (List.prefix_refl _)
  | pass hn => apply h.of_same (.pass hn) nofun rfl (List.prefix_refl _)
  | joinBehind hi hr => apply h.of_same (.joinBehind hi hr) nofun (by simp) (by simp)
  | joinFree hi hr => apply h.of_same (.joinFree hi hr) nofun (by simp) (by simp)
  | acquire hi => apply h.of_same (.acquire hi) nofun (by simp) (by simp)
  | enter hi => apply h.of_same (.enter hi) nofun (by simp) (by simp)
  | skip hi => apply h.of_same (.skip hi) nofun rfl (List.prefix_refl _)
  | lower hi => apply h.of_same (.lower hi) nofun rfl (List.prefix_refl _)
  | call hi hq => apply h.of_same (.call hi hq) nofun (by simp) (by simp)
  | callNone hi hq => apply h.of_same (.callNone hi hq) nofun rfl (List.prefix_refl _)

/-- What has entered stays where nobody enters or acquires the flag. -/
theorem Entered.of_same
    (h : s.Entered) (hm : Move s a s') (hacquire : ∀ i, a ≠ .acquire i)
    (he : numbers .entered s'.log = numbers .entered s.log)
    (hacq : numbers .acquired s'.log = numbers .acquired s.log)
    (hl : numbers .listed s.log ⊆ numbers .listed s'.log) :
  s'.Entered
  := by
  constructor
  · rw [he, hacq]
    apply h.sublist
  · intro n hn
    rw [he] at hn
    apply hl (h.mem n hn)
  · intro i n hi
    rw [he, hacq]
    obtain ⟨ha, -⟩ | ⟨hi, -⟩ := (ahead_of_move hm i n).mp hi
    · exact absurd ha (hacquire i)
    · apply h.next i n hi

theorem Entered.move
    (h : s.Entered) (hs : s.Single) (hl : s.Lined line) (hlisted : s.Listed)
    (hok : s.Orderly a) (hm : Move s a s') :
  s'.Entered
  := by
  have hahead := ahead_of_move hm
  cases hm with
  | @acquire i n hi =>
      have hfree := (hl.acquire hok hi).2
      constructor
      · simpa using h.sublist.trans (List.sublist_append_left _ _)
      · simpa using h.mem
      · intro j m hj
        obtain ⟨hji, hj⟩ | ⟨hj, -⟩ := (hahead j m).mp hj
        · obtain rfl := Action.acquire.inj hji
          obtain rfl := Stage.waiting.inj (hi.symm.trans hj)
          exact ⟨numbers .acquired s.log, by simp, by simpa using h.sublist⟩
        · exact absurd (by rw [hj]; rfl) (hfree j m)
  | @enter i n hi =>
      obtain ⟨l, hacq, hent⟩ := h.next i n hi
      constructor
      · simpa [hacq] using hent
      · intro m hm
        simp only [numbers_append, numbers_cons, numbers_nil, ↓reduceIte, List.mem_append,
          List.mem_singleton, reduceCtorEq, List.append_nil] at hm ⊢
        obtain hm | rfl := hm
        · apply h.mem m hm
        · apply hlisted.mem i m (.inr hi)
      · intro j m hj
        obtain ⟨hj, -⟩ | ⟨hj, hne, -⟩ := (hahead j m).mp hj
        · contradiction
        · have hji := hs.unique i j n m (by rw [hi]; rfl) (by rw [hj]; rfl)
          exact absurd (congrArg Action.enter hji) hne
  | draw hi => apply h.of_same (.draw hi) nofun rfl rfl (List.Subset.refl _)
  | pass hn => apply h.of_same (.pass hn) nofun rfl rfl (List.Subset.refl _)
  | joinBehind hi hr => apply h.of_same (.joinBehind hi hr) nofun (by simp) (by simp) (by simp)
  | joinFree hi hr => apply h.of_same (.joinFree hi hr) nofun (by simp) (by simp) (by simp)
  | list hi => apply h.of_same (.list hi) nofun (by simp) (by simp) (by simp)
  | skip hi => apply h.of_same (.skip hi) nofun rfl rfl (List.Subset.refl _)
  | lower hi => apply h.of_same (.lower hi) nofun rfl rfl (List.Subset.refl _)
  | call hi hq => apply h.of_same (.call hi hq) nofun (by simp) (by simp) (by simp)
  | callNone hi hq => apply h.of_same (.callNone hi hq) nofun rfl rfl (List.Subset.refl _)

/-- Whoever is called stays so until somebody acquires the flag. -/
theorem Called.move
    (h : s.Called n) (hs : s.Single) (hok : s.Orderly a) (hm : Move s a s')
    (hacquire : ∀ i, a ≠ .acquire i) :
  s'.Called n
  := by
  have hbusy {i : P} {m : Nat} : ¬ (s'.stage i).Busy m := by
    rw [busy_of_move hm]
    rintro (⟨ha, -⟩ | ⟨hi, -⟩)
    · apply hacquire i ha
    · apply h.free i m hi
  obtain ⟨j, hj⟩ := h.inLine
  refine ⟨fun _ _ => hbusy, ?_, j, (inLine_of_move hm j n).mpr (.inr ⟨hj, hacquire j⟩)⟩
  cases hm with
  | joinBehind hi hr =>
      obtain ⟨k, m, hk⟩ := hs.busy_of_raised hr
      exact absurd hk (h.free k m)
  | call hi hq =>
      have hn := h.unqueued
      rw [hq] at hn
      exact fun hmem => hn (List.mem_cons_of_mem _ hmem)
  | _ => apply h.unqueued

omit [DecidableEq P] in
/-- Whoever acquires the flag is the one who is called. -/
theorem Called.acquire
    {m : Nat} (h : s.Called n) (hl : s.Lined line) (hok : s.Orderly (.acquire i))
    (hi : s.stage i = .waiting m) :
  m = n
  := by
  have hmem := (hl.mem n).mpr h.inLine
  rw [(hl.acquire hok hi).1] at hmem
  obtain rfl | hmem := List.mem_cons.mp hmem
  · rfl
  · exact absurd hmem h.unqueued

/-- What is noted by an action that does not acquire the flag. -/
theorem log_of_move (hm : Move s a s') (hacquire : ∀ i, a ≠ .acquire i) :
  s'.log = s.log ∨ ∃ k n, s'.log = s.log ++ [(k, n)] ∧ k ≠ .acquired
  := by
  cases hm with
  | @acquire i n hi => exact absurd rfl (hacquire i)
  | _ => first | exact .inl rfl | exact .inr ⟨_, _, rfl, nofun⟩

/-- The number that is noted as called is the first in line, and nobody is busy then. -/
theorem called_of_move
    (hs : s.Single) (hn : s.Numbered) (hl : s.Lined line) (hm : Move s a s')
    (hlog : s'.log = s.log ++ [(.called, n)]) :
  s'.Called n
  := by
  cases hm with
  | @call i k m queue hi hq =>
      obtain rfl : m = n := by simpa using hlog
      obtain ⟨hl', hfree⟩ := hl.of_call hs (.call hi hq) hi (by rw [hq]; rfl) (by simp)
      have hline : m :: queue = line := by
        rw [← hq]
        apply hl.behind i k (by rw [hi]; rfl)
      have hnodup := hn.nodup.sublist hl.sublist
      rw [← hline] at hnodup
      refine ⟨hfree, (List.nodup_cons.mp hnodup).1, (hl'.mem m).mp ?_⟩
      rw [← hline]
      apply List.mem_cons_self
  | _ => simp [setStage] at hlog

theorem Pops.move
    (h : s.Pops) (hs : s.Single) (hn : s.Numbered) (hl : s.Lined line) (hok : s.Orderly a)
    (hm : Move s a s') :
  s'.Pops
  := by
  intro l₁ m l₂ hlog
  by_cases ha : ∃ i, a = .acquire i
  · obtain ⟨i, rfl⟩ := ha
    cases hm with
    | @acquire _ n hi =>
        obtain ⟨l, hlog', rfl⟩ | ⟨he, -⟩ := Machine.concat_eq_append_cons hlog
        · left
          obtain hhead | ⟨hnone, hcalled⟩ := h l₁ m l hlog'
          · simp [List.head?_append, hhead]
          · simp [hnone, hcalled.acquire hl hok hi]
        · simp at he
  · have ha : ∀ i, a ≠ .acquire i := not_exists.mp ha
    have keep {l : List Event} (hlog : s.log = l₁ ++ (.called, m) :: l) :
        (numbers .acquired l).head? = some m ∨ numbers .acquired l = [] ∧ s'.Called m := by
      obtain hhead | ⟨hnone, hcalled⟩ := h l₁ m l hlog
      · exact .inl hhead
      · exact .inr ⟨hnone, hcalled.move hs hok hm ha⟩
    obtain hsame | ⟨k, n, hadd, hk⟩ := log_of_move hm ha
    · apply keep (hsame ▸ hlog)
    · rw [hadd] at hlog
      obtain ⟨l, hlog', rfl⟩ | ⟨he, -, rfl⟩ := Machine.concat_eq_append_cons hlog
      · simpa [hk] using keep hlog'
      · rw [he] at hadd
        exact .inr ⟨rfl, called_of_move hs hn hl hm hadd⟩

theorem InTurn.move (h : s.InTurn) (hok : s.Orderly a) (hm : Move s a s') :
  s'.InTurn
  := by
  obtain ⟨line, hl⟩ := h.lined
  constructor
  · apply h.numbered.move hm
  · apply h.single.move hl hok hm
  · apply hl.move h.single h.numbered hok hm
  · apply h.listed.move hok hm
  · apply h.entered.move h.single hl h.listed hok hm
  · apply h.pops.move h.single h.numbered hl hok hm

omit [DecidableEq P] in
/-- Nobody has come to a new line. -/
theorem InTurn.empty :
  InTurn ⟨0, false, [], fun _ : P => .away, []⟩
  := by
  constructor
  · exact ⟨nofun, nofun, nofun, nofun, List.nodup_nil⟩
  · exact ⟨⟨nofun, fun ⟨_, _, h⟩ => h.elim⟩, nofun⟩
  · exact ⟨[], rfl, fun n => ⟨nofun, fun ⟨_, h⟩ => h.elim⟩, nofun, fun _ => rfl⟩
  · exact ⟨List.prefix_refl _, nofun⟩
  · exact ⟨List.Sublist.refl _, nofun, nofun⟩
  · intro l₁ n l₂ h
    simp at h

omit [DecidableEq P] in
/-- Parties enter in the order in which they were listed. -/
theorem InTurn.entered_sublist (h : s.InTurn) :
  (numbers .entered s.log).Sublist (numbers .listed s.log)
  := by
  obtain ⟨line, hl⟩ := h.lined
  obtain ⟨rest, hrest⟩ := h.listed.isPrefix
  have hsub : (numbers .entered s.log).Sublist (numbers .joined s.log) := by
    apply h.entered.sublist.trans
    rw [hl.log]
    apply List.sublist_append_left
  have hnodup := h.numbered.nodup
  rw [← hrest] at hsub hnodup
  obtain ⟨l₁, l₂, hl, h₁, h₂⟩ := List.sublist_append_iff.mp hsub
  -- what is listed does not occur in the rest
  have hempty : l₂ = [] := by
    apply List.eq_nil_iff_forall_not_mem.mpr
    intro n hn
    have hlisted := h.entered.mem n (by rw [hl]; exact List.mem_append_right _ hn)
    apply hnodup.disjoint hlisted (h₂.subset hn)
  rw [hl, hempty, List.append_nil]
  apply h₁

omit [DecidableEq P] in
theorem InTurn.next_acquired
    {l₁ l₂ : List Event} {n m : Nat} (h : s.InTurn) (hlog : s.log = l₁ ++ (.called, n) :: l₂)
    (hm : (numbers .acquired l₂).head? = some m) :
  m = n
  := by
  obtain hhead | ⟨hnone, -⟩ := h.pops l₁ n l₂ hlog
  · apply Option.some.inj (hm.symm.trans hhead)
  · simp [hnone] at hm

end State

end Line
