import Mathlib.Data.Set.Insert
import Mathlib.Logic.Function.Basic

/-!
# A gate guarded by a flag

Parties pass a gate behind which at most one of them should be.  A flag says that
somebody is inside, but not who: a party looks at the flag and raises it in two steps,
and lowers it when it leaves.  A party that finds the flag raised waits on a cell with a
version counter.  It has a ticket, the version it has seen last and a place of its own
among the waiters; it parks only while nothing newer is there, and whoever leaves bumps
the version and calls everybody who is parked.

`Move` lists what can happen to a gate.  Three things are kept by moves that meet a
condition: nobody shares the inside (`Exclusive`), the flag is raised only for somebody
inside (`Attended`), and a party that is parked and not called waits for somebody who
still has to bump the version (`Woken`).
-/

namespace FlagGate

variable {P : Type*}

/-- The version a party has seen last, and its place among the waiters. -/
structure Ticket where
  seen : Nat
  id : Nat

/-- The cell the parties wait on: a version, the first free place, and who is parked. -/
structure Cell (P : Type*) where
  version : Nat
  next : Nat
  waiters : Nat → Option P

/-- A cell nobody waits on, whose first place is `first`. -/
def Cell.fresh (first : Nat) : Cell P :=
  ⟨0, first, fun _ => none⟩

/-- A newer version, with everybody who was parked gone. -/
def Cell.bump (c : Cell P) : Cell P :=
  { c with version := c.version + 1, waiters := fun _ => none }

/-- Where a party is. -/
inductive Phase where
  | away
  /-- About to look at the flag. -/
  | looking (t : Ticket)
  /-- Found it lowered and is about to raise it. -/
  | entering
  /-- Found it raised and is about to park. -/
  | waiting (t : Ticket)
  | parked (t : Ticket)
  | inside
  /-- Has lowered the flag and is about to bump the version. -/
  | leaving

/-- The ticket a party holds. -/
def Phase.ticket : Phase → Option Ticket
  | .looking t | .waiting t | .parked t => some t
  | _ => none

theorem Phase.ticket_eq_some {p : Phase} {t : Ticket} (h : p = .waiting t ∨ p = .parked t) :
  p.ticket = some t
  := by
  obtain rfl | rfl := h
  · rfl
  · rfl

/-- The party is inside or has yet to bump the version for having been. -/
def Phase.Owes : Phase → Prop
  | .inside | .leaving => True
  | _ => False

/-- A gate: the flag, the cell once somebody has asked for it, where every party is, and
who has been called. -/
@[ext]
structure Gate (P : Type*) where
  raised : Bool
  cell : Option (Cell P)
  phase : P → Phase
  called : Set P

namespace Gate

/-- Who is parked in the cell. -/
def registered (g : Gate P) : Set P :=
  {i | ∃ c ∈ g.cell, ∃ id, c.waiters id = some i}

/-- The cell is bumped, if it is there, and everybody parked is called. -/
def bump (g : Gate P) : Gate P :=
  { g with cell := g.cell.map .bump, called := g.called ∪ g.registered }

section
variable [DecidableEq P]

/-- One party goes to another phase. -/
def setPhase (g : Gate P) (i : P) (p : Phase) : Gate P :=
  { g with phase := Function.update g.phase i p }

@[simp]
theorem setPhase_phase_self (g : Gate P) (i : P) (p : Phase) :
  (g.setPhase i p).phase i = p
  := Function.update_self ..

end

end Gate

/-- What is done at a gate. -/
inductive Action (P : Type*) where
  | subscribe (i : P)
  | look (i : P)
  | enter (i : P)
  | poll (i : P)
  | resume (i : P)
  | lower (i : P)
  | notify (i : P)
  | bump
  | call
  | reset
  | crash (i : P)

/-- What an action does to the flag. -/
def Action.flag (raised : Bool) : Action P → Bool
  | .enter _ => true
  | .lower _ | .reset => false
  | _ => raised

/-- What an action does to a gate. -/
inductive Move [DecidableEq P] : Gate P → Action P → Gate P → Prop where
  /-- A party takes a ticket from the cell, which is made if it is not there. -/
  | subscribe {g : Gate P} {i : P} {c : Cell P} :
      g.phase i = .away → (g.cell = some c ∨ g.cell = none ∧ ∃ first, c = .fresh first) →
      Move g (.subscribe i) { g.setPhase i (.looking ⟨c.version, c.next⟩) with
        cell := some { c with next := c.next + 1 } }
  | pass {g : Gate P} {i : P} {t : Ticket} :
      g.phase i = .looking t → g.raised = false → Move g (.look i) (g.setPhase i .entering)
  | fail {g : Gate P} {i : P} {t : Ticket} :
      g.phase i = .looking t → g.raised = true → Move g (.look i) (g.setPhase i (.waiting t))
  | enter {g : Gate P} {i : P} :
      g.phase i = .entering → Move g (.enter i) { g.setPhase i .inside with raised := true }
  /-- A party that sees a newer version looks again. -/
  | ready {g : Gate P} {i : P} {t : Ticket} {c : Cell P} :
      g.phase i = .waiting t → g.cell = some c → c.version ≠ t.seen →
      Move g (.poll i) (g.setPhase i (.looking { t with seen := c.version }))
  | park {g : Gate P} {i : P} {t : Ticket} {c : Cell P} :
      g.phase i = .waiting t → g.cell = some c → c.version = t.seen →
      Move g (.poll i) { g.setPhase i (.parked t) with
        cell := some { c with waiters := Function.update c.waiters t.id (some i) } }
  /-- A parked party looks at the cell again, whether it was called or not; it may be
  called once more for what it was called for. -/
  | resume {g : Gate P} {i : P} {t : Ticket} {called : Set P} :
      g.phase i = .parked t → (∀ j, j ≠ i → j ∈ g.called → j ∈ called) →
      Move g (.resume i) { g.setPhase i (.waiting t) with called := called }
  | lower {g : Gate P} {i : P} :
      g.phase i = .inside → Move g (.lower i) { g.setPhase i .leaving with raised := false }
  | notify {g : Gate P} {i : P} :
      g.phase i = .leaving → Move g (.notify i) (g.setPhase i .away).bump
  /-- The version is bumped by somebody else. -/
  | bump {g : Gate P} : Move g .bump g.bump
  /-- Others are called, or not called any more; whoever is parked and called still is. -/
  | call {g : Gate P} {called : Set P} :
      (∀ i t, g.phase i = .parked t → i ∈ g.called → i ∈ called) →
      Move g .call { g with called := called }
  /-- The flag is lowered by somebody else. -/
  | reset {g : Gate P} : Move g .reset { g with raised := false }
  | crash {g : Gate P} {i : P} : Move g (.crash i) (g.setPhase i .away)

namespace Gate

variable [DecidableEq P] {g g' : Gate P} {a : Action P}

/-! ### What a move does -/

/-- Parties get inside by entering, and stay until they lower the flag or crash. -/
theorem inside_of_move (hm : Move g a g') (i : P) :
  g'.phase i = .inside ↔
    a = .enter i ∨ g.phase i = .inside ∧ a ≠ .lower i ∧ a ≠ .crash i
  := by
  cases hm
  all_goals
    simp only [setPhase, bump, Function.update_apply]
    grind

/-- The flag is raised by entering, and lowered by leaving and by a reset. -/
theorem raised_of_move (hm : Move g a g') :
  g'.raised = a.flag g.raised
  := by
  cases hm
  all_goals rfl

/-- Parties owe a bump from when they enter until they notify or crash. -/
theorem owes_of_move (hm : Move g a g') (i : P) :
  (g'.phase i).Owes ↔
    a = .enter i ∨ (g.phase i).Owes ∧ a ≠ .notify i ∧ a ≠ .crash i
  := by
  cases hm
  all_goals
    simp only [setPhase, bump, Function.update_apply]
    grind [Phase.Owes]

/-! ### Mutual exclusion -/

/-- At most one party is inside, and only while the flag is raised. -/
structure Exclusive (g : Gate P) : Prop where
  unique : ∀ i j, g.phase i = .inside → g.phase j = .inside → i = j
  raised : ∀ i, g.phase i = .inside → g.raised = true

/-- Nobody raises a raised flag, and nobody else lowers it under a party inside. -/
def RespectsFlag (g : Gate P) : Action P → Prop
  | .enter _ => g.raised = false
  | .reset => ∀ i, g.phase i ≠ .inside
  | _ => True

theorem Exclusive.move (h : g.Exclusive) (hok : g.RespectsFlag a) (hm : Move g a g') :
  g'.Exclusive
  := by
  have hin := inside_of_move hm
  have hraised := raised_of_move hm
  have nobody {i j : P} (ha : a = .enter i) (hj : g.phase j = .inside) : False := by
    rw [ha] at hok
    have hr := h.raised j hj
    rw [show g.raised = false from hok] at hr
    contradiction
  constructor
  · intro i j hi hj
    obtain hi | ⟨hi, -, -⟩ := (hin i).mp hi
    · obtain hj | ⟨hj, -, -⟩ := (hin j).mp hj
      · rw [hi] at hj
        apply Action.enter.inj hj
      · apply (nobody hi hj).elim
    · obtain hj | ⟨hj, -, -⟩ := (hin j).mp hj
      · apply (nobody hj hi).elim
      · apply h.unique i j hi hj
  · intro i hi
    obtain ha | ⟨hwas, hl, -⟩ := (hin i).mp hi
    · rw [hraised, ha]
      rfl
    · rw [hraised]
      cases hm with
      | lower hj =>
          -- whoever lowers the flag is the one inside
          exact absurd (congrArg Action.lower (h.unique _ i hj hwas)) hl
      | enter => rfl
      | reset => exact absurd hwas (hok i)
      | _ => apply h.raised i hwas

/-! ### Nobody leaves the flag behind -/

/-- The flag is raised only while somebody is inside. -/
def Attended (g : Gate P) : Prop :=
  g.raised = true → ∃ i, g.phase i = .inside

/-- Nobody who is the only one inside crashes under a raised flag. -/
def LeavesAttended (g : Gate P) : Action P → Prop
  | .crash i => g.raised = true → g.phase i = .inside → ∃ j, j ≠ i ∧ g.phase j = .inside
  | _ => True

theorem Attended.move (h : g.Attended) (hok : g.LeavesAttended a) (hm : Move g a g') :
  g'.Attended
  := by
  have hin := inside_of_move hm
  intro hr
  rw [raised_of_move hm] at hr
  cases a with
  | enter i => exact ⟨i, (hin i).mpr (.inl rfl)⟩
  | lower => contradiction
  | reset => contradiction
  | crash i =>
      obtain ⟨j, hj⟩ := h hr
      by_cases hji : j = i
      · rw [hji] at hj
        obtain ⟨k, hk, hk'⟩ := hok hr hj
        refine ⟨k, (hin k).mpr (.inr ⟨hk', nofun, ?_⟩)⟩
        exact fun heq => hk (Action.crash.inj heq).symm
      · refine ⟨j, (hin j).mpr (.inr ⟨hj, nofun, ?_⟩)⟩
        exact fun heq => hji (Action.crash.inj heq).symm
  | _ =>
      obtain ⟨j, hj⟩ := h hr
      exact ⟨j, (hin j).mpr (.inr ⟨hj, nofun, nofun⟩)⟩

/-! ### Nobody waits in vain -/

/-- Tickets are no newer than the cell, and every place among the waiters is one party's. -/
structure Ticketed (g : Gate P) : Prop where
  held : ∀ i t, (g.phase i).ticket = some t → ∃ c, g.cell = some c ∧
    t.seen ≤ c.version ∧ t.id < c.next
  distinct : ∀ i j t u, (g.phase i).ticket = some t → (g.phase j).ticket = some u →
    t.id = u.id → i = j

/-- A parked party is registered in the cell, or a newer version is there and it is
called. -/
def Posted (g : Gate P) : Prop :=
  ∀ i t c, g.phase i = .parked t → g.cell = some c →
    c.version = t.seen ∧ c.waiters t.id = some i ∨ c.version ≠ t.seen ∧ i ∈ g.called

/-- A party has found the flag raised, and nothing newer than it has seen is there. -/
def Sleeps (g : Gate P) (i : P) : Prop :=
  ∃ t c, (g.phase i = .waiting t ∨ g.phase i = .parked t) ∧ g.cell = some c ∧
    c.version = t.seen

/-- Whoever sleeps waits for a bump of the version that somebody owes. -/
def Woken (g : Gate P) : Prop :=
  ∀ i, g.Sleeps i → ∃ j, (g.phase j).Owes

/-- Nobody crashes before having bumped the version for being inside. -/
def PaysDebts (g : Gate P) : Action P → Prop
  | .crash i => ¬ (g.phase i).Owes
  | _ => True

/-! ### Tickets -/

/-- A party that gives its ticket up leaves the others theirs. -/
theorem Ticketed.away (h : g.Ticketed) (i : P) :
  (g.setPhase i .away).Ticketed
  := by
  obtain ⟨held, distinct⟩ := h
  constructor
  all_goals
    simp only [Gate.setPhase, Function.update_apply]
    grind [Phase.ticket]

omit [DecidableEq P] in
theorem Ticketed.bump (h : g.Ticketed) :
  g.bump.Ticketed
  := by
  constructor
  · intro i t hi
    obtain ⟨c, hc, hv, hlt⟩ := h.held i t hi
    exact ⟨c.bump, by rw [Gate.bump, hc]; rfl, Nat.le_succ_of_le hv, hlt⟩
  · apply h.distinct

theorem Ticketed.move (h : g.Ticketed) (hm : Move g a g') :
  g'.Ticketed
  := by
  cases hm with
  | notify => apply (h.away _).bump
  | bump => apply h.bump
  | _ =>
      obtain ⟨held, distinct⟩ := h
      constructor
      all_goals
        simp only [Gate.setPhase, Function.update_apply]
        grind [Phase.ticket, Cell.fresh]

omit [DecidableEq P] in
/-- After a bump every ticket is out of date. -/
theorem Ticketed.newer
    {i : P} {t : Ticket} {c : Cell P} (h : g.Ticketed) (hi : (g.phase i).ticket = some t)
    (hc : g.bump.cell = some c) :
  c.version ≠ t.seen
  := by
  obtain ⟨c', hc', hv, -⟩ := h.held i t hi
  obtain ⟨c'', hc'', rfl⟩ := Option.map_eq_some_iff.mp hc
  obtain rfl := Option.some.inj (hc'.symm.trans hc'')
  apply Nat.ne_of_gt (Nat.lt_succ_of_le hv)

/-! ### Calls -/

omit [DecidableEq P] in
/-- Whoever is parked in the cell is called when the version is bumped. -/
theorem Posted.bump (h : g.Posted) (ht : g.Ticketed) :
  g.bump.Posted
  := by
  intro i t c hi hc
  right
  constructor
  · apply ht.newer (by rw [show g.phase i = _ from hi]; rfl) hc
  · obtain ⟨c', hc', -⟩ := Option.map_eq_some_iff.mp hc
    obtain ⟨-, hw⟩ | ⟨-, hcalled⟩ := h i t c' hi hc'
    · exact .inr ⟨c', hc', t.id, hw⟩
    · exact .inl hcalled

theorem Posted.away (h : g.Posted) (i : P) :
  (g.setPhase i .away).Posted
  := by
  unfold Posted at h ⊢
  simp only [Gate.setPhase, Function.update_apply]
  grind

theorem Posted.move (h : g.Posted) (ht : g.Ticketed) (hm : Move g a g') :
  g'.Posted
  := by
  cases hm with
  | bump => apply h.bump ht
  | notify => apply (h.away _).bump (ht.away _)
  | subscribe | park =>
      obtain ⟨held, distinct⟩ := ht
      unfold Posted at h ⊢
      simp only [Gate.setPhase, Function.update_apply]
      rintro j u _ hj ⟨⟩
      grind [Phase.ticket]
  | _ =>
      unfold Posted at h ⊢
      simp only [Gate.setPhase, Function.update_apply]
      grind

/-! ### Debts -/

omit [DecidableEq P] in
/-- Nobody sleeps after a bump. -/
theorem Ticketed.not_sleeps_bump (h : g.Ticketed) (i : P) :
  ¬ g.bump.Sleeps i
  := by
  rintro ⟨t, c, hi, hc, hv⟩
  apply h.newer (Phase.ticket_eq_some hi) hc hv

/-- Nobody falls asleep but by finding the flag raised, and nobody sleeps after a bump. -/
theorem sleeps_of_move {i : P} (ht : g.Ticketed) (hm : Move g a g') (hi : g'.Sleeps i) :
  (∀ j, a ≠ .notify j) ∧ (g.Sleeps i ∨ g.raised = true)
  := by
  cases hm with
  | notify => exact absurd hi ((ht.away _).not_sleeps_bump i)
  | bump => exact absurd hi (ht.not_sleeps_bump i)
  | subscribe =>
      obtain ⟨t, _, hi, ⟨⟩, hv⟩ := hi
      simp only [Gate.setPhase, Function.update_apply] at hi hv
      have hi : g.phase i = .waiting t ∨ g.phase i = .parked t := by grind
      obtain ⟨c, hc, -⟩ := ht.held i t (Phase.ticket_eq_some hi)
      exact ⟨nofun, .inl ⟨t, c, hi, hc, by grind⟩⟩
  | park =>
      obtain ⟨t, _, hi, ⟨⟩, hv⟩ := hi
      simp only [Gate.setPhase, Function.update_apply] at hi hv
      refine ⟨nofun, .inl ⟨t, _, ?_, ‹_›, hv⟩⟩
      grind
  | _ =>
      unfold Sleeps at hi ⊢
      simp only [Gate.setPhase, Function.update_apply] at hi
      grind

theorem Woken.move
    (h : g.Woken) (ht : g.Ticketed) (ha : g.Attended) (hok : g.PaysDebts a) (hm : Move g a g') :
  g'.Woken
  := by
  intro i hi
  obtain ⟨hn, hi⟩ := sleeps_of_move ht hm hi
  have howed : ∃ j, (g.phase j).Owes := by
    obtain hi | hr := hi
    · apply h i hi
    · obtain ⟨j, hj⟩ := ha hr
      use j
      rw [hj]
      trivial
  obtain ⟨j, hj⟩ := howed
  use j
  rw [owes_of_move hm]
  refine .inr ⟨hj, hn j, ?_⟩
  rintro rfl
  apply hok hj

omit [DecidableEq P] in
/-- A party that is parked and not called waits for somebody who owes a bump. -/
theorem owes_of_parked
    {i : P} {t : Ticket} (ht : g.Ticketed) (hp : g.Posted) (hw : g.Woken)
    (hi : g.phase i = .parked t) (hcalled : i ∉ g.called) :
  ∃ j, (g.phase j).Owes
  := by
  obtain ⟨c, hc, -⟩ := ht.held i t (Phase.ticket_eq_some (.inr hi))
  obtain ⟨hv, -⟩ | ⟨-, h⟩ := hp i t c hi hc
  · apply hw i ⟨t, c, .inr hi, hc, hv⟩
  · exact absurd h hcalled

end Gate

end FlagGate
