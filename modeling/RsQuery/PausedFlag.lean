import RsQuery.Entries

/-!
# The paused flag

Executions in scopes run beside calls of `resume_paused_mutations` on their cache.  An entry is
paused as it is added, when its scope is running; it is unpaused by its execution once it has
passed the gate, and by `resume_paused_mutations`, which lets nobody pass.  The flags tell who
waits exactly in the runs where nobody parks without the flag, loses it while parked, or is
dropped with it: `Resuming.tellsTruth_iff`.
-/

namespace RsQuery

/-- Unpauses every paused entry, and gives their ids. -/
def MutationCache.unpauseAll (c : MutationCache) : MutationCache × List Nat :=
  ({ c with
      entries := c.entries.map fun entry =>
        if entry.isPaused then { entry with isPaused := false } else entry },
    (c.entries.filter (·.isPaused)).map (·.id))

theorem MutationCache.get_unpauseAll (c : MutationCache) (k : Nat) :
  c.unpauseAll.1.get k = (c.get k).map fun entry => { entry with isPaused := false }
  := by
  have hunpause (entry : MutationCacheEntry) :
      (if entry.isPaused then { entry with isPaused := false } else entry)
        = { entry with isPaused := false } := by
    split
    · rfl
    · next h => rw [← Bool.of_not_eq_true h]
  simp only [unpauseAll, get, hunpause, List.find?_map]
  rfl

namespace Mutations

/-- Where `resume_paused_mutations` stands. -/
inductive ResumePc where
  | unpause
  /-- Has resumed these entries, and sends `Updated` for the rest of them. -/
  | send (resumed rest : List Nat)
  /-- Has returned how many it resumed. -/
  | done (resumed : Nat)

def ResumePc.isDone : ResumePc → Bool
  | .done _ => true
  | _ => false

def ResumePc.advance (c : MutationCache) : ResumePc → Option (MutationCache × ResumePc)
  | .unpause =>
    let (c, ids) := c.unpauseAll
    some (c, .send ids ids)
  | .send resumed (id :: rest) => some (c.send (.updated id), .send resumed rest)
  | .send resumed [] => some (c, .done resumed.length)
  | .done _ => none

/-- The step is one of the executions. -/
def Action.isExec : Action → Bool
  | .submit .. | .advance .. | .resume _ | .abandon _ | .wake .. | .tick _ => true
  | _ => false

/-- What is noted of the flags. -/
inductive Mark where
  /-- Execution `i` joins a scope that is running. -/
  | busy (i : Nat)
  /-- Execution `i` inserts its entry. -/
  | pushed (i : Nat)
  /-- A call of `resume_paused_mutations` unpauses the entries. -/
  | unpaused
deriving DecidableEq

def Exec.marks (e : Exec) (i : Nat) (c : MutationCache) : List Mark :=
  match e.pc with
  | .add (.join entry) =>
    if entry.scope.any fun scope => (c.scopeState scope.id).running then [.busy i] else []
  | .add (.push _) => [.pushed i]
  | _ => []

def ResumePc.marks : ResumePc → List Mark
  | .unpause => [.unpaused]
  | _ => []

/-- The execution has inserted its entry, and has not unpaused it at the gate. -/
def Pc.awaits : Pc → Bool
  | .add (.hook _) | .add (.announce _) | .fireOnMutate | .subscribe | .gate _ => true
  | .body .readPaused | .body .unpause => true
  | _ => false

/-- The execution is about to be suspended at its gate: its scope was not released since it
looked last. -/
def Exec.parks (e : Exec) (i : Nat) (c : MutationCache) : Bool :=
  match e.pc, e.mutation.scope with
  | .gate (.poll watcher), some scope =>
    (c.pollRelease scope.id watcher i).any fun (_, _, poll) => poll.isNone
  | _, _ => false

/-- The execution is in no operation of the cache: it is not polled yet, suspended, in user
code or over. -/
def Pc.atRest : Pc → Bool
  | .queued | .gate (.parked _) | .done _ | .dropped => true
  | .body pc =>
    match pc with
    | .onMutate | .mutateFn .. | .sleeping .. | .rollback _ | .callbacks _ => true
    | _ => false
  | _ => false

/-- The entry of the execution, if it is pending, is paused exactly if the execution is
parked. -/
def Exec.Truthful (e : Exec) (c : MutationCache) : Prop :=
  ∀ entry, e.entryId ≠ 0 → c.get e.entryId = some entry → entry.status = .pending →
    (entry.isPaused = true ↔ e.pc.isParked = true)

/-- The executions on a mutation cache, and the calls of `resume_paused_mutations` on it. -/
structure Resuming where
  muts : Mutations
  resumes : Table Nat ResumePc

namespace Resuming

inductive Action where
  /-- A step of the executions. -/
  | run (a : Mutations.Action)
  /-- Calls `resume_paused_mutations`. -/
  | resumePaused (j : Nat)
  | advanceResume (j : Nat)

def initial : Resuming :=
  ⟨Mutations.initial, ∅⟩

def step (s : Resuming) : Action → Option Resuming
  | .run a =>
    if a.isExec then (s.muts.step a).map fun muts => { s with muts := muts } else none
  | .resumePaused j =>
    if (s.resumes.lookup j).isSome then none
    else some { s with resumes := s.resumes.insert j .unpause }
  | .advanceResume j => do
    let pc ← s.resumes.lookup j
    let (c, pc) ← pc.advance s.muts.cache
    some { muts := { s.muts with cache := c }, resumes := s.resumes.insert j pc }

def machine : Machine Resuming Action :=
  ⟨fun s => s = initial, step⟩

def noted (s : Resuming) (a : Action) (_ : Resuming) : List Mark :=
  match a with
  | .run (.advance i _) => (s.muts.execs.lookup i).elim [] fun e => e.marks i s.muts.cache
  | .advanceResume j => (s.resumes.lookup j).elim [] ResumePc.marks
  | _ => []

/-- The system with a log of what sets and clears the flags. -/
def marking : Machine (Resuming × List Mark) Action :=
  machine.noting noted

/-! ### What the log says -/

section Marked

variable {i : Nat} {log l : List Mark}

/-- Execution `i` found its scope running as it joined it, and the entries have not been
unpaused since its own is among them. -/
def Marked (i : Nat) (log : List Mark) : Prop :=
  .busy i ∈ log ∧ ∃ l₁ l₂, log = l₁ ++ .pushed i :: l₂ ∧ .unpaused ∉ l₂

theorem busy_append_iff (hbusy : .busy i ∉ l) :
  .busy i ∈ log ++ l ↔ .busy i ∈ log
  := by
  rw [List.mem_append, or_iff_left hbusy]

theorem marked_append_iff
    (hbusy : .busy i ∉ l) (hpushed : .pushed i ∉ l) (hunpaused : .unpaused ∉ l) :
  Marked i (log ++ l) ↔ Marked i log
  := by
  rw [Marked, Marked, busy_append_iff hbusy]
  apply and_congr_right
  intro _
  constructor
  · rintro ⟨l₁, l₂, hlog, hl₂⟩
    obtain ⟨l', rfl, rfl⟩ := Machine.append_eq_append_cons hlog hpushed
    rw [List.mem_append, not_or] at hl₂
    exact ⟨l₁, l', rfl, hl₂.1⟩
  · rintro ⟨l₁, l₂, rfl, hl₂⟩
    refine ⟨l₁, l₂ ++ l, by simp, ?_⟩
    rw [List.mem_append, not_or]
    exact ⟨hl₂, hunpaused⟩

theorem not_marked_unpaused :
  ¬ Marked i (log ++ [.unpaused])
  := by
  rintro ⟨-, l₁, l₂, hlog, hl₂⟩
  obtain ⟨l', -, rfl⟩ := Machine.append_eq_append_cons hlog (by simp)
  simp at hl₂

theorem marked_pushed_iff :
  Marked i (log ++ [.pushed i]) ↔ .busy i ∈ log
  := by
  simp only [Marked, List.mem_append, List.mem_singleton, reduceCtorEq, or_false]
  apply and_iff_left
  exact ⟨log, [], rfl, List.not_mem_nil⟩

end Marked

/-! ### Flags that tell the truth -/

/-- The flags of executions at rest tell the truth. -/
def TellsTruth (s : Resuming) : Prop :=
  ∀ i e, s.muts.execs.lookup i = some e → e.pc.atRest = true → e.Truthful s.muts.cache

/-- No operation of the cache is in progress. -/
def Quiet (s : Resuming) : Prop :=
  (∀ i e, s.muts.execs.lookup i = some e → e.pc.atRest = true) ∧
    ∀ j pc, s.resumes.lookup j = some pc → pc.isDone = true

instance (s : Resuming) : Decidable s.Quiet := by
  unfold Quiet
  infer_instance

/-- The flags tell the truth after the step. -/
def KeepsTruth (t : Resuming × List Mark) (a : Action) : Prop :=
  ∀ t' ∈ marking.step t a, TellsTruth t'.1

/-- An execution parks only if it is marked, the entries are unpaused only while no execution
is parked, and an execution that awaits its turn is dropped only if it is not marked. -/
def Guarded (t : Resuming × List Mark) : Action → Prop
  | .run (.advance i _) =>
    ∀ e, t.1.muts.execs.lookup i = some e → e.parks i t.1.muts.cache = true → Marked i t.2
  | .run (.abandon i) =>
    ∀ e, t.1.muts.execs.lookup i = some e → e.pc.interruptible = true → e.pc.awaits = true →
      ¬ Marked i t.2
  | .advanceResume j =>
    t.1.resumes.lookup j = some .unpause →
      ∀ i e, t.1.muts.execs.lookup i = some e → e.pc.isParked = false
  | _ => True

/-! ### The flag and the log -/

section Agrees

variable {i : Nat} {e e' : Exec} {c c' : MutationCache} {log l : List Mark} {nowMs : Nat}
  {o : Outcome}

/-- The entry of the execution is in the cache, and is one of these. -/
def HasEntry (e : Exec) (c : MutationCache) (P : MutationCacheEntry → Prop) : Prop :=
  e.entryId ≠ 0 ∧ ∃ entry, c.get e.entryId = some entry ∧ P entry

/-- The entry is pending, and paused exactly if it should be. -/
def Shows (paused : Prop) (entry : MutationCacheEntry) : Prop :=
  entry.status = .pending ∧ (entry.isPaused = true ↔ paused)

/-- The entry an execution carries, and the one it has in the cache, go with the log. -/
def Agrees (i : Nat) (e : Exec) (c : MutationCache) (log : List Mark) : Prop :=
  (.busy i ∈ log → e.mutation.scope.isSome = true) ∧
    match e.pc with
    | .queued => e.entryId = 0 ∧ .busy i ∉ log
    | .add (.assign entry) => e.entryId = 0 ∧ .busy i ∉ log ∧ Shows False entry
    | .add (.join entry) =>
      e.entryId ≠ 0 ∧ c.get e.entryId = none ∧ .busy i ∉ log ∧ Shows False entry
    | .add (.push entry) =>
      e.entryId ≠ 0 ∧ c.get e.entryId = none ∧ Shows (.busy i ∈ log) entry
    | .dropped => True
    | pc =>
      if pc.awaits then HasEntry e c (Shows (Marked i log)) else HasEntry e c (·.isPaused = false)

theorem HasEntry.of_get
    {P : MutationCacheEntry → Prop} (h : HasEntry e c P)
    (hget : c'.get e.entryId = c.get e.entryId) :
  HasEntry e c' P
  := by
  obtain ⟨hid, hentry⟩ := h
  rw [← hget] at hentry
  exact ⟨hid, hentry⟩

/-- Where the entry stays as it is, and nothing is noted that concerns the execution. -/
theorem Agrees.of_get
    (h : Agrees i e c log) (hget : e.entryId ≠ 0 → c'.get e.entryId = c.get e.entryId)
    (hbusy : .busy i ∉ l) (hpushed : .pushed i ∉ l) (hunpaused : .unpaused ∉ l) :
  Agrees i e c' (log ++ l)
  := by
  have hentry {P : MutationCacheEntry → Prop} (h : HasEntry e c P) : HasEntry e c' P :=
    h.of_get (hget h.1)
  unfold Agrees at h ⊢
  rw [busy_append_iff hbusy, marked_append_iff hbusy hpushed hunpaused]
  refine h.imp_right fun h => ?_
  split at h
  · apply h
  · apply h
  · exact ⟨h.1, (hget h.1).trans h.2.1, h.2.2⟩
  · exact ⟨h.1, (hget h.1).trans h.2.1, h.2.2⟩
  · trivial
  · split at h
    · next hawaits =>
      rw [if_pos hawaits]
      apply hentry h
    · next hawaits =>
      rw [if_neg hawaits]
      apply hentry h

theorem HasEntry.unpauseAll {P : MutationCacheEntry → Prop} (h : HasEntry e c P) :
  HasEntry e c.unpauseAll.1 (·.isPaused = false)
  := by
  obtain ⟨hid, entry, hentry, -⟩ := h
  refine ⟨hid, { entry with isPaused := false }, ?_, rfl⟩
  rw [MutationCache.get_unpauseAll, hentry, Option.map_some]

/-- Where every entry is unpaused. -/
theorem Agrees.unpauseAll (h : Agrees i e c log) :
  Agrees i e c.unpauseAll.1 (log ++ [.unpaused])
  := by
  have hnone (h : c.get e.entryId = none) : c.unpauseAll.1.get e.entryId = none := by
    rw [MutationCache.get_unpauseAll, h, Option.map_none]
  have hshows (h : HasEntry e c (Shows (Marked i log))) :
      HasEntry e c.unpauseAll.1 (Shows (Marked i (log ++ [.unpaused]))) := by
    obtain ⟨hid, entry, hentry, hpending, -⟩ := h
    refine ⟨hid, { entry with isPaused := false }, ?_, hpending, ?_⟩
    · rw [MutationCache.get_unpauseAll, hentry, Option.map_some]
    · simp [not_marked_unpaused]
  unfold Agrees at h ⊢
  rw [busy_append_iff (by simp)]
  refine h.imp_right fun h => ?_
  split at h
  · apply h
  · apply h
  · exact ⟨h.1, hnone h.2.1, h.2.2⟩
  · exact ⟨h.1, hnone h.2.1, h.2.2⟩
  · trivial
  · split at h
    · next hawaits =>
      rw [if_pos hawaits]
      apply hshows h
    · next hawaits =>
      rw [if_neg hawaits]
      apply h.unpauseAll

theorem HasEntry.update
    {apply : MutationCacheEntry → MutationCacheEntry} {found missing : BodyPc} {pc : Pc}
    {P Q : MutationCacheEntry → Prop} (h : HasEntry e c P)
    (hupdate : e.update c apply found missing = (c', pc))
    (hid : ∀ entry, (apply entry).id = entry.id) (happly : ∀ entry, P entry → Q (apply entry)) :
  HasEntry e c' Q
  := by
  obtain ⟨hne, entry, hentry, hP⟩ := h
  refine ⟨hne, apply entry, ?_, happly entry hP⟩
  rw [(update_cases hupdate).1, MutationCache.get_updateEntry hid, if_pos rfl, hentry,
    Option.map_some]

/-- An execution adds its entry. -/
theorem Agrees.add
    {pc pc' : AddPc} (hids : ∀ entry ∈ c.entries, entry.id ≤ c.nextId) (hown : e.AddsOwn)
    (hpc : e.pc = .add pc) (hadd : pc.advance c = (c', some pc')) (h : Agrees i e c log) :
  Agrees i { e with entryId := pc'.entryId, pc := .add pc' } c' (log ++ e.marks i c)
  := by
  simp only [Agrees, hpc] at h
  simp only [Exec.AddsOwn, hpc] at hown
  obtain ⟨hscoped, h⟩ := h
  cases takes_of_add hadd with
  | assign =>
    obtain ⟨-, hbusy, hshows⟩ := h
    simp only [Exec.marks, hpc, List.append_nil]
    refine ⟨hscoped, Nat.succ_ne_zero _, ?_, hbusy, hshows⟩
    apply List.find?_eq_none.mpr
    intro entry hentry
    rw [decide_eq_true_eq]
    apply (Nat.lt_succ_of_le (hids entry hentry)).ne
  | @join entry scope hs =>
    obtain ⟨hid, hget, hbusy, hpending, hpaused⟩ := h
    rw [← (sameEntries_joinScope c scope.id entry).get] at hget
    rw [← hown.1, ← (joinScope_snd c scope.id entry).1] at hid hget
    have hscope : e.mutation.scope.isSome = true := by rw [← hown.2, hs, Option.isSome_some]
    refine ⟨fun _ => hscope, hid, hget, ?_⟩
    simp only [Exec.marks, hpc, hs, Option.any_some, MutationCache.joinScope]
    cases (c.scopeState scope.id).running with
    | true => exact ⟨hpending, by simp⟩
    | false => exact ⟨hpending, by simpa [hbusy] using hpaused⟩
  | @noScope entry hs =>
    obtain ⟨hid, hget, hbusy, hpending, hpaused⟩ := h
    rw [← hown.1] at hid hget
    simp only [Exec.marks, hpc, hs, Option.any_none, Bool.false_eq_true, if_false, List.append_nil]
    exact ⟨hscoped, hid, hget, hpending, by simpa [hbusy] using hpaused⟩
  | @push entry =>
    obtain ⟨hid, hget, hpending, hpaused⟩ := h
    rw [← hown.1] at hid hget
    simp only [Exec.marks, hpc]
    refine ⟨?_, hid, entry, MutationCache.get_pushEntry_self hget, hpending, ?_⟩
    · rwa [busy_append_iff (by simp)]
    · rwa [marked_pushed_iff]
  | hook =>
    subst hown
    simp only [Exec.marks, hpc, List.append_nil]
    exact ⟨hscoped, h⟩

/-- An execution runs. -/
theorem Agrees.body
    {pc : BodyPc} {pc' : Pc} (hpc : e.pc = .body pc)
    (hb : e.advanceBody c pc o = some (c', pc')) (h : Agrees i e c log) :
  Agrees i { e with pc := pc' } c' log
  := by
  obtain ⟨hscoped, h⟩ := h
  rw [hpc] at h
  cases takes_of_advanceBody hb with
  | paused => exact ⟨hscoped, h⟩
  | notPaused hunpaused =>
    obtain ⟨hid, entry, hentry, -⟩ := h
    rw [hentry] at hunpaused
    exact ⟨hscoped, hid, entry, hentry, hunpaused⟩
  | unpause hu =>
    obtain ⟨-, rfl | rfl⟩ := update_cases hu
    · exact ⟨hscoped, h.update hu (fun _ => rfl) fun _ _ => rfl⟩
    · exact ⟨hscoped, h.update hu (fun _ => rfl) fun _ _ => rfl⟩
  | keepContext hu =>
    obtain ⟨-, rfl | rfl⟩ := update_cases hu
    · exact ⟨hscoped, h.update hu (fun _ => rfl) fun _ h => h⟩
    · exact ⟨hscoped, h.update hu (fun _ => rfl) fun _ h => h⟩
  | @settle result _ _ hu =>
    have hentry (entry : MutationCacheEntry) :
        (Exec.settled result entry).id = entry.id ∧
          (Exec.settled result entry).isPaused = false := by
      cases result with
      | ok => exact ⟨rfl, rfl⟩
      | error => exact ⟨rfl, rfl⟩
    obtain ⟨-, rfl | rfl⟩ := update_cases hu
    · exact ⟨hscoped, h.update hu (fun _ => (hentry _).1) fun _ _ => (hentry _).2⟩
    · exact ⟨hscoped, h.update hu (fun _ => (hentry _).1) fun _ _ => (hentry _).2⟩
  | unpaused | noHook | hook | hookFails | keptContext | mutated | retry | rollBack | giveUp
  | slept | rolledBack | settled | release | finish => exact ⟨hscoped, h⟩

/-- An execution advances. -/
theorem Agrees.advance
    (hids : ∀ entry ∈ c.entries, entry.id ≤ c.nextId) (hown : e.AddsOwn)
    (ha : e.advance i nowMs c o = some (c', e')) (h : Agrees i e c log) :
  Agrees i e' c' (log ++ e.marks i c)
  := by
  cases takes_of_advance ha with
  | poll hpc =>
    simp only [Exec.marks, hpc, List.append_nil]
    simp only [Agrees, hpc] at h
    exact ⟨h.1, h.2.1, h.2.2, rfl, by simp [Exec.entry]⟩
  | add hpc hadd => apply h.add hids hown hpc hadd
  | added hpc hadd =>
    cases takes_of_add hadd
    simp only [Exec.marks, hpc, List.append_nil]
    simp only [Agrees, hpc] at h
    apply h
  | toScope hpc =>
    simp only [Exec.marks, hpc, List.append_nil]
    simp only [Agrees, hpc] at h
    apply h
  | toBody hpc hs =>
    simp only [Exec.marks, hpc, List.append_nil]
    simp only [Agrees, hpc] at h
    obtain ⟨hscoped, hid, entry, hentry, -, hpaused⟩ := h
    -- without a scope nothing is noted of it
    have hunmarked : ¬ Marked i log := by
      rintro ⟨hbusy, -⟩
      have := hscoped hbusy
      rw [hs] at this
      contradiction
    exact ⟨hscoped, hid, entry, hentry, Bool.of_not_eq_true (mt hpaused.mp hunmarked)⟩
  | subscribe hpc =>
    simp only [Exec.marks, hpc, List.append_nil]
    simp only [Agrees, hpc] at h
    apply h
  | @gate pc scope _ _ hpc hs hg =>
    simp only [Exec.marks, hpc, List.append_nil]
    simp only [Agrees, hpc] at h
    obtain ⟨hscoped, h⟩ := h
    have h : HasEntry e _ (Shows (Marked i log)) :=
      h.of_get ((sameEntries_gate hg).get _)
    obtain ⟨-, -, rfl⟩ | ⟨-, -, g, rfl⟩ := advanceGate_cases hg
    · exact ⟨hscoped, h⟩
    · exact ⟨hscoped, h⟩
  | body hpc hb =>
    simp only [Exec.marks, hpc, List.append_nil]
    apply h.body hpc hb
  | @markFinished _ scope hpc hs =>
    simp only [Exec.marks, hpc, List.append_nil]
    simp only [Agrees, hpc] at h
    obtain ⟨hscoped, h⟩ := h
    exact ⟨hscoped, h.of_get ((sameEntries_markFinished c _).get _)⟩
  | @notify _ _ _ _ pc' hpc hs hn =>
    simp only [Exec.marks, hpc, List.append_nil]
    simp only [Agrees, hpc] at h
    obtain ⟨hscoped, h⟩ := h
    have h : HasEntry e _ (·.isPaused = false) :=
      h.of_get ((sameEntries_notify hn).get _)
    cases pc' with
    | none => exact ⟨hscoped, h⟩
    | some => exact ⟨hscoped, h⟩
  | @runNext _ _ _ _ pc' hpc hs hn =>
    simp only [Exec.marks, hpc, List.append_nil]
    simp only [Agrees, hpc] at h
    obtain ⟨hscoped, h⟩ := h
    have h : HasEntry e _ (·.isPaused = false) :=
      h.of_get ((sameEntries_runNext hn).get _)
    cases pc' with
    | none => exact ⟨hscoped, h⟩
    | some => exact ⟨hscoped, h⟩

theorem isParked_of_awaits {pc : Pc} (hrest : pc.atRest = true) (hawaits : pc.awaits = true) :
  pc.isParked = true
  := by
  cases pc with
  | gate pc =>
    cases pc with
    | parked => rfl
    | _ => contradiction
  | body pc =>
    cases pc with
    | _ => contradiction
  | _ => contradiction

theorem awaits_of_isParked {pc : Pc} (h : pc.isParked = true) :
  pc.awaits = true
  := by
  obtain ⟨w, rfl⟩ := Pc.isParked_iff.mp h
  rfl

/-- Where an execution can be left, it awaits its turn with the flag the log tells of, or its
entry is not paused. -/
theorem Agrees.still
    (h : Agrees i e c log) (hstill : e.pc.atRest = true ∨ e.pc.interruptible = true)
    (hpc : e.pc ≠ .dropped) :
  e.pc.awaits = true ∧ HasEntry e c (Shows (Marked i log)) ∨
    e.pc.awaits = false ∧
      ∀ entry, e.entryId ≠ 0 → c.get e.entryId = some entry → entry.isPaused = false
  := by
  obtain ⟨-, h⟩ := h
  split at h
  · next hpc =>
    right
    rw [hpc]
    exact ⟨rfl, fun _ hid => absurd h.1 hid⟩
  · next hpc =>
    right
    rw [hpc]
    exact ⟨rfl, fun _ hid => absurd h.1 hid⟩
  · next hpc =>
    rw [hpc] at hstill
    simp [Pc.atRest, Pc.interruptible] at hstill
  · next hpc =>
    rw [hpc] at hstill
    simp [Pc.atRest, Pc.interruptible] at hstill
  · contradiction
  · split at h
    · next hawaits => exact .inl ⟨hawaits, h⟩
    · next hawaits =>
      obtain ⟨-, entry, hentry, hpaused⟩ := h
      refine .inr ⟨Bool.of_not_eq_true hawaits, fun entry' _ hentry' => ?_⟩
      obtain rfl := Option.some.inj (hentry.symm.trans hentry')
      apply hpaused

theorem HasEntry.truthful_iff {paused : Prop} (h : HasEntry e c (Shows paused)) :
  e.Truthful c ↔ (paused ↔ e.pc.isParked = true)
  := by
  obtain ⟨hid, entry, hentry, hpending, hpaused⟩ := h
  rw [← hpaused]
  constructor
  · intro h
    apply h entry hid hentry hpending
  · intro h entry' _ hentry' _
    obtain rfl := Option.some.inj (hentry.symm.trans hentry')
    apply h

/-- The flag of an execution at rest tells the truth, unless it is parked and not marked. -/
theorem Agrees.truthful_iff
    (h : Agrees i e c log) (hrest : e.pc.atRest = true) (hpc : e.pc ≠ .dropped) :
  e.Truthful c ↔ (e.pc.isParked = true → Marked i log)
  := by
  obtain ⟨hawaits, hentry⟩ | ⟨hawaits, hunpaused⟩ := h.still (.inl hrest) hpc
  · rw [hentry.truthful_iff, isParked_of_awaits hrest hawaits]
    simp
  · have hparked : ¬ e.pc.isParked = true := by
      intro h
      rw [awaits_of_isParked h] at hawaits
      contradiction
    apply iff_of_true
    · intro entry hid hentry _
      simp [hunpaused entry hid hentry, hparked]
    · exact fun h => absurd h hparked

/-- The flag of an execution that is dropped tells the truth, unless it awaits its turn and is
marked. -/
theorem Agrees.truthful_dropped_iff
    (h : Agrees i e c log) (hinterruptible : e.pc.interruptible = true) :
  Exec.Truthful { e with pc := .dropped } c ↔ (e.pc.awaits = true → ¬ Marked i log)
  := by
  have hpc : e.pc ≠ .dropped := by
    intro hpc
    rw [hpc] at hinterruptible
    contradiction
  obtain ⟨hawaits, hentry⟩ | ⟨hawaits, hunpaused⟩ := h.still (.inr hinterruptible) hpc
  · have hentry : HasEntry { e with pc := .dropped } c (Shows (Marked i log)) := hentry
    rw [hentry.truthful_iff]
    simp [hawaits, Pc.isParked]
  · apply iff_of_true
    · intro entry hid hentry _
      simp [hunpaused entry hid hentry, Pc.isParked]
    · intro h
      rw [h] at hawaits
      contradiction

end Agrees

/-! ### Runs -/

section Runs

variable {t t' : Resuming × List Mark} {s s' : Resuming} {a : Mutations.Action} {muts : Mutations}
  {i j : Nat} {e : Exec}

/-- Every execution agrees with the log. -/
structure Kept (t : Resuming × List Mark) : Prop where
  ids : t.1.muts.Ids
  agrees : ∀ i e, t.1.muts.execs.lookup i = some e → Agrees i e t.1.muts.cache t.2
  unborn : ∀ i, t.1.muts.execs.lookup i = none → .busy i ∉ t.2

/-- A step of another execution notes nothing that concerns the execution. -/
theorem noted_others (hby : ¬ a.By i) :
  .busy i ∉ noted s (.run a) s' ∧ .pushed i ∉ noted s (.run a) s' ∧
    .unpaused ∉ noted s (.run a) s'
  := by
  cases a with
  | advance j o =>
    have hne : i ≠ j := Ne.symm hby
    simp only [noted]
    cases s.muts.execs.lookup j with
    | none => simp
    | some e =>
      simp only [Option.elim_some, Exec.marks]
      split
      · split
        · simp [hne]
        · simp
      · simp [hne]
      · simp
  | _ => simp [noted]

/-- The others do nothing to the entry of an execution. -/
theorem get_others
    (h : s.muts.Ids) (ha : a.isExec = true) (hs : s.muts.step a = some muts)
    (he : s.muts.execs.lookup i = some e) (hby : ¬ a.By i) (hid : e.entryId ≠ 0) :
  muts.cache.get e.entryId = s.muts.cache.get e.entryId
  := by
  refine h.get_others hs he hby ?_ hid
  cases a with
  | advanceCall j => contradiction
  | _ => apply id

/-- An execution goes on agreeing with the log. -/
theorem Agrees.step
    (h : Kept t) (ha : a.isExec = true) (hs : t.1.muts.step a = some muts)
    (he : muts.execs.lookup i = some e) :
  Agrees i e muts.cache (t.2 ++ noted t.1 (.run a) { t.1 with muts := muts })
  := by
  by_cases hby : a.By i
  · obtain ⟨e', he', hown⟩ := ownStep_of_step hs hby
    rw [he] at he'
    obtain rfl := Option.some.inj he'
    cases hown with
    | submit hi hc =>
      simp only [noted, List.append_nil]
      have := h.unborn i hi
      exact ⟨fun hbusy => absurd hbusy this, rfl, this⟩
    | @advance o q _ hq hadvance =>
      simp only [noted, hq]
      apply (h.agrees i q hq).advance h.ids.entries (h.ids.addsOwn i q hq) hadvance
    | @resume q w hq hpc hc =>
      simp only [noted, List.append_nil, hc]
      have hagrees := h.agrees i q hq
      simp only [Agrees, hpc] at hagrees
      apply hagrees
    | @abandon q hq _ hc =>
      simp only [noted, List.append_nil]
      exact ⟨(h.agrees i q hq).1, trivial⟩
    | @wake q w hq hw hc =>
      simp only [noted, List.append_nil, hc]
      have hagrees := h.agrees i q hq
      cases hpc : q.pc with
      | notify pc result =>
        simp only [Agrees, hpc] at hagrees
        apply hagrees
      | runNext pc result =>
        simp only [Agrees, hpc] at hagrees
        apply hagrees
      | _ =>
        rw [hpc] at hw
        contradiction
  · rw [lookup_others hs hby] at he
    obtain ⟨hbusy, hpushed, hunpaused⟩ := noted_others hby
    apply (h.agrees i e he).of_get (get_others h.ids ha hs he hby) hbusy hpushed hunpaused

theorem Kept.run (h : Kept t) (ha : a.isExec = true) (hs : t.1.muts.step a = some muts) :
  Kept ({ t.1 with muts := muts }, t.2 ++ noted t.1 (.run a) { t.1 with muts := muts })
  := by
  refine ⟨h.ids.step hs, fun i e he => Agrees.step h ha hs he, ?_⟩
  intro i hi
  have hby : ¬ a.By i := by
    intro hby
    obtain ⟨e, he, -⟩ := ownStep_of_step hs hby
    cases hi.symm.trans he
  rw [lookup_others hs hby] at hi
  rw [busy_append_iff (noted_others hby).1]
  apply h.unborn i hi

/-- A call of `resume_paused_mutations` unpauses the entries, or does nothing to them. -/
theorem advanceResume_cases
    {c c' : MutationCache} {pc pc' : ResumePc} (h : pc.advance c = some (c', pc')) :
  pc = .unpause ∧ c' = c.unpauseAll.1 ∨
    (pc ≠ .unpause ∧ pc.marks = []) ∧ SameEntries c c'
  := by
  cases pc with
  | unpause =>
    cases h
    exact .inl ⟨rfl, rfl⟩
  | send resumed rest =>
    right
    cases rest with
    | nil =>
      cases h
      exact ⟨⟨nofun, rfl⟩, rfl, rfl⟩
    | cons id rest =>
      cases h
      exact ⟨⟨nofun, rfl⟩, rfl, rfl⟩
  | done => contradiction

theorem Kept.advanceResume
    {c : MutationCache} {pc pc' : ResumePc} (h : Kept t) (resumes : Table Nat ResumePc)
    (hadvance : pc.advance t.1.muts.cache = some (c, pc')) :
  Kept (⟨{ t.1.muts with cache := c }, resumes⟩, t.2 ++ pc.marks)
  := by
  obtain ⟨rfl, rfl⟩ | ⟨⟨-, hmarks⟩, hsame⟩ := advanceResume_cases hadvance
  · refine ⟨h.ids.of_cache rfl ?_, fun i e he => (h.agrees i e he).unpauseAll, ?_⟩
    · intro entry hentry
      obtain ⟨entry', hentry', rfl⟩ := List.mem_map.mp hentry
      refine ⟨entry', hentry', ?_⟩
      split
      · rfl
      · rfl
    · intro i hi
      rw [ResumePc.marks, busy_append_iff (by simp)]
      apply h.unborn i hi
  · rw [hmarks]
    refine ⟨h.ids.of_cache hsame.1 ?_, fun i e he => ?_, ?_⟩
    · intro entry hentry
      rw [hsame.2] at hentry
      exact ⟨entry, hentry, rfl⟩
    · apply (h.agrees i e he).of_get (fun _ => hsame.get _)
      all_goals exact List.not_mem_nil
    · rw [List.append_nil]
      apply h.unborn

/-- The steps of the system. -/
theorem step_run (h : s.step (.run a) = some s') :
  a.isExec = true ∧ ∃ muts, s.muts.step a = some muts ∧ s' = { s with muts := muts }
  := by
  simp only [step] at h
  split at h
  · next ha =>
    obtain ⟨muts, hmuts, rfl⟩ := Option.map_eq_some_iff.mp h
    exact ⟨ha, muts, hmuts, rfl⟩
  · contradiction

theorem step_resumePaused (h : s.step (.resumePaused j) = some s') :
  s' = { s with resumes := s.resumes.insert j .unpause }
  := by
  simp only [step] at h
  split at h
  · contradiction
  · apply (Option.some.inj h).symm

theorem step_advanceResume (h : s.step (.advanceResume j) = some s') :
  ∃ pc c pc', s.resumes.lookup j = some pc ∧ pc.advance s.muts.cache = some (c, pc') ∧
    s' = { muts := { s.muts with cache := c }, resumes := s.resumes.insert j pc' }
  := by
  obtain ⟨pc, hj, h⟩ := Option.bind_eq_some_iff.mp h
  obtain ⟨⟨c, pc'⟩, ha, h⟩ := Option.bind_eq_some_iff.mp h
  exact ⟨pc, c, pc', hj, ha, (Option.some.inj h).symm⟩

/-- Every step keeps the executions in agreement with the log. -/
theorem Kept.step {b : Action} (h : Kept t) (hb : marking.step t b = some t') :
  Kept t'
  := by
  obtain ⟨s', log⟩ := t'
  obtain ⟨hs, hlog⟩ := Machine.step_noting hb
  obtain rfl : log = t.2 ++ noted t.1 b s' := hlog
  cases b with
  | run a =>
    obtain ⟨ha, muts, hmuts, rfl⟩ := step_run hs
    apply h.run ha hmuts
  | resumePaused j =>
    obtain rfl := step_resumePaused hs
    simp only [noted, List.append_nil]
    exact ⟨h.ids, h.agrees, h.unborn⟩
  | advanceResume j =>
    obtain ⟨pc, c, pc', hj, hadvance, rfl⟩ := step_advanceResume hs
    simp only [noted, hj, Option.elim_some]
    apply h.advanceResume _ hadvance

theorem kept_initial :
  Kept (initial, [])
  := by
  refine ⟨ids_initial, ?_, fun _ _ => List.not_mem_nil⟩
  intro i e he
  simp [initial, Mutations.initial] at he

/-! ### When the flags tell the truth -/

/-- What the step of an execution that parks does. -/
theorem advance_of_parks {c : MutationCache} (h : e.parks i c = true) :
  e.marks i c = [] ∧ ∃ c' w', ∀ nowMs o,
    e.advance i nowMs c o = some (c', { e with pc := .gate (.parked w') })
  := by
  unfold Exec.parks at h
  split at h
  · next w scope hpc hscope =>
    obtain ⟨⟨c', w', poll⟩, hpoll, hnone⟩ := (Option.any_eq_true _ _).mp h
    obtain rfl := Option.isNone_iff_eq_none.mp hnone
    use by simp only [Exec.marks, hpc]
    use c', w'
    intro nowMs o
    simp only [Exec.advance, hpc, hscope, Exec.advanceGate, hpoll, Option.map_some]
  · contradiction

/-- Only the step of an execution that parks suspends it at its gate. -/
theorem parks_of_isParked
    {e' : Exec} {c c' : MutationCache} {nowMs : Nat} {o : Outcome}
    (h : e.advance i nowMs c o = some (c', e')) (hparked : e'.pc.isParked = true) :
  e.parks i c = true
  := by
  cases takes_of_advance h with
  | @gate pc scope _ _ hpc hscope hg =>
    cases pc with
    | poll watcher =>
      simp only [Exec.advanceGate] at hg
      split at hg
      · cases hg
        contradiction
      · next hpoll => simp [Exec.parks, hpc, hscope, hpoll]
      · contradiction
    | check watcher =>
      cases hg
      split at hparked
      · contradiction
      · contradiction
    | mark =>
      cases hg
      contradiction
    | parked watcher => contradiction
  | body _ hb =>
    have hcases : SameAt "" _ _ ∧ _ := advanceBody_cases hb
    obtain ⟨-, ⟨_, rfl⟩ | ⟨_, rfl⟩ | ⟨-, _, rfl⟩⟩ := hcases
    all_goals contradiction
  | @notify _ _ _ _ pc' | @runNext _ _ _ _ pc' =>
    cases pc' with
    | _ => contradiction
  | _ => contradiction

theorem atRest_of_isParked {pc : Pc} (h : pc.isParked = true) :
  pc.atRest = true
  := by
  obtain ⟨w, rfl⟩ := Pc.isParked_iff.mp h
  rfl

theorem truthful_of_get
    {c c' : MutationCache} (h : e.Truthful c)
    (hget : e.entryId ≠ 0 → c'.get e.entryId = c.get e.entryId) :
  e.Truthful c'
  := by
  intro entry hid hentry
  rw [hget hid] at hentry
  apply h entry hid hentry

/-- After a step of an execution its flag tells the truth exactly if the step is a guarded
one. -/
theorem truthful_iff_guarded (h : Kept t) (hown : OwnStep t.1.muts muts i a e) :
  (e.pc.atRest = true → e.Truthful muts.cache) ↔ Guarded t (.run a)
  := by
  cases hown with
  | submit =>
    apply iff_of_true _ trivial
    intro _ _ hid
    contradiction
  | @advance o q _ hq hadvance =>
    have hagrees := (h.agrees i q hq).advance h.ids.entries (h.ids.addsOwn i q hq) hadvance
    have hne := ne_dropped_of_advance hadvance
    constructor
    · intro htruthful q' hq' hparks
      rw [hq] at hq'
      obtain rfl := Option.some.inj hq'
      obtain ⟨hmarks, c', w', hadvance'⟩ := advance_of_parks hparks
      rw [hadvance'] at hadvance
      obtain ⟨hc, rfl⟩ := Prod.mk.inj (Option.some.inj hadvance)
      rw [hmarks, List.append_nil] at hagrees
      apply (hagrees.truthful_iff rfl hne).mp (htruthful rfl) rfl
    · intro hguarded hrest
      apply (hagrees.truthful_iff hrest hne).mpr
      intro hparked
      have hparks := parks_of_isParked hadvance hparked
      rw [(advance_of_parks hparks).1, List.append_nil]
      apply hguarded q hq hparks
  | resume => apply iff_of_true nofun trivial
  | @abandon q hq hinterruptible hc =>
    rw [hc]
    have hdropped := (h.agrees i q hq).truthful_dropped_iff hinterruptible
    constructor
    · intro htruthful q' hq' _
      rw [hq] at hq'
      obtain rfl := Option.some.inj hq'
      apply hdropped.mp (htruthful rfl)
    · exact fun hguarded _ => hdropped.mpr (hguarded q hq hinterruptible)
  | @wake q w hq hw =>
    apply iff_of_true _ trivial
    intro hrest
    cases hpc : q.pc with
    | notify pc result =>
      rw [hpc] at hrest
      contradiction
    | runNext pc result =>
      rw [hpc] at hrest
      contradiction
    | _ =>
      rw [hpc] at hw
      contradiction

/-- After a step of the executions the flags tell the truth exactly if the step is a guarded
one. -/
theorem tellsTruth_run_iff
    (h : Kept t) (htruth : TellsTruth t.1) (ha : a.isExec = true)
    (hs : t.1.muts.step a = some muts) :
  TellsTruth { t.1 with muts := muts } ↔ Guarded t (.run a)
  := by
  constructor
  · intro hafter
    have hown {i : Nat} (hby : a.By i) : Guarded t (.run a) := by
      obtain ⟨e, he, hown⟩ := ownStep_of_step hs hby
      apply (truthful_iff_guarded h hown).mp (hafter i e he)
    cases a with
    | advance j o => apply hown rfl
    | abandon j => apply hown rfl
    | _ => trivial
  · intro hguarded i e he hrest
    by_cases hby : a.By i
    · obtain ⟨e', he', hown⟩ := ownStep_of_step hs hby
      cases he.symm.trans he'
      apply (truthful_iff_guarded h hown).mpr hguarded hrest
    · have he' : t.1.muts.execs.lookup i = some e := by
        rw [← lookup_others hs hby]
        apply he
      apply truthful_of_get (htruth i e he' hrest) (get_others h.ids ha hs he' hby)

/-- After entries were unpaused the flags tell the truth if nobody is parked. -/
theorem tellsTruth_unpauseAll_iff
    (h : Kept t) (resumes : Table Nat ResumePc) :
  TellsTruth ⟨{ t.1.muts with cache := t.1.muts.cache.unpauseAll.1 }, resumes⟩ ↔
    ∀ i e, t.1.muts.execs.lookup i = some e → e.pc.isParked = false
  := by
  constructor
  · intro hafter i e he
    cases hparked : e.pc.isParked with
    | false => rfl
    | true =>
      exfalso
      have hrest := atRest_of_isParked hparked
      have hagrees := h.agrees i e he
      have hne : e.pc ≠ .dropped := by
        intro hpc
        rw [hpc] at hparked
        contradiction
      have hmarked := (hagrees.unpauseAll.truthful_iff hrest hne).mp (hafter i e he hrest) hparked
      apply not_marked_unpaused hmarked
  · intro hparked i e he hrest entry hid hentry _
    rw [hparked i e he]
    rw [MutationCache.get_unpauseAll] at hentry
    obtain ⟨entry, -, rfl⟩ := Option.map_eq_some_iff.mp hentry
    rfl

theorem guarded_of_step_eq_none (hs : t.1.muts.step a = none) :
  Guarded t (.run a)
  := by
  cases a with
  | advance j o =>
    intro e he hparks
    obtain ⟨-, c', w', hadvance⟩ := advance_of_parks hparks
    rw [step_of_advance he (hadvance _ o)] at hs
    contradiction
  | abandon j =>
    intro e he hinterruptible
    simp [Mutations.step, he, hinterruptible] at hs
  | _ => trivial

/-- The flags tell the truth after a step exactly if it is a guarded one. -/
theorem keepsTruth_iff (h : Kept t) (htruth : TellsTruth t.1) (b : Action) :
  KeepsTruth t b ↔ Guarded t b
  := by
  cases b with
  | run a =>
    cases ha : a.isExec with
    | false =>
      apply iff_of_true
      · intro t' ht'
        obtain ⟨ha', -⟩ := step_run (Machine.step_noting ht').1
        rw [ha] at ha'
        contradiction
      · cases a with
        | advance | abandon => contradiction
        | _ => trivial
    | true =>
      cases hs : t.1.muts.step a with
      | none =>
        apply iff_of_true _ (guarded_of_step_eq_none hs)
        intro t' ht'
        obtain ⟨-, muts, hmuts, -⟩ := step_run (Machine.step_noting ht').1
        rw [hs] at hmuts
        contradiction
      | some muts =>
        rw [← tellsTruth_run_iff h htruth ha hs]
        have hrun : machine.step t.1 (.run a) = some { t.1 with muts := muts } := by
          simp [machine, step, ha, hs]
        simp [KeepsTruth, marking, Machine.noting, hrun]
  | resumePaused j =>
    apply iff_of_true _ trivial
    intro t' ht'
    rw [step_resumePaused (Machine.step_noting ht').1]
    apply htruth
  | advanceResume j =>
    constructor
    · intro hkeeps hj
      have hstep : machine.step t.1 (.advanceResume j) = some _ :=
        Option.bind_eq_some_iff.mpr ⟨.unpause, hj, rfl⟩
      apply (tellsTruth_unpauseAll_iff h _).mp (hkeeps _ (Machine.noting_step hstep))
    · intro hguarded t' ht'
      obtain ⟨pc, c, pc', hj, hadvance, heq⟩ := step_advanceResume (Machine.step_noting ht').1
      rw [heq]
      obtain ⟨rfl, rfl⟩ | ⟨-, hsame⟩ := advanceResume_cases hadvance
      · apply (tellsTruth_unpauseAll_iff h _).mpr (hguarded hj)
      · intro i e he hrest
        apply truthful_of_get (htruth i e he hrest) fun _ => hsame.get _

/-- In every run of executions and calls of `resume_paused_mutations` the flags of executions at
rest tell the truth after every step exactly if each step is a guarded one. -/
theorem tellsTruth_iff (as : List Action) :
  marking.Meets KeepsTruth (initial, []) as ↔ marking.Meets Guarded (initial, []) as
  := by
  have init : TellsTruth initial := by
    intro i e he
    simp [initial, Mutations.initial] at he
  apply Machine.meets_congr (I := fun t => Kept t ∧ TellsTruth t.1) ⟨kept_initial, init⟩
  · rintro t a ⟨h, htruth⟩
    apply keepsTruth_iff h htruth a
  · rintro t a t' ⟨h, -⟩ hkeeps hstep
    exact ⟨h.step hstep, hkeeps t' hstep⟩

end Runs

/-- Two executions add their entries while their scope is free; the second finds it running at
the gate, and waits with an entry that is not paused. -/
theorem not_tellsTruth_overtaken :
  ∃ s, machine.Reachable s ∧ s.Quiet ∧ ∃ e entry, s.muts.execs.lookup 1 = some e ∧
    e.pc.isParked = true ∧ s.muts.cache.get e.entryId = some entry ∧
    entry.status = .pending ∧ entry.isPaused = false
  := by
  have init : machine.init initial := rfl
  let m : Mutation := { scope := some ⟨"s"⟩ }
  let advance (i : Nat) : Action := .run (.advance i .next)
  let seen (s : Resuming) (e : Exec) : Bool × Option (MutationStatus × Bool) :=
    (e.pc.isParked, (s.muts.cache.get e.entryId).map fun entry => (entry.status, entry.isPaused))
  obtain ⟨s, hs, hseen⟩ := Machine.exists_reachable_of_exec
    ([.run (.submit 0 m), .run (.submit 1 m)] ++ List.replicate 6 (advance 0) ++
      List.replicate 6 (advance 1) ++ List.replicate 6 (advance 0) ++
      List.replicate 4 (advance 1))
    (fun s : Resuming => (decide s.Quiet, (s.muts.execs.lookup 1).map (seen s)))
    (true, some (true, some (.pending, false))) init (by decide +kernel)
  simp only [Prod.mk.injEq, decide_eq_true_eq] at hseen
  obtain ⟨hquiet, hexec⟩ := hseen
  obtain ⟨e, he, hseen⟩ := Option.map_eq_some_iff.mp hexec
  obtain ⟨hparked, hentry⟩ := Prod.mk.inj hseen
  obtain ⟨entry, hget, hflag⟩ := Option.map_eq_some_iff.mp hentry
  obtain ⟨hstatus, hpaused⟩ := Prod.mk.inj hflag
  exact ⟨s, hs, hquiet, e, entry, he, hparked, hget, hstatus, hpaused⟩

end Resuming

end Mutations

end RsQuery
