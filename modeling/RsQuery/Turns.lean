import RsQuery.Lib.Line
import RsQuery.Scopes

/-!
# Turns in a scope

The ids of a scope form a queue, and the waiters of its release cell are woken all at
once: nothing ties the id that `run_next` takes to the execution that marks the scope
next.  Executions take turns in the order of their entries only where an entry is pushed
as it joined its scope, an execution joins a scope that is not running only where nobody
else is on the way through it, and an execution marks its scope only once its id has been
taken from the queue, or was never in it.
-/

namespace RsQuery

namespace Mutations

open MutationCache
open Line (Stage Kind Move numbers)

variable {s s' : Mutations} {a : Action} {i j : Nat} {e e' : Exec} {c c' : MutationCache}
  {scope : String} {nowMs : Nat} {o : Outcome}

/-- The execution is past the first call of its mutate function. -/
def BodyPc.isPast : BodyPc → Bool
  | .readPaused | .unpause | .unpaused | .onMutate | .keepContext | .keptContext => false
  | _ => true

/-- The execution is about to call its mutate function. -/
def Pc.isMutateFn : Pc → Bool
  | .body (.mutateFn ..) => true
  | _ => false

/-- What is noted of a step of an execution, where `run_next` would take `next`. -/
def Exec.noted (e e' : Exec) (next : Option Nat) : List Line.Event :=
  match e.pc with
  | .add (.join entry) => [(.joined, entry.id)]
  | .add (.push entry) => [(.listed, entry.id)]
  | .gate .mark => [(.acquired, e.entryId)]
  | .body pc => if !pc.isPast && e'.pc.isMutateFn then [(.entered, e.entryId)] else []
  | .runNext .pop _ => next.toList.map (.called, ·)
  | _ => []

/-- What is noted of the executions of a scope. -/
def noted (scope : String) (s : Mutations) (a : Action) (s' : Mutations) : List Line.Event :=
  match a with
  | .advance i _ =>
    match s.execs.lookup i, s'.execs.lookup i with
    | some e, some e' =>
      if e.mutation.scope = some ⟨scope⟩ then e.noted e' (s.cache.popNext scope).2 else []
    | _, _ => []
  | _ => []

/-- The system, with a log of what the executions of a scope do in turn. -/
def turns (scope : String) : Machine (Mutations × List Line.Event) Action :=
  machine.noting (noted scope)

/-! ### The line of a scope -/

/-- Where an execution is in the line of its scope. -/
def Pc.stage (id : Nat) : Pc → Stage
  | .queued | .add (.assign _) => .away
  | .add (.join _) => .numbered id
  | .add (.push _) => .joined id
  | .add _ | .fireOnMutate | .subscribe | .gate _ => .waiting id
  | .body pc => .inside id pc.isPast
  | .markFinished _ => .inside id true
  | .notify .. | .runNext .pop _ => .leaving id
  | .runNext .. | .done _ | .dropped => .gone

/-- Where an execution is in the line of a scope. -/
def Exec.stage (scope : String) (e : Exec) : Stage :=
  if e.mutation.scope = some ⟨scope⟩ then e.pc.stage e.entryId else .away

/-- The line of a scope. -/
def line (s : Mutations) (scope : String) (log : List Line.Event) : Line.State Nat where
  last := s.cache.nextId
  raised := (s.cache.scopeState scope).running
  queue := (s.cache.scopeState scope).queue
  stage i := (s.execs.lookup i).elim .away (Exec.stage scope)
  log := log

theorem stage_of_lookup (log : List Line.Event) (he : s.execs.lookup i = some e) :
  (s.line scope log).stage i = e.stage scope
  := congrArg (Option.elim · Stage.away (Exec.stage scope)) he

theorem stage_setExec (s : Mutations) (i : Nat) (e : Exec) (c : MutationCache)
    (scope : String) (log : List Line.Event) :
  (line { s.setExec i e with cache := c } scope log).stage =
    Function.update (s.line scope []).stage i (e.stage scope)
  := by
  funext j
  simp only [line, setExec, Table.lookup_insert_eq, Function.update_apply]
  split
  · rfl
  · rfl

/-- What an execution carries through `add_with_hook` is its own entry. -/
def Exec.AddsOwn (e : Exec) : Prop :=
  match e.pc with
  | .add (.assign entry) => entry.scope = e.mutation.scope
  | .add (.join entry) | .add (.push entry) =>
    entry.id = e.entryId ∧ entry.scope = e.mutation.scope
  | .add (.hook id) | .add (.announce id) => id = e.entryId
  | _ => True

/-- At the gate an execution marks its scope, or it stays there and does nothing to any. -/
theorem advanceGate_cases
    {pc : GatePc} {pc' : Pc} (h : Exec.advanceGate i scope c pc = some (c', pc')) :
  pc = .mark ∧ c' = c.markRunning scope ∧ pc' = .body .readPaused ∨
    (c'.nextId = c.nextId ∧ c'.scopes = c.scopes) ∧ pc ≠ .mark ∧ ∃ g, pc' = .gate g
  := by
  cases pc with
  | check w =>
    cases h
    exact .inr ⟨⟨rfl, rfl⟩, by simp, _, rfl⟩
  | mark =>
    cases h
    exact .inl ⟨rfl, rfl, rfl⟩
  | poll w =>
    have hpoll : ∀ p ∈ c.pollRelease scope w i,
        p.1.nextId = c.nextId ∧ p.1.scopes = c.scopes := by
      intro p hp
      obtain ⟨cell, -, rfl⟩ := Option.map_eq_some_iff.mp hp
      exact ⟨rfl, rfl⟩
    right
    simp only [Exec.advanceGate] at h
    split at h
    · next hp =>
      cases h
      exact ⟨hpoll _ hp, by simp, _, rfl⟩
    · next hp =>
      cases h
      exact ⟨hpoll _ hp, by simp, _, rfl⟩
    · contradiction
  | parked w => contradiction

theorem joinScope_snd (c : MutationCache) (scope : String) (entry : MutationCacheEntry) :
  (c.joinScope scope entry).2.id = entry.id ∧ (c.joinScope scope entry).2.scope = entry.scope
  := by
  unfold joinScope
  dsimp only
  split
  · exact ⟨rfl, rfl⟩
  · exact ⟨rfl, rfl⟩

theorem Exec.AddsOwn.advance (h : e.AddsOwn) (ha : e.advance i nowMs c o = some (c', e')) :
  e'.AddsOwn
  := by
  unfold AddsOwn at h
  cases takes_of_advance ha with
  | poll => rfl
  | add hpc hadd =>
    rw [hpc] at h
    cases takes_of_add hadd with
    | assign => exact ⟨rfl, h⟩
    | join => exact ⟨rfl, (joinScope_snd ..).2.trans h.2⟩
    | noScope => exact ⟨rfl, h.2⟩
    | push | hook => rfl
  | added | toScope | toBody | subscribe | markFinished => trivial
  | body _ hb =>
    have hcases : SameAt "" _ _ ∧ _ := advanceBody_cases hb
    obtain ⟨-, ⟨_, rfl⟩ | ⟨_, rfl⟩ | ⟨-, _, rfl⟩⟩ := hcases
    all_goals trivial
  | gate _ _ hg =>
    obtain ⟨-, -, rfl⟩ | ⟨-, -, _, rfl⟩ := advanceGate_cases hg
    all_goals trivial
  | @notify _ _ _ _ pc' _ _ _ | @runNext _ _ _ _ pc' _ _ _ =>
    cases pc' with
    | _ => trivial

/-- An execution is not dropped by its own steps. -/
theorem ne_dropped_of_advance (h : e.advance i nowMs c o = some (c', e')) :
  e'.pc ≠ .dropped
  := by
  cases takes_of_advance h with
  | body _ hb =>
    have hcases : SameAt "" _ _ ∧ _ := advanceBody_cases hb
    obtain ⟨-, ⟨_, rfl⟩ | ⟨_, rfl⟩ | ⟨-, _, rfl⟩⟩ := hcases
    all_goals exact nofun
  | gate _ _ hg =>
    obtain ⟨-, -, rfl⟩ | ⟨-, -, _, rfl⟩ := advanceGate_cases hg
    all_goals exact nofun
  | @notify _ _ _ _ pc' | @runNext _ _ _ _ pc' =>
    cases pc' with
    | _ => exact nofun
  | _ => exact nofun

/-! ### Steps are moves in the line -/

theorem move_line
    {b : Line.Action Nat} {t : Line.State Nat} {log log' : List Line.Event}
    (hm : Move (s.line scope log) b t) (hlast : t.last = c'.nextId)
    (hstate : c'.scopeState scope = ⟨t.raised, t.queue⟩)
    (hstage : t.stage = Function.update (s.line scope log).stage i (e'.stage scope))
    (hlog : t.log = log') :
  Move (s.line scope log) b (line { s.setExec i e' with cache := c' } scope log')
  := by
  convert hm using 1
  apply Line.State.ext
  · apply hlast.symm
  · apply congrArg ScopeState.running hstate
  · apply congrArg ScopeState.queue hstate
  · apply (stage_setExec s i e' c' scope log').trans hstage.symm
  · apply hlog.symm

/-- A step that shows nothing in the line. -/
theorem move_pass
    {log : List Line.Event} (he : s.execs.lookup i = some e) (hn : s.cache.nextId ≤ c'.nextId)
    (hstate : c'.scopeState scope = s.cache.scopeState scope)
    (hstage : e'.stage scope = e.stage scope) :
  Move (s.line scope log) .pass (line { s.setExec i e' with cache := c' } scope log)
  := by
  apply move_line (Move.pass hn) rfl hstate ?_ rfl
  rw [hstage, ← stage_of_lookup log he, Function.update_eq_self]

/-- The actions in line that depend on more than the party, and the steps they are. -/
structure Turn (e : Exec) (i : Nat) (b : Line.Action Nat) : Prop where
  join : ∀ j, b = .join j → j = i ∧ ∃ entry, e.pc = .add (.join entry)
  list : ∀ j, b = .list j → j = i ∧ ∃ entry, e.pc = .add (.push entry)
  acquire : ∀ j, b = .acquire j → j = i ∧ e.pc = .gate .mark

theorem Exec.stage_own (hs : e.mutation.scope = some ⟨scope⟩) :
  e.stage scope = e.pc.stage e.entryId
  := if_pos hs

theorem turn_pass
    {log : List Line.Event} {next : Option Nat} (he : s.execs.lookup i = some e)
    (hn : s.cache.nextId ≤ c'.nextId) (hstate : c'.scopeState scope = s.cache.scopeState scope)
    (hstage : e'.stage scope = e.stage scope) (hnoted : e.noted e' next = []) :
  ∃ b, Turn e i b ∧ Move (s.line scope log) b
    (line { s.setExec i e' with cache := c' } scope (log ++ e.noted e' next))
  := by
  refine ⟨.pass, ⟨nofun, nofun, nofun⟩, ?_⟩
  rw [hnoted, List.append_nil]
  apply move_pass he hn hstate hstage

/-- An execution of the scope goes on where it stays in the line as it is. -/
theorem turn_goto
    {pc pc' : Pc} {log : List Line.Event} {next : Option Nat} (he : s.execs.lookup i = some e)
    (hs : e.mutation.scope = some ⟨scope⟩) (hpc : e.pc = pc) (hn : s.cache.nextId ≤ c'.nextId)
    (hstate : c'.scopeState scope = s.cache.scopeState scope)
    (hstage : pc'.stage e.entryId = pc.stage e.entryId)
    (hnoted : e.noted { e with pc := pc' } next = []) :
  ∃ b, Turn e i b ∧ Move (s.line scope log) b
    (line { s.setExec i { e with pc := pc' } with cache := c' } scope
      (log ++ e.noted { e with pc := pc' } next))
  := by
  apply turn_pass he hn hstate _ hnoted
  rw [Exec.stage_own (by exact hs), e.stage_own hs, hpc, hstage]

theorem nextId_joinScope (c : MutationCache) (scope : String) (entry : MutationCacheEntry) :
  (c.joinScope scope entry).1.nextId = c.nextId
  := by
  unfold joinScope
  dsimp only
  split
  · rfl
  · rfl

theorem nextId_markFinished (c : MutationCache) (scope : String) :
  (c.markFinished scope).nextId = c.nextId
  := by
  unfold MutationCache.markFinished
  split
  · split
    · rfl
    · rfl
  · rfl

theorem nextId_popNext (c : MutationCache) (scope : String) :
  (c.popNext scope).1.nextId = c.nextId
  := by
  unfold MutationCache.popNext
  split
  · rfl
  · rfl

theorem nextId_sendRelease (c : MutationCache) (scope : String) :
  (c.sendRelease scope).1.nextId = c.nextId
  := by
  unfold MutationCache.sendRelease
  split
  · rfl
  · rfl

/-- An execution of the scope that is added. -/
theorem turn_add
    {pc pc' : AddPc} {log : List Line.Event} (he : s.execs.lookup i = some e)
    (hpc : e.pc = .add pc) (hs : e.mutation.scope = some ⟨scope⟩) (hown : e.AddsOwn)
    (hadd : pc.advance s.cache = (c', some pc'))
    (he' : e' = { e with entryId := pc'.entryId, pc := .add pc' }) :
  ∃ b, Turn e i b ∧ Move (s.line scope log) b (line { s.setExec i e' with cache := c' } scope
    (log ++ e.noted e' (s.cache.popNext scope).2))
  := by
  have hi : (s.line scope log).stage i = e.pc.stage e.entryId :=
    (stage_of_lookup _ he).trans (e.stage_own hs)
  have hs' : e'.mutation.scope = some ⟨scope⟩ := by rw [he', hs]
  unfold Exec.AddsOwn at hown
  rw [hpc] at hi hown
  subst he'
  cases takes_of_add hadd with
  | assign =>
    refine ⟨.draw i, ⟨by simp, by simp, by simp⟩, ?_⟩
    refine move_line (.draw hi) rfl rfl ?_ ?_
    · rw [Exec.stage_own hs']
      rfl
    · simp [Exec.noted, hpc, line, Line.State.setStage]
  | noScope hnone =>
    rw [hown.2, hs] at hnone
    contradiction
  | @join entry _ hscope =>
    obtain ⟨hid, hentry⟩ := hown
    rw [hs] at hentry
    obtain rfl := Option.some.inj (hscope.symm.trans hentry)
    have hnext := nextId_joinScope s.cache scope entry
    have hscope := scopeState_joinScope s.cache scope scope entry
    have hjoin := joinScope_snd s.cache scope entry
    refine ⟨.join i, ⟨fun j h => ?_, by simp, by simp⟩, ?_⟩
    · cases h
      exact ⟨rfl, entry, hpc⟩
    have hstage : Function.update (s.line scope log).stage i (.joined e.entryId) =
        Function.update (s.line scope log).stage i (Exec.stage scope { e with
          entryId := (s.cache.joinScope scope entry).2.id
          pc := .add (.push (s.cache.joinScope scope entry).2) }) := by
      rw [Exec.stage_own (by exact hs), hjoin.1, hid]
      rfl
    cases hr : (s.cache.scopeState scope).running with
    | true =>
      refine move_line (.joinBehind hi hr) hnext.symm ?_ hstage ?_
      · rw [hscope, if_pos ⟨rfl, hr⟩, hid]
        apply congrArg (ScopeState.mk · _) hr.symm
      · simp [Exec.noted, hpc, line, hid]
    | false =>
      refine move_line (.joinFree hi hr) hnext.symm ?_ hstage ?_
      · rw [hscope, if_neg (by simp [hr])]
        rfl
      · simp [Exec.noted, hpc, line, hid]
  | @push entry =>
    refine ⟨.list i, ⟨by simp, fun j h => ?_, by simp⟩, ?_⟩
    · cases h
      exact ⟨rfl, entry, hpc⟩
    · refine move_line (.list hi) rfl rfl ?_ ?_
      · rw [Exec.stage_own hs']
        simp [Line.State.setStage, Pc.stage, AddPc.entryId, hown.1]
      · simp [Exec.noted, hpc, line, hown.1]
  | hook =>
    refine turn_pass he (Nat.le_refl _) rfl ?_ (by simp [Exec.noted, hpc])
    rw [Exec.stage_own hs', e.stage_own hs, hpc]
    apply congrArg Stage.waiting hown

theorem frame_advanceBody
    {pc : BodyPc} {pc' : Pc} (h : e.advanceBody c pc o = some (c', pc')) :
  c'.nextId = c.nextId ∧ c'.scopes = c.scopes
  := by
  cases takes_of_advanceBody h with
  | unpause h | keepContext h | settle h =>
    cases h
    exact ⟨rfl, rfl⟩
  | _ => exact ⟨rfl, rfl⟩

/-- Where an execution of a scope goes that runs. -/
theorem stage_of_advanceBody
    {pc : BodyPc} {pc' : Pc} (h : e.advanceBody c pc o = some (c', pc'))
    (hs : e.mutation.scope.isSome = true) (id : Nat) :
  pc'.stage id = .inside id true ∨
    pc.isPast = false ∧ pc'.isMutateFn = false ∧ pc'.stage id = .inside id false
  := by
  cases takes_of_advanceBody h with
  | paused | notPaused | unpaused | hook => exact .inr ⟨rfl, rfl, rfl⟩
  | noHook | hookFails | keptContext | mutated | retry | rollBack | giveUp | slept | rolledBack
  | settled | release => exact .inl rfl
  | finish hnone =>
    rw [hnone] at hs
    contradiction
  | unpause h =>
    obtain ⟨-, rfl | rfl⟩ := update_cases h
    · exact .inr ⟨rfl, rfl, rfl⟩
    · exact .inr ⟨rfl, rfl, rfl⟩
  | keepContext h =>
    obtain ⟨-, rfl | rfl⟩ := update_cases h
    · exact .inr ⟨rfl, rfl, rfl⟩
    · exact .inl rfl
  | settle h =>
    obtain ⟨-, rfl | rfl⟩ := update_cases h
    · exact .inl rfl
    · exact .inl rfl

/-- A step of an execution of the scope that runs. -/
theorem turn_body
    {pc : BodyPc} {pc' : Pc} {log : List Line.Event} (he : s.execs.lookup i = some e)
    (hpc : e.pc = .body pc) (hs : e.mutation.scope = some ⟨scope⟩)
    (hb : e.advanceBody s.cache pc o = some (c', pc')) :
  ∃ b, Turn e i b ∧ Move (s.line scope log) b
    (line { s.setExec i { e with pc := pc' } with cache := c' } scope
      (log ++ e.noted { e with pc := pc' } (s.cache.popNext scope).2))
  := by
  have hi : (s.line scope log).stage i = .inside e.entryId pc.isPast := by
    rw [stage_of_lookup _ he, e.stage_own hs, hpc]
    rfl
  obtain ⟨hnext, hscopes⟩ := frame_advanceBody hb
  have hstate : c'.scopeState scope = s.cache.scopeState scope := by
    simp only [scopeState, hscopes]
  have hown : Exec.stage scope { e with pc := pc' } = pc'.stage e.entryId :=
    Exec.stage_own (by exact hs)
  obtain hin | ⟨hpast, hfn, hin⟩ := stage_of_advanceBody hb (by rw [hs]; rfl) e.entryId
  · cases hp : pc.isPast with
    | true =>
      refine turn_pass he hnext.ge hstate ?_ (by simp [Exec.noted, hpc, hp])
      rw [hown, hin, ← stage_of_lookup log he, hi, hp]
    | false =>
      rw [hp] at hi
      cases hfn : pc'.isMutateFn with
      | true =>
        refine ⟨.enter i, ⟨by simp, by simp, by simp⟩, ?_⟩
        refine move_line (.enter hi) hnext.symm hstate ?_ (by simp [Exec.noted, hpc, hp, hfn, line])
        rw [hown, hin]
        rfl
      | false =>
        refine ⟨.skip i, ⟨by simp, by simp, by simp⟩, ?_⟩
        refine move_line (.skip hi) hnext.symm hstate ?_ ?_
        rotate_left
        · simp [Exec.noted, hpc, hfn, line, Line.State.setStage]
        rw [hown, hin]
        rfl
  · refine turn_pass he hnext.ge hstate ?_ (by simp [Exec.noted, hpc, hfn])
    rw [hown, hin, ← stage_of_lookup log he, hi, hpast]

theorem frame_notify
    {pc : NotifyPc} {pc' : Option NotifyPc} (h : pc.advance scope c = some (c', pc')) :
  c'.nextId = c.nextId ∧ c'.scopes = c.scopes
  := by
  cases pc with
  | lookup =>
    cases h
    exact ⟨rfl, rfl⟩
  | send =>
    have hc : (c.sendRelease scope).1 = c' := congrArg Prod.fst (Option.some.inj h)
    rw [← hc]
    exact ⟨nextId_sendRelease .., scopes_sendRelease ..⟩
  | wake wakers =>
    cases wakers with
    | nil =>
      cases h
      exact ⟨rfl, rfl⟩
    | cons => contradiction

/-- A step of an execution of the scope at its gate. -/
theorem turn_gate
    {pc : GatePc} {pc' : Pc} {log : List Line.Event} (he : s.execs.lookup i = some e)
    (hpc : e.pc = .gate pc) (hs : e.mutation.scope = some ⟨scope⟩)
    (hg : Exec.advanceGate i scope s.cache pc = some (c', pc')) :
  ∃ b, Turn e i b ∧ Move (s.line scope log) b
    (line { s.setExec i { e with pc := pc' } with cache := c' } scope
      (log ++ e.noted { e with pc := pc' } (s.cache.popNext scope).2))
  := by
  obtain ⟨rfl, rfl, rfl⟩ | ⟨⟨hnext, hscopes⟩, hmark, g, rfl⟩ := advanceGate_cases hg
  · have hi : (s.line scope log).stage i = .waiting e.entryId := by
      rw [stage_of_lookup _ he, e.stage_own hs, hpc]
      rfl
    refine ⟨.acquire i, ⟨nofun, nofun, fun j h => ?_⟩, ?_⟩
    · cases h
      exact ⟨rfl, hpc⟩
    · refine move_line (.acquire hi) rfl ?_ ?_ (by simp [Exec.noted, hpc, line])
      · rw [scopeState_markRunning, if_pos rfl]
        rfl
      · rw [Exec.stage_own (by exact hs)]
        rfl
  · refine turn_goto he hs hpc hnext.ge (by simp [scopeState, hscopes]) rfl ?_
    unfold Exec.noted
    rw [hpc]
    cases pc with
    | mark => contradiction
    | _ => rfl

/-- A step of an execution of the scope in `run_next`. -/
theorem turn_runNext
    {pc : RunNextPc} {pc' : Option RunNextPc} {result : Result} {log : List Line.Event}
    (he : s.execs.lookup i = some e) (hpc : e.pc = .runNext pc result)
    (hs : e.mutation.scope = some ⟨scope⟩) (hn : pc.advance scope s.cache = some (c', pc'))
    (he' : e' = { e with pc := pc'.elim (.done result) (.runNext · result) }) :
  ∃ b, Turn e i b ∧ Move (s.line scope log) b (line { s.setExec i e' with cache := c' } scope
    (log ++ e.noted e' (s.cache.popNext scope).2))
  := by
  subst he'
  cases pc with
  | pop =>
    have hc : (s.cache.popNext scope).1 = c' := congrArg Prod.fst (Option.some.inj hn)
    have hpc' : (if (s.cache.popNext scope).2.isSome then some RunNextPc.resumed else none) =
      pc' := congrArg Prod.snd (Option.some.inj hn)
    have hpop := popNext_snd s.cache scope
    have hstate := scopeState_popNext s.cache scope scope
    rw [if_pos rfl] at hstate
    rw [← hc]
    have hi : (s.line scope log).stage i = .leaving e.entryId := by
      rw [stage_of_lookup _ he, e.stage_own hs, hpc]
      rfl
    have hstage : Exec.stage scope { e with pc := pc'.elim (.done result) (.runNext · result) } =
        .gone := by
      rw [Exec.stage_own (by exact hs), ← hpc']
      split
      · rfl
      · rfl
    refine ⟨.call i, ⟨nofun, nofun, nofun⟩, ?_⟩
    cases hq : (s.cache.scopeState scope).queue with
    | nil =>
      refine move_line (.callNone hi hq) (nextId_popNext _ _).symm ?_ ?_ ?_
      · rw [hstate, hq]
        apply congrArg (ScopeState.mk _) hq.symm
      · rw [hstage]
        rfl
      · simp [Exec.noted, hpc, line, Line.State.setStage, hpop, hq]
    | cons id queue =>
      refine move_line (.call hi hq) (nextId_popNext _ _).symm ?_ ?_ ?_
      · rw [hstate, hq]
        rfl
      · rw [hstage]
        rfl
      · simp [Exec.noted, hpc, line, hpop, hq]
  | resumed =>
    cases hn
    exact turn_goto he hs hpc (Nat.le_refl _) rfl rfl (by simp [Exec.noted, hpc])
  | notify pc =>
    obtain ⟨⟨c₂, pc₂⟩, hn₂, heq⟩ := Option.map_eq_some_iff.mp hn
    cases heq
    obtain ⟨hnext, hscopes⟩ := frame_notify hn₂
    refine turn_goto he hs hpc hnext.ge (by simp [scopeState, hscopes]) ?_
      (by simp [Exec.noted, hpc])
    cases pc₂ with
    | _ => rfl

/-- A step of an execution of the scope is a move in line. -/
theorem turn_own
    {log : List Line.Event} (he : s.execs.lookup i = some e)
    (hs : e.mutation.scope = some ⟨scope⟩) (hown : e.AddsOwn)
    (ha : e.advance i s.nowMs s.cache o = some (c', e')) :
  ∃ b, Turn e i b ∧ Move (s.line scope log) b (line { s.setExec i e' with cache := c' } scope
    (log ++ e.noted e' (s.cache.popNext scope).2))
  := by
  have own {scope' : MutationScope} (hs' : e.mutation.scope = some scope') : scope' = ⟨scope⟩ :=
    Option.some.inj (hs'.symm.trans hs)
  cases takes_of_advance ha with
  | poll hpc | toScope hpc _ =>
    exact turn_goto he hs hpc (Nat.le_refl _) rfl rfl (by simp [Exec.noted, hpc])
  | toBody _ hnone =>
    rw [hs] at hnone
    contradiction
  | add hpc hadd => exact turn_add he hpc hs hown hadd rfl
  | added hpc hadd =>
    cases takes_of_add hadd
    exact turn_goto he hs hpc (Nat.le_refl _) rfl rfl (by simp [Exec.noted, hpc])
  | subscribe hpc hs' =>
    obtain rfl := own hs'
    exact turn_goto he hs hpc (Nat.le_refl _) rfl rfl (by simp [Exec.noted, hpc])
  | gate hpc hs' hg =>
    obtain rfl := own hs'
    exact turn_gate he hpc hs hg
  | body hpc hb => exact turn_body he hpc hs hb
  | markFinished hpc hs' =>
    obtain rfl := own hs'
    have hi : (s.line scope log).stage i = .inside e.entryId true := by
      rw [stage_of_lookup _ he, e.stage_own hs, hpc]
      rfl
    refine ⟨.lower i, ⟨nofun, nofun, nofun⟩, ?_⟩
    simp only [Exec.noted, hpc, List.append_nil]
    refine move_line (.lower hi) (nextId_markFinished _ _).symm ?_ ?_ rfl
    · rw [scopeState_markFinished, if_pos rfl]
      rfl
    · rw [Exec.stage_own (by exact hs)]
      rfl
  | @notify _ _ _ _ pc' hpc _ hn =>
    obtain ⟨hnext, hscopes⟩ := frame_notify hn
    refine turn_goto he hs hpc hnext.ge (by simp [scopeState, hscopes]) ?_
      (by simp [Exec.noted, hpc])
    cases pc' with
    | _ => rfl
  | runNext hpc hs' hn =>
    obtain rfl := own hs'
    exact turn_runNext he hpc hs hn rfl

/-- What an execution does to a scope that is not its own. -/
theorem scopeState_elsewhere
    (hown : e.AddsOwn) (ha : e.advance i nowMs c o = some (c', e'))
    (hne : e.mutation.scope ≠ some ⟨scope⟩) :
  c'.scopeState scope = c.scopeState scope ∧ c.nextId ≤ c'.nextId
  := by
  have elsewhere {scope' : MutationScope} (hs : e.mutation.scope = some scope') :
      scope ≠ scope'.id := by
    rintro rfl
    apply hne hs
  have same {c' : MutationCache} (h : c'.nextId = c.nextId ∧ c'.scopes = c.scopes) :
      c'.scopeState scope = c.scopeState scope ∧ c.nextId ≤ c'.nextId :=
    ⟨by simp only [scopeState, h.2], h.1.ge⟩
  unfold Exec.AddsOwn at hown
  cases takes_of_advance ha with
  | poll | toScope | toBody => exact ⟨rfl, Nat.le_refl _⟩
  | add hpc hadd =>
    rw [hpc] at hown
    cases takes_of_add hadd with
    | assign => exact ⟨rfl, Nat.le_succ _⟩
    | join hentry =>
      have hs := elsewhere (hown.2.symm.trans hentry)
      refine ⟨?_, (nextId_joinScope ..).ge⟩
      rw [scopeState_joinScope, if_neg fun h => hs h.1]
    | noScope | push | hook => exact ⟨rfl, Nat.le_refl _⟩
  | added _ hadd =>
    cases takes_of_add hadd
    exact ⟨rfl, Nat.le_refl _⟩
  | subscribe => exact ⟨rfl, Nat.le_refl _⟩
  | body _ hb => apply same (frame_advanceBody hb)
  | gate _ hs hg =>
    obtain ⟨-, rfl, -⟩ | ⟨hframe, -⟩ := advanceGate_cases hg
    · refine ⟨?_, Nat.le_refl _⟩
      rw [scopeState_markRunning, if_neg (elsewhere hs)]
    · apply same hframe
  | markFinished _ hs =>
    refine ⟨?_, (nextId_markFinished ..).ge⟩
    rw [scopeState_markFinished, if_neg (elsewhere hs)]
  | notify _ _ hn => apply same (frame_notify hn)
  | @runNext pc _ scope' _ _ _ hs hn =>
    cases pc with
    | pop =>
      have hc : (c.popNext scope'.id).1 = c' := congrArg Prod.fst (Option.some.inj hn)
      rw [← hc]
      refine ⟨?_, (nextId_popNext ..).ge⟩
      rw [scopeState_popNext, if_neg (elsewhere hs)]
    | resumed =>
      cases hn
      exact ⟨rfl, Nat.le_refl _⟩
    | notify pc =>
      obtain ⟨⟨c₂, pc₂⟩, hn₂, heq⟩ := Option.map_eq_some_iff.mp hn
      cases heq
      apply same (frame_notify hn₂)

/-! ### Executions take turns -/

/-- The execution is between joining its scope and the `run_next` of its release. -/
def Pc.attends : Pc → Bool
  | .queued | .add (.assign _) | .add (.join _) => false
  | .runNext .pop _ => true
  | .runNext .. | .done _ | .dropped => false
  | _ => true

/-- Nothing but executions acts on the cache, and none is abandoned. -/
def OnlyExecutions (_ : Mutations × List Line.Event) : Action → Prop
  | .submit .. | .advance .. | .resume _ | .wake .. | .tick _ => True
  | _ => False

instance (t : Mutations × List Line.Event) (a : Action) : Decidable (OnlyExecutions t a) := by
  unfold OnlyExecutions
  rcases a with _ | _ <;> infer_instance

/-- An execution joins its scope while it can run only where no other attends it, pushes
its entry as it joined, and marks the scope only once it is not queued. -/
def Exec.TakesTurn (scope : String) (t : Mutations × List Line.Event) (e : Exec) : Prop :=
  match e.pc with
  | .add (.join _) => t.1.cache.canRun scope = true → ∀ j e', t.1.execs.lookup j = some e' →
    e'.mutation.scope = some ⟨scope⟩ → e'.pc.attends = false
  | .add (.push entry) => numbers .listed t.2 ++ [entry.id] <+: numbers .joined t.2
  | .gate .mark => e.entryId ∉ (t.1.cache.scopeState scope).queue
  | _ => True

instance (scope : String) (t : Mutations × List Line.Event) (e : Exec) :
    Decidable (e.TakesTurn scope t) := by
  unfold Exec.TakesTurn
  rcases e.pc with _ | ⟨_ | _⟩ | _ | _ | ⟨_ | _⟩ | _ <;> infer_instance

/-- Only executions act, and those of the scope take turns. -/
def TakesTurns (scope : String) (t : Mutations × List Line.Event) : Action → Prop
  | .advance i _ => ∀ e ∈ t.1.execs.lookup i, e.mutation.scope = some ⟨scope⟩ →
    e.TakesTurn scope t
  | a => OnlyExecutions t a

instance (scope : String) (t : Mutations × List Line.Event) (a : Action) :
    Decidable (TakesTurns scope t a) := by
  unfold TakesTurns
  rcases a with _ | _ <;> infer_instance

/-- The executions of a scope have entered their mutate functions in the order of their
entries, and whoever `run_next` took was the next to acquire the scope. -/
structure InOrder (log : List Line.Event) : Prop where
  entered : (numbers .entered log).Sublist (numbers .listed log)
  next : ∀ l₁ n l₂ m, log = l₁ ++ (.called, n) :: l₂ →
    (numbers .acquired l₂).head? = some m → m = n

theorem Pc.attends_of_stage
    {pc : Pc} {id n : Nat} (h : (pc.stage id).InLine n ∨ (pc.stage id).Busy n) :
  pc.attends = true
  := by
  cases pc with
  | add pc =>
    cases pc with
    | assign entry => apply (or_self_iff.mp h).elim
    | join entry => apply (or_self_iff.mp h).elim
    | _ => rfl
  | runNext pc result =>
    cases pc with
    | pop => rfl
    | _ => apply (or_self_iff.mp h).elim
  | queued => apply (or_self_iff.mp h).elim
  | done result => apply (or_self_iff.mp h).elim
  | dropped => apply (or_self_iff.mp h).elim
  | _ => rfl

/-- Whoever is in line or busy attends the scope. -/
theorem attends_of_line
    {log : List Line.Event} {n : Nat} (h : ((s.line scope log).stage i).InLine n ∨
      ((s.line scope log).stage i).Busy n) :
  ∃ e, s.execs.lookup i = some e ∧ e.mutation.scope = some ⟨scope⟩ ∧ e.pc.attends = true
  := by
  cases he : s.execs.lookup i with
  | none =>
    simp only [line, he] at h
    apply (h.elim id id).elim
  | some e =>
    rw [stage_of_lookup _ he, Exec.stage] at h
    split at h
    · next hs => exact ⟨e, rfl, hs, Pc.attends_of_stage h⟩
    · apply (h.elim id id).elim

theorem orderly_of_takesTurns
    {log : List Line.Event} {b : Line.Action Nat} (he : s.execs.lookup i = some e)
    (hs : e.mutation.scope = some ⟨scope⟩) (hown : e.AddsOwn) (hb : Turn e i b)
    (hok : TakesTurns scope (s, log) (.advance i o)) :
  (s.line scope log).Orderly b
  := by
  have hturn := hok e he hs
  unfold Exec.TakesTurn at hturn
  unfold Exec.AddsOwn at hown
  cases b with
  | join j =>
    obtain ⟨rfl, entry, hpc⟩ := hb.join j rfl
    rw [hpc] at hturn
    intro hr k m
    have hout : ¬ (((s.line scope log).stage k).InLine m ∨
        ((s.line scope log).stage k).Busy m) := by
      intro hk
      obtain ⟨e', he', hs', hatt⟩ := attends_of_line hk
      have hrun : s.cache.canRun scope = true := by
        rw [canRun_eq]
        apply congrArg not hr
      rw [hturn hrun k e' he' hs'] at hatt
      contradiction
    apply not_or.mp hout
  | list j =>
    obtain ⟨rfl, entry, hpc⟩ := hb.list j rfl
    rw [hpc] at hturn hown
    intro n hn
    rw [stage_of_lookup _ he, e.stage_own hs, hpc] at hn
    obtain rfl := Stage.joined.inj hn
    rw [← hown.1]
    apply hturn
  | acquire j =>
    obtain ⟨rfl, hpc⟩ := hb.acquire j rfl
    rw [hpc] at hturn
    intro n hn
    rw [stage_of_lookup _ he, e.stage_own hs, hpc] at hn
    obtain rfl := Stage.waiting.inj hn
    apply hturn
  | _ => trivial

/-- The line of a scope is in turn, and executions add their own entries. -/
structure TurnsKept (scope : String) (t : Mutations × List Line.Event) : Prop where
  inTurn : (t.1.line scope t.2).InTurn
  addsOwn : ∀ i e, t.1.execs.lookup i = some e → e.AddsOwn

theorem line_of_stage
    {log : List Line.Event} (hc : s'.cache = s.cache)
    (hstage : (s'.line scope log).stage = (s.line scope log).stage) :
  s'.line scope log = s.line scope log
  := by
  apply Line.State.ext
  · simp only [line, hc]
  · simp only [line, hc]
  · simp only [line, hc]
  · apply hstage
  · rfl

/-- An execution goes on without a section of the cache, to a place at the same stage. -/
theorem TurnsKept.of_same
    {log : List Line.Event} (h : TurnsKept scope (s, log)) (hc : s'.cache = s.cache)
    (hexecs : s'.execs = s.execs.insert i e') (hown : e'.AddsOwn)
    (hstage : e'.stage scope = (s.line scope log).stage i) :
  TurnsKept scope (s', log)
  := by
  have hline : s'.line scope log = s.line scope log := by
    apply line_of_stage hc
    funext j
    simp only [line, hexecs, Table.lookup_insert_eq]
    split
    · next hj =>
      rw [hj]
      apply hstage
    · rfl
  constructor
  · dsimp only
    rw [hline]
    apply h.inTurn
  · intro j f hf
    rw [hexecs, Table.lookup_insert_eq] at hf
    split at hf
    · cases hf
      apply hown
    · apply h.addsOwn j f hf

theorem Pc.stage_waken (pc : Pc) (w : Waker) (id : Nat) :
  (pc.waken w).stage id = pc.stage id
  := by
  cases pc with
  | runNext pc result =>
    cases pc with
    | _ => rfl
  | _ => rfl

theorem Exec.AddsOwn.waken (h : e.AddsOwn) (w : Waker) :
  Exec.AddsOwn { e with pc := e.pc.waken w }
  := by
  obtain ⟨m, id, pc⟩ := e
  cases pc with
  | notify => trivial
  | runNext => trivial
  | _ => apply h

theorem noted_advance
    {s' : Mutations} (he : s.execs.lookup i = some e) (he' : s'.execs.lookup i = some e') :
  noted scope s (.advance i o) s' =
    if e.mutation.scope = some ⟨scope⟩ then e.noted e' (s.cache.popNext scope).2 else []
  := by
  simp only [noted, he, he']

/-- One step of an execution. -/
theorem TurnsKept.advance
    {log : List Line.Event} (h : TurnsKept scope (s, log)) (he : s.execs.lookup i = some e)
    (ha : e.advance i s.nowMs s.cache o = some (c', e'))
    (hok : TakesTurns scope (s, log) (.advance i o)) :
  TurnsKept scope ({ s.setExec i e' with cache := c' },
    log ++ noted scope s (.advance i o) { s.setExec i e' with cache := c' })
  := by
  have hown := h.addsOwn i e he
  constructor
  · rw [noted_advance he (AList.lookup_insert _)]
    split
    · next hs =>
      obtain ⟨b, hb, hm⟩ := turn_own he hs hown ha
      apply h.inTurn.move (orderly_of_takesTurns he hs hown hb hok) hm
    · next hs =>
      obtain ⟨hstate, hnext⟩ := scopeState_elsewhere hown ha hs
      have hs' : e'.mutation.scope ≠ some ⟨scope⟩ := by rwa [mutation_advance ha]
      rw [List.append_nil]
      refine h.inTurn.move (a := .pass) trivial (move_pass he hnext hstate ?_)
      rw [Exec.stage, Exec.stage, if_neg hs, if_neg hs']
  · intro j f hf
    simp only [setExec, Table.lookup_insert_eq] at hf
    split at hf
    · cases hf
      apply hown.advance ha
    · apply h.addsOwn j f hf

theorem TurnsKept.step
    {t t' : Mutations × List Line.Event} (h : TurnsKept scope t) (hok : TakesTurns scope t a)
    (hs : (turns scope).step t a = some t') :
  TurnsKept scope t'
  := by
  obtain ⟨s, log⟩ := t
  obtain ⟨s', log'⟩ := t'
  obtain ⟨hs, hlog⟩ := Machine.step_noting hs
  dsimp only at hs hlog
  rw [hlog]
  cases a with
  | submit i m =>
    obtain ⟨hi, rfl⟩ := step_submit hs
    simp only [noted, List.append_nil]
    refine h.of_same rfl rfl trivial ?_
    simp [line, hi, Exec.stage, Pc.stage]
  | advance i o =>
    obtain ⟨e, c, e', he, ha, rfl⟩ := step_advance hs
    apply h.advance he ha hok
  | resume i =>
    obtain ⟨e, w, he, hpc, rfl⟩ := step_resume hs
    simp only [noted, List.append_nil]
    refine h.of_same rfl rfl trivial ?_
    rw [stage_of_lookup _ he, Exec.stage, Exec.stage, hpc]
    rfl
  | wake i w =>
    obtain ⟨e, he, -, rfl⟩ := step_wake hs
    simp only [noted, List.append_nil]
    refine h.of_same rfl rfl ((h.addsOwn i e he).waken w) ?_
    rw [stage_of_lookup _ he, Exec.stage, Exec.stage, Pc.stage_waken]
  | tick n =>
    obtain rfl := Option.some.inj hs
    simp only [noted, List.append_nil]
    exact ⟨h.inTurn, h.addsOwn⟩
  | _ => apply hok.elim

/-- Nobody has come to the line of any scope of a new cache. -/
theorem turnsKept_initial (scope : String) :
  TurnsKept scope (initial, [])
  := by
  have hline : initial.line scope [] = ⟨0, false, [], fun _ => .away, []⟩ := by
    apply Line.State.ext
    · rfl
    · rfl
    · rfl
    · rfl
    · rfl
  constructor
  · dsimp only
    rw [hline]
    exact .empty
  · intro i e he
    simp [initial] at he

/-- Along every run in which executions take turns, they enter in the order of their
entries, and whoever `run_next` takes is the next to acquire the scope. -/
theorem inOrder_of_run
    {t : Mutations × List Line.Event} (h : (turns scope).Run (TakesTurns scope) t) :
  InOrder t.2
  := by
  have hkept : TurnsKept scope t := by
    apply h.invariant
    · rintro ⟨s, log⟩ ⟨rfl, rfl⟩
      apply turnsKept_initial scope
    · exact fun t a t' _ hkept hok hs => hkept.step hok hs
  exact ⟨hkept.inTurn.entered_sublist, fun _ _ _ _ => hkept.inTurn.next_acquired⟩

/-- A second execution waits for the first one and enters after it. -/
theorem inOrder_of_run_waiting :
  ∃ t, (turns "s").Run (TakesTurns "s") t ∧ numbers .entered t.2 = [1, 2] ∧
    numbers .called t.2 = [2] ∧ InOrder t.2
  := by
  have meets : (turns "s").Meets (TakesTurns "s") (initial, [])
      (.submit 0 mutationS :: .submit 1 mutationS :: advances 0 12 ++ advances 1 10 ++
        [.advance 0 (.ready (.ok ()))] ++ advances 0 6 ++ [.wake 0 1] ++ advances 0 2 ++
        [.resume 1] ++ advances 1 7) := by
    decide +kernel
  have init : (turns "s").init (initial, []) := ⟨rfl, rfl⟩
  obtain ⟨t, hrun, hv⟩ := Machine.exists_run_of_exec _
    (fun t : Mutations × List Line.Event => (numbers .entered t.2, numbers .called t.2))
    ([1, 2], [2]) init meets (by decide +kernel)
  simp only [Prod.mk.injEq] at hv
  exact ⟨t, hrun, hv.1, hv.2, inOrder_of_run hrun⟩

/-- Two executions are woken together, and the one that came last goes first. -/
theorem not_inOrder_woken :
  ¬ ∀ t, (turns "s").Run OnlyExecutions t → InOrder t.2
  := by
  intro h
  have meets : (turns "s").Meets OnlyExecutions (initial, [])
      (.submit 0 mutationS :: .submit 1 mutationS :: .submit 2 mutationS :: advances 0 12 ++
        advances 1 10 ++ advances 2 10 ++ [.advance 0 (.ready (.ok ()))] ++ advances 0 6 ++
        [.wake 0 1, .wake 0 2] ++ advances 0 2 ++ [.resume 2] ++ advances 2 7 ++
        [.advance 2 (.ready (.ok ()))] ++ advances 2 6 ++ [.resume 1] ++ advances 1 7) := by
    decide +kernel
  have init : (turns "s").init (initial, []) := ⟨rfl, rfl⟩
  obtain ⟨t, hrun, hv⟩ := Machine.exists_run_of_exec _
    (fun t : Mutations × List Line.Event => (numbers .entered t.2, numbers .listed t.2))
    ([1, 3, 2], [1, 2, 3]) init meets (by decide +kernel)
  simp only [Prod.mk.injEq] at hv
  have hsub := (h t hrun).entered
  rw [hv.1, hv.2] at hsub
  exact absurd hsub (by decide)

end Mutations

end RsQuery
