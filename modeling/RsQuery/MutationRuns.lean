import RsQuery.Mutations

/-!
# What the steps of mutations do

Executions keep their mutation, advance only once they have no wakers left to wake, and
do nothing to the running flag and the release cell of a scope that is not their own.
-/

namespace RsQuery

namespace Mutations

open MutationCache

variable {s s' : Mutations} {a : Action} {i j : Nat} {e : Exec} {c : MutationCache}
  {scope : String}

/-! ### Steps -/

theorem step_submit {m : Mutation} (h : s.step (.submit i m) = some s') :
  s.execs.lookup i = none ∧ s' = s.setExec i ⟨m, 0, .queued⟩
  := by
  simp only [step] at h
  split at h
  · contradiction
  · next hi => exact ⟨by simpa using hi, (Option.some.inj h).symm⟩

theorem step_advance {o : Outcome} (h : s.step (.advance i o) = some s') :
  ∃ e c e', s.execs.lookup i = some e ∧ e.advance i s.nowMs s.cache o = some (c, e') ∧
    s' = { s.setExec i e' with cache := c }
  := by
  obtain ⟨e, he, h⟩ := Option.bind_eq_some_iff.mp h
  obtain ⟨⟨c, e'⟩, ha, h⟩ := Option.bind_eq_some_iff.mp h
  exact ⟨e, c, e', he, ha, (Option.some.inj h).symm⟩

theorem step_of_advance
    {o : Outcome} {e' : Exec} (he : s.execs.lookup i = some e)
    (h : e.advance i s.nowMs s.cache o = some (c, e')) :
  s.step (.advance i o) = some { s.setExec i e' with cache := c }
  := Option.bind_eq_some_iff.mpr ⟨e, he, Option.bind_eq_some_iff.mpr ⟨_, h, rfl⟩⟩

theorem step_resume (h : s.step (.resume i) = some s') :
  ∃ e w, s.execs.lookup i = some e ∧ e.pc = .gate (.parked w) ∧
    s' = { s.setExec i { e with pc := .gate (.poll w) } with woken := s.woken.erase i }
  := by
  obtain ⟨e, he, h⟩ := Option.bind_eq_some_iff.mp h
  split at h
  · next w hpc => exact ⟨e, w, he, hpc, (Option.some.inj h).symm⟩
  · contradiction

theorem step_abandon (h : s.step (.abandon i) = some s') :
  ∃ e, s.execs.lookup i = some e ∧ e.pc.interruptible = true ∧
    s' = s.setExec i { e with pc := .dropped }
  := by
  obtain ⟨e, he, h⟩ := Option.bind_eq_some_iff.mp h
  split at h
  · next hpc => exact ⟨e, he, hpc, (Option.some.inj h).symm⟩
  · contradiction

theorem step_wake {w : Waker} (h : s.step (.wake i w) = some s') :
  ∃ e, s.execs.lookup i = some e ∧ w ∈ e.pc.hand ∧
    s' = { s.setExec i { e with pc := e.pc.waken w } with woken := insert w s.woken }
  := by
  obtain ⟨e, he, h⟩ := Option.bind_eq_some_iff.mp h
  split at h
  · next hw => exact ⟨e, he, hw, (Option.some.inj h).symm⟩
  · contradiction

theorem step_of_wake {w : Waker} (he : s.execs.lookup i = some e) (hw : w ∈ e.pc.hand) :
  s.step (.wake i w) =
    some { s.setExec i { e with pc := e.pc.waken w } with woken := insert w s.woken }
  := Option.bind_eq_some_iff.mpr ⟨e, he, if_pos hw⟩

theorem step_advanceCall (h : s.step (.advanceCall j) = some s') :
  ∃ pc c pc', s.calls.lookup j = some pc ∧ pc.advance s.cache = some (c, pc') ∧
    s' = { s with cache := c, calls := pc'.elim (s.calls.erase j) (s.calls.insert j) }
  := by
  obtain ⟨pc, hj, h⟩ := Option.bind_eq_some_iff.mp h
  obtain ⟨⟨c, pc'⟩, ha, h⟩ := Option.bind_eq_some_iff.mp h
  exact ⟨pc, c, pc', hj, ha, (Option.some.inj h).symm⟩

theorem step_wakeCall {w : Waker} (h : s.step (.wakeCall j w) = some s') :
  ∃ pc, s.calls.lookup j = some pc ∧ w ∈ pc.hand ∧
    s' = { s with calls := s.calls.insert j (pc.waken w), woken := insert w s.woken }
  := by
  obtain ⟨pc, hj, h⟩ := Option.bind_eq_some_iff.mp h
  split at h
  · next hw => exact ⟨pc, hj, hw, (Option.some.inj h).symm⟩
  · contradiction

theorem start_eq_some {pc : CallPc} (h : s.start j pc = some s') :
  s.calls.lookup j = none ∧ s' = { s with calls := s.calls.insert j pc }
  := by
  unfold start at h
  split at h
  · contradiction
  · next hj => exact ⟨by simpa using hj, (Option.some.inj h).symm⟩

/-- A future that was dropped stays so. -/
theorem dropped_of_step (he : s.execs.lookup i = some e) (hpc : e.pc = .dropped)
    (h : s.step a = some s') :
  s'.execs.lookup i = some e
  := by
  -- a step of an execution starts where its future is there
  have hother {j : Nat} {q q' : Exec} (hq : s.execs.lookup j = some q) (hne : q.pc ≠ .dropped) :
      (s.execs.insert j q').lookup i = some e := by
    by_cases hij : i = j
    · rw [← hij, he] at hq
      rw [← Option.some.inj hq] at hne
      contradiction
    · rw [AList.lookup_insert_ne hij, he]
  cases a with
  | submit j m =>
    obtain ⟨hj, rfl⟩ := step_submit h
    by_cases hij : i = j
    · rw [← hij, he] at hj
      contradiction
    · apply (AList.lookup_insert_ne hij).trans he
  | advance j o =>
    obtain ⟨q, c, q', hq, ha, rfl⟩ := step_advance h
    apply hother hq
    intro hd
    simp [Exec.advance, hd] at ha
  | resume j =>
    obtain ⟨q, w, hq, hw, rfl⟩ := step_resume h
    apply hother hq
    rw [hw]
    exact nofun
  | abandon j =>
    obtain ⟨q, hq, hinterruptible, rfl⟩ := step_abandon h
    apply hother hq
    intro hd
    rw [hd] at hinterruptible
    contradiction
  | wake j w =>
    obtain ⟨q, hq, hw, rfl⟩ := step_wake h
    apply hother hq
    intro hd
    rw [hd] at hw
    contradiction
  | add j entry =>
    obtain ⟨-, rfl⟩ := start_eq_some h
    apply he
  | remove j id =>
    obtain ⟨-, rfl⟩ := start_eq_some h
    apply he
  | clear j =>
    obtain ⟨-, rfl⟩ := start_eq_some h
    apply he
  | runNext j scope =>
    obtain ⟨-, rfl⟩ := start_eq_some h
    apply he
  | advanceCall j =>
    obtain ⟨pc, c, pc', -, -, rfl⟩ := step_advanceCall h
    apply he
  | wakeCall j w =>
    obtain ⟨pc, -, -, rfl⟩ := step_wakeCall h
    apply he
  | tick n =>
    obtain rfl := Option.some.inj h
    apply he

/-! ### What an advance can be -/

/-- What a step of `add_with_hook` can be. -/
inductive AddPc.Takes (c : MutationCache) : AddPc → MutationCache → Option AddPc → Prop where
  | assign {entry : MutationCacheEntry} :
      Takes c (.assign entry) c.assignId.1 (some (.join { entry with id := c.assignId.2 }))
  | join {entry : MutationCacheEntry} {scope : MutationScope} : entry.scope = some scope →
      Takes c (.join entry) (c.joinScope scope.id entry).1
        (some (.push (c.joinScope scope.id entry).2))
  | noScope {entry : MutationCacheEntry} : entry.scope = none →
      Takes c (.join entry) c (some (.push entry))
  | push {entry : MutationCacheEntry} :
      Takes c (.push entry) (c.pushEntry entry) (some (.hook entry.id))
  | hook {id : Nat} : Takes c (.hook id) c (some (.announce id))
  | announce {id : Nat} : Takes c (.announce id) (c.send (.added id)) none

theorem takes_of_add
    {pc : AddPc} {c' : MutationCache} {pc' : Option AddPc} (h : pc.advance c = (c', pc')) :
  AddPc.Takes c pc c' pc'
  := by
  cases pc with
  | assign entry =>
    cases h
    exact .assign
  | join entry =>
    cases hscope : entry.scope with
    | none =>
      simp only [AddPc.advance, hscope] at h
      cases h
      exact .noScope hscope
    | some scope =>
      simp only [AddPc.advance, hscope] at h
      cases h
      exact .join hscope
  | push entry =>
    cases h
    exact .push
  | hook id =>
    cases h
    exact .hook
  | announce id =>
    cases h
    exact .announce

/-- What a step of an execution that runs can be: the cache and the program point it leads
to. -/
inductive Exec.BodyTakes (e : Exec) (c : MutationCache) :
    BodyPc → Outcome → MutationCache → Pc → Prop where
  | paused : (c.get e.entryId).any (·.isPaused) = true →
      BodyTakes e c .readPaused .next c (.body .unpause)
  | notPaused : (c.get e.entryId).any (·.isPaused) = false →
      BodyTakes e c .readPaused .next c (.body .onMutate)
  | unpause {c' : MutationCache} {pc : Pc} :
      e.update c (fun entry => { entry with isPaused := false }) .unpaused .onMutate = (c', pc) →
      BodyTakes e c .unpause .next c' pc
  | unpaused : BodyTakes e c .unpaused .next (c.send (.updated e.entryId)) (.body .onMutate)
  | noHook : e.mutation.hasOnMutate = false →
      BodyTakes e c .onMutate .next c (.body (.mutateFn 0 false))
  | hook : e.mutation.hasOnMutate = true →
      BodyTakes e c .onMutate (.ready (.ok ())) c (.body .keepContext)
  | hookFails {error : QueryError} : e.mutation.hasOnMutate = true →
      BodyTakes e c .onMutate (.ready (.error error)) c (.body (.settle (.error error)))
  | keepContext {c' : MutationCache} {pc : Pc} :
      e.update c (fun entry => { entry with hasContext := true }) .keptContext (.mutateFn 0 true)
        = (c', pc) →
      BodyTakes e c .keepContext .next c' pc
  | keptContext :
      BodyTakes e c .keptContext .next (c.send (.updated e.entryId)) (.body (.mutateFn 0 true))
  | mutated {n : Nat} {rollback : Bool} :
      BodyTakes e c (.mutateFn n rollback) (.ready (.ok ())) c (.body (.settle (.ok ())))
  | retry {n : Nat} {rollback : Bool} {error : QueryError} : n < e.mutation.retry →
      BodyTakes e c (.mutateFn n rollback) (.ready (.error error)) c
        (.body (.sleeping (n + 1) rollback))
  | rollBack {n : Nat} {error : QueryError} : ¬ n < e.mutation.retry →
      BodyTakes e c (.mutateFn n true) (.ready (.error error)) c (.body (.rollback error))
  | giveUp {n : Nat} {error : QueryError} : ¬ n < e.mutation.retry →
      BodyTakes e c (.mutateFn n false) (.ready (.error error)) c
        (.body (.settle (.error error)))
  | slept {n : Nat} {rollback : Bool} :
      BodyTakes e c (.sleeping n rollback) .next c (.body (.mutateFn n rollback))
  | rolledBack {error : QueryError} :
      BodyTakes e c (.rollback error) .next c (.body (.settle (.error error)))
  | settle {result : Result} {c' : MutationCache} {pc : Pc} :
      e.update c (Exec.settled result) (.settled result) (.callbacks result) = (c', pc) →
      BodyTakes e c (.settle result) .next c' pc
  | settled {result : Result} :
      BodyTakes e c (.settled result) .next (c.send (.updated e.entryId))
        (.body (.callbacks result))
  | release {result : Result} : e.mutation.scope.isSome = true →
      BodyTakes e c (.callbacks result) .next c (.markFinished result)
  | finish {result : Result} : e.mutation.scope = none →
      BodyTakes e c (.callbacks result) .next c (.done result)

theorem takes_of_advanceBody
    {pc : BodyPc} {o : Outcome} {c' : MutationCache} {pc' : Pc}
    (h : e.advanceBody c pc o = some (c', pc')) :
  e.BodyTakes c pc o c' pc'
  := by
  cases pc with
  | readPaused =>
    cases o with
    | next =>
      cases h
      split
      · next hp => exact .paused hp
      · next hp => exact .notPaused (Bool.of_not_eq_true hp)
    | ready => contradiction
  | unpause =>
    cases o with
    | next => exact .unpause (Option.some.inj h)
    | ready => contradiction
  | unpaused =>
    cases o with
    | next =>
      cases h
      exact .unpaused
    | ready => contradiction
  | onMutate =>
    cases o with
    | next =>
      simp only [Exec.advanceBody] at h
      split at h
      · contradiction
      · next hhook =>
        cases h
        exact .noHook (Bool.of_not_eq_true hhook)
    | ready result =>
      simp only [Exec.advanceBody] at h
      split at h
      · next hhook =>
        cases result with
        | ok =>
          cases h
          exact .hook hhook
        | error =>
          cases h
          exact .hookFails hhook
      · contradiction
  | keepContext =>
    cases o with
    | next => exact .keepContext (Option.some.inj h)
    | ready => contradiction
  | keptContext =>
    cases o with
    | next =>
      cases h
      exact .keptContext
    | ready => contradiction
  | mutateFn n rollback =>
    cases o with
    | next => contradiction
    | ready result =>
      cases result with
      | ok =>
        cases h
        exact .mutated
      | error error =>
        simp only [Exec.advanceBody] at h
        split at h
        · next hn =>
          cases h
          exact .retry hn
        · next hn =>
          cases rollback with
          | true =>
            cases h
            exact .rollBack hn
          | false =>
            cases h
            exact .giveUp hn
  | sleeping n rollback =>
    cases o with
    | next =>
      cases h
      exact .slept
    | ready => contradiction
  | rollback error =>
    cases o with
    | next =>
      cases h
      exact .rolledBack
    | ready => contradiction
  | settle result =>
    cases o with
    | next => exact .settle (Option.some.inj h)
    | ready => contradiction
  | settled result =>
    cases o with
    | next =>
      cases h
      exact .settled
    | ready => contradiction
  | callbacks result =>
    cases o with
    | next =>
      cases h
      split
      · next hs => exact .release hs
      · next hs => exact .finish (Option.not_isSome_iff_eq_none.mp hs)
    | ready => contradiction

/-- What an advance of an execution can be: the cache and the execution after it. -/
inductive Exec.Takes (e : Exec) (i nowMs : Nat) (c : MutationCache) (o : Outcome) :
    MutationCache → Exec → Prop where
  | poll : e.pc = .queued →
      Takes e i nowMs c o c { e with pc := .add (.assign (e.entry nowMs)) }
  | add {pc : AddPc} {c' : MutationCache} {pc' : AddPc} : e.pc = .add pc →
      pc.advance c = (c', some pc') →
      Takes e i nowMs c o c' { e with entryId := pc'.entryId, pc := .add pc' }
  | added {pc : AddPc} {c' : MutationCache} : e.pc = .add pc → pc.advance c = (c', none) →
      Takes e i nowMs c o c' { e with pc := .fireOnMutate }
  | toScope : e.pc = .fireOnMutate → e.mutation.scope.isSome = true →
      Takes e i nowMs c o c { e with pc := .subscribe }
  | toBody : e.pc = .fireOnMutate → e.mutation.scope = none →
      Takes e i nowMs c o c { e with pc := .body .onMutate }
  | subscribe {scope : MutationScope} : e.pc = .subscribe → e.mutation.scope = some scope →
      Takes e i nowMs c o (c.subscribeScope scope.id).1
        { e with pc := .gate (.check (c.subscribeScope scope.id).2) }
  | gate {pc : GatePc} {scope : MutationScope} {c' : MutationCache} {pc' : Pc} :
      e.pc = .gate pc → e.mutation.scope = some scope →
      Exec.advanceGate i scope.id c pc = some (c', pc') →
      Takes e i nowMs c o c' { e with pc := pc' }
  | body {pc : BodyPc} {c' : MutationCache} {pc' : Pc} : e.pc = .body pc →
      e.advanceBody c pc o = some (c', pc') → Takes e i nowMs c o c' { e with pc := pc' }
  | markFinished {result : Result} {scope : MutationScope} : e.pc = .markFinished result →
      e.mutation.scope = some scope →
      Takes e i nowMs c o (c.markFinished scope.id) { e with pc := .notify .lookup result }
  | notify {pc : NotifyPc} {result : Result} {scope : MutationScope} {c' : MutationCache}
      {pc' : Option NotifyPc} : e.pc = .notify pc result → e.mutation.scope = some scope →
      pc.advance scope.id c = some (c', pc') →
      Takes e i nowMs c o c' { e with pc := pc'.elim (.runNext .pop result) (.notify · result) }
  | runNext {pc : RunNextPc} {result : Result} {scope : MutationScope} {c' : MutationCache}
      {pc' : Option RunNextPc} : e.pc = .runNext pc result → e.mutation.scope = some scope →
      pc.advance scope.id c = some (c', pc') →
      Takes e i nowMs c o c' { e with pc := pc'.elim (.done result) (.runNext · result) }

theorem takes_of_advance
    {nowMs : Nat} {o : Outcome} {c' : MutationCache} {e' : Exec}
    (h : e.advance i nowMs c o = some (c', e')) :
  e.Takes i nowMs c o c' e'
  := by
  unfold Exec.advance at h
  split at h
  next hpc =>
    cases h
    exact .poll hpc
  next hpc =>
    split at h
    · next ha =>
      cases h
      exact .add hpc ha
    · next ha =>
      cases h
      exact .added hpc ha
  next hpc =>
    cases h
    split
    · next hs => exact .toScope hpc hs
    · next hs => exact .toBody hpc (Option.not_isSome_iff_eq_none.mp hs)
  next hpc =>
    obtain ⟨⟨c', pc'⟩, hb, heq⟩ := Option.map_eq_some_iff.mp h
    cases heq
    exact .body hpc hb
  next hpc hs =>
    cases h
    exact .subscribe hpc hs
  next hpc hs =>
    obtain ⟨⟨c', pc'⟩, hg, heq⟩ := Option.map_eq_some_iff.mp h
    cases heq
    exact .gate hpc hs hg
  next hpc hs =>
    cases h
    exact .markFinished hpc hs
  next hpc hs =>
    obtain ⟨⟨c', pc'⟩, hn, heq⟩ := Option.map_eq_some_iff.mp h
    cases heq
    exact .notify hpc hs hn
  next hpc hs =>
    obtain ⟨⟨c', pc'⟩, hn, heq⟩ := Option.map_eq_some_iff.mp h
    cases heq
    exact .runNext hpc hs hn
  next => contradiction

/-! ### Wakers in hand -/

theorem NotifyPc.hand_of_advance
    {pc : NotifyPc} {p : MutationCache × Option NotifyPc} (h : pc.advance scope c = some p) :
  pc.hand = []
  := by
  cases pc with
  | lookup => rfl
  | send => rfl
  | wake wakers =>
    cases wakers with
    | nil => rfl
    | cons => contradiction

theorem RunNextPc.hand_of_advance
    {pc : RunNextPc} {p : MutationCache × Option RunNextPc} (h : pc.advance scope c = some p) :
  pc.hand = []
  := by
  cases pc with
  | pop => rfl
  | resumed => rfl
  | notify pc =>
    obtain ⟨_, hpc, -⟩ := Option.map_eq_some_iff.mp h
    apply NotifyPc.hand_of_advance hpc

theorem CallPc.hand_of_advance
    {pc : CallPc} {p : MutationCache × Option CallPc} (h : pc.advance c = some p) :
  pc.hand = []
  := by
  cases pc with
  | runNext scope pc =>
    obtain ⟨_, hpc, -⟩ := Option.map_eq_some_iff.mp h
    apply RunNextPc.hand_of_advance hpc
  | _ => rfl

/-- An execution advances with no wakers left to wake. -/
theorem hand_of_advance
    {nowMs : Nat} {o : Outcome} {c' : MutationCache} {e' : Exec}
    (h : e.advance i nowMs c o = some (c', e')) :
  e.pc.hand = []
  := by
  cases takes_of_advance h with
  | notify hpc _ hn =>
    rw [hpc]
    apply NotifyPc.hand_of_advance hn
  | runNext hpc _ hn =>
    rw [hpc]
    apply RunNextPc.hand_of_advance hn
  | poll hpc | add hpc _ | added hpc _ | toScope hpc _ | toBody hpc _ | subscribe hpc _
  | gate hpc _ _ | body hpc _ | markFinished hpc _ =>
    rw [hpc]
    rfl

theorem hand_of_interruptible {pc : Pc} (h : pc.interruptible = true) :
  pc.hand = []
  := by
  cases pc with
  | notify => contradiction
  | runNext => contradiction
  | _ => rfl

theorem NotifyPc.hand_waken (pc : NotifyPc) (w : Waker) :
  (pc.waken w).hand = pc.hand.erase w
  := by
  cases pc with
  | _ => rfl

theorem RunNextPc.hand_waken (pc : RunNextPc) (w : Waker) :
  (pc.waken w).hand = pc.hand.erase w
  := by
  cases pc with
  | notify pc => apply pc.hand_waken w
  | _ => rfl

theorem CallPc.hand_waken (pc : CallPc) (w : Waker) :
  (pc.waken w).hand = pc.hand.erase w
  := by
  cases pc with
  | runNext scope pc => apply pc.hand_waken w
  | _ => rfl

theorem Pc.hand_waken (pc : Pc) (w : Waker) :
  (pc.waken w).hand = pc.hand.erase w
  := by
  cases pc with
  | notify pc result => apply pc.hand_waken w
  | runNext pc result => apply pc.hand_waken w
  | _ => rfl

/-! ### What is done elsewhere -/

/-- The cache shows the same of a scope. -/
structure SameAt (scope : String) (c c' : MutationCache) : Prop where
  canRun : c'.canRun scope = c.canRun scope
  release : c'.scopeRelease.lookup scope = c.scopeRelease.lookup scope

theorem sameAt_add (scope : String) (c : MutationCache) (pc : AddPc) :
  SameAt scope c (pc.advance c).1
  := by
  cases pc with
  | join entry =>
    cases h : entry.scope with
    | none =>
      simp only [AddPc.advance, h]
      exact ⟨rfl, rfl⟩
    | some scope' =>
      simp only [AddPc.advance, h]
      exact ⟨canRun_joinScope .., by rw [scopeRelease_joinScope]⟩
  | _ => exact ⟨rfl, rfl⟩

/-- A notification concerns one scope. -/
theorem sameAt_notify
    {scope' : String} {pc : NotifyPc} {c' : MutationCache} {pc' : Option NotifyPc}
    (h : pc.advance scope' c = some (c', pc')) (hne : scope ≠ scope') :
  SameAt scope c c'
  := by
  cases pc with
  | lookup =>
    obtain ⟨rfl, rfl⟩ := Prod.mk.inj (Option.some.inj h)
    exact ⟨rfl, rfl⟩
  | send =>
    have hc : (c.sendRelease scope').1 = c' := congrArg Prod.fst (Option.some.inj h)
    rw [← hc]
    exact ⟨canRun_sendRelease .., by rw [sendRelease_lookup, if_neg hne]⟩
  | wake wakers =>
    cases wakers with
    | nil =>
      obtain ⟨rfl, rfl⟩ := Prod.mk.inj (Option.some.inj h)
      exact ⟨rfl, rfl⟩
    | cons => contradiction

theorem sameAt_runNext
    {scope' : String} {pc : RunNextPc} {c' : MutationCache} {pc' : Option RunNextPc}
    (h : pc.advance scope' c = some (c', pc')) (hne : scope ≠ scope') :
  SameAt scope c c'
  := by
  cases pc with
  | pop =>
    have hc : (c.popNext scope').1 = c' := congrArg Prod.fst (Option.some.inj h)
    rw [← hc]
    exact ⟨canRun_popNext .., by rw [scopeRelease_popNext]⟩
  | resumed =>
    obtain ⟨rfl, rfl⟩ := Prod.mk.inj (Option.some.inj h)
    exact ⟨rfl, rfl⟩
  | notify pc =>
    obtain ⟨⟨c'', pc''⟩, hpc, heq⟩ := Option.map_eq_some_iff.mp h
    obtain ⟨rfl, -⟩ := Prod.mk.inj heq
    apply sameAt_notify hpc hne

/-- A step of `run_next` takes the registered wakers, or it takes none and does nothing to
any gate. -/
theorem runNext_cases
    {pc : RunNextPc} {c' : MutationCache} {pc' : Option RunNextPc}
    (h : pc.advance scope c = some (c', pc')) :
  (∀ scope', SameAt scope' c c') ∧ pc'.elim [] RunNextPc.hand = [] ∨
    c' = (c.sendRelease scope).1 ∧ pc'.elim [] RunNextPc.hand = (c.sendRelease scope).2
  := by
  cases pc with
  | pop =>
    left
    have hc : (c.popNext scope).1 = c' := congrArg Prod.fst (Option.some.inj h)
    have hpc : (if (c.popNext scope).2.isSome then some RunNextPc.resumed else none) = pc' :=
      congrArg Prod.snd (Option.some.inj h)
    constructor
    · rw [← hc]
      exact fun scope' => ⟨canRun_popNext .., by rw [scopeRelease_popNext]⟩
    · rw [← hpc]
      split
      · rfl
      · rfl
  | resumed =>
    cases h
    exact .inl ⟨fun _ => ⟨rfl, rfl⟩, rfl⟩
  | notify pc =>
    obtain ⟨⟨c'', pc''⟩, hn, heq⟩ := Option.map_eq_some_iff.mp h
    cases heq
    cases pc with
    | lookup =>
      cases hn
      left
      refine ⟨fun _ => ⟨rfl, rfl⟩, ?_⟩
      split
      · rfl
      · rfl
    | send =>
      cases hn
      exact .inr ⟨rfl, rfl⟩
    | wake wakers =>
      cases wakers with
      | nil =>
        cases hn
        exact .inl ⟨fun _ => ⟨rfl, rfl⟩, rfl⟩
      | cons => contradiction

theorem sameAt_gate
    {scope' : String} {pc : GatePc} {c' : MutationCache} {pc' : Pc}
    (h : Exec.advanceGate i scope' c pc = some (c', pc')) (hne : scope ≠ scope') :
  SameAt scope c c'
  := by
  cases pc with
  | check =>
    obtain ⟨rfl, -⟩ := Prod.mk.inj (Option.some.inj h)
    exact ⟨rfl, rfl⟩
  | mark =>
    obtain ⟨rfl, -⟩ := Prod.mk.inj (Option.some.inj h)
    exact ⟨by rw [canRun_markRunning, if_neg hne], rfl⟩
  | poll watcher =>
    have hpoll : ∀ p ∈ c.pollRelease scope' watcher i, SameAt scope c p.1 := by
      intro p hp
      obtain ⟨cell, -, rfl⟩ := Option.map_eq_some_iff.mp hp
      exact ⟨rfl, AList.lookup_insert_ne hne⟩
    simp only [Exec.advanceGate] at h
    split at h
    · next hp =>
      obtain ⟨rfl, -⟩ := Prod.mk.inj (Option.some.inj h)
      apply hpoll _ hp
    · next hp =>
      obtain ⟨rfl, -⟩ := Prod.mk.inj (Option.some.inj h)
      apply hpoll _ hp
    · contradiction
  | parked => contradiction

/-- What an update of the own entry does, and where it leads. -/
theorem update_cases
    {update : MutationCacheEntry → MutationCacheEntry} {found missing : BodyPc}
    {c' : MutationCache} {pc' : Pc} (h : e.update c update found missing = (c', pc')) :
  c' = (c.updateEntry e.entryId update).1 ∧ (pc' = .body found ∨ pc' = .body missing)
  := by
  cases h
  use rfl
  split
  · exact .inl rfl
  · exact .inr rfl

/-- An execution that runs does nothing to any scope, and runs until it marks its scope
as finished. -/
theorem advanceBody_cases
    {pc : BodyPc} {o : Outcome} {c' : MutationCache} {pc' : Pc}
    (h : e.advanceBody c pc o = some (c', pc')) :
  SameAt scope c c' ∧ ((∃ b, pc' = .body b) ∨ (∃ result, pc' = .markFinished result) ∨
    e.mutation.scope = none ∧ ∃ result, pc' = .done result)
  := by
  have updated {update : MutationCacheEntry → MutationCacheEntry} {found missing : BodyPc}
      (h : e.update c update found missing = (c', pc')) :
      SameAt scope c c' ∧ ∃ b, pc' = .body b := by
    cases h
    exact ⟨⟨rfl, rfl⟩, _, rfl⟩
  cases takes_of_advanceBody h with
  | unpause h | keepContext h | settle h =>
    obtain ⟨hsame, hb⟩ := updated h
    exact ⟨hsame, .inl hb⟩
  | release => exact ⟨⟨rfl, rfl⟩, .inr (.inl ⟨_, rfl⟩)⟩
  | finish hs => exact ⟨⟨rfl, rfl⟩, .inr (.inr ⟨hs, _, rfl⟩)⟩
  | _ => exact ⟨⟨rfl, rfl⟩, .inl ⟨_, rfl⟩⟩

theorem mutation_advance
    {nowMs : Nat} {o : Outcome} {c' : MutationCache} {e' : Exec}
    (h : e.advance i nowMs c o = some (c', e')) :
  e'.mutation = e.mutation
  := by
  cases takes_of_advance h with
  | _ => rfl

/-- What an execution does to a scope that is not its own. -/
theorem sameAt_advance
    {nowMs : Nat} {o : Outcome} {c' : MutationCache} {e' : Exec}
    (h : e.advance i nowMs c o = some (c', e')) (hne : e.mutation.scope ≠ some ⟨scope⟩) :
  SameAt scope c c'
  := by
  have elsewhere {scope' : MutationScope} (hs : e.mutation.scope = some scope') :
      scope ≠ scope'.id := by
    rintro rfl
    apply hne hs
  cases takes_of_advance h with
  | poll | toScope | toBody => exact ⟨rfl, rfl⟩
  | @add pc _ _ _ hadd | @added pc _ _ hadd =>
    have hsame := sameAt_add scope c pc
    rwa [hadd] at hsame
  | body _ hb => apply (advanceBody_cases hb).1
  | subscribe _ hs => exact ⟨rfl, AList.lookup_insert_ne (elsewhere hs)⟩
  | gate _ hs hg => apply sameAt_gate hg (elsewhere hs)
  | markFinished _ hs =>
    exact ⟨by rw [canRun_markFinished, if_neg (elsewhere hs)], by rw [scopeRelease_markFinished]⟩
  | notify _ hs hn => apply sameAt_notify hn (elsewhere hs)
  | runNext _ hs hn => apply sameAt_runNext hn (elsewhere hs)

/-! ### Release cells stay alive -/

/-- Every release cell is alive. -/
def CellsAlive (c : MutationCache) : Prop :=
  ∀ scope cell, c.scopeRelease.lookup scope = some cell → cell.alive = true

theorem CellsAlive.of_same {c c' : MutationCache} (h : CellsAlive c)
    (hsame : c'.scopeRelease = c.scopeRelease) :
  CellsAlive c'
  := by
  intro scope cell hc
  rw [hsame] at hc
  apply h scope cell hc

theorem CellsAlive.insert {c c' : MutationCache} {cell : Watch.Shared Unit} (h : CellsAlive c)
    (halive : cell.alive = true) (hc : c'.scopeRelease = c.scopeRelease.insert scope cell) :
  CellsAlive c'
  := by
  intro scope' cell' hcell
  rw [hc] at hcell
  obtain ⟨-, rfl⟩ | ⟨-, hcell⟩ := Table.lookup_insert_cases hcell
  · apply halive
  · apply h scope' cell' hcell

theorem CellsAlive.subscribeScope (h : CellsAlive c) (scope : String) :
  CellsAlive (c.subscribeScope scope).1
  := by
  refine h.insert ?_ rfl
  cases hc : c.scopeRelease.lookup scope with
  | none => rfl
  | some cell => apply h scope cell hc

theorem CellsAlive.sendRelease (h : CellsAlive c) (scope : String) :
  CellsAlive (c.sendRelease scope).1
  := by
  unfold MutationCache.sendRelease
  cases hc : c.scopeRelease.lookup scope with
  | none => apply h
  | some cell =>
    have halive : (Watch.send cell ()).1.alive = true := h scope cell hc
    apply h.insert halive rfl

theorem CellsAlive.pollRelease
    {w : Watch.Watcher} {p : MutationCache × Watch.Watcher × Poll (Except Watch.ChangeError Unit)}
    (h : CellsAlive c) (hp : c.pollRelease scope w i = some p) :
  CellsAlive p.1
  := by
  obtain ⟨cell, hc, rfl⟩ := Option.map_eq_some_iff.mp hp
  have halive : (Watch.changedPoll cell w i).1.alive = true := by
    unfold Watch.changedPoll
    split
    · apply h scope cell hc
    · split
      · apply h scope cell hc
      · apply h scope cell hc
  apply h.insert halive rfl

theorem CellsAlive.of_sameAt {c' : MutationCache} (h : CellsAlive c)
    (hsame : ∀ scope, SameAt scope c c') :
  CellsAlive c'
  := by
  intro scope cell hc
  rw [(hsame scope).release] at hc
  apply h scope cell hc

theorem CellsAlive.advance
    {nowMs : Nat} {o : Outcome} {c' : MutationCache} {e' : Exec} (halive : CellsAlive c)
    (h : e.advance i nowMs c o = some (c', e')) :
  CellsAlive c'
  := by
  cases takes_of_advance h with
  | poll | toScope | toBody => apply halive
  | @add pc _ _ _ hadd | @added pc _ _ hadd =>
    have hsame := halive.of_sameAt fun scope => sameAt_add scope c pc
    rwa [hadd] at hsame
  | body _ hb => apply halive.of_sameAt fun scope => (advanceBody_cases hb).1
  | subscribe => apply halive.subscribeScope _
  | @gate pc _ _ _ _ _ hg =>
    cases pc with
    | check w =>
      cases hg
      apply halive
    | mark =>
      cases hg
      apply halive.of_same rfl
    | poll w =>
      simp only [Exec.advanceGate] at hg
      split at hg
      · next hp =>
        cases hg
        apply halive.pollRelease hp
      · next hp =>
        cases hg
        apply halive.pollRelease hp
      · contradiction
    | parked w => contradiction
  | markFinished => apply halive.of_same (scopeRelease_markFinished ..)
  | @notify pc _ scope _ _ _ _ hn =>
    cases pc with
    | lookup =>
      cases hn
      apply halive
    | send =>
      cases hn
      apply halive.sendRelease scope.id
    | wake wakers =>
      cases wakers with
      | nil =>
        cases hn
        apply halive
      | cons => contradiction
  | @runNext _ _ scope _ _ _ _ hn =>
    obtain ⟨hsame, -⟩ | ⟨rfl, -⟩ := runNext_cases hn
    · apply halive.of_sameAt hsame
    · apply halive.sendRelease scope.id

theorem CellsAlive.advanceCall
    {pc : CallPc} {c' : MutationCache} {pc' : Option CallPc} (halive : CellsAlive c)
    (h : pc.advance c = some (c', pc')) :
  CellsAlive c'
  := by
  cases pc with
  | add pc =>
    cases h
    apply halive.of_sameAt fun scope => sameAt_add scope c pc
  | remove id =>
    have hsame : CellsAlive (c.removeEntry id).1 := halive.of_same rfl
    simp only [CallPc.advance] at h
    split at h
    · next heq =>
      cases h
      rw [heq] at hsame
      apply hsame
    · next heq =>
      cases h
      rw [heq] at hsame
      apply hsame
  | runNext scope pc =>
    obtain ⟨⟨c'', pc''⟩, hn, heq⟩ := Option.map_eq_some_iff.mp h
    cases heq
    obtain ⟨hsame, -⟩ | ⟨rfl, -⟩ := runNext_cases hn
    · apply halive.of_sameAt hsame
    · apply halive.sendRelease scope
  | cleared ids =>
    cases ids with
    | nil =>
      cases h
      apply halive.of_same rfl
    | cons =>
      cases h
      apply halive.of_same rfl
  | _ =>
    cases h
    apply halive.of_same rfl

theorem CellsAlive.step (halive : CellsAlive s.cache) (h : s.step a = some s') :
  CellsAlive s'.cache
  := by
  cases a with
  | submit i m =>
    obtain ⟨-, rfl⟩ := step_submit h
    apply halive
  | advance i o =>
    obtain ⟨e, c, e', -, ha, rfl⟩ := step_advance h
    apply halive.advance ha
  | resume i =>
    obtain ⟨e, w, -, -, rfl⟩ := step_resume h
    apply halive
  | abandon i =>
    obtain ⟨e, -, -, rfl⟩ := step_abandon h
    apply halive
  | wake i w =>
    obtain ⟨e, -, -, rfl⟩ := step_wake h
    apply halive
  | advanceCall j =>
    obtain ⟨pc, c, pc', -, ha, rfl⟩ := step_advanceCall h
    apply halive.advanceCall ha
  | wakeCall j w =>
    obtain ⟨pc, -, -, rfl⟩ := step_wakeCall h
    apply halive
  | tick n =>
    obtain rfl := Option.some.inj h
    apply halive
  | _ =>
    obtain ⟨-, rfl⟩ := start_eq_some h
    apply halive

theorem cellsAlive_of_run {ok : Mutations → Action → Prop} (h : machine.Run ok s) :
  CellsAlive s.cache
  := by
  apply h.invariant
  · rintro s rfl
    exact nofun
  · exact fun s a s' _ halive _ hs => halive.step hs

end Mutations

end RsQuery
