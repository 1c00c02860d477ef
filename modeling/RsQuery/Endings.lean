import RsQuery.Lifecycle

/-!
# How an execution of a mutation ends

An execution that is not dropped, and whose entry is not removed, can always go on to its
end by its own steps, unless it waits at the gate for its scope; and where it has ended,
it has done what is documented.
-/

namespace RsQuery

namespace Mutations

/-! ### How far it is to the end -/

def NotifyPc.rank : NotifyPc → Nat
  | .wake _ => 0
  | .send => 1
  | .lookup => 2

def RunNextPc.rank : RunNextPc → Nat
  | .notify pc => pc.rank
  | .resumed => 3
  | .pop => 4

def BodyPc.rank (retry : Nat) : BodyPc → Nat
  | .callbacks _ => 0
  | .settled _ => 1
  | .settle _ => 2
  | .rollback _ => 3
  | .mutateFn n _ => 2 * (retry - n) + 4
  | .sleeping n _ => 2 * (retry - n) + 5
  | .keptContext => 2 * retry + 5
  | .keepContext => 2 * retry + 6
  | .onMutate => 2 * retry + 7
  | .unpaused => 2 * retry + 8
  | .unpause => 2 * retry + 9
  | .readPaused => 2 * retry + 10

def GatePc.rank : GatePc → Nat
  | .mark | .poll _ | .parked _ => 0
  | .check _ => 1

def AddPc.rank : AddPc → Nat
  | .announce _ => 0
  | .hook _ => 1
  | .push _ => 2
  | .join _ => 3
  | .assign _ => 4

/-- At most how many steps it is from here to the end, where nobody is to be woken. -/
def Pc.rank (retry : Nat) : Pc → Nat
  | .done _ | .dropped => 0
  | .runNext pc _ => pc.rank + 1
  | .notify pc _ => pc.rank + 6
  | .markFinished _ => 9
  | .body pc => pc.rank retry + 10
  | .gate pc => 2 * retry + pc.rank + 21
  | .subscribe => 2 * retry + 23
  | .fireOnMutate => 2 * retry + 24
  | .add pc => 2 * retry + pc.rank + 25
  | .queued => 2 * retry + 30

/-- It waits at the gate for its scope. -/
def Waits (e : Exec) (c : MutationCache) : Prop :=
  match e.pc, e.mutation.scope with
  | .gate (.check _), some scope => c.canRun scope.id = false
  | .gate (.poll _), _ | .gate (.parked _), _ => True
  | _, _ => False

/-- What the functions of the execution return next. -/
def driven (onMutate : Result) (outcomes : Stream' Result) (e : Exec) : Outcome :=
  match e.pc with
  | .body .onMutate => if e.mutation.hasOnMutate then .ready onMutate else .next
  | .body (.mutateFn n _) => .ready (outcomes.get n)
  | _ => .next

section Ends

variable {h : Hooks} {i : Nat} {onMutate : Result} {outcomes : Stream' Result}
  {t t' : Mutations × List Event} {e e' : Exec} {c c' : MutationCache} {log : List Event}

theorem fed_driven (onMutate : Result) (outcomes : Stream' Result) (e : Exec) :
  Fed onMutate outcomes e (driven onMutate outcomes e)
  := by
  unfold Fed driven
  split
  · next hpc hresult =>
    rw [hpc] at hresult
    dsimp only at hresult
    split at hresult
    · apply (Outcome.ready.inj hresult).symm
    · contradiction
  · next hpc hresult =>
    rw [hpc] at hresult
    apply (Outcome.ready.inj hresult).symm
  · trivial

/-- An update of the entry, found or not. -/
theorem rank_update
    {apply : MutationCacheEntry → MutationCacheEntry} {n : Nat} {found missing : BodyPc}
    (hfound : found.rank e.mutation.retry < n) (hmissing : missing.rank e.mutation.retry < n) :
  ∃ c' pc, some (e.update c apply found missing) = some (c', pc) ∧
    pc.rank e.mutation.retry < n + 10
  := by
  refine ⟨_, _, rfl, ?_⟩
  simp only [Pc.rank]
  split
  · omega
  · omega

theorem NotifyPc.rank_advance
    (c : MutationCache) (scope : String) {pc : NotifyPc} (hhand : pc.hand = []) :
  ∃ c' pc', pc.advance scope c = some (c', pc') ∧ pc'.elim 0 (·.rank + 1) ≤ pc.rank
  := by
  cases pc with
  | lookup =>
    refine ⟨_, _, rfl, ?_⟩
    split
    · apply Nat.le_refl 2
    · apply Nat.zero_le 2
  | send => exact ⟨_, _, rfl, Nat.le_refl 1⟩
  | wake wakers =>
    obtain rfl : wakers = [] := hhand
    exact ⟨_, _, rfl, Nat.le_refl 0⟩

theorem RunNextPc.rank_advance
    (c : MutationCache) (scope : String) {pc : RunNextPc} (hhand : pc.hand = []) :
  ∃ c' pc', pc.advance scope c = some (c', pc') ∧ pc'.elim 0 (·.rank + 1) ≤ pc.rank
  := by
  cases pc with
  | pop =>
    refine ⟨_, if (c.popNext scope).2.isSome then some .resumed else none, rfl, ?_⟩
    cases (c.popNext scope).2.isSome with
    | true => apply Nat.le_refl 4
    | false => apply Nat.zero_le 4
  | resumed => exact ⟨_, _, rfl, Nat.le_refl 3⟩
  | notify pc =>
    obtain ⟨c', pc', hadvance, hrank⟩ := NotifyPc.rank_advance c scope hhand
    refine ⟨c', pc'.map .notify, ?_, ?_⟩
    · simp only [advance, hadvance, Option.map_some]
    · cases pc' with
      | none => apply hrank
      | some pc' => apply hrank

/-- A step of an execution that runs. -/
theorem rank_advanceBody
    {b : BodyPc} (hpc : e.pc = .body b) (hat : At h onMutate outcomes e c log) :
  ∃ c' pc, e.advanceBody c b (driven onMutate outcomes e) = some (c', pc) ∧
    pc.rank e.mutation.retry < b.rank e.mutation.retry + 10
  := by
  cases b with
  | readPaused =>
    simp only [driven, hpc]
    refine ⟨_, _, rfl, ?_⟩
    split
    · simp [Pc.rank, BodyPc.rank]
    · simp [Pc.rank, BodyPc.rank]
  | unpause =>
    simp only [driven, hpc]
    apply rank_update
    · simp [BodyPc.rank]
    · simp [BodyPc.rank]
  | unpaused =>
    simp only [driven, hpc]
    refine ⟨_, _, rfl, ?_⟩
    simp [Pc.rank, BodyPc.rank]
  | onMutate =>
    simp only [driven, hpc]
    cases hhook : e.mutation.hasOnMutate with
    | false =>
      refine ⟨c, .body (.mutateFn 0 false), ?_, ?_⟩
      · simp [Exec.advanceBody, hhook]
      · simp [Pc.rank, BodyPc.rank]
    | true =>
      cases onMutate with
      | ok =>
        refine ⟨c, .body .keepContext, ?_, ?_⟩
        · simp [Exec.advanceBody, hhook]
        · simp [Pc.rank, BodyPc.rank]
      | error error =>
        refine ⟨c, .body (.settle (.error error)), ?_, ?_⟩
        · simp [Exec.advanceBody, hhook]
        · simp only [Pc.rank, BodyPc.rank]
          omega
  | keepContext =>
    simp only [driven, hpc]
    apply rank_update
    · simp [BodyPc.rank]
    · simp [BodyPc.rank]
  | keptContext =>
    simp only [driven, hpc]
    refine ⟨_, _, rfl, ?_⟩
    simp [Pc.rank, BodyPc.rank]
  | mutateFn n rollback =>
    simp only [At, hpc] at hat
    obtain ⟨-, -, hn, -⟩ := hat
    simp only [driven, hpc]
    cases outcomes.get n with
    | ok =>
      refine ⟨_, _, rfl, ?_⟩
      simp only [Pc.rank, BodyPc.rank]
      omega
    | error error =>
      simp only [Exec.advanceBody]
      split
      · refine ⟨_, _, rfl, ?_⟩
        simp only [Pc.rank, BodyPc.rank]
        omega
      · split
        · refine ⟨_, _, rfl, ?_⟩
          simp only [Pc.rank, BodyPc.rank]
          omega
        · refine ⟨_, _, rfl, ?_⟩
          simp only [Pc.rank, BodyPc.rank]
          omega
  | sleeping n rollback =>
    simp only [driven, hpc]
    refine ⟨_, _, rfl, ?_⟩
    simp [Pc.rank, BodyPc.rank]
  | rollback error =>
    simp only [driven, hpc]
    refine ⟨_, _, rfl, ?_⟩
    simp [Pc.rank, BodyPc.rank]
  | settle result =>
    simp only [driven, hpc]
    apply rank_update
    · simp [BodyPc.rank]
    · simp [BodyPc.rank]
  | settled result =>
    simp only [driven, hpc]
    refine ⟨_, _, rfl, ?_⟩
    simp [Pc.rank, BodyPc.rank]
  | callbacks result =>
    simp only [driven, hpc]
    refine ⟨_, _, rfl, ?_⟩
    split
    · simp [Pc.rank, BodyPc.rank]
    · simp [Pc.rank, BodyPc.rank]

/-- An execution that has not ended and does not wait can advance, unless it has somebody
to wake. -/
theorem rank_advance
    (i nowMs : Nat) (hat : At h onMutate outcomes e c log) (hwaits : ¬ Waits e c)
    (hdone : ∀ result, e.pc ≠ .done result) (hhand : e.pc.hand = []) :
  ∃ c' pc id,
    e.advance i nowMs c (driven onMutate outcomes e)
      = some (c', { e with entryId := id, pc := pc }) ∧
    pc.rank e.mutation.retry < e.pc.rank e.mutation.retry
  := by
  have hscoped {scope : Option MutationScope} (hsome : scope.isSome = true) :
      ∃ s, scope = some s := Option.isSome_iff_exists.mp hsome
  cases hpc : e.pc with
  | queued =>
    simp only [Exec.advance, hpc]
    refine ⟨_, _, _, rfl, ?_⟩
    simp [Pc.rank, AddPc.rank]
  | add pc =>
    simp only [Exec.advance, hpc]
    cases pc with
    | join entry =>
      cases hscope : entry.scope with
      | none =>
        simp only [AddPc.advance, hscope]
        refine ⟨_, _, _, rfl, ?_⟩
        simp [Pc.rank, AddPc.rank]
      | some scope =>
        simp only [AddPc.advance, hscope]
        refine ⟨_, _, _, rfl, ?_⟩
        simp [Pc.rank, AddPc.rank]
    | announce id =>
      refine ⟨_, _, e.entryId, rfl, ?_⟩
      simp [Pc.rank, AddPc.rank]
    | _ =>
      refine ⟨_, _, _, rfl, ?_⟩
      simp [Pc.rank, AddPc.rank]
  | fireOnMutate =>
    simp only [Exec.advance, hpc]
    refine ⟨_, _, _, rfl, ?_⟩
    split
    · simp [Pc.rank]
    · simp [Pc.rank, BodyPc.rank]
  | subscribe =>
    simp only [At, hpc] at hat
    obtain ⟨scope, hscope⟩ := hscoped hat.2.2
    simp only [Exec.advance, hpc, hscope]
    refine ⟨_, _, _, rfl, ?_⟩
    simp [Pc.rank, GatePc.rank]
  | gate pc =>
    simp only [At, hpc] at hat
    obtain ⟨scope, hscope⟩ := hscoped hat.2.2
    cases pc with
    | check watcher =>
      have hcan : c.canRun scope.id = true := by
        simpa [Waits, hpc, hscope] using hwaits
      simp only [Exec.advance, hpc, hscope, Exec.advanceGate, hcan]
      refine ⟨_, _, _, rfl, ?_⟩
      simp [Pc.rank, GatePc.rank]
    | mark =>
      simp only [Exec.advance, hpc, hscope]
      refine ⟨_, _, _, rfl, ?_⟩
      simp [Pc.rank, GatePc.rank, BodyPc.rank]
    | poll watcher => simp [Waits, hpc] at hwaits
    | parked watcher => simp [Waits, hpc] at hwaits
  | body b =>
    obtain ⟨c', pc, hadvance, hrank⟩ := rank_advanceBody hpc hat
    refine ⟨c', pc, e.entryId, ?_, hrank⟩
    simp only [Exec.advance, hpc, hadvance, Option.map_some]
  | markFinished result =>
    simp only [At, hpc] at hat
    obtain ⟨scope, hscope⟩ := hscoped hat.2.2
    simp only [Exec.advance, hpc, hscope]
    refine ⟨_, _, _, rfl, ?_⟩
    simp [Pc.rank, NotifyPc.rank]
  | notify pc result =>
    simp only [At, hpc] at hat
    obtain ⟨scope, hscope⟩ := hscoped hat.2.2
    rw [hpc] at hhand
    obtain ⟨c', pc', hadvance, hrank⟩ := NotifyPc.rank_advance c scope.id hhand
    simp only [Exec.advance, hpc, hscope, hadvance, Option.map_some]
    refine ⟨_, _, _, rfl, ?_⟩
    cases pc' with
    | none => simp [Pc.rank, RunNextPc.rank]
    | some pc' =>
      simp only [Option.elim_some] at hrank ⊢
      simp only [Pc.rank]
      omega
  | runNext pc result =>
    simp only [At, hpc] at hat
    obtain ⟨scope, hscope⟩ := hscoped hat.2.2
    rw [hpc] at hhand
    obtain ⟨c', pc', hadvance, hrank⟩ := RunNextPc.rank_advance c scope.id hhand
    simp only [Exec.advance, hpc, hscope, hadvance, Option.map_some]
    refine ⟨_, _, _, rfl, ?_⟩
    cases pc' with
    | none => simp [Pc.rank]
    | some pc' =>
      simp only [Option.elim_some] at hrank ⊢
      simp only [Pc.rank]
      omega
  | done result => exact absurd hpc (hdone result)
  | dropped => simp [At, hpc] at hat

theorem NotifyPc.rank_waken (pc : NotifyPc) (w : Waker) :
  (pc.waken w).rank = pc.rank
  := by
  cases pc with
  | _ => rfl

theorem Pc.rank_waken (pc : Pc) (retry : Nat) (w : Waker) :
  (pc.waken w).rank retry = pc.rank retry
  := by
  cases pc with
  | notify pc result =>
    simp only [waken, rank, NotifyPc.rank_waken]
  | runNext pc result =>
    cases pc with
    | notify pc => simp only [waken, RunNextPc.waken, rank, RunNextPc.rank, NotifyPc.rank_waken]
    | _ => rfl
  | _ => rfl

/-- By its own steps execution `i` comes to its end, or to the gate of its scope. -/
def Ends (h : Hooks) (i : Nat) (onMutate : Result) (outcomes : Stream' Result)
    (t : Mutations × List Event) : Prop :=
  ∃ as t' e', (∀ a ∈ as, a.By i) ∧
    (lifecycle h i).Meets (Regular i onMutate outcomes) t as ∧
    (lifecycle h i).exec t as = some t' ∧ t'.1.execs.lookup i = some e' ∧
    (Waits e' t'.1.cache ∨ ∃ result, e'.pc = .done result)

theorem Ends.of_step
    {a : Action} (hby : a.By i) (hok : Regular i onMutate outcomes t a)
    (hs : (lifecycle h i).step t a = some t') (hends : Ends h i onMutate outcomes t') :
  Ends h i onMutate outcomes t
  := by
  obtain ⟨as, t'', e, hown, hmeets, hexec, he, hend⟩ := hends
  refine ⟨a :: as, t'', e, List.forall_mem_cons.mpr ⟨hby, hown⟩, ⟨hok, ?_⟩, ?_, he, hend⟩
  · intro t₁ ht₁
    obtain rfl := Option.some.inj (hs.symm.trans ht₁)
    apply hmeets
  · rw [Machine.exec_cons hs]
    apply hexec

/-- Nothing keeps the execution from its end but its scope. -/
theorem Kept.ends
    {t : Mutations × List Event} {e : Exec} (hkept : Kept h i onMutate outcomes t)
    (he : t.1.execs.lookup i = some e) :
  Ends h i onMutate outcomes t
  := by
  have hat := hkept.log e he
  by_cases hwaits : Waits e t.1.cache
  · exact ⟨[], t, e, List.forall_mem_nil _, trivial, Machine.exec_nil t, he, .inl hwaits⟩
  by_cases hdone : ∃ result, e.pc = .done result
  · exact ⟨[], t, e, List.forall_mem_nil _, trivial, Machine.exec_nil t, he, .inr hdone⟩
  cases hhand : e.pc.hand with
  | nil =>
    obtain ⟨c, pc, id, hadvance, hrank⟩ :=
      rank_advance i t.1.nowMs hat hwaits (not_exists.mp hdone) hhand
    have hs : (lifecycle h i).step t (.advance i (driven onMutate outcomes e)) = some (_, _) :=
      Machine.noting_step (step_of_advance he hadvance)
    have hok : Regular i onMutate outcomes t (.advance i (driven onMutate outcomes e)) := by
      intro _ e' he'
      obtain rfl := Option.some.inj (he.symm.trans he')
      apply fed_driven onMutate outcomes e
    have hby : Action.By i (.advance i (driven onMutate outcomes e)) := rfl
    apply Ends.of_step hby hok hs
    apply Kept.ends (hkept.step hok hs) (AList.lookup_insert _)
  | cons w ws =>
    have hw : w ∈ e.pc.hand := hhand ▸ List.mem_cons_self
    have hs : (lifecycle h i).step t (.wake i w) = some (_, _) :=
      Machine.noting_step (step_of_wake he hw)
    have hok : Regular i onMutate outcomes t (.wake i w) := id
    have hby : Action.By i (.wake i w) := rfl
    apply Ends.of_step hby hok hs
    apply Kept.ends (hkept.step hok hs) (AList.lookup_insert _)
termination_by (e.pc.rank e.mutation.retry, e.pc.hand.length)
decreasing_by
  · apply Prod.Lex.left _ _ hrank
  · rw [Pc.rank_waken, Pc.hand_waken]
    apply Prod.Lex.right
    have hlength := List.length_erase_add_one hw
    omega

/-- An execution that is not dropped, and whose entry is not removed, does what is
documented, and nothing keeps it from its end but its scope. -/
theorem documented_of_run
    (hrun : (lifecycle h i).Run (Regular i onMutate outcomes) t)
    (he : t.1.execs.lookup i = some e) :
  (∀ result, e.pc = .done result →
    t.2 = documented h e.mutation onMutate outcomes ∧
      result = outcome e.mutation onMutate outcomes ∧
      ∃ entry, t.1.cache.get e.entryId = some entry ∧ Finished result entry) ∧
    Ends h i onMutate outcomes t
  := by
  have hkept := kept_of_run hrun
  constructor
  · intro result hdone
    have hat := hkept.log e he
    simp only [At, hdone] at hat
    obtain ⟨hlog, houtcome, -, entry, hentry, hsettles⟩ := hat
    exact ⟨hlog, houtcome.symm, entry, hentry, hsettles.finished⟩
  · apply hkept.ends he

end Ends

/-- The result of an execution that is done. -/
def Pc.result : Pc → Option Result
  | .done result => some result
  | _ => none

theorem Pc.result_eq_some_iff {pc : Pc} {result : Result} :
  pc.result = some result ↔ pc = .done result
  := by
  unfold Pc.result
  split
  · simp
  · next h => simpa using h result

/-- Callbacks at all levels. -/
def allHooks : Hooks where
  configOnMutate := true
  config := ⟨true, true, true⟩
  mutation := ⟨true, true, true⟩
  perCall := some ⟨true, true, true⟩
  invalidatesKeys := [.new "todos"]

/-- A mutation in a scope, with a hook and one retry, that fails and is retried. -/
theorem documented_of_run_retried :
  let outcomes := Stream'.cons (.error (.network "down")) (Stream'.const (.ok ()))
  ∃ t e, (lifecycle allHooks 0).Run (Regular 0 (.ok ()) outcomes) t ∧
    t.1.execs.lookup 0 = some e ∧ e.pc = .done (.ok ()) ∧
    t.2 = documented allHooks e.mutation (.ok ()) outcomes ∧
    t.2 = [.configOnMutate, .acquired, .onMutate (.ok ()),
      .mutateFn (.error (.network "down")), .mutateFn (.ok ()), .invalidated (.new "todos"),
      .updated (.ok ()), .callback .mutation .success, .callback .config .success,
      .callback .perCall .success, .callback .perCall .settled, .callback .mutation .settled,
      .callback .config .settled, .released]
  := by
  intro outcomes
  let m : Mutation := { scope := some ⟨"s"⟩, retry := 1, hasOnMutate := true }
  let returned : List Outcome := List.replicate 11 .next ++
    [.ready (.ok ()), .next, .next, .ready (.error (.network "down")), .next, .ready (.ok ())] ++
    List.replicate 8 .next
  let as := .submit 0 m :: returned.map (Action.advance 0)
  have meets : (lifecycle allHooks 0).Meets (Regular 0 (.ok ()) outcomes) (initial, []) as := by
    decide +kernel
  have init : (lifecycle allHooks 0).init (initial, []) := ⟨rfl, rfl⟩
  obtain ⟨t, hrun, hseen⟩ := Machine.exists_run_of_exec as
    (fun t : Mutations × List Event =>
      ((t.1.execs.lookup 0).bind (·.pc.result), t.2)) (some (.ok ()),
      [.configOnMutate, .acquired, .onMutate (.ok ()),
        .mutateFn (.error (.network "down")), .mutateFn (.ok ()), .invalidated (.new "todos"),
        .updated (.ok ()), .callback .mutation .success, .callback .config .success,
        .callback .perCall .success, .callback .perCall .settled, .callback .mutation .settled,
        .callback .config .settled, .released]) init meets (by decide +kernel)
  obtain ⟨hdone, hlog⟩ := Prod.mk.inj hseen
  obtain ⟨e, he, hresult⟩ := Option.bind_eq_some_iff.mp hdone
  have hpc : e.pc = .done (.ok ()) := Pc.result_eq_some_iff.mp hresult
  exact ⟨t, e, hrun, he, hpc, ((documented_of_run hrun he).1 _ hpc).1, hlog⟩

end Mutations

end RsQuery
