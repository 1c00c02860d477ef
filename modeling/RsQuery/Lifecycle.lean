import Mathlib.Data.Stream.Init
import RsQuery.Entries

/-!
# The lifecycle of a mutation

What an execution of a mutation does is noted beside the states of the system: the
callbacks it invokes, the calls of its functions with what they return, and when it
acquires and releases its scope.  An execution that is not dropped, and whose entry is
not removed, does exactly what the documentation of `execute_mutation_full` lists, in
that order, and leaves its entry in the state that goes with its result.

The hooks are the callbacks that are present; what they do themselves is left out.
-/

namespace RsQuery

namespace Mutations

/-- Which of three callbacks are present. -/
structure Callbacks where
  onSuccess : Bool
  onError : Bool
  onSettled : Bool

/-- The callbacks and the keys to invalidate of an execution: the config of the cache,
the mutation's own and those of the call. -/
structure Hooks where
  configOnMutate : Bool
  config : Callbacks
  mutation : Callbacks
  perCall : Option Callbacks
  invalidatesKeys : List QueryKey

/-- Where a callback comes from. -/
inductive Level where
  | mutation
  | config
  | perCall
deriving DecidableEq, Repr

/-- When a callback is invoked. -/
inductive Moment where
  | success
  | error
  | settled
deriving DecidableEq, Repr

/-- What is noted of an execution. -/
inductive Event where
  | configOnMutate
  /-- It marks its scope as running. -/
  | acquired
  | onMutate (result : Result)
  | mutateFn (result : Result)
  | rollback
  | invalidated (key : QueryKey)
  /-- It updates its entry with the result. -/
  | updated (result : Result)
  | callback (level : Level) (moment : Moment)
  /-- It marks its scope as finished. -/
  | released
deriving DecidableEq

/-- What happens if it is present. -/
def called (present : Bool) (e : Event) : List Event :=
  if present then [e] else []

namespace Hooks

/-- `fire_on_success` and its like: nothing for an unknown id. -/
def fire (present : Bool) (c : MutationCache) (id : Nat) (e : Event) : List Event :=
  called (present && (c.get id).isSome) e

/-- The callbacks of `settle_mutation_success`. -/
def settleSuccess (h : Hooks) (c : MutationCache) (id : Nat) : List Event :=
  called h.mutation.onSuccess (.callback .mutation .success) ++
  fire h.config.onSuccess c id (.callback .config .success) ++
  h.perCall.elim [] (fun options =>
    called options.onSuccess (.callback .perCall .success) ++
    called options.onSettled (.callback .perCall .settled)) ++
  called h.mutation.onSettled (.callback .mutation .settled) ++
  fire h.config.onSettled c id (.callback .config .settled)

/-- The callbacks of `settle_mutation_error`. -/
def settleError (h : Hooks) (c : MutationCache) (id : Nat) : List Event :=
  called h.mutation.onError (.callback .mutation .error) ++
  fire h.config.onError c id (.callback .config .error) ++
  h.perCall.elim [] (fun options =>
    called options.onError (.callback .perCall .error) ++
    called options.onSettled (.callback .perCall .settled)) ++
  called h.mutation.onSettled (.callback .mutation .settled) ++
  fire h.config.onSettled c id (.callback .config .settled)

end Hooks

/-- What an advance of an execution adds to its log. -/
def Exec.traced (h : Hooks) (e : Exec) (c : MutationCache) (o : Outcome) : List Event :=
  match e.pc, o with
  | .fireOnMutate, _ => Hooks.fire h.configOnMutate c e.entryId .configOnMutate
  | .gate .mark, _ => [.acquired]
  | .body .onMutate, .ready result => [.onMutate result]
  | .body (.mutateFn _ _), .ready result => [.mutateFn result]
  | .body (.rollback _), _ => [.rollback]
  | .body (.settle (.ok data)), _ => h.invalidatesKeys.map .invalidated ++ [.updated (.ok data)]
  | .body (.settle (.error error)), _ => [.updated (.error error)]
  | .body (.callbacks (.ok _)), _ => h.settleSuccess c e.entryId
  | .body (.callbacks (.error _)), _ => h.settleError c e.entryId
  | .markFinished _, _ => [.released]
  | _, _ => []

theorem traced_of_pc_add
    {h : Hooks} {e : Exec} {c : MutationCache} {o : Outcome} {pc : AddPc} (hpc : e.pc = .add pc) :
  e.traced h c o = []
  := by
  simp [Exec.traced, hpc]

/-- What a step adds to the log of execution `i`. -/
def traced (h : Hooks) (i : Nat) (s : Mutations) (a : Action) (_ : Mutations) : List Event :=
  match a with
  | .advance j o => if j = i then (s.execs.lookup i).elim [] fun e => e.traced h s.cache o else []
  | _ => []

/-- The system with the log of execution `i`. -/
def lifecycle (h : Hooks) (i : Nat) : Machine (Mutations × List Event) Action :=
  machine.noting (traced h i)

/-! ### The documented order -/

/-- The callback is present. -/
def Hooks.has (h : Hooks) (level : Level) (moment : Moment) : Bool :=
  let callbacks :=
    match level with
    | .mutation => some h.mutation
    | .config => some h.config
    | .perCall => h.perCall
  callbacks.any fun callbacks =>
    match moment with
    | .success => callbacks.onSuccess
    | .error => callbacks.onError
    | .settled => callbacks.onSettled

/-- The callbacks of a success or an error, in order. -/
def Hooks.callbacks (h : Hooks) (moment : Moment) : List Event :=
  let order :=
    [(.mutation, moment), (.config, moment), (.perCall, moment), (.perCall, .settled),
      (.mutation, .settled), (.config, .settled)]
  (order.filter fun c => h.has c.1 c.2).map fun c => .callback c.1 c.2

/-- The mutation has an `on_mutate` hook, and it fails. -/
def onMutateFails (m : Mutation) (onMutate : Result) : Bool :=
  m.hasOnMutate && !onMutate.isOk

section Documented

variable (h : Hooks) (m : Mutation) (onMutate : Result) (outcomes : Stream' Result)

/-- How often the mutate function is called: up to its first success, but at most once
more than there are retries. -/
def attempts : Nat :=
  if onMutateFails m onMutate then 0
  else min ((outcomes.take (m.retry + 1)).findIdx Except.isOk + 1) (m.retry + 1)

/-- What the execution returns. -/
def outcome : Result :=
  if onMutateFails m onMutate then onMutate else outcomes.get (attempts m onMutate outcomes - 1)

/-- The documented order of what the execution does until it calls the mutate function. -/
def prepared : List Event :=
  called h.configOnMutate .configOnMutate ++
  called m.scope.isSome .acquired ++
  called m.hasOnMutate (.onMutate onMutate)

/-- The documented order of what the execution does once it has a result. -/
def settlement : Result → List Event
  | .ok data =>
    h.invalidatesKeys.map .invalidated ++ [.updated (.ok data)] ++ h.callbacks .success
  | .error error =>
    called (m.hasOnMutate && onMutate.isOk) .rollback ++ [.updated (.error error)] ++
      h.callbacks .error

/-- The documented trace, where `on_mutate` and the mutate function return `onMutate` and
`outcomes`. -/
def documented : List Event :=
  prepared h m onMutate ++
  (outcomes.take (attempts m onMutate outcomes)).map .mutateFn ++
  settlement h m onMutate (outcome m onMutate outcomes) ++
  called m.scope.isSome .released

end Documented

/-! ### The callbacks and the attempts -/

theorem filter_map_cons
    {α : Type*} (p : α → Bool) (f : α → Event) (x : α) (xs : List α) :
  ((x :: xs).filter p).map f = called (p x) (f x) ++ (xs.filter p).map f
  := by
  cases hx : p x with
  | true => simp [called, hx]
  | false => simp [called, hx]

theorem Hooks.settleSuccess_eq
    (h : Hooks) {c : MutationCache} {id : Nat} (hid : (c.get id).isSome = true) :
  h.settleSuccess c id = h.callbacks .success
  := by
  simp only [callbacks, filter_map_cons, settleSuccess, fire, hid, has]
  cases h.perCall with
  | none => simp [called]
  | some options => simp

theorem Hooks.settleError_eq
    (h : Hooks) {c : MutationCache} {id : Nat} (hid : (c.get id).isSome = true) :
  h.settleError c id = h.callbacks .error
  := by
  simp only [callbacks, filter_map_cons, settleError, fire, hid, has]
  cases h.perCall with
  | none => simp [called]
  | some options => simp

section Attempts

variable {m : Mutation} {onMutate : Result} {outcomes : Stream' Result} {n : Nat}

theorem attempts_of_ok
    (hm : onMutateFails m onMutate = false) (hn : n ≤ m.retry)
    (hfailed : ∀ k, k < n → (outcomes.get k).isOk = false) (hok : (outcomes.get n).isOk = true) :
  attempts m onMutate outcomes = n + 1
  := by
  have hlength : n < (outcomes.take (m.retry + 1)).length := by
    rw [Stream'.length_take]
    omega
  have hindex : (outcomes.take (m.retry + 1)).findIdx Except.isOk = n := by
    rw [List.findIdx_eq hlength, Stream'.take_get]
    use hok
    intro k hk
    rw [Stream'.take_get]
    apply hfailed k hk
  rw [attempts, hm, hindex]
  simp only [Bool.false_eq_true, if_false]
  omega

theorem attempts_of_failed
    (hm : onMutateFails m onMutate = false)
    (hfailed : ∀ k, k ≤ m.retry → (outcomes.get k).isOk = false) :
  attempts m onMutate outcomes = m.retry + 1
  := by
  have hindex : (outcomes.take (m.retry + 1)).findIdx Except.isOk = m.retry + 1 := by
    rw [List.findIdx_eq_length_of_false, Stream'.length_take]
    intro result hresult
    obtain ⟨k, hk, rfl⟩ := List.getElem_of_mem hresult
    rw [Stream'.take_get]
    rw [Stream'.length_take] at hk
    apply hfailed k (Nat.le_of_lt_succ hk)
  rw [attempts, hm, hindex]
  simp

end Attempts

/-! ### Along the execution -/

/-- The entry goes with the result. -/
def Settles (result : Result) (entry : MutationCacheEntry) : Prop :=
  entry.isPaused = false ∧
    match result with
    | .ok _ => entry.status = .success ∧ entry.hasResult = true ∧ entry.error = none
    | .error error => entry.status = .error ∧ entry.hasResult = false ∧ entry.error = some error

section Along

variable (h : Hooks) (onMutate : Result) (outcomes : Stream' Result)

/-- The entry of the execution is in the cache. -/
def InCache (e : Exec) (c : MutationCache) : Prop :=
  e.entryId ≠ 0 ∧ (c.get e.entryId).isSome = true

/-- The entry of the execution is in the cache and goes with the result, which is the
one the execution should have. -/
def Final (e : Exec) (c : MutationCache) (result : Result) : Prop :=
  outcome e.mutation onMutate outcomes = result ∧ e.entryId ≠ 0 ∧
    ∃ entry, c.get e.entryId = some entry ∧ Settles result entry

/-- The documented trace up to the settlement. -/
def tried (m : Mutation) (n : Nat) : List Event :=
  prepared h m onMutate ++ (outcomes.take n).map .mutateFn

/-- What the log of an execution should be, by where it stands. -/
def At (e : Exec) (c : MutationCache) (log : List Event) : Prop :=
  let m := e.mutation
  let n := attempts m onMutate outcomes
  match e.pc with
  | .queued | .add (.assign _) => log = []
  | .add (.join _) | .add (.push _) => log = [] ∧ e.entryId ≠ 0 ∧ c.get e.entryId = none
  | .add (.hook _) | .add (.announce _) | .fireOnMutate => log = [] ∧ InCache e c
  | .subscribe | .gate _ =>
    log = called h.configOnMutate .configOnMutate ∧ InCache e c ∧ m.scope.isSome = true
  | .body .readPaused | .body .unpause | .body .unpaused | .body .onMutate =>
    log = called h.configOnMutate .configOnMutate ++ called m.scope.isSome .acquired ∧ InCache e c
  | .body .keepContext | .body .keptContext =>
    log = prepared h m onMutate ∧ InCache e c ∧ m.hasOnMutate = true ∧ onMutate.isOk = true
  | .body (.mutateFn k rollback) | .body (.sleeping k rollback) =>
    log = tried h onMutate outcomes m k ∧ InCache e c ∧ k ≤ m.retry ∧
      (∀ j, j < k → (outcomes.get j).isOk = false) ∧ rollback = m.hasOnMutate ∧
      onMutateFails m onMutate = false
  | .body (.rollback error) =>
    log = tried h onMutate outcomes m n ∧ InCache e c ∧
      outcome m onMutate outcomes = .error error ∧ (m.hasOnMutate && onMutate.isOk) = true
  | .body (.settle (.ok _)) =>
    log = tried h onMutate outcomes m n ∧ InCache e c ∧ outcome m onMutate outcomes = .ok ()
  | .body (.settle (.error error)) =>
    log = tried h onMutate outcomes m n ++ called (m.hasOnMutate && onMutate.isOk) .rollback ∧
      InCache e c ∧ outcome m onMutate outcomes = .error error
  | .body (.settled (.ok _)) | .body (.callbacks (.ok _)) =>
    log = tried h onMutate outcomes m n ++
        (h.invalidatesKeys.map .invalidated ++ [.updated (.ok ())]) ∧
      Final onMutate outcomes e c (.ok ())
  | .body (.settled (.error error)) | .body (.callbacks (.error error)) =>
    log = tried h onMutate outcomes m n ++
        (called (m.hasOnMutate && onMutate.isOk) .rollback ++ [.updated (.error error)]) ∧
      Final onMutate outcomes e c (.error error)
  | .markFinished result =>
    log = tried h onMutate outcomes m n ++ settlement h m onMutate result ∧
      Final onMutate outcomes e c result ∧ m.scope.isSome = true
  | .notify _ result | .runNext _ result =>
    log = documented h m onMutate outcomes ∧ Final onMutate outcomes e c result ∧
      m.scope.isSome = true
  | .done result => log = documented h m onMutate outcomes ∧ Final onMutate outcomes e c result
  | .dropped => False

/-- The functions of the execution return what they should. -/
def Fed (e : Exec) (o : Outcome) : Prop :=
  match e.pc, o with
  | .body .onMutate, .ready result => result = onMutate
  | .body (.mutateFn n _), .ready result => result = outcomes.get n
  | _, _ => True

end Along

section Steps

variable {h : Hooks} {onMutate : Result} {outcomes : Stream' Result} {e e' : Exec}
  {c c' : MutationCache} {log : List Event} {o : Outcome} {i nowMs : Nat}

theorem settles_settled (result : Result) (entry : MutationCacheEntry) :
  Settles result (Exec.settled result entry)
  := by
  cases result with
  | ok => exact ⟨rfl, rfl, rfl, rfl⟩
  | error => exact ⟨rfl, rfl, rfl, rfl⟩

theorem InCache.of_get (hin : InCache e c) (hget : c'.get e.entryId = c.get e.entryId) :
  InCache e c'
  := ⟨hin.1, hget ▸ hin.2⟩

theorem Final.of_get
    {result : Result} (hf : Final onMutate outcomes e c result)
    (hget : c'.get e.entryId = c.get e.entryId) :
  Final onMutate outcomes e c' result
  := by
  obtain ⟨houtcome, hid, hentry⟩ := hf
  rw [← hget] at hentry
  exact ⟨houtcome, hid, hentry⟩

/-- An update of an entry in the cache finds it. -/
theorem InCache.of_update
    {apply : MutationCacheEntry → MutationCacheEntry} {found missing : BodyPc} {pc : Pc}
    (hin : InCache e c) (hupdate : e.update c apply found missing = (c', pc))
    (hid : ∀ entry, (apply entry).id = entry.id) :
  pc = .body found ∧ c'.get e.entryId = (c.get e.entryId).map apply
  := by
  have hfound : (c.updateEntry e.entryId apply).2 = true := by
    have := hin.2
    simp only [MutationCache.get, List.find?_isSome] at this
    simpa [MutationCache.updateEntry] using this
  have hget := MutationCache.get_updateEntry (c := c) (k := e.entryId) (i := e.entryId) hid
  simp only [Exec.update, hfound, if_true] at hupdate
  obtain ⟨rfl, rfl⟩ := Prod.mk.inj hupdate
  rw [if_pos rfl] at hget
  exact ⟨rfl, hget⟩

/-- Where nothing is noted, the entry is what matters of the cache. -/
theorem At.of_get
    (hat : At h onMutate outcomes e c log)
    (hget : e.entryId ≠ 0 → c'.get e.entryId = c.get e.entryId) :
  At h onMutate outcomes e c' log
  := by
  have incache (hin : InCache e c) : InCache e c' := hin.of_get (hget hin.1)
  have final {result : Result} (hf : Final onMutate outcomes e c result) :
      Final onMutate outcomes e c' result := hf.of_get (hget hf.2.1)
  unfold At at hat ⊢
  split at hat
  all_goals try exact hat
  all_goals try exact hat.imp_right incache
  all_goals try exact hat.imp_right final
  all_goals try exact hat.imp_right (And.imp_left incache)
  all_goals try exact hat.imp_right (And.imp_left final)
  all_goals exact ⟨hat.1, hat.2.1, (hget hat.2.1).trans hat.2.2⟩

/-- The first call of the mutate function. -/
theorem at_mutateFn
    {rollback : Bool} (hlog : log = prepared h e.mutation onMutate) (hin : InCache e c)
    (hrollback : rollback = e.mutation.hasOnMutate)
    (hfails : onMutateFails e.mutation onMutate = false) :
  At h onMutate outcomes { e with pc := .body (.mutateFn 0 rollback) } c log
  := by
  refine ⟨?_, hin, Nat.zero_le _, nofun, hrollback, hfails⟩
  rw [hlog, tried, Stream'.take_zero, List.map_nil, List.append_nil]

/-- `on_mutate` returns, or there is none. -/
theorem At.advance_onMutate
    {pc : Pc} (hpc : e.pc = .body .onMutate) (hfed : Fed onMutate outcomes e o)
    (hat : At h onMutate outcomes e c log)
    (ha : e.advanceBody c .onMutate o = some (c', pc)) :
  At h onMutate outcomes { e with pc := pc } c' (log ++ e.traced h c o)
  := by
  simp only [At, hpc] at hat
  obtain ⟨hlog, hin⟩ := hat
  have hprepared (result : Result) (hhook : e.mutation.hasOnMutate = true) :
      log ++ e.traced h c (.ready result) = prepared h e.mutation result := by
    simp [hlog, prepared, Exec.traced, hpc, hhook, called]
  cases takes_of_advanceBody ha with
  | noHook hhook =>
    simp only [Exec.traced, hpc, List.append_nil]
    apply at_mutateFn _ hin hhook.symm
    · simp [onMutateFails, hhook]
    · simp [hlog, prepared, hhook, called]
  | hook hhook =>
    simp only [Fed, hpc] at hfed
    subst hfed
    rw [hprepared _ hhook]
    exact ⟨rfl, hin, hhook, rfl⟩
  | @hookFails error hhook =>
    simp only [Fed, hpc] at hfed
    subst hfed
    rw [hprepared _ hhook]
    have hfails : onMutateFails e.mutation (.error error) = true := by
      simp [onMutateFails, hhook, Except.isOk, Except.toBool]
    refine ⟨?_, hin, ?_⟩
    · simp [tried, attempts, hfails, called, Except.isOk, Except.toBool]
    · simp [outcome, hfails]

/-- The mutate function returns. -/
theorem At.advance_mutateFn
    {pc : Pc} {n : Nat} {rollback : Bool} (hpc : e.pc = .body (.mutateFn n rollback))
    (hfed : Fed onMutate outcomes e o) (hat : At h onMutate outcomes e c log)
    (ha : e.advanceBody c (.mutateFn n rollback) o = some (c', pc)) :
  At h onMutate outcomes { e with pc := pc } c' (log ++ e.traced h c o)
  := by
  simp only [At, hpc] at hat
  obtain ⟨hlog, hin, hn, hfailed, hrollback, hfails⟩ := hat
  have hlog' (hfed : .ready (outcomes.get n) = o) :
      log ++ e.traced h c o = tried h onMutate outcomes e.mutation (n + 1) := by
    rw [hlog, tried, tried, ← Stream'.concat_take_get, List.map_append, List.append_assoc, ← hfed]
    simp [Exec.traced, hpc]
  have failed {error : QueryError} (hfed : .error error = outcomes.get n) (k : Nat)
      (hk : k < n + 1) : (outcomes.get k).isOk = false := by
    obtain hk | rfl := Nat.lt_succ_iff_lt_or_eq.mp hk
    · apply hfailed k hk
    · rw [← hfed]
      rfl
  -- no retries are left
  have last {error : QueryError} (hfed : .error error = outcomes.get n)
      (hge : ¬ n < e.mutation.retry) :
      n + 1 = attempts e.mutation onMutate outcomes ∧
        outcome e.mutation onMutate outcomes = .error error := by
    obtain rfl : n = e.mutation.retry := by omega
    have hattempts := attempts_of_failed hfails
      fun k hk => failed hfed k (Nat.lt_succ_of_le hk)
    exact ⟨hattempts.symm, by simp [outcome, hfails, hattempts, ← hfed]⟩
  have hok : (e.mutation.hasOnMutate && onMutate.isOk) = rollback := by
    rw [hrollback]
    cases hhook : e.mutation.hasOnMutate with
    | false => rfl
    | true => simpa [onMutateFails, hhook] using hfails
  simp only [Fed, hpc] at hfed
  cases takes_of_advanceBody ha with
  | mutated =>
    rw [hlog' (by rw [← hfed])]
    have hsuccess : (outcomes.get n).isOk = true := by
      rw [← hfed]
      rfl
    have hattempts := attempts_of_ok hfails hn hfailed hsuccess
    refine ⟨?_, hin, ?_⟩
    · rw [hattempts]
    · simp [outcome, hfails, hattempts, ← hfed]
  | retry hlt =>
    rw [hlog' (by rw [← hfed])]
    exact ⟨rfl, hin, hlt, failed hfed, hrollback, hfails⟩
  | rollBack hge =>
    rw [hlog' (by rw [← hfed])]
    obtain ⟨hattempts, houtcome⟩ := last hfed hge
    refine ⟨?_, hin, houtcome, hok⟩
    rw [hattempts]
  | giveUp hge =>
    rw [hlog' (by rw [← hfed])]
    obtain ⟨hattempts, houtcome⟩ := last hfed hge
    refine ⟨?_, hin, houtcome⟩
    simp [hattempts, hok, called]

/-- The callbacks settle the execution. -/
theorem At.callbacks
    {result : Result} (hpc : e.pc = .body (.callbacks result))
    (hat : At h onMutate outcomes e c log) :
  log ++ e.traced h c .next
      = tried h onMutate outcomes e.mutation (attempts e.mutation onMutate outcomes) ++
        settlement h e.mutation onMutate result ∧
    Final onMutate outcomes e c result
  := by
  cases result with
  | ok =>
    simp only [At, hpc] at hat
    obtain ⟨hlog, hf⟩ := hat
    obtain ⟨-, -, entry, hentry, -⟩ := id hf
    constructor
    · simp [Exec.traced, hpc, hlog, settlement, h.settleSuccess_eq, hentry]
    · apply hf
  | error error =>
    simp only [At, hpc] at hat
    obtain ⟨hlog, hf⟩ := hat
    obtain ⟨-, -, entry, hentry, -⟩ := id hf
    constructor
    · simp [Exec.traced, hpc, hlog, settlement, h.settleError_eq, hentry]
    · apply hf

theorem At.advanceBody
    {b : BodyPc} {pc : Pc} (hpc : e.pc = .body b) (hfed : Fed onMutate outcomes e o)
    (hat : At h onMutate outcomes e c log) (ha : e.advanceBody c b o = some (c', pc)) :
  At h onMutate outcomes { e with pc := pc } c' (log ++ e.traced h c o)
  := by
  cases takes_of_advanceBody ha with
  | noHook | hook | hookFails => apply hat.advance_onMutate hpc hfed ha
  | mutated | retry | rollBack | giveUp => apply hat.advance_mutateFn hpc hfed ha
  | paused | notPaused | unpaused | slept =>
    simp only [At, hpc] at hat
    simp only [Exec.traced, hpc, List.append_nil]
    apply hat
  | unpause hupdate =>
    simp only [At, hpc] at hat
    obtain ⟨hlog, hin⟩ := hat
    obtain ⟨rfl, hget⟩ := hin.of_update hupdate fun _ => rfl
    simp only [Exec.traced, hpc, List.append_nil]
    refine ⟨hlog, hin.1, ?_⟩
    rw [hget, Option.isSome_map]
    apply hin.2
  | keepContext hupdate =>
    simp only [At, hpc] at hat
    obtain ⟨hlog, hin, hhook⟩ := hat
    obtain ⟨rfl, hget⟩ := hin.of_update hupdate fun _ => rfl
    simp only [Exec.traced, hpc, List.append_nil]
    refine ⟨hlog, ⟨hin.1, ?_⟩, hhook⟩
    rw [hget, Option.isSome_map]
    apply hin.2
  | keptContext =>
    simp only [At, hpc] at hat
    obtain ⟨hlog, hin, hhook, hok⟩ := hat
    simp only [Exec.traced, hpc, List.append_nil]
    apply at_mutateFn hlog hin hhook.symm
    simp [onMutateFails, hok]
  | rolledBack =>
    simp only [At, hpc] at hat
    obtain ⟨hlog, hin, houtcome, hroll⟩ := hat
    refine ⟨?_, hin, houtcome⟩
    simp [Exec.traced, hpc, hlog, hroll, called]
  | @settle result _ _ hupdate =>
    cases result with
    | ok data =>
      simp only [At, hpc] at hat
      obtain ⟨hlog, hin, houtcome⟩ := hat
      obtain ⟨rfl, hget⟩ := hin.of_update hupdate fun _ => rfl
      refine ⟨?_, houtcome, hin.1, ?_⟩
      · simp [Exec.traced, hpc, hlog]
      · obtain ⟨entry, hentry⟩ := Option.isSome_iff_exists.mp hin.2
        rw [hget, hentry]
        exact ⟨_, rfl, settles_settled (.ok ()) entry⟩
    | error error =>
      simp only [At, hpc] at hat
      obtain ⟨hlog, hin, houtcome⟩ := hat
      obtain ⟨rfl, hget⟩ := hin.of_update hupdate fun _ => rfl
      refine ⟨?_, houtcome, hin.1, ?_⟩
      · simp [Exec.traced, hpc, hlog]
      · obtain ⟨entry, hentry⟩ := Option.isSome_iff_exists.mp hin.2
        rw [hget, hentry]
        exact ⟨_, rfl, settles_settled (.error error) entry⟩
  | @settled result =>
    simp only [Exec.traced, hpc, List.append_nil]
    cases result with
    | ok =>
      simp only [At, hpc] at hat
      apply hat
    | error =>
      simp only [At, hpc] at hat
      apply hat
  | release hscope =>
    obtain ⟨hlog, hf⟩ := hat.callbacks hpc
    rw [hlog]
    exact ⟨rfl, hf, hscope⟩
  | finish hscope =>
    obtain ⟨hlog, hf⟩ := hat.callbacks hpc
    rw [hlog]
    refine ⟨?_, hf⟩
    simp [documented, tried, hf.1, hscope, called]

/-- One step of the execution. -/
theorem At.advance
    (hown : e.AddsOwn) (hids : ∀ entry ∈ c.entries, entry.id ≤ c.nextId)
    (hfed : Fed onMutate outcomes e o) (hat : At h onMutate outcomes e c log)
    (ha : e.advance i nowMs c o = some (c', e')) :
  At h onMutate outcomes e' c' (log ++ e.traced h c o)
  := by
  have same {p : Pc} (hpc : At h onMutate outcomes { e with pc := p } c log)
      (hnone : e.traced h c o = []) (hsame : SameEntries c c') :
      At h onMutate outcomes { e with pc := p } c' (log ++ e.traced h c o) := by
    rw [hnone, List.append_nil]
    apply hpc.of_get
    intro _
    rw [MutationCache.get, MutationCache.get, hsame.2]
  have fired (hpc : e.pc = .fireOnMutate) (hin : InCache e c) :
      e.traced h c o = called h.configOnMutate .configOnMutate := by
    simp [Exec.traced, hpc, Hooks.fire, hin.2]
  unfold Exec.AddsOwn at hown
  cases takes_of_advance ha with
  | poll hpc =>
    simp only [At, hpc] at hat
    apply same (p := .add (.assign _)) hat (by simp [Exec.traced, hpc]) ⟨rfl, rfl⟩
  | add hpc hadd =>
    rw [hpc] at hown
    rw [traced_of_pc_add hpc, List.append_nil]
    simp only [At, hpc] at hat
    cases takes_of_add hadd with
    | assign =>
      refine ⟨hat, Nat.succ_ne_zero _, ?_⟩
      simp only [MutationCache.get, List.find?_eq_none, decide_eq_true_eq]
      intro entry' hentry hid
      have hle := hids entry' hentry
      have hnew : c.assignId.2 = c.nextId + 1 := rfl
      simp only [AddPc.entryId] at hid
      omega
    | @join entry scope =>
      obtain ⟨hlog, hne, hnone⟩ := hat
      rw [← hown.1] at hne hnone
      have hjoin := joinScope_snd c scope.id entry
      have hsame := sameEntries_joinScope c scope.id entry
      refine ⟨hlog, ?_, ?_⟩
      · simpa only [AddPc.entryId, hjoin.1] using hne
      · simp only [AddPc.entryId, hjoin.1, MutationCache.get, hsame.2]
        apply hnone
    | noScope =>
      obtain ⟨hlog, hne, hnone⟩ := hat
      rw [← hown.1] at hne hnone
      exact ⟨hlog, hne, hnone⟩
    | push =>
      obtain ⟨hlog, hne, hnone⟩ := hat
      rw [← hown.1] at hne hnone
      refine ⟨hlog, hne, ?_⟩
      simp only [AddPc.entryId, MutationCache.get_pushEntry_self hnone, Option.isSome_some]
    | hook =>
      obtain ⟨hlog, hin⟩ := hat
      use hlog
      simp only [InCache, AddPc.entryId, hown]
      apply hin
  | added hpc hadd =>
    rw [traced_of_pc_add hpc, List.append_nil]
    simp only [At, hpc] at hat
    cases takes_of_add hadd
    apply hat
  | toScope hpc hscope =>
    simp only [At, hpc] at hat
    obtain ⟨rfl, hin⟩ := hat
    rw [fired hpc hin, List.nil_append]
    exact ⟨rfl, hin, hscope⟩
  | toBody hpc hscope =>
    simp only [At, hpc] at hat
    obtain ⟨rfl, hin⟩ := hat
    rw [fired hpc hin, List.nil_append]
    exact ⟨by simp [hscope, called], hin⟩
  | body hpc hb => apply hat.advanceBody hpc hfed hb
  | subscribe hpc _ =>
    simp only [At, hpc] at hat
    apply same (p := .gate (.check _)) hat (by simp [Exec.traced, hpc]) ⟨rfl, rfl⟩
  | @gate pc _ _ _ hpc hscope hg =>
    simp only [At, hpc] at hat
    have hsame := sameEntries_gate hg
    have hget : c'.get e.entryId = c.get e.entryId := by
      rw [MutationCache.get, MutationCache.get, hsame.2]
    obtain ⟨rfl, -, rfl⟩ | ⟨-, hmark, g, rfl⟩ := advanceGate_cases hg
    · obtain ⟨hlog, hin, hsome⟩ := hat
      refine ⟨?_, hin.of_get hget⟩
      simp [Exec.traced, hpc, hlog, hsome, called]
    · refine same (p := .gate g) hat ?_ hsame
      cases pc with
      | mark => contradiction
      | _ => simp [Exec.traced, hpc]
  | @markFinished _ scope hpc hscope =>
    simp only [At, hpc] at hat
    obtain ⟨hlog, hf, hsome⟩ := hat
    refine ⟨?_, hf.of_get ?_, hsome⟩
    · simp [Exec.traced, hpc, hlog, documented, tried, hf.1, hsome, called]
    · rw [MutationCache.get, MutationCache.get, (sameEntries_markFinished c scope.id).2]
  | @notify _ _ _ _ pc' hpc _ hn =>
    simp only [At, hpc] at hat
    apply same _ (by simp [Exec.traced, hpc]) (sameEntries_notify hn)
    cases pc' with
    | none => apply hat
    | some pc' => apply hat
  | @runNext _ _ _ _ pc' hpc _ hn =>
    simp only [At, hpc] at hat
    apply same _ (by simp [Exec.traced, hpc]) (sameEntries_runNext hn)
    cases pc' with
    | none => exact ⟨hat.1, hat.2.1⟩
    | some pc' => apply hat

/-- Waking somebody changes nothing that matters. -/
theorem At.waken (hat : At h onMutate outcomes e c log) (w : Waker) :
  At h onMutate outcomes { e with pc := e.pc.waken w } c log
  := by
  cases hpc : e.pc with
  | notify pc result =>
    simp only [At, hpc] at hat
    apply hat
  | runNext pc result =>
    simp only [At, hpc] at hat
    apply hat
  | dropped => simp [At, hpc] at hat
  | _ =>
    simp only [At, hpc] at hat
    apply hat

end Steps

/-! ### Along a run -/

section Runs

variable {h : Hooks} {i : Nat} {onMutate : Result} {outcomes : Stream' Result}
  {t t' : Mutations × List Event} {a : Action} {e : Exec} {result : Result}

/-- Execution `i` is not dropped, its entry is not removed, and its functions return
`onMutate` and `outcomes`. -/
def Regular (i : Nat) (onMutate : Result) (outcomes : Stream' Result)
    (t : Mutations × List Event) (a : Action) : Prop :=
  match a with
  | .abandon j => j ≠ i
  | .advance j o => j = i → ∀ e ∈ t.1.execs.lookup i, Fed onMutate outcomes e o
  | a => ¬ t.1.RemovesEntry i a

instance (onMutate : Result) (outcomes : Stream' Result) (e : Exec) (o : Outcome) :
    Decidable (Fed onMutate outcomes e o) := by
  unfold Fed
  rcases e.pc with _ | _ | _ | _ | _ | ⟨_ | _⟩ | _ <;> rcases o with _ | _ <;> infer_instance

instance (i : Nat) (onMutate : Result) (outcomes : Stream' Result)
    (t : Mutations × List Event) (a : Action) : Decidable (Regular i onMutate outcomes t a) := by
  unfold Regular
  rcases a with _ | _ <;> infer_instance

/-- What holds along such a run. -/
structure Kept (h : Hooks) (i : Nat) (onMutate : Result) (outcomes : Stream' Result)
    (t : Mutations × List Event) : Prop where
  ids : t.1.Ids
  unsubmitted : t.1.execs.lookup i = none → t.2 = []
  log : ∀ e, t.1.execs.lookup i = some e → At h onMutate outcomes e t.1.cache t.2

/-- A step of the execution. -/
theorem Kept.own
    {s' : Mutations} (hkept : Kept h i onMutate outcomes t)
    (hok : Regular i onMutate outcomes t a) (hs : t.1.step a = some s') (hids : s'.Ids)
    (ha : a.By i) :
  Kept h i onMutate outcomes (s', t.2 ++ traced h i t.1 a s')
  := by
  obtain ⟨e, he, hown⟩ := ownStep_of_step hs ha
  -- it is enough that the log goes with the execution as the step leaves it
  have stands {log : List Event} (hat : At h onMutate outcomes e s'.cache log) :
      Kept h i onMutate outcomes (s', log) := by
    refine ⟨hids, ?_, ?_⟩
    · intro hnone
      rw [he] at hnone
      contradiction
    · intro e' he'
      obtain rfl := Option.some.inj (he.symm.trans he')
      apply hat
  cases hown with
  | submit hnone =>
    apply stands
    simp only [At, traced, List.append_nil]
    apply hkept.unsubmitted hnone
  | @advance o q _ hq hadvance =>
    apply stands
    have hat := (hkept.log q hq).advance (hkept.ids.addsOwn i q hq) hkept.ids.entries
      (hok rfl q hq) hadvance
    simp only [traced, hq, if_true, Option.elim_some]
    apply hat
  | @resume q w hq hpc hc =>
    apply stands
    have hat := hkept.log q hq
    simp only [At, hpc] at hat
    simp only [traced, List.append_nil, hc]
    apply hat
  | abandon => exact absurd ha hok
  | @wake q w hq _ hc =>
    apply stands
    simp only [traced, List.append_nil, hc]
    apply (hkept.log q hq).waken w

theorem Kept.step
    (hkept : Kept h i onMutate outcomes t) (hok : Regular i onMutate outcomes t a)
    (hs : (lifecycle h i).step t a = some t') :
  Kept h i onMutate outcomes t'
  := by
  obtain ⟨hstep, hlog⟩ := Machine.step_noting hs
  obtain ⟨s', log⟩ := t'
  dsimp only at hstep hlog
  obtain rfl := hlog
  have hids := hkept.ids.step hstep
  by_cases hby : a.By i
  · apply hkept.own hok hstep hids hby
  · have htraced : traced h i t.1 a s' = [] := by
      cases a with
      | advance => apply if_neg hby
      | _ => rfl
    have hremoves : ¬ t.1.RemovesEntry i a := by
      cases a with
      | advanceCall => apply hok
      | _ => apply id
    rw [htraced, List.append_nil]
    refine ⟨hids, ?_, ?_⟩
    · intro hnone
      rw [lookup_others hstep hby] at hnone
      apply hkept.unsubmitted hnone
    · intro e he
      rw [lookup_others hstep hby] at he
      apply (hkept.log e he).of_get (hkept.ids.get_others hstep he hby hremoves)

theorem kept_of_run (hrun : (lifecycle h i).Run (Regular i onMutate outcomes) t) :
  Kept h i onMutate outcomes t
  := by
  apply hrun.invariant
  · rintro ⟨s, log⟩ ⟨hinit, hlog⟩
    obtain rfl : s = initial := hinit
    obtain rfl : log = [] := hlog
    refine ⟨ids_initial, fun _ => rfl, ?_⟩
    intro e he
    simp [initial] at he
  · exact fun _ _ _ _ hkept hok hs => hkept.step hok hs

/-- The entry of a finished execution. -/
structure Finished (result : Result) (entry : MutationCacheEntry) : Prop where
  notPaused : entry.isPaused = false
  succeeded : entry.status = .success ↔ entry.hasResult = true ∧ entry.error = none
  failed : entry.status = .error ↔ entry.error.isSome = true ∧ entry.hasResult = false
  status : entry.status = if result.isOk then .success else .error

theorem Settles.finished {entry : MutationCacheEntry} (hsettles : Settles result entry) :
  Finished result entry
  := by
  obtain ⟨hpaused, hsettles⟩ := hsettles
  cases result with
  | ok =>
    obtain ⟨hstatus, hresult, herror⟩ := hsettles
    exact ⟨hpaused, by simp [hstatus, hresult, herror], by simp [hstatus, hresult, herror],
      hstatus⟩
  | error error =>
    obtain ⟨hstatus, hresult, herror⟩ := hsettles
    exact ⟨hpaused, by simp [hstatus, hresult, herror], by simp [hstatus, hresult, herror],
      hstatus⟩

end Runs

end Mutations

end RsQuery
