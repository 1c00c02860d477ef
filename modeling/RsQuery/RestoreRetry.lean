import RsQuery.Broadcast

/-!
# Restoring a client with retry

A persister stores one snapshot of a client, and each of its operations can fail.  A failed
restore discards the stored snapshot as a precaution.  `persist_with_retry` restores again
after a failure for which its strategy has no replacement, and a restore that finds nothing
stored succeeds.  So a failure that is over at the next attempt has lost the snapshot, and
the caller is told that all is well.
-/

namespace RsQuery

/-- Options for whole-client persistence, without the persister. -/
structure PersistQueryClientOptions where
  maxAge : Duration := Duration.fromSecs (24 * 60 * 60)
  buster : String := ""

/-- How often `persist_with_retry` consults its strategy at most. -/
def maxRestoreRetries : Nat :=
  3

/-- A persister with the snapshot it stores.  The calls of its operations are numbered;
those that `fails` gives an error for fail and leave what is stored. -/
structure ClientPersister where
  stored : Option PersistedClient
  fails : Nat → Option QueryError
  calls : Nat

namespace ClientPersister

/-- The persister after a call that changes nothing. -/
def called (p : ClientPersister) : ClientPersister :=
  { p with calls := p.calls + 1 }

/-- Reads the last snapshot, if any. -/
def restoreClient (p : ClientPersister) :
    Except QueryError (Option PersistedClient) × ClientPersister :=
  match p.fails p.calls with
  | some error => (.error error, p.called)
  | none => (.ok p.stored, p.called)

/-- Deletes the stored snapshot. -/
def removeClient (p : ClientPersister) : Except QueryError Unit × ClientPersister :=
  match p.fails p.calls with
  | some error => (.error error, p.called)
  | none => (.ok (), { p.called with stored := none })

/-- Persists a snapshot, replacing the previous one. -/
def persistClient (p : ClientPersister) (snapshot : PersistedClient) :
    Except QueryError Unit × ClientPersister :=
  match p.fails p.calls with
  | some error => (.error error, p.called)
  | none => (.ok (), { p.called with stored := some snapshot })

end ClientPersister

variable {V : Type} [StringAny V]

/-- A client and its persister, and what has been hydrated into the client so far. -/
structure Restoring (V : Type) where
  client : QueryClient V
  persister : ClientPersister
  hydrated : List (PersistedClient × Instant)

namespace PersistQueryClientOptions

/-- Whether a stored snapshot is too old. -/
def expired (options : PersistQueryClientOptions) (wall : SystemTime)
    (persisted : PersistedClient) : Bool :=
  persisted.timestampMs ≠ 0 ∧
    unixNowMs wall - persisted.timestampMs > Duration.asMillisU64 options.maxAge

/-- Whether a stored snapshot can be restored. -/
def valid (options : PersistQueryClientOptions) (wall : SystemTime)
    (persisted : PersistedClient) : Bool :=
  let busted := persisted.buster ≠ options.buster
  let missingTimestamp := persisted.timestampMs = 0
  !(busted || missingTimestamp || options.expired wall persisted)

end PersistQueryClientOptions

namespace Restoring

variable (serde : Option SerdeJson)

/-- Hydrates a snapshot into the client. -/
def hydrate (s : Restoring V) (now : Instant) (persisted : PersistedClient) : Restoring V :=
  { s with
      client := s.client.hydrate serde now persisted.clientState {}
      hydrated := s.hydrated ++ [(persisted, now)] }

variable (options : PersistQueryClientOptions)

/-- Restores the persisted snapshot: one that cannot be restored is removed, and any error
of the persister discards it. -/
def persistQueryClientRestore (wall : SystemTime) (now : Instant) (s : Restoring V) :
    Except QueryError Unit × Restoring V :=
  match s.persister.restoreClient with
  | (.ok none, p) => (.ok (), { s with persister := p })
  | (.ok (some persisted), p) =>
    if !options.valid wall persisted then
      let (removed, p) := p.removeClient
      (removed, { s with persister := p })
    else (.ok (), { s with persister := p }.hydrate serde now persisted)
  | (.error error, p) => (.error error, { s with persister := p.removeClient.2 })

/-- What the client knows about time when it restores for the `n`-th time. -/
abbrev Clock := Nat → SystemTime × Instant

variable (clock : Clock) (strategy : QueryError → Nat → Option PersistedClient)

/-- The loop of `persist_with_retry` after `errorCount` errors, when the strategy may be
consulted `left` times. -/
def retryLoop : Nat → Nat → Restoring V → Except QueryError Unit × Restoring V
  | left, errorCount, s =>
    match persistQueryClientRestore serde options (clock errorCount).1 (clock errorCount).2 s with
    | (.ok (), s) => (.ok (), s)
    | (.error error, s) =>
      match left with
      | 0 => (.error error, s)
      | left + 1 =>
        match strategy error (errorCount + 1) with
        | some replacement =>
          let s := s.hydrate serde (clock errorCount).2 replacement
          (.ok (), { s with persister := (s.persister.persistClient replacement).2 })
        | none => retryLoop left (errorCount + 1) s

/-- Restores with retry. -/
def persistWithRetry (s : Restoring V) : Except QueryError Unit × Restoring V :=
  retryLoop serde options clock strategy maxRestoreRetries 0 s

/-! ### What an attempt does -/

/-- The client is what `c` is when all that was hydrated is hydrated into it. -/
def Tracks (c : QueryClient V) (s : Restoring V) : Prop :=
  s.client = s.hydrated.foldl (fun c h => c.hydrate serde h.2 h.1.clientState {}) c

variable {serde options clock strategy} in
theorem Tracks.hydrate {c : QueryClient V} {s : Restoring V} (h : Tracks serde c s)
    (now : Instant) (persisted : PersistedClient) :
  Tracks serde c (s.hydrate serde now persisted)
  := by
  have heq : s.client = _ := h
  simp only [Tracks, Restoring.hydrate, List.foldl_append, List.foldl_cons, List.foldl_nil, heq]

variable {serde} in
theorem Tracks.restore {c : QueryClient V} {s : Restoring V} (h : Tracks serde c s)
    (wall : SystemTime) (now : Instant) :
  Tracks serde c (persistQueryClientRestore serde options wall now s).2
  := by
  unfold persistQueryClientRestore
  split
  · apply h
  · split
    · apply h
    · next p _ _ => apply Tracks.hydrate (s := { s with persister := p }) h now _
  · apply h

/-- A restore with retry changes the client by what it hydrates. -/
theorem tracks_retryLoop {c : QueryClient V} {s : Restoring V} (h : Tracks serde c s)
    (left n : Nat) :
  Tracks serde c (retryLoop serde options clock strategy left n s).2
  := by
  induction left generalizing n s with
  | zero =>
    have hr := h.restore options (clock n).1 (clock n).2
    unfold retryLoop
    split
    · next heq => rwa [heq] at hr
    · next heq => rwa [heq] at hr
  | succ left ih =>
    have hr := h.restore options (clock n).1 (clock n).2
    unfold retryLoop
    split
    · next heq => rwa [heq] at hr
    · next heq =>
      rw [heq] at hr
      simp only
      split
      · apply hr.hydrate
      · apply ih hr

section Attempt

variable (fails : Nat → Option QueryError) (snapshot : PersistedClient)

/-- The stored snapshot is none that can be restored at the time of the attempt. -/
def Outdated (n : Nat) : Prop :=
  options.valid (clock n).1 snapshot = false

/-- The attempt ends in an error, if the snapshot is still stored, and the strategy declines
it. -/
def Declined (n : Nat) : Prop :=
  ∃ error, (fails (2 * n) = some error ∨
      fails (2 * n) = none ∧ Outdated options clock snapshot n ∧ fails (2 * n + 1) = some error) ∧
    strategy error (n + 1) = none

/-- The attempt does not read the snapshot, and discards it. -/
def Discarded (n : Nat) : Prop :=
  fails (2 * n) ≠ none ∧ fails (2 * n + 1) = none

/-- Attempts from `m` on are made until the `n`-th, which finds nothing to restore: the
snapshot was `gone` already, or an attempt discarded it, or it is out of date by now. -/
structure LostAt (gone : Prop) (m n : Nat) : Prop where
  declined : ∀ i, m ≤ i → i < n → Declined options clock strategy fails snapshot i
  succeeds : fails (2 * n) = none
  lost : gone ∨ (∃ i, m ≤ i ∧ i < n ∧ Discarded fails i) ∨
    Outdated options clock snapshot n ∧ fails (2 * n + 1) = none

variable {options clock strategy fails snapshot}

theorem lostAt_self {gone : Prop} {n : Nat} :
  LostAt options clock strategy fails snapshot gone n n ↔
    fails (2 * n) = none ∧ (gone ∨ Outdated options clock snapshot n ∧ fails (2 * n + 1) = none)
  := by
  constructor
  · rintro ⟨-, hsucceeds, hgone | ⟨i, hle, hlt, -⟩ | hnow⟩
    · exact ⟨hsucceeds, .inl hgone⟩
    · exact absurd hlt (Nat.not_lt.mpr hle)
    · exact ⟨hsucceeds, .inr hnow⟩
  · rintro ⟨hsucceeds, hlost⟩
    constructor
    · intro i hle hlt
      exact absurd hlt (Nat.not_lt.mpr hle)
    · apply hsucceeds
    · rcases hlost with hgone | hnow
      · left
        apply hgone
      · right
        right
        apply hnow

theorem lostAt_succ {gone : Prop} {m n : Nat} (hmn : m < n) :
  LostAt options clock strategy fails snapshot gone m n ↔
    Declined options clock strategy fails snapshot m ∧
      LostAt options clock strategy fails snapshot (gone ∨ Discarded fails m) (m + 1) n
  := by
  constructor
  · rintro ⟨hdeclined, hsucceeds, hlost⟩
    use hdeclined m le_rfl hmn
    constructor
    · intro i hle hlt
      apply hdeclined i (Nat.le_of_succ_le hle) hlt
    · apply hsucceeds
    · rcases hlost with hgone | ⟨i, hle, hlt, hi⟩ | hnow
      · left
        left
        apply hgone
      · rcases Nat.eq_or_lt_of_le hle with rfl | hle
        · left
          right
          apply hi
        · right
          left
          use i, hle, hlt
      · right
        right
        apply hnow
  · rintro ⟨hm, hdeclined, hsucceeds, hlost⟩
    constructor
    · intro i hle hlt
      rcases Nat.eq_or_lt_of_le hle with rfl | hle
      · apply hm
      · apply hdeclined i hle hlt
    · apply hsucceeds
    · rcases hlost with (hgone | hi) | ⟨i, hle, hlt, hi⟩ | hnow
      · left
        apply hgone
      · right
        left
        use m, le_rfl, hmn
      · right
        left
        use i, Nat.le_of_succ_le hle, hlt
      · right
        right
        apply hnow

/-- What is lost is lost at the first attempt, or after the first was declined. -/
theorem exists_lostAt_iff {gone : Prop} {n last : Nat} (hlast : n ≤ last) :
  (∃ i, n ≤ i ∧ i ≤ last ∧ LostAt options clock strategy fails snapshot gone n i) ↔
    LostAt options clock strategy fails snapshot gone n n ∨
      Declined options clock strategy fails snapshot n ∧ ∃ i, n + 1 ≤ i ∧ i ≤ last ∧
        LostAt options clock strategy fails snapshot (gone ∨ Discarded fails n) (n + 1) i
  := by
  constructor
  · rintro ⟨i, hle, hi, hlost⟩
    rcases Nat.eq_or_lt_of_le hle with rfl | hlt
    · left
      apply hlost
    · right
      obtain ⟨hdeclined, hlost⟩ := (lostAt_succ hlt).mp hlost
      use hdeclined, i, hlt, hi
  · rintro (hlost | ⟨hdeclined, i, hle, hi, hlost⟩)
    · use n
    · use i, Nat.le_of_succ_le hle, hi
      apply (lostAt_succ hle).mpr
      use hdeclined

/-- The `n`-th attempt is about to be made, and nothing has been hydrated. -/
structure About (fails : Nat → Option QueryError) (snapshot : PersistedClient) (n : Nat)
    (s : Restoring V) : Prop where
  fails : s.persister.fails = fails
  calls : s.persister.calls = 2 * n
  stored : s.persister.stored = none ∨ s.persister.stored = some snapshot
  hydrated : s.hydrated = []

/-- The attempt ends without an error and without the snapshot. -/
def EndsWithout (options : PersistQueryClientOptions) (clock : Clock)
    (fails : Nat → Option QueryError) (snapshot : PersistedClient) (n : Nat)
    (s s' : Restoring V) : Prop :=
  s'.hydrated = [] ∧ fails (2 * n) = none ∧ (s.persister.stored = none ∨
    Outdated options clock snapshot n ∧ fails (2 * n + 1) = none)

/-- The attempt has hydrated the snapshot. -/
def EndsWith (options : PersistQueryClientOptions) (clock : Clock)
    (fails : Nat → Option QueryError) (snapshot : PersistedClient) (n : Nat)
    (s s' : Restoring V) : Prop :=
  (∃ now, s'.hydrated = [(snapshot, now)]) ∧ fails (2 * n) = none ∧
    s.persister.stored ≠ none ∧ ¬ Outdated options clock snapshot n

/-- The attempt ends in the error. -/
structure Errs (options : PersistQueryClientOptions) (clock : Clock)
    (fails : Nat → Option QueryError) (snapshot : PersistedClient) (n : Nat) (error : QueryError)
    (s s' : Restoring V) : Prop where
  error : fails (2 * n) = some error ∨
    fails (2 * n) = none ∧ Outdated options clock snapshot n ∧ fails (2 * n + 1) = some error
  about : About fails snapshot (n + 1) s'
  gone : s'.persister.stored = none ↔ s.persister.stored = none ∨ Discarded fails n
  kept : ¬ (fails (2 * n) = none ∧ (s.persister.stored = none ∨
    Outdated options clock snapshot n ∧ fails (2 * n + 1) = none))

variable {serde} {s : Restoring V} {wall : SystemTime} {now : Instant}

theorem restore_of_error {error : QueryError}
    (h : s.persister.fails s.persister.calls = some error) :
  persistQueryClientRestore serde options wall now s
    = (.error error, { s with persister := s.persister.called.removeClient.2 })
  := by
  simp only [persistQueryClientRestore, ClientPersister.restoreClient, h]

theorem restore_of_none (h : s.persister.fails s.persister.calls = none)
    (hstored : s.persister.stored = none) :
  persistQueryClientRestore serde options wall now s
    = (.ok (), { s with persister := s.persister.called })
  := by
  simp only [persistQueryClientRestore, ClientPersister.restoreClient, h, hstored]

theorem restore_of_valid (h : s.persister.fails s.persister.calls = none)
    (hstored : s.persister.stored = some snapshot) (hvalid : options.valid wall snapshot = true) :
  persistQueryClientRestore serde options wall now s
    = (.ok (), { s with persister := s.persister.called }.hydrate serde now snapshot)
  := by
  simp [persistQueryClientRestore, ClientPersister.restoreClient, h, hstored, hvalid]

theorem restore_of_invalid (h : s.persister.fails s.persister.calls = none)
    (hstored : s.persister.stored = some snapshot) (hvalid : options.valid wall snapshot = false) :
  persistQueryClientRestore serde options wall now s
    = (s.persister.called.removeClient.1,
        { s with persister := s.persister.called.removeClient.2 })
  := by
  simp [persistQueryClientRestore, ClientPersister.restoreClient, h, hstored, hvalid]

theorem removeClient_of_none {p : ClientPersister} (h : p.fails p.calls = none) :
  p.removeClient = (.ok (), { p.called with stored := none })
  := by
  simp only [ClientPersister.removeClient, h]

theorem removeClient_of_error {p : ClientPersister} {error : QueryError}
    (h : p.fails p.calls = some error) :
  p.removeClient = (.error error, p.called)
  := by
  simp only [ClientPersister.removeClient, h]

omit [StringAny V] in
/-- The next attempt is about to be made after one that removed the snapshot or failed to. -/
theorem About.removed {n : Nat} (h : About fails snapshot n s) :
  let s' : Restoring V := { s with persister := s.persister.called.removeClient.2 }
  About fails snapshot (n + 1) s' ∧
    (s'.persister.stored = none ↔ s.persister.stored = none ∨ fails (2 * n + 1) = none)
  := by
  have hremoves : s.persister.called.fails s.persister.called.calls = fails (2 * n + 1) := by
    rw [ClientPersister.called, h.fails, h.calls]
  have hcalls : s.persister.called.called.calls = 2 * (n + 1) := by
    simp only [ClientPersister.called, h.calls]
    omega
  cases hremove : fails (2 * n + 1) with
  | none =>
    rw [removeClient_of_none (hremoves.trans hremove)]
    exact ⟨⟨h.fails, hcalls, .inl rfl, h.hydrated⟩, by simp⟩
  | some error =>
    rw [removeClient_of_error (hremoves.trans hremove)]
    exact ⟨⟨h.fails, hcalls, h.stored, h.hydrated⟩, by simp [ClientPersister.called]⟩

variable (serde options clock) in
/-- The three ways in which an attempt ends. -/
theorem attempt_cases {n : Nat} (h : About fails snapshot n s) :
  let r := persistQueryClientRestore serde options (clock n).1 (clock n).2 s
  (r.1 = .ok () ∧ EndsWithout options clock fails snapshot n s r.2) ∨
    (r.1 = .ok () ∧ EndsWith options clock fails snapshot n s r.2) ∨
    ∃ error, r.1 = .error error ∧ Errs options clock fails snapshot n error s r.2
  := by
  have hfails : s.persister.fails s.persister.calls = fails (2 * n) := by
    rw [h.fails, h.calls]
  have hremoves : s.persister.called.fails s.persister.called.calls = fails (2 * n + 1) := by
    rw [ClientPersister.called, h.fails, h.calls]
  obtain ⟨habout, hgone⟩ := h.removed
  cases hrestore : fails (2 * n) with
  | some error =>
    right
    right
    rw [restore_of_error (hfails.trans hrestore)]
    refine ⟨error, rfl, .inl hrestore, habout, ?_, ?_⟩
    · rw [hgone, Discarded, hrestore]
      simp
    · simp [hrestore]
  | none =>
    rcases h.stored with hstored | hstored
    · left
      rw [restore_of_none (hfails.trans hrestore) hstored]
      exact ⟨rfl, h.hydrated, hrestore, .inl hstored⟩
    · cases hvalid : options.valid (clock n).1 snapshot with
      | true =>
        right
        left
        rw [restore_of_valid (hfails.trans hrestore) hstored hvalid]
        refine ⟨rfl, ⟨(clock n).2, ?_⟩, hrestore, ?_, ?_⟩
        · rw [Restoring.hydrate, h.hydrated]
          rfl
        · rw [hstored]
          nofun
        · rw [Outdated, hvalid]
          nofun
      | false =>
        rw [restore_of_invalid (hfails.trans hrestore) hstored hvalid]
        cases hremove : fails (2 * n + 1) with
        | none =>
          left
          rw [removeClient_of_none (hremoves.trans hremove)]
          exact ⟨rfl, h.hydrated, hrestore, .inr ⟨hvalid, hremove⟩⟩
        | some error =>
          right
          right
          refine ⟨error, ?_, .inr ⟨hrestore, hvalid, hremove⟩, habout, ?_, ?_⟩
          · rw [removeClient_of_error (hremoves.trans hremove)]
          · rw [hgone, Discarded, hrestore, hremove]
            simp
          · simp [hstored, hremove]

/-- When the call returns without an error, the snapshot or a replacement of it has been
hydrated. -/
def Restored (strategy : QueryError → Nat → Option PersistedClient) (snapshot : PersistedClient)
    (r : Except QueryError Unit × Restoring V) : Prop :=
  r.1 = .ok () → ∃ h ∈ r.2.hydrated, h.1 = snapshot ∨ ∃ error n, strategy error n = some h.1

/-- The client is made of what has been hydrated into it, and the snapshot or a replacement
of it is among that when the call returns without an error. -/
structure RestoredInto (serde : Option SerdeJson) (client : QueryClient V)
    (strategy : QueryError → Nat → Option PersistedClient) (snapshot : PersistedClient)
    (r : Except QueryError Unit × Restoring V) : Prop where
  tracks : Tracks serde client r.2
  restored : Restored strategy snapshot r

theorem retryLoop_of_ok {left n : Nat}
    (h : (persistQueryClientRestore serde options (clock n).1 (clock n).2 s).1 = .ok ()) :
  retryLoop serde options clock strategy left n s
    = (.ok (), (persistQueryClientRestore serde options (clock n).1 (clock n).2 s).2)
  := by
  unfold retryLoop
  split
  · next heq => rw [heq]
  · next heq =>
    rw [heq] at h
    contradiction

theorem retryLoop_of_error {left n : Nat} {error : QueryError} {s' : Restoring V}
    (h : persistQueryClientRestore serde options (clock n).1 (clock n).2 s = (.error error, s')) :
  retryLoop serde options clock strategy left n s = match left with
    | 0 => (.error error, s')
    | left + 1 =>
      match strategy error (n + 1) with
      | some replacement =>
        (.ok (), { s'.hydrate serde (clock n).2 replacement with
          persister := (s'.persister.persistClient replacement).2 })
      | none => retryLoop serde options clock strategy left (n + 1) s'
  := by
  cases left with
  | zero => rw [retryLoop, h]
  | succ left => rw [retryLoop, h]; rfl

omit [StringAny V] in
/-- An attempt that ended in an error is declined if the strategy has nothing for it. -/
theorem Errs.declined_iff {n : Nat} {error : QueryError} {s' : Restoring V}
    (h : Errs options clock fails snapshot n error s s') :
  Declined options clock strategy fails snapshot n ↔ strategy error (n + 1) = none
  := by
  constructor
  · rintro ⟨error', herror, hnone⟩
    have heq : error = error' := by
      rcases h.error with h | ⟨h, -, h₁⟩ <;> rcases herror with h' | ⟨h', -, h₁'⟩
      · apply Option.some.inj (h.symm.trans h')
      · simp [h] at h'
      · simp [h] at h'
      · apply Option.some.inj (h₁.symm.trans h₁')
    rwa [heq]
  · intro hnone
    use error, h.error

/-- An attempt that ends without an error ends the call. -/
theorem restored_of_ok {left n : Nat} (h : About fails snapshot n s)
    (hok : (persistQueryClientRestore serde options (clock n).1 (clock n).2 s).1 = .ok ()) :
  Restored strategy snapshot (retryLoop serde options clock strategy left n s) ↔
    ¬ ∃ i, n ≤ i ∧ i ≤ n + left ∧
      LostAt options clock strategy fails snapshot (s.persister.stored = none) n i
  := by
  rw [retryLoop_of_ok hok, exists_lostAt_iff (Nat.le_add_right n left), lostAt_self]
  rcases attempt_cases serde options clock h with
    ⟨-, hhydrated, hlost⟩ | ⟨-, ⟨now, hhydrated⟩, hread, hstored, hdate⟩ | ⟨error, herror, -⟩
  · simp [Restored, hhydrated, hlost]
  · have hkept : ¬ Declined options clock strategy fails snapshot n := by
      simp [Declined, hread, hdate]
    simp [Restored, hhydrated, hkept, hstored, hdate]
  · rw [hok] at herror
    contradiction

/-- The attempts from the `n`-th on restore the snapshot, or a replacement, unless one of
them loses it. -/
theorem restored_retryLoop {left n : Nat} (h : About fails snapshot n s) :
  Restored strategy snapshot (retryLoop serde options clock strategy left n s) ↔
    ¬ ∃ i, n ≤ i ∧ i ≤ n + left ∧
      LostAt options clock strategy fails snapshot (s.persister.stored = none) n i
  := by
  induction left generalizing n s with
  | zero =>
    rcases attempt_cases serde options clock h with ⟨hok, -⟩ | ⟨hok, -⟩ | ⟨error, herror, herrs⟩
    · apply restored_of_ok h hok
    · apply restored_of_ok h hok
    · rw [retryLoop_of_error (Prod.ext herror rfl), exists_lostAt_iff (Nat.le_add_right n 0),
        lostAt_self]
      constructor
      · rintro - (hlost | ⟨-, i, hle, hi, -⟩)
        · apply herrs.kept hlost
        · exact absurd (hle.trans hi) (Nat.not_succ_le_self n)
      · intro _ hok
        contradiction
  | succ left ih =>
    rcases attempt_cases serde options clock h with ⟨hok, -⟩ | ⟨hok, -⟩ | ⟨error, herror, herrs⟩
    · apply restored_of_ok h hok
    · apply restored_of_ok h hok
    · rw [retryLoop_of_error (Prod.ext herror rfl), exists_lostAt_iff (Nat.le_add_right n _),
        lostAt_self, herrs.declined_iff]
      simp only
      split
      · next replacement hstrategy =>
        have hreplaced : ∃ error n, strategy error n = some replacement := ⟨error, n + 1, hstrategy⟩
        simp [Restored, Restoring.hydrate, herrs.about.hydrated, herrs.kept, hstrategy, hreplaced]
      · next hstrategy =>
        rw [ih herrs.about]
        simp only [herrs.gone, herrs.kept, hstrategy, false_or, true_and, Nat.add_right_comm n 1,
          Nat.add_assoc]

variable (serde options clock strategy fails snapshot) in
/-- A restore with retry of a stored snapshot that returns without an error has hydrated the
snapshot or a replacement into the client, unless after declined failures an attempt finds
nothing, since the snapshot was discarded or has got out of date. -/
theorem restored_retry_iff (client : QueryClient V) :
  RestoredInto serde client strategy snapshot
      (persistWithRetry serde options clock strategy ⟨client, ⟨some snapshot, fails, 0⟩, []⟩) ↔
    ¬ ∃ n ≤ maxRestoreRetries, LostAt options clock strategy fails snapshot False 0 n
  := by
  have h : About fails snapshot 0 (⟨client, ⟨some snapshot, fails, 0⟩, []⟩ : Restoring V) :=
    ⟨rfl, rfl, .inr rfl, rfl⟩
  have htracks : Tracks serde client
      (⟨client, ⟨some snapshot, fails, 0⟩, []⟩ : Restoring V) := rfl
  have hloop := tracks_retryLoop serde options clock strategy htracks maxRestoreRetries 0
  have hrestored : Restored strategy snapshot
      (retryLoop serde options clock strategy maxRestoreRetries 0 _) ↔ _ := restored_retryLoop h
  simp only [reduceCtorEq, Nat.zero_add] at hrestored
  rw [persistWithRetry]
  constructor
  · rintro h ⟨n, hn, hlost⟩
    exact hrestored.mp h.restored ⟨n, Nat.zero_le n, hn, hlost⟩
  · intro h
    use hloop
    apply hrestored.mpr
    rintro ⟨n, -, hn, hlost⟩
    exact h ⟨n, hn, hlost⟩

end Attempt

/-- A snapshot taken at the start of the wall clock. -/
def early : PersistedClient where
  timestampMs := 1
  buster := ""
  clientState := ⟨1, [], []⟩

/-- The first call to the persister fails and no other: the snapshot is removed, the strategy
has no replacement, and the second attempt finds nothing stored. -/
theorem not_restored_transient :
  let options : PersistQueryClientOptions := {}
  let r : Except QueryError Unit × Restoring (String ⊕ Nat) :=
    persistWithRetry none options (fun _ => (0, 0)) (fun _ _ => none)
      ⟨.new, ⟨some early, fun n => if n = 0 then some (.custom "busy") else none, 0⟩, []⟩
  options.valid 0 early = true ∧ r.1 = .ok () ∧ r.2.hydrated = [] ∧
    r.2.persister.stored = none ∧ ¬ Restored (fun _ _ => none) early r
  := by
  refine ⟨by decide, rfl, rfl, rfl, ?_⟩
  intro h
  obtain ⟨_, hmem, -⟩ := h rfl
  contradiction

end Restoring

end RsQuery
