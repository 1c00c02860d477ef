import Mathlib.Tactic.Common
import RsQuery.State

/-!
# Streamed queries

A streamed query folds the chunks of a stream into one result.  The value configured to
start with is handed on as the previous data, which only the mode `Append` builds on; the
other modes start from the first chunk.
-/

namespace RsQuery

/-- How a refetch treats previously accumulated data. -/
inductive RefetchMode where
  | replace
  | append
  | reset
deriving DecidableEq, Repr

/-- How chunks are combined where no reducer is configured. -/
class CombineChunks (T : Type) where
  combine : T → T → T

instance {E : Type} : CombineChunks (List E) where
  combine acc chunk := acc ++ chunk

instance : CombineChunks String where
  combine acc chunk := acc ++ chunk

/-- A chunk of a stream. -/
abbrev Chunk (T : Type) := Except QueryError T

/-- Configuration for `streamed_query`. -/
structure StreamedQueryConfig (T : Type) where
  refetchMode : RefetchMode := .reset
  reducer : Option (T → T → T) := none
  initialValue : Option T := none

variable {T : Type} [CombineChunks T]

/-- Folds one chunk into what was accumulated. -/
def foldChunk (reducer : Option (T → T → T)) (acc : Option T) (chunk : T) : T :=
  match acc with
  | some current =>
    match reducer with
    | some reduce => reduce current chunk
    | none => CombineChunks.combine current chunk
  | none => chunk

/-- The loop of `collect_stream`, which ends at the first error chunk. -/
def collectChunks (reducer : Option (T → T → T)) :
    Option T → List (Chunk T) → Except QueryError (Option T)
  | acc, [] => .ok acc
  | acc, chunk :: stream =>
    match chunk with
    | .error e => .error e
    | .ok chunk => collectChunks reducer (some (foldChunk reducer acc chunk)) stream

/-- Accumulates a stream of chunks into a single result. -/
def collectStream (stream : List (Chunk T)) (mode : RefetchMode) (previous : Option T)
    (reducer : Option (T → T → T)) : Except QueryError T :=
  let acc :=
    match mode with
    | .append => previous
    | .replace | .reset => none
  match collectChunks reducer acc stream with
  | .error e => .error e
  | .ok (some result) => .ok result
  | .ok none => .error .undefinedData

/-- A query function from a stream factory; each call makes a stream of its own. -/
def streamedQuery (streamFn : Unit → List (Chunk T)) (config : StreamedQueryConfig T) :
    Unit → Except QueryError T :=
  fun () => collectStream (streamFn ()) config.refetchMode config.initialValue config.reducer

/-! ### The fold -/

namespace StreamedQueryConfig

/-- What a chunk is folded in with. -/
def step (config : StreamedQueryConfig T) : T → T → T :=
  config.reducer.getD CombineChunks.combine

omit [CombineChunks T] in
/-- What the fold starts from, if not from the first chunk. -/
def base (config : StreamedQueryConfig T) : Option T :=
  if config.refetchMode = .append then config.initialValue else none

omit [CombineChunks T] in
theorem base_eq_none_iff (config : StreamedQueryConfig T) :
  config.base = none ↔ config.refetchMode ≠ .append ∨ config.initialValue = none
  := by
  rw [base]
  split
  · next h => simp [h]
  · next h => simp [h]

end StreamedQueryConfig

theorem collectChunks_append
    (reducer : Option (T → T → T)) (acc : Option T) (values : List T) (rest : List (Chunk T)) :
  collectChunks reducer acc (values.map .ok ++ rest) =
    collectChunks reducer (values.foldl (fun acc v => some (foldChunk reducer acc v)) acc) rest
  := by
  induction values generalizing acc with
  | nil => rfl
  | cons v values ih => apply ih

/-- A fold that has a value goes on with that. -/
theorem foldl_foldChunk (reducer : Option (T → T → T)) (acc : T) (values : List T) :
  values.foldl (fun acc v => some (foldChunk reducer acc v)) (some acc) =
    some (values.foldl (reducer.getD CombineChunks.combine) acc)
  := by
  induction values generalizing acc with
  | nil => rfl
  | cons v values ih =>
    cases reducer with
    | none => apply ih
    | some reduce => apply ih

omit [CombineChunks T] in
/-- Chunks are values all of them, or values up to a first error. -/
theorem chunks_cases (chunks : List (Chunk T)) :
  (∃ values : List T, chunks = values.map .ok) ∨
    ∃ (before : List T) (e : QueryError) (after : List (Chunk T)),
      chunks = before.map .ok ++ .error e :: after
  := by
  induction chunks with
  | nil => exact .inl ⟨[], rfl⟩
  | cons chunk chunks ih =>
    cases chunk with
    | error e => exact .inr ⟨[], e, chunks, rfl⟩
    | ok v =>
      rcases ih with ⟨values, rfl⟩ | ⟨before, e, after, rfl⟩
      · exact .inl ⟨v :: values, rfl⟩
      · exact .inr ⟨v :: before, e, after, rfl⟩

section

variable {streamFn : Unit → List (Chunk T)} {config : StreamedQueryConfig T}

theorem streamedQuery_eq :
  streamedQuery streamFn config () =
    match collectChunks config.reducer config.base (streamFn ()) with
    | .error e => .error e
    | .ok (some result) => .ok result
    | .ok none => .error .undefinedData
  := by
  obtain ⟨mode, reducer, initialValue⟩ := config
  cases mode with
  | replace => rfl
  | append => rfl
  | reset => rfl

theorem streamedQuery_of_error {before : List T} {e : QueryError} {after : List (Chunk T)}
    (h : streamFn () = before.map .ok ++ .error e :: after) :
  streamedQuery streamFn config () = .error e
  := by
  rw [streamedQuery_eq, h, collectChunks_append]
  rfl

theorem streamedQuery_of_base {values : List T} {base : T}
    (h : streamFn () = values.map .ok) (hbase : config.base = some base) :
  streamedQuery streamFn config () = .ok (values.foldl config.step base)
  := by
  rw [streamedQuery_eq, h, ← List.append_nil (values.map _), collectChunks_append, hbase,
    foldl_foldChunk]
  rfl

theorem streamedQuery_of_first {v : T} {values : List T}
    (h : streamFn () = (v :: values).map .ok) (hbase : config.base = none) :
  streamedQuery streamFn config () = .ok (values.foldl config.step v)
  := by
  rw [streamedQuery_eq, h, ← List.append_nil ((v :: values).map _), collectChunks_append,
    hbase, List.foldl_cons, foldChunk, foldl_foldChunk]
  rfl

theorem streamedQuery_of_nil (h : streamFn () = []) (hbase : config.base = none) :
  streamedQuery streamFn config () = .error .undefinedData
  := by
  rw [streamedQuery_eq, h, hbase]
  rfl

end

/-- A streamed query yields the first error chunk, and otherwise the fold of the chunks from
what it is configured to append to, or from the first chunk; it fails of itself only where
there is neither. -/
theorem streamedQuery_fold (streamFn : Unit → List (Chunk T)) (config : StreamedQueryConfig T) :
  (∀ (before : List T) e after, streamFn () = before.map .ok ++ .error e :: after →
    streamedQuery streamFn config () = .error e) ∧
  (∀ values : List T, streamFn () = values.map .ok →
    ∀ base, config.refetchMode = .append → config.initialValue = some base →
      streamedQuery streamFn config () = .ok (values.foldl config.step base)) ∧
  (∀ (v : T) (values : List T), streamFn () = (v :: values).map .ok →
    config.refetchMode ≠ .append ∨ config.initialValue = none →
      streamedQuery streamFn config () = .ok (values.foldl config.step v)) ∧
  (streamedQuery streamFn config () = .error .undefinedData ↔
    (∃ (before : List T) (after : List (Chunk T)),
      streamFn () = before.map .ok ++ .error .undefinedData :: after) ∨
    streamFn () = [] ∧ (config.refetchMode ≠ .append ∨ config.initialValue = none))
  := by
  refine ⟨?_, ?_, ?_, ?_, ?_⟩
  · intro before e after h
    apply streamedQuery_of_error h
  · intro values h base hmode hinitial
    apply streamedQuery_of_base h
    rw [StreamedQueryConfig.base, if_pos hmode, hinitial]
  · intro v values h hbase
    apply streamedQuery_of_first h (config.base_eq_none_iff.mpr hbase)
  · intro hundefined
    rcases chunks_cases (streamFn ()) with ⟨values, h⟩ | ⟨before, e, after, h⟩
    · right
      cases hbase : config.base with
      | some base =>
        rw [streamedQuery_of_base h hbase] at hundefined
        contradiction
      | none =>
        cases values with
        | nil => exact ⟨h, config.base_eq_none_iff.mp hbase⟩
        | cons v values =>
          rw [streamedQuery_of_first h hbase] at hundefined
          contradiction
    · left
      rw [streamedQuery_of_error h] at hundefined
      obtain rfl := Except.error.inj hundefined
      exact ⟨before, after, h⟩
  · rintro (⟨before, after, h⟩ | ⟨h, hbase⟩)
    · apply streamedQuery_of_error h
    · apply streamedQuery_of_nil h (config.base_eq_none_iff.mpr hbase)

/-- A reset does not start from the initial value. -/
theorem not_streamedQuery_initialValue :
  ¬ ∀ (streamFn : Unit → List (Chunk (List Nat))) (config : StreamedQueryConfig (List Nat))
      (values : List (List Nat)) (base : List Nat),
    streamFn () = values.map .ok → config.initialValue = some base →
      streamedQuery streamFn config () = .ok (values.foldl config.step base)
  := by
  intro h
  have hfold := h (fun () => [.ok [3]]) { initialValue := some [0] } [[3]] [0] rfl rfl
  revert hfold
  exact nofun

end RsQuery
