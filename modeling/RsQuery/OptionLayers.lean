import RsQuery.Lib.Override
import RsQuery.Options

/-!
# Layers of options

`merge_options` lays the options of a caller over defaults.  The fields are merged one by
one with three tests of being set: to differ from the crate default, to be present, and
not to be empty; in every field the crate default is what is not set.  A function among
the options is an object that is shared, so options are also compared with the object for
the function.
-/

namespace RsQuery

namespace QueryOptions

/-- Metadata is empty in the one table without entries. -/
theorem unsetOnly_metadata :
  UnsetOnly (fun t : Table String String => (!t.entries.isEmpty) = true) ∅
  := by
  intro t
  show (!t.entries.isEmpty) = true ↔ t ≠ ∅
  rw [Bool.not_eq_true', ← Bool.not_eq_true, List.isEmpty_iff, not_iff_not]
  constructor
  · intro h
    apply AList.ext h
  · rintro rfl
    rfl

/-- Merging overrides field by field. -/
theorem mergeOptions_eq (defaults provided : QueryOptions) :
  mergeOptions defaults provided =
    { staleTime := override (· ≠ 0) defaults.staleTime provided.staleTime
      staleTimeStatic :=
        override (· ≠ false) defaults.staleTimeStatic provided.staleTimeStatic
      gcTime := override (· ≠ Duration.fromSecs 300) defaults.gcTime provided.gcTime
      retry := override (· ≠ {}) defaults.retry provided.retry
      enabled := override (· ≠ true) defaults.enabled provided.enabled
      enabledFn := override (·.isSome = true) defaults.enabledFn provided.enabledFn
      refetchOnWindowFocus :=
        override (· ≠ .enabled) defaults.refetchOnWindowFocus provided.refetchOnWindowFocus
      refetchOnReconnect :=
        override (· ≠ .enabled) defaults.refetchOnReconnect provided.refetchOnReconnect
      refetchOnMount :=
        override (· ≠ .enabled) defaults.refetchOnMount provided.refetchOnMount
      refetchInterval := override (· ≠ 0) defaults.refetchInterval provided.refetchInterval
      refetchIntervalInBackground :=
        override (· ≠ false) defaults.refetchIntervalInBackground
          provided.refetchIntervalInBackground
      structuralSharing :=
        override (· ≠ true) defaults.structuralSharing provided.structuralSharing
      networkMode := override (· ≠ .online) defaults.networkMode provided.networkMode
      retryOnMount := override (· ≠ true) defaults.retryOnMount provided.retryOnMount
      throwOnError := override (· ≠ false) defaults.throwOnError provided.throwOnError
      notifyOnChangeProps :=
        override (·.isSome = true) defaults.notifyOnChangeProps provided.notifyOnChangeProps
      metadata :=
        override (fun t => (!t.entries.isEmpty) = true) defaults.metadata provided.metadata }
  := rfl

theorem mergeOptions_default_left (a : QueryOptions) :
  mergeOptions {} a = a
  := by
  rw [mergeOptions_eq]
  simp only [override_unset_left (unsetOnly_ne _), override_unset_left unsetOnly_isSome,
    override_unset_left unsetOnly_metadata]

theorem mergeOptions_default_right (a : QueryOptions) :
  mergeOptions a {} = a
  := by
  rw [mergeOptions_eq]
  simp only [override_unset_right (unsetOnly_ne _), override_unset_right unsetOnly_isSome,
    override_unset_right unsetOnly_metadata]

theorem mergeOptions_assoc (a b c : QueryOptions) :
  mergeOptions a (mergeOptions b c) = mergeOptions (mergeOptions a b) c
  := by
  simp only [mergeOptions_eq, override_assoc]

/-- Every field that `provided` sets is in `merged` as it is in `provided`. -/
structure Survive (provided merged : QueryOptions) : Prop where
  staleTime : provided.staleTime ≠ 0 → merged.staleTime = provided.staleTime
  staleTimeStatic : provided.staleTimeStatic ≠ false →
    merged.staleTimeStatic = provided.staleTimeStatic
  gcTime : provided.gcTime ≠ Duration.fromSecs 300 → merged.gcTime = provided.gcTime
  retry : provided.retry ≠ {} → merged.retry = provided.retry
  enabled : provided.enabled ≠ true → merged.enabled = provided.enabled
  enabledFn : provided.enabledFn.isSome = true → merged.enabledFn = provided.enabledFn
  refetchOnWindowFocus : provided.refetchOnWindowFocus ≠ .enabled →
    merged.refetchOnWindowFocus = provided.refetchOnWindowFocus
  refetchOnReconnect : provided.refetchOnReconnect ≠ .enabled →
    merged.refetchOnReconnect = provided.refetchOnReconnect
  refetchOnMount : provided.refetchOnMount ≠ .enabled →
    merged.refetchOnMount = provided.refetchOnMount
  refetchInterval : provided.refetchInterval ≠ 0 →
    merged.refetchInterval = provided.refetchInterval
  refetchIntervalInBackground : provided.refetchIntervalInBackground ≠ false →
    merged.refetchIntervalInBackground = provided.refetchIntervalInBackground
  structuralSharing : provided.structuralSharing ≠ true →
    merged.structuralSharing = provided.structuralSharing
  networkMode : provided.networkMode ≠ .online → merged.networkMode = provided.networkMode
  retryOnMount : provided.retryOnMount ≠ true → merged.retryOnMount = provided.retryOnMount
  throwOnError : provided.throwOnError ≠ false → merged.throwOnError = provided.throwOnError
  notifyOnChangeProps : provided.notifyOnChangeProps.isSome = true →
    merged.notifyOnChangeProps = provided.notifyOnChangeProps
  metadata : (!provided.metadata.entries.isEmpty) = true → merged.metadata = provided.metadata

/-- What the caller sets survives a merge, whatever the defaults are. -/
theorem survive_mergeOptions (defaults provided : QueryOptions) :
  provided.Survive (mergeOptions defaults provided)
  := by
  constructor
  all_goals
    intro h
    apply if_pos h

end QueryOptions

/-! ### Options with the objects of their functions -/

/-- Options with the shared object of their function, if they have one; `call` is what
calling an object does. -/
@[ext]
structure SharedOptions {F : Type} (call : F → Unit → Bool) where
  options : QueryOptions
  object : Option F
  enabledFn_eq : options.enabledFn = object.map call

namespace SharedOptions

variable {F : Type} {call : F → Unit → Bool}

/-- The default options share no object. -/
def default (call : F → Unit → Bool) : SharedOptions call :=
  ⟨{}, none, rfl⟩

/-- `merge_options`, which shares the object of the function it takes over. -/
def merge (defaults provided : SharedOptions call) : SharedOptions call where
  options := .mergeOptions defaults.options provided.options
  object := if provided.object.isSome then provided.object else defaults.object
  enabledFn_eq := by
    show (if provided.options.enabledFn.isSome then _ else _) = _
    rw [provided.enabledFn_eq, defaults.enabledFn_eq, Option.isSome_map]
    split
    · rfl
    · rfl

theorem object_merge (defaults provided : SharedOptions call) :
  (defaults.merge provided).object = override (·.isSome = true) defaults.object provided.object
  := rfl

/-- Merging is a monoid with the default options as its unit, where functions are compared
as objects, and what the caller sets survives it. -/
theorem merge_lawful (a b c : SharedOptions call) :
  (default call).merge a = a ∧
  a.merge (default call) = a ∧
  a.merge (b.merge c) = (a.merge b).merge c ∧
  b.options.Survive (a.merge b).options ∧
  (b.object.isSome = true → (a.merge b).object = b.object)
  := by
  refine ⟨?_, ?_, ?_, ?_, ?_⟩
  · apply SharedOptions.ext
    · apply QueryOptions.mergeOptions_default_left
    · apply override_unset_left unsetOnly_isSome
  · apply SharedOptions.ext
    · apply QueryOptions.mergeOptions_default_right
    · apply override_unset_right unsetOnly_isSome
  · apply SharedOptions.ext
    · apply QueryOptions.mergeOptions_assoc
    · simp only [object_merge, override_assoc]
  · apply QueryOptions.survive_mergeOptions
  · intro h
    apply if_pos h

end SharedOptions

end RsQuery
